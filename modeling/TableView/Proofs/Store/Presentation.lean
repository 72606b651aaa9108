import TableView.Proofs.Render.Presentation
import TableView.Proofs.Store.WellFormed

/-!
# Presentation edits leave what a page shows

Whatever has been asked of a store before, an accepted edit of a title, an id, the heading
or style of a column or the order of columns leaves the data that the page shows as it was.
Only the cells of the edited view are rearranged, in the way its columns are.
-/

namespace TableView

/-- How a change of the view at one position rearranges the cells of the view at another. -/
def ViewEdit.rearrangeAt (edit : ViewEdit) (index position : Nat) (l : List α) : List α :=
  if position = index then edit.rearrange l else l

theorem ViewEdit.rearrangeAt_self (edit : ViewEdit) (index : Nat) :
    edit.rearrangeAt index index = @edit.rearrange α := by
  funext l
  exact if_pos rfl

theorem ViewEdit.rearrangeAt_of_ne (edit : ViewEdit) {index position : Nat}
    (other : position ≠ index) : edit.rearrangeAt index position = fun l : List α => l := by
  funext l
  exact if_neg other

/-- After a presentation edit all views of a page show the same data. -/
theorem PageViews.apply_showsSame {catalog : Option Catalog} {p next : PageViews} {index : Nat}
    {edit : ViewEdit} (presents : edit.isPresentation = true)
    (distinct : ∀ v ∈ p.views, v.HasDistinctKeys)
    (accepted : p.apply catalog (.inView index edit) = .ok next) :
    next.selected = p.selected ∧ ∀ (i : Nat) (v : View), p.views[i]? = some v →
      ∃ w, next.views[i]? = some w ∧ v.ShowsSame (edit.rearrangeAt index i) w := by
  obtain ⟨-, edited, here, changed, applied, rfl⟩ := apply_inView_iff.1 accepted
  refine ⟨rfl, ?_⟩
  intro i v there
  by_cases same : i = index
  · subst same
    obtain rfl : edited = v := Option.some.inj (here.symm.trans there)
    have inRange : i < p.views.length := exists_getElem?_iff.1 ⟨edited, here⟩
    refine ⟨changed, List.getElem?_set_self inRange, ?_⟩
    rw [edit.rearrangeAt_self]
    exact edit.apply_showsSame presents (distinct edited (List.mem_of_getElem? here)) applied
  · refine ⟨v, ?_, ?_⟩
    · rw [List.getElem?_set_ne (Ne.symm same)]
      exact there
    · rw [edit.rearrangeAt_of_ne same]
      exact .refl v

namespace Store

variable {s : Store} {page : Page} {state : PageState}

/-- An edit is accepted if the views accept it, and then these are the views of the page. -/
theorem dispatch_of_accepted (registered : s.pages page = some state) {edit : Edit}
    (accepted : (s.dispatch page edit).answer = .ok ()) :
    ∃ views, state.views.apply (some state.catalog) edit = .ok views ∧
      (s.dispatch page edit).store = s.set page { state with views := views } := by
  cases applied : state.views.apply (some state.catalog) edit with
  | error error => simp [dispatch, registered, applied] at accepted
  | ok views => exact ⟨views, rfl, by simp only [dispatch, registered, applied]⟩

/-- After every run from a store without pages, an accepted presentation edit of any view
leaves the data that the page shows: the same records in the same rows, summaries that say
the same under every key, and the same warning. The cells of each row are rearranged like
the columns if the shown view is the edited one. All of this also holds of every view of the
page and of every rendering, with a catalog and without. -/
theorem dispatch_showsSame (layout : Layout) (requests : List Request) (page : Page)
    (state : PageState) (index : Nat) (edit : ViewEdit)
    (registered : ((empty layout).run requests).pages page = some state)
    (distinct : ∀ v ∈ state.views.views, v.HasDistinctKeys)
    (presents : edit.isPresentation = true)
    (accepted :
      (((empty layout).run requests).dispatch page (.inView index edit)).answer = .ok ()) :
    let s := (empty layout).run requests
    let t := (s.dispatch page (.inView index edit)).store
    (∃ v w, s.selectedView? page = some v ∧ t.selectedView? page = some w ∧
      ∀ records, ∃ before after, s.render page records = .ok before ∧
        t.render page records = .ok after ∧ before.Alike after ∧
        after.display w.columns =
          (before.display v.columns).map (edit.rearrangeAt index state.views.selected)) ∧
      ∃ after, t.views? page = some after ∧ ∀ (i : Nat) (v : View),
        state.views.views[i]? = some v → ∃ w, after.views[i]? = some w ∧
          v.ShowsSame (edit.rearrangeAt index i) w := by
  intro s t
  obtain ⟨views, applied, changed⟩ := dispatch_of_accepted registered accepted
  obtain ⟨selected, alike⟩ := PageViews.apply_showsSame presents distinct applied
  have edited : t.pages page = some { state with views := views } := by
    rw [show t = _ from changed, pages_set_self]
  have inRange := everywhere_inRange layout requests page state registered
  obtain ⟨v, shown⟩ := exists_getElem?_iff.2 inRange
  obtain ⟨w, shownAfter, same⟩ := alike state.views.selected v shown
  have selectedAfter : views.selectedView? = some w := by
    rw [← shownAfter, ← selected]
    rfl
  refine ⟨⟨v, w, ?_, ?_, ?_⟩, views, ?_, alike⟩
  · rw [selectedView?_of_registered registered]
    exact shown
  · rw [selectedView?_of_registered edited]
    exact selectedAfter
  · intro records
    obtain ⟨sameRows, sameCells⟩ := same (s.renderer state) records
    have rendererAfter : t.renderer { state with views := views } = s.renderer state := by
      rw [show t = _ from changed]
      rfl
    refine ⟨_, _, render_of_selected registered shown records,
      render_of_selected edited selectedAfter records, ?_, ?_⟩
    · rw [rendererAfter]
      exact sameRows
    · rw [rendererAfter]
      exact sameCells
  · simp only [views?, edited, Option.map_some]

/-- The page of peers by how they reconnect, whose first column is moved behind the column of
the groups. -/
theorem dispatch_showsSame_peers :
    let grouped : View :=
      { View.plain "By setting" Catalog.peersColumns with groupBy := some "setting" }
    let s := (empty .standard).run [.register .peers grouped]
    let change := ViewEdit.moveColumn 0 3
    let t := (s.dispatch .peers (.inView 0 change)).store
    ∃ state, s.pages .peers = some state ∧ (∀ v ∈ state.views.views, v.HasDistinctKeys) ∧
      change.isPresentation = true ∧ (s.dispatch .peers (.inView 0 change)).answer = .ok () ∧
      (∃ v w, s.selectedView? .peers = some v ∧ t.selectedView? .peers = some w ∧
        ∀ records, ∃ before after, s.render .peers records = .ok before ∧
          t.render .peers records = .ok after ∧ before.Alike after ∧
          after.display w.columns =
            (before.display v.columns).map (change.rearrangeAt 0 state.views.selected)) ∧
      ∃ after, t.views? .peers = some after ∧ ∀ (i : Nat) (v : View),
        state.views.views[i]? = some v → ∃ w, after.views[i]? = some w ∧
          v.ShowsSame (change.rearrangeAt 0 i) w := by
  intro grouped s change t
  obtain ⟨state, registered⟩ : ∃ state, s.pages .peers = some state := ⟨_, rfl⟩
  have distinct : ∀ v ∈ state.views.views, v.HasDistinctKeys := by
    cases registered
    decide
  have accepted : (s.dispatch .peers (.inView 0 change)).answer = .ok () := rfl
  exact ⟨state, registered, distinct, rfl, accepted,
    dispatch_showsSame .standard [.register .peers grouped] .peers state 0 change registered
      distinct rfl accepted⟩

end Store

end TableView
