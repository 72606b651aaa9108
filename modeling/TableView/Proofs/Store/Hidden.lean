import TableView.Proofs.Render.Hidden
import TableView.Proofs.Store.Presentation

/-!
# Taking out a column leaves what a page shows

A store checks views against the catalog of their page, so that an accepted edit which
takes a column out of the shown view leaves the records, the groups and the warning of the
page. Whether the groups keep their labels is decided by the column and the records.
-/

namespace TableView.Store

variable {s : Store} {page : Page} {state : PageState} {index : Nat}

/-- An accepted edit that takes a column out of the shown view leads to the view without it. -/
theorem dispatch_deleteColumn (registered : s.pages page = some state)
    (accepted :
      (s.dispatch page (.inView state.views.selected (.deleteColumn index))).answer = .ok ()) :
    ∃ v c views, state.views.selectedView? = some v ∧ v.columns[index]? = some c ∧
      views.selectedView? = some (v.without index) ∧
      (s.dispatch page (.inView state.views.selected (.deleteColumn index))).store =
        s.set page { state with views := views } := by
  obtain ⟨views, applied, changed⟩ := dispatch_of_accepted registered accepted
  obtain ⟨-, v, shown, w, deleted, rfl⟩ := PageViews.apply_inView_iff.1 applied
  obtain ⟨c, here, -, rfl⟩ := ViewEdit.apply_deleteColumn_iff.1 deleted
  have inRange := exists_getElem?_iff.1 ⟨v, shown⟩
  refine ⟨v, c, _, shown, here, ?_, changed⟩
  exact List.getElem?_set_self inRange

/-- An accepted edit that takes a column out of the shown view leaves the records of the page
in their order, the warning, and the groups in their order, with what the other columns say
of them. The groups keep their labels too, unless they are groups by the column that is taken
out and one of its choices has another name for a tag that is shown. -/
theorem dispatch_hides (s : Store) (page : Page) (state : PageState) (index : Nat)
    (registered : s.pages page = some state)
    (distinct : ∀ v ∈ state.views.views, v.HasDistinctKeys)
    (accepted :
      (s.dispatch page (.inView state.views.selected (.deleteColumn index))).answer = .ok ()) :
    let t := (s.dispatch page (.inView state.views.selected (.deleteColumn index))).store
    ∃ v c, s.selectedView? page = some v ∧ v.columns[index]? = some c ∧
      t.selectedView? page = some (v.without index) ∧
      ∀ records, ∃ before after, s.render page records = .ok before ∧
        t.render page records = .ok after ∧ before.AlikeBeside c.key after ∧
        (before.labels = after.labels ↔
          ((s.renderer state).grouping v = some c.key →
            c.KeepsTags ((s.renderer state).kept v records))) := by
  intro t
  obtain ⟨v, c, views, shown, here, shownAfter, changed⟩ :=
    dispatch_deleteColumn registered accepted
  have edited : t.pages page = some { state with views := views } := by
    rw [show t = _ from changed, pages_set_self]
  have rendererAfter : t.renderer { state with views := views } = s.renderer state := by
    rw [show t = _ from changed]
    rfl
  have distinctShown : v.HasDistinctKeys := distinct v (List.mem_of_getElem? shown)
  refine ⟨v, c, ?_, here, ?_, ?_⟩
  · rw [selectedView?_of_registered registered]
    exact shown
  · rw [selectedView?_of_registered edited]
    exact shownAfter
  · intro records
    refine ⟨_, _, render_of_selected registered shown records,
      render_of_selected edited shownAfter records, ?_, ?_⟩
    · rw [rendererAfter]
      exact Renderer.render_without rfl distinctShown here records
    · rw [rendererAfter]
      exact Renderer.labels_without_iff rfl distinctShown here records

/-- The page of peers by how they reconnect, without the column of their status. -/
theorem dispatch_hides_status :
    let grouped : View :=
      { View.plain "By setting" Catalog.peersColumns with groupBy := some "setting" }
    let s := (empty .standard).run [.register .peers grouped]
    ∃ state, s.pages .peers = some state ∧ (∀ v ∈ state.views.views, v.HasDistinctKeys) ∧
      (s.dispatch .peers (.inView state.views.selected (.deleteColumn 4))).answer = .ok () ∧
      let t := (s.dispatch .peers (.inView state.views.selected (.deleteColumn 4))).store
      ∀ records, ∃ before after, s.render .peers records = .ok before ∧
        t.render .peers records = .ok after ∧ before.AlikeBeside "connectionStatus" after ∧
        before.labels = after.labels := by
  intro grouped s
  obtain ⟨state, registered⟩ : ∃ state, s.pages .peers = some state := ⟨_, rfl⟩
  have distinct : ∀ v ∈ state.views.views, v.HasDistinctKeys := by
    cases registered
    decide
  have accepted :
      (s.dispatch .peers (.inView state.views.selected (.deleteColumn 4))).answer = .ok () := by
    cases registered
    rfl
  refine ⟨state, registered, distinct, accepted, ?_⟩
  intro t records
  obtain ⟨v, c, shown, here, -, rendered⟩ :=
    dispatch_hides s .peers state 4 registered distinct accepted
  obtain ⟨before, after, showsBefore, showsAfter, alike, labels⟩ := rendered records
  cases registered
  cases shown
  cases here
  have otherColumn : "setting" ≠ "connectionStatus" := by decide
  exact ⟨before, after, showsBefore, showsAfter, alike,
    labels.2 fun grouping => absurd (Option.some.inj grouping) otherColumn⟩

/-- Peers by how they reconnect are labelled with the names of the choices, and with the tags
once the column of these choices is taken out. -/
theorem dispatch_not_always_keeps_labels :
    ¬ ∀ (requests : List Request) (page : Page) (state : PageState) (index : Nat)
      (records : List Record),
      let s := (empty .standard).run requests
      let t := (s.dispatch page (.inView state.views.selected (.deleteColumn index))).store
      s.pages page = some state → state.catalog.HasDistinctKeys →
      (∀ v ∈ state.views.views, v.HasDistinctKeys ∧
        ∀ c ∈ v.columns, state.catalog.column? c.key = some c) →
      (s.dispatch page (.inView state.views.selected (.deleteColumn index))).answer = .ok () →
      ∃ before after, s.render page records = .ok before ∧ t.render page records = .ok after ∧
        before.labels = after.labels := by
  intro keeps
  let grouped : View :=
    { View.plain "By setting" Catalog.peersColumns with groupBy := some "setting" }
  let peer : Record := (Record.empty "1").set "setting" (.tag "AlwaysReconnect")
  obtain ⟨state, registered⟩ :
      ∃ state, ((empty .standard).run [.register .peers grouped]).pages .peers = some state :=
    ⟨_, rfl⟩
  obtain ⟨before, after, showsBefore, showsAfter, same⟩ :=
    keeps [.register .peers grouped] .peers state 3 [peer] registered
      (by cases registered; decide) (by cases registered; decide) (by cases registered; rfl)
  cases registered
  cases showsBefore
  cases showsAfter
  have tagsKept := (Renderer.labels_without_iff rfl (by decide) rfl [peer]).1 same rfl
  have named := tagsKept peer (by decide) "AlwaysReconnect" (by decide) (by decide)
  revert named
  decide

end TableView.Store
