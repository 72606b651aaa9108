import Mathlib.Data.List.Basic
import TableView.Proofs.Repository.Memory
import TableView.Proofs.Store.WellFormed

/-!
# A saved view is loaded as it was

Saving the view that a page shows cannot fail in memory: the page has a view to show,
and recording the id that came back is an edit that is never rejected. The id is then
the only change in the store and the view the only change in the repository, so that
saving once more has no effect. Every store that knows the page by the same catalog
can load the view: it has all locked columns, and loading adds nothing to it.
-/

namespace TableView

namespace PageViews

variable {p : PageViews} {v : View} {id : UInt32}

/-- The views of a page, of which the one that is shown has an id. -/
def withShownId (p : PageViews) (id : UInt32) : PageViews :=
  { p with views := p.views.modify p.selected fun v => { v with id := some id } }

theorem withShownId_eq_set (selected : p.selectedView? = some v) (id : UInt32) :
    p.withShownId id = { p with views := p.views.set p.selected { v with id := some id } } := by
  have here : p.views[p.selected]? = some v := selected
  simp [withShownId, List.modify_eq_set_getElem?, here]

theorem selectedView?_withShownId (selected : p.selectedView? = some v) (id : UInt32) :
    (p.withShownId id).selectedView? = some { v with id := some id } := by
  have here : p.views[p.selected]? = some v := selected
  simp [selectedView?, withShownId, here]

theorem withShownId_of_has (selected : p.selectedView? = some v) (has : v.id = some id) :
    p.withShownId id = p := by
  obtain ⟨inRange, here⟩ := List.getElem?_eq_some_iff.1 selected
  have same : ({ v with id := some id } : View) = v := by rw [← has]
  rw [withShownId_eq_set selected, same, ← here, List.set_getElem_self]

theorem apply_setId (catalog : Option Catalog) (selected : p.selectedView? = some v)
    (id : UInt32) : p.apply catalog (.inView p.selected (.setId id)) = .ok (p.withShownId id) :=
  apply_inView_iff.2 ⟨rfl, v, selected, _, rfl, withShownId_eq_set selected id⟩

end PageViews

namespace Store

variable {ρ : Type} [Repository ρ] {s t : Store} {repository : ρ} {page : Page}
variable {state : PageState} {v : View} {id : UInt32}

/-- The store in which the view that a page shows has an id. -/
def withShownId (s : Store) (page : Page) (state : PageState) (id : UInt32) : Store :=
  s.set page { state with views := state.views.withShownId id }

/-- If the repository takes the view, then saving it records its id and does nothing else. -/
theorem saveSelected_of_saved (registered : s.pages page = some state)
    (selected : state.views.selectedView? = some v) {commit : Commit ρ}
    (saved : Repository.save repository page v = .ok (id, commit)) :
    s.saveSelected repository page =
      (⟨s.withShownId page state id, .ok id, commit.log⟩, commit.repository) := by
  have found : s.page page = .ok state := by simp only [Store.page, registered]
  have shown : PageState.shown state = .ok v := by simp only [PageState.shown, selected]
  have index : ((s.views? page).map (·.selected)).getD 0 = state.views.selected := by
    simp only [views?, registered, Option.map_some, Option.getD_some]
  have marked : s.dispatch page (.inView state.views.selected (.setId id)) =
      ⟨s.withShownId page state id, .ok (), []⟩ := by
    simp only [dispatch, registered, PageViews.apply_setId _ selected, withShownId]
  simp only [saveSelected, found, Except.bind, shown, saved, index, marked, Except.map,
    List.append_nil]

theorem loadFrom_of_found (registered : t.pages page = some state) {loaded : Option PageViews}
    (found : Repository.load repository page = .ok loaded) :
    (t.loadFrom repository page).answer = .ok true ∧
      (t.loadFrom repository page).store.views? page =
        some (PageState.repair state page loaded) := by
  rw [loadFrom_of_registered repository registered, found]
  simp only [completeLoad, pages_set_self, ne_eq, not_true_eq_false, if_false, true_and, views?,
    Option.map_some]
  cases loaded <;> rfl

/-- Loaded views that lack no locked column are kept as they are. -/
theorem mem_repair {p : PageViews} (mem : v ∈ p.views) (kept : v.KeepsLocked state.catalog) :
    v ∈ (PageState.repair state page (some p)).views := by
  have notEmpty : p.views.isEmpty = false := by
    simpa using List.ne_nil_of_mem mem
  simp only [PageState.repair, notEmpty, Bool.false_eq_true, if_false]
  exact List.mem_map.2 ⟨v, mem, View.withLocked_of_keepsLocked kept⟩

/-- Saving the view that a page shows in memory gives it an id, under which the repository
then has it. Saving once more has no effect, and every store with the same catalog for the
page can load the view. -/
theorem saveSelected_loadFrom (layout : Layout) (requests : List Request)
    (distinct : ∀ catalog view, .register catalog view ∈ requests → catalog.HasDistinctKeys)
    (changes : List Change) (page : Page) (state : PageState)
    (registered : ((empty layout).run requests).pages page = some state)
    (below : ∀ w ∈ (Repository.run MemoryRepository.empty changes).pages page,
      w.id ≠ some 0xffffffff) :
    let s := (empty layout).run requests
    let m := Repository.run MemoryRepository.empty changes
    let s' := (s.saveSelected m page).1.store
    let m' := (s.saveSelected m page).2
    ∃ v id, s.selectedView? page = some v ∧
      (s.saveSelected m page).1.answer = .ok id ∧
      s' = s.withShownId page state id ∧
      s'.selectedView? page = some { v with id := some id } ∧
      m.HasSaved m' page v id ∧
      (s'.saveSelected m' page).1.answer = .ok id ∧
      (s'.saveSelected m' page).1.store = s' ∧ (s'.saveSelected m' page).2 = m' ∧
      ∀ (t : Store) (known : PageState), t.pages page = some known →
        known.catalog = state.catalog →
        (t.loadFrom m' page).answer = .ok true ∧
          ∃ loaded, (t.loadFrom m' page).store.views? page = some loaded ∧
            { v with id := some id } ∈ loaded.views := by
  intro s m s' m'
  have formed := everywhere_wellFormed layout distinct page state registered
  obtain ⟨v, selected⟩ := formed.exists_selectedView
  have kept : v.KeepsLocked state.catalog := formed.locked v (List.mem_of_getElem? selected)
  let id := SavedViews.idFor (m.pages page) v
  let saved : View := { v with id := some id }
  -- The first save.
  have accepted (m : MemoryRepository) (v : View) : Repository.save m page v =
      .ok (SavedViews.idFor (m.pages page) v, ⟨m.save page v, []⟩) := rfl
  have first : s.saveSelected m page =
      (⟨s.withShownId page state id, .ok id, []⟩, m.save page v) :=
    saveSelected_of_saved registered selected (accepted m v)
  have store : s' = s.withShownId page state id := congrArg (·.1.store) first
  have repository : m' = m.save page v := congrArg (·.2) first
  have wellFormed := MemoryRepository.wellFormed_run changes page
  -- The second save finds the view under the id it has.
  have marked : s'.pages page = some { state with views := state.views.withShownId id } := by
    rw [store, withShownId, pages_set_self]
  have shown : (state.views.withShownId id).selectedView? = some saved :=
    PageViews.selectedView?_withShownId selected id
  have second : s'.saveSelected m' page =
      (⟨s'.withShownId page { state with views := state.views.withShownId id } id, .ok id, []⟩,
        m'.save page saved) :=
    saveSelected_of_saved marked shown (accepted m' saved)
  have sameStore : s'.withShownId page { state with views := state.views.withShownId id } id =
      s' := by
    rw [withShownId, PageViews.withShownId_of_has shown rfl]
    exact set_eq_self marked
  have sameRepository : m'.save page saved = m' := by
    rw [repository]
    exact m.save_again page v
  refine ⟨v, id, ?_, ?_, store, ?_, ?_, ?_, ?_, ?_, ?_⟩
  · rw [selectedView?_of_registered registered, selected]
  · rw [first]
  · rw [selectedView?_of_registered marked, shown]
  · rw [repository]
    exact MemoryRepository.hasSaved_save wellFormed below v
  · rw [second]
  · rw [second, sameStore]
  · rw [second, sameRepository]
  · intro t known found same
    have loaded : Repository.load m' page =
        .ok (some ⟨page, SavedViews.save (m.pages page) v, 0⟩) := by
      rw [repository]
      exact congrArg Except.ok (m.load_save page v)
    obtain ⟨applied, views⟩ := loadFrom_of_found found loaded
    have held : saved ∈ SavedViews.save (m.pages page) v := SavedViews.mem_put_self id v _
    have keptToo : saved.KeepsLocked known.catalog := by
      rw [same]
      exact kept
    exact ⟨applied, _, views, mem_repair held keptToo⟩

/-- The second view of a page is saved, saved again, and loaded where the page was opened with
a view without columns. -/
theorem saveSelected_loadFrom_peers :
    let requests : List Request :=
      [.register .peers (.plain "All" Catalog.peersColumns),
        .dispatch .peers (.addView (.plain "Mine" []))]
    let changes : List Change :=
      [.save .peers (.plain "Theirs" []), .save .forwards (.plain "F" [])]
    let s := (empty .standard).run requests
    let m := Repository.run MemoryRepository.empty changes
    let t := (empty .standard).register .peers (.plain "Bare" [])
    let s' := (s.saveSelected m .peers).1.store
    let m' := (s.saveSelected m .peers).2
    (∀ catalog view, .register catalog view ∈ requests → catalog.HasDistinctKeys) ∧
      (∀ w ∈ m.pages .peers, w.id ≠ some 0xffffffff) ∧
      ∃ v, s.selectedView? .peers = some v ∧ (s.saveSelected m .peers).1.answer = .ok 2 ∧
        m.HasSaved m' .peers v 2 ∧ (s'.saveSelected m' .peers).1.answer = .ok 2 ∧
        (s'.saveSelected m' .peers).1.store = s' ∧ (s'.saveSelected m' .peers).2 = m' ∧
        (t.loadFrom m' .peers).answer = .ok true ∧
        ∃ loaded, (t.loadFrom m' .peers).store.views? .peers = some loaded ∧
          { v with id := some 2 } ∈ loaded.views := by
  intro requests changes s m t s' m'
  have distinct : ∀ catalog view, .register catalog view ∈ requests → catalog.HasDistinctKeys := by
    intro catalog view member
    simp only [requests, List.mem_cons, Request.register.injEq, reduceCtorEq, List.not_mem_nil,
      or_false] at member
    obtain ⟨rfl, _⟩ := member
    decide
  have stored : m.pages .peers = [{ View.plain "Theirs" [] with id := some 1 }] := rfl
  have below : ∀ w ∈ m.pages .peers, w.id ≠ some 0xffffffff := by
    rw [stored]
    simp
  obtain ⟨v, id, selected, answer, _, _, saved, again, sameStore, sameMemory, loads⟩ :=
    saveSelected_loadFrom .standard requests distinct changes .peers _ rfl below
  have second : (s.saveSelected m .peers).1.answer = .ok 2 := rfl
  obtain rfl : id = 2 := Except.ok.inj (answer.symm.trans second)
  obtain ⟨applied, loaded⟩ := loads t _ rfl rfl
  exact ⟨distinct, below, v, selected, answer, saved, again, sameStore, sameMemory, applied, loaded⟩

end Store

end TableView
