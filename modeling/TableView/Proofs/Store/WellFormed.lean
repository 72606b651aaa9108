import TableView.Proofs.Edit.Locked
import TableView.Proofs.Edit.Selection
import TableView.Proofs.Render.Blocks
import TableView.Proofs.Store.Run

/-!
# Every reachable store can be shown

Whatever is asked of a store, and in whatever order, every registered page has a
view to show and every view of it keeps the locked columns of the page's catalog.
The invariant also covers the default view, because a load that finds nothing, or
views without any, falls back to it. So a page can always be rendered, but for sort
keys that do not order its records (`Store.run_wellFormed`).
-/

namespace TableView

/-- What a store guarantees about a page. -/
structure PageState.WellFormed (page : Page) (state : PageState) : Prop where
  distinct : state.catalog.HasDistinctKeys
  default : state.defaultView.KeepsLocked state.catalog
  named : state.views.page = page
  inRange : state.views.selected < state.views.views.length
  locked : ∀ v ∈ state.views.views, v.KeepsLocked state.catalog

namespace PageViews

variable {catalog : Catalog} {p next : PageViews} {edit : Edit}

theorem apply_page {catalog : Option Catalog} (accepted : p.apply catalog edit = .ok next) :
    next.page = p.page := by
  cases edit with
  | inView index change =>
      obtain ⟨_, v, _, changed, _, rfl⟩ := apply_inView_iff.1 accepted
      rfl
  | selectView index =>
      obtain ⟨_, rfl⟩ := apply_selectView_iff.1 accepted
      rfl
  | addView view =>
      obtain rfl := apply_addView_iff.1 accepted
      rfl
  | deleteView index =>
      obtain ⟨_, _, rfl⟩ := apply_deleteView_iff.1 accepted
      rfl

theorem apply_keepsLocked (distinct : catalog.HasDistinctKeys)
    (kept : ∀ v ∈ p.views, v.KeepsLocked catalog)
    (accepted : p.apply (some catalog) edit = .ok next) :
    ∀ v ∈ next.views, v.KeepsLocked catalog := by
  refine apply_forall kept ?_ ?_ accepted
  · intro _ change _ _ v w keptBefore applied
    exact change.apply_keepsLocked distinct keptBefore applied
  · intro view _
    exact view.withLocked_keepsLocked catalog

end PageViews

/-- What is loaded comes to views with a selection in range. -/
theorem Store.PageState.repair_selected_lt (state : TableView.PageState) (page : Page)
    (loaded : Option PageViews) :
    (repair state page loaded).selected < (repair state page loaded).views.length := by
  cases loaded with
  | none => exact Nat.zero_lt_one
  | some loaded =>
      have nonempty : 0 < (if loaded.views.isEmpty = true then [state.defaultView]
          else loaded.views).length := by
        cases loaded.views <;> simp
      simp only [repair, List.length_map]
      generalize (if loaded.views.isEmpty = true then [state.defaultView]
        else loaded.views).length = count at *
      split <;> omega

namespace PageState.WellFormed

variable {page : Page} {state : PageState}

/-- What a page is registered with is well formed. -/
theorem registered {catalog : Catalog} (distinct : catalog.HasDistinctKeys) (view : View) :
    WellFormed catalog.page ⟨catalog, view.withLocked catalog,
      ⟨catalog.page, [view.withLocked catalog], 0⟩, 0⟩ where
  distinct := distinct
  default := view.withLocked_keepsLocked catalog
  named := rfl
  inRange := Nat.zero_lt_one
  locked := by simpa using view.withLocked_keepsLocked catalog

theorem edited {edit : Edit} {views : PageViews} (h : WellFormed page state)
    (accepted : state.views.apply (some state.catalog) edit = .ok views) :
    WellFormed page { state with views := views } where
  distinct := h.distinct
  default := h.default
  named := (PageViews.apply_page accepted).trans h.named
  inRange := PageViews.apply_selected_lt h.inRange accepted
  locked := PageViews.apply_keepsLocked h.distinct h.locked accepted

theorem begun (h : WellFormed page state) :
    WellFormed page { state with generation := state.generation + 1 } :=
  ⟨h.distinct, h.default, h.named, h.inRange, h.locked⟩

theorem completed (h : WellFormed page state) (loaded : Option PageViews) :
    WellFormed page { state with views := Store.PageState.repair state page loaded } where
  distinct := h.distinct
  default := h.default
  named := by cases loaded <;> rfl
  inRange := Store.PageState.repair_selected_lt state page loaded
  locked := by
    intro v member
    cases loaded with
    | none =>
        obtain rfl := List.mem_singleton.1 member
        exact h.default
    | some loaded =>
        obtain ⟨w, _, rfl⟩ := List.mem_map.1 member
        exact w.withLocked_keepsLocked state.catalog

theorem exists_selectedView (h : WellFormed page state) :
    ∃ v, state.views.selectedView? = some v :=
  exists_getElem?_iff.2 h.inRange

end PageState.WellFormed

namespace Store

/-- Well-formedness of all pages is kept by every request that registers, if anything, a
catalog without repeated keys. -/
theorem perform_wellFormed {s : Store} (holds : s.Everywhere PageState.WellFormed)
    (request : Request)
    (distinct : ∀ catalog view, request = .register catalog view → catalog.HasDistinctKeys) :
    (s.perform request).Everywhere PageState.WellFormed :=
  holds.perform request
    (fun catalog view asked => .registered (distinct catalog view asked) view)
    (fun _ _ _ _ _ h accepted => h.edited accepted)
    (fun _ _ h => h.begun)
    (fun _ _ loaded _ h => h.completed loaded)

/-- Whatever was registered, every run from a store without pages keeps all selections in
range. -/
theorem everywhere_inRange (layout : Layout) (requests : List Request) :
    ((empty layout).run requests).Everywhere fun _ state =>
      state.views.selected < state.views.views.length := by
  refine (everywhere_empty layout _).run requests ?_
  intro request _ s holds
  exact holds.perform request
    (fun _ _ _ => Nat.zero_lt_one)
    (fun _ _ _ _ _ inRange accepted => PageViews.apply_selected_lt inRange accepted)
    (fun _ _ inRange => inRange)
    (fun page state loaded _ _ => PageState.repair_selected_lt state page loaded)

theorem everywhere_wellFormed (layout : Layout) {requests : List Request}
    (distinct : ∀ catalog view, .register catalog view ∈ requests → catalog.HasDistinctKeys) :
    ((empty layout).run requests).Everywhere PageState.WellFormed := by
  refine (everywhere_empty layout _).run requests ?_
  intro request member s holds
  exact perform_wellFormed holds request fun catalog view asked =>
    distinct catalog view (asked ▸ member)

/-- All sorting routines render a page exactly if the sort keys of the view that it shows order
the records. -/
theorem exists_renderWith_iff {s : Store} {page : Page} {state : PageState} {v : View}
    (registered : s.pages page = some state) (selected : state.views.selectedView? = some v)
    (records : List Record) :
    (∀ routine, ∃ rendered, s.renderWith routine page records = some (.ok rendered)) ↔
      (s.renderer state).Orders v records := by
  rw [← Renderer.exists_renderWith_iff]
  simp only [renderWith_of_selected _ registered selected, Option.map_eq_some_iff,
    Except.ok.injEq, exists_eq_right]

/-- After every run from a store without pages, a registered page holds its own views, at
least one of them and each with all locked columns, and shows one of them. Rendering that one
never fails with an error, and all sorting routines give a rendering exactly if its sort keys
order the records, as they do where no number meets a duration that is beyond the exact ones. -/
theorem run_wellFormed (layout : Layout) (requests : List Request)
    (distinct : ∀ catalog view, .register catalog view ∈ requests → catalog.HasDistinctKeys)
    (page : Page) (state : PageState)
    (registered : ((empty layout).run requests).pages page = some state) :
    state.views.page = page ∧ state.views.views ≠ [] ∧
      state.views.selected < state.views.views.length ∧
      (∀ v ∈ state.views.views, ∀ locked ∈ state.catalog.lockedColumns,
        ∃ shown ∈ v.columns, shown.key = locked.key) ∧
      ∃ v, ((empty layout).run requests).selectedView? page = some v ∧ ∀ records,
        let s := (empty layout).run requests
        let r := s.renderer state
        (∀ routine answer, s.renderWith routine page records = some answer →
          ∃ rendered, answer = .ok rendered) ∧
        ((∀ routine, ∃ rendered, s.renderWith routine page records = some (.ok rendered)) ↔
          r.Orders v records) ∧
        ((∀ k ∈ (SortKey.allowed (r.schema v) v.sortKeys).1,
          Commensurable (r.kept v records) k.columnKey) → r.Orders v records) ∧
        s.renderWith .merge page records = some (.ok (r.render v records)) := by
  have h := everywhere_wellFormed layout distinct page state registered
  have nonempty : state.views.views ≠ [] := List.ne_nil_of_length_pos (Nat.zero_lt_of_lt h.inRange)
  obtain ⟨v, selected⟩ := h.exists_selectedView
  refine ⟨h.named, nonempty, h.inRange, h.locked, v, ?_, ?_⟩
  · rw [selectedView?_of_registered registered, selected]
  · intro records s r
    refine ⟨?_, exists_renderWith_iff registered selected records,
      Renderer.orders_of_commensurable, ?_⟩
    · intro routine answer renders
      rw [renderWith_of_selected routine registered selected, Option.map_eq_some_iff] at renders
      obtain ⟨rendered, -, same⟩ := renders
      exact ⟨rendered, same.symm⟩
    · rw [renderWith_of_selected .merge registered selected, Renderer.renderWith_merge]
      rfl

/-- The page of peers after its only locked column was to be deleted, a view without columns
was added and selected, and the first view was deleted. -/
theorem run_wellFormed_peers :
    let requests : List Request :=
      [.register .peers (.plain "All" Catalog.peersColumns),
        .dispatch .peers (.inView 0 (.deleteColumn 0)),
        .dispatch .peers (.addView (.plain "Bare" [])), .dispatch .peers (.deleteView 0)]
    let s := (empty .standard).run requests
    (∀ catalog view, .register catalog view ∈ requests → catalog.HasDistinctKeys) ∧
      ∃ state, s.pages .peers = some state ∧ state.views.page = .peers ∧ state.views.views ≠ [] ∧
        state.views.selected < state.views.views.length ∧
        (∀ v ∈ state.views.views, ∀ locked ∈ state.catalog.lockedColumns,
          ∃ shown ∈ v.columns, shown.key = locked.key) ∧
        (∃ v, s.selectedView? .peers = some v) ∧
        ∀ records routine, ∃ rendered,
          s.renderWith routine .peers records = some (.ok rendered) := by
  intro requests s
  have distinct : ∀ catalog view, .register catalog view ∈ requests → catalog.HasDistinctKeys := by
    intro catalog view member
    simp only [requests, List.mem_cons, Request.register.injEq, reduceCtorEq, List.not_mem_nil,
      or_false] at member
    obtain ⟨rfl, _⟩ := member
    decide
  obtain ⟨named, nonempty, inRange, locked, v, selected, renders⟩ :=
    run_wellFormed .standard requests distinct .peers _ rfl
  refine ⟨distinct, _, rfl, named, nonempty, inRange, locked, ⟨v, selected⟩, ?_⟩
  intro records
  obtain ⟨-, always, orders, -⟩ := renders records
  -- The view that is left has no sort keys.
  cases selected
  exact always.2 (orders (List.forall_mem_nil _))

/-- Not every sorting routine renders a page whose view is sorted by waits that the numbers among
them cannot tell apart. -/
theorem run_not_always_rendered :
    ¬ ∀ (routine : SortRoutine Record) (layout : Layout) (requests : List Request) (page : Page)
      (state : PageState),
      (∀ catalog view, .register catalog view ∈ requests → catalog.HasDistinctKeys) →
      ((empty layout).run requests).pages page = some state →
      ∀ records, ∃ rendered,
        ((empty layout).run requests).renderWith routine page records = some (.ok rendered) := by
  intro always
  let catalog : Catalog := .unrestricted .peers [.plain "wait" "Wait" .numeric .duration]
  let requests : List Request :=
    [.register catalog (.plain "Waits" catalog.columns),
      .dispatch .peers (.inView 0 (.setSortKeys [⟨"wait", .ascending⟩]))]
  have distinct : ∀ c view, .register c view ∈ requests → c.HasDistinctKeys := by
    intro c view member
    simp only [requests, List.mem_cons, Request.register.injEq, reduceCtorEq, List.not_mem_nil,
      or_false] at member
    obtain ⟨rfl, _⟩ := member
    decide
  let v : View := .plain "Waits" catalog.columns
  let sorted : View := { v with sortKeys := [⟨"wait", .ascending⟩] }
  have registered : ((empty .standard).run requests).pages .peers =
      some ⟨catalog, v, ⟨.peers, [sorted], 0⟩, 0⟩ := rfl
  have selected : PageViews.selectedView? ⟨.peers, [sorted], 0⟩ = some sorted := rfl
  have rendered := fun routine =>
    always routine .standard requests .peers _ distinct registered SortKey.closeWaits
  exact SortKey.not_ordersAmong_closeWaits
    ((exists_renderWith_iff registered selected SortKey.closeWaits).1 rendered)

end Store

end TableView
