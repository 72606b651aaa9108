import TableView.Proofs.Store.Completions
import TableView.Proofs.Store.WellFormed

/-!
# Loading repairs views and does nothing more

A view that is given the locked columns it lacks keeps its own columns as they stand, behind the
new ones, and lacks nothing afterwards. The repair of a load consists of such steps and of
defaults for what is missing altogether. A page of a store lacks nothing, so that its own views,
loaded again, are taken as they are.
-/

namespace TableView

/-- The views of a well-formed page need no repair. -/
theorem PageState.WellFormed.repair_self {page : Page} {state : PageState}
    (h : WellFormed page state) :
    Store.PageState.repair state page (some state.views) = state.views := by
  have nonempty : state.views.views.isEmpty = false := by
    simpa using List.ne_nil_of_length_pos (Nat.zero_lt_of_lt h.inRange)
  have same : state.views.views.map (·.withLocked state.catalog) = state.views.views :=
    calc state.views.views.map (·.withLocked state.catalog)
        = state.views.views.map id := List.map_congr_left fun v mem =>
          View.withLocked_of_keepsLocked (h.locked v mem)
      _ = state.views.views := List.map_id _
  simp only [Store.PageState.repair, nonempty, Bool.false_eq_true, if_false, same,
    if_neg (Nat.not_le.2 h.inRange), ← h.named]

namespace Store

/-- The newest ticket of a page brings the views that it is completed with, once repaired. -/
theorem completeLoad_of_newest {s : Store} {page : Page} {state : PageState}
    (registered : s.pages page = some state) (loaded : PageViews) :
    let completed := s.completeLoad ⟨page, state.generation⟩ (.ok (some loaded))
    completed.answer = .ok true ∧ completed.store =
      s.set page { state with views := PageState.repair state page (some loaded) } := by
  simp only [completeLoad, registered, ne_eq, not_true_eq_false, if_false, and_self]

/-- A view is given exactly the locked columns of the catalog under whose keys it shows nothing,
in the order of the catalog and in front of its own columns. They are counted, no locked key is
missing then, and nothing is added again. After every run from a store without pages, the newest
ticket of a page, which is the one of its present generation, can be completed with the views
that the page has, and that leaves the store as it was. -/
theorem repair_adds_missing :
    (∀ (v : View) (c : Catalog),
      let missing := c.columns.filter fun column =>
        column.locked ∧ ∀ shown ∈ v.columns, shown.key ≠ column.key
      v.ensureLocked c = ({ v with columns := missing ++ v.columns }, missing.length) ∧
        (v.ensureLocked c).1.KeepsLocked c ∧
        (v.ensureLocked c).1.ensureLocked c = ((v.ensureLocked c).1, 0)) ∧
      ∀ (layout : Layout) (requests : List Request),
        (∀ catalog view, .register catalog view ∈ requests → catalog.HasDistinctKeys) →
        ∀ (page : Page) (state : PageState),
          ((empty layout).run requests).pages page = some state →
          let s := (empty layout).run requests
          let completed := s.completeLoad ⟨page, state.generation⟩ (.ok (some state.views))
          (∀ ticket, IsNewest layout requests ticket → ticket.page = page →
            ticket = ⟨page, state.generation⟩) ∧
          completed.answer = .ok true ∧ completed.store = s := by
  constructor
  · intro v c missing
    have kept := v.withLocked_keepsLocked c
    have lacked : v.missingLocked c = missing := v.missingLocked_eq_filter c
    refine ⟨?_, kept, ?_⟩
    · rw [View.ensureLocked, View.withLocked, lacked]
    · show (v.withLocked c).ensureLocked c = (v.withLocked c, 0)
      rw [View.ensureLocked, View.withLocked_of_keepsLocked kept,
        View.missingLocked_eq_nil_iff.2 kept, List.length_nil]
  · intro layout requests distinct page state registered s completed
    have formed := everywhere_wellFormed layout distinct page state registered
    obtain ⟨answer, store⟩ := completeLoad_of_newest registered state.views
    refine ⟨?_, answer, ?_⟩
    · rintro ⟨page, generation⟩ newest rfl
      obtain ⟨found, here, same⟩ := newest.generation_eq
      rw [registered, Option.some.injEq] at here
      rw [here, ← same]
    · rw [store, formed.repair_self]
      exact set_eq_self registered

/-- The page of peers, of two views of which one was given the only locked column, after two loads
were begun. -/
theorem repair_adds_missing_peers :
    let requests : List Request :=
      [.register .peers (.plain "All" Catalog.peersColumns),
        .dispatch .peers (.addView (.plain "Bare" [])), .beginLoad .peers,
        .dispatch .peers (.inView 1 (.setTitle "Aliases")), .beginLoad .peers]
    let s := (empty .standard).run requests
    (∀ catalog view, .register catalog view ∈ requests → catalog.HasDistinctKeys) ∧
      ∃ state, s.pages .peers = some state ∧ state.views.views.length = 2 ∧
        IsNewest .standard requests ⟨.peers, 2⟩ ∧
        (s.completeLoad ⟨.peers, 2⟩ (.ok (some state.views))).answer = .ok true ∧
        (s.completeLoad ⟨.peers, 2⟩ (.ok (some state.views))).store = s := by
  intro requests s
  have distinct : ∀ catalog view, .register catalog view ∈ requests → catalog.HasDistinctKeys := by
    intro catalog view member
    simp only [requests, List.mem_cons, Request.register.injEq, reduceCtorEq, List.not_mem_nil,
      or_false] at member
    obtain ⟨rfl, _⟩ := member
    decide
  obtain ⟨state, registered⟩ : ∃ state, s.pages .peers = some state := ⟨_, rfl⟩
  have newest : IsNewest .standard requests ⟨.peers, 2⟩ :=
    ⟨[], ⟨⟨requests.take 4, rfl, rfl⟩, by simp⟩, by simp⟩
  obtain ⟨only, answer, store⟩ :=
    repair_adds_missing.2 .standard requests distinct .peers state registered
  rw [← only _ newest rfl] at answer store
  refine ⟨distinct, state, registered, ?_, newest, answer, store⟩
  cases registered
  rfl

end Store

end TableView
