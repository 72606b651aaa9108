import TableView.Proofs.Store.Run

/-!
# When a ticket is stale

The generation of a page counts the loads that were begun since the page was last
registered. A ticket carries the count at which it was issued, so it is stale exactly
when the count has moved on. As long as the page is not registered again, every load
that is begun makes all earlier tickets stale for good; registering it again starts
the count afresh, and an old ticket may then carry the count of a new one.
-/

namespace TableView

namespace Request

/-- How many loads of a page count as begun after a request, if `n` did before it. -/
def countLoads (page : Page) (n : Nat) : Request → Nat
  | register catalog _ => if catalog.page = page then 0 else n
  | beginLoad p => if p = page then n + 1 else n
  | loadFrom _ p => if p = page then n + 1 else n
  | _ => n

variable {page : Page} {request : Request}

theorem le_countLoads (notAgain : ¬ request.Registers page) (n : Nat) :
    n ≤ request.countLoads page n := by
  have oneMore : ∀ p : Page, n ≤ if p = page then n + 1 else n := by
    intro p
    split <;> omega
  cases request with
  | register catalog view => exact Nat.le_of_eq (if_neg notAgain).symm
  | beginLoad p => exact oneMore p
  | loadFrom repository p => exact oneMore p
  | dispatch | completeLoad | saveSelected => exact Nat.le_refl n

theorem lt_countLoads (begins : request.Begins page) (n : Nat) :
    n < request.countLoads page n := by
  cases request <;> simp_all [Begins, countLoads]

theorem countLoads_eq (notAgain : ¬ request.Registers page) (idle : ¬ request.Begins page)
    (n : Nat) : request.countLoads page n = n := by
  cases request with
  | register catalog view => exact if_neg notAgain
  | beginLoad p => exact if_neg idle
  | loadFrom repository p => exact if_neg idle
  | dispatch | completeLoad | saveSelected => rfl

end Request

/-- How many loads of a page a run has begun since it last registered the page. -/
def loadsBegun (page : Page) (requests : List Request) : Nat :=
  requests.foldl (Request.countLoads page) 0

theorem loadsBegun_append (page : Page) (first second : List Request) :
    loadsBegun page (first ++ second) =
      second.foldl (Request.countLoads page) (loadsBegun page first) :=
  List.foldl_append

/-- Without a registration the count never falls, and it rises with every load. -/
theorem foldl_countLoads {page : Page} {requests : List Request}
    (notAgain : ∀ request ∈ requests, ¬ request.Registers page) (n : Nat) :
    n ≤ requests.foldl (Request.countLoads page) n ∧
      ((∃ request ∈ requests, request.Begins page) →
        n < requests.foldl (Request.countLoads page) n) := by
  induction requests generalizing n with
  | nil => simp
  | cons request rest ih =>
      have here := Request.le_countLoads (notAgain request List.mem_cons_self) n
      obtain ⟨le, lt⟩ := ih (fun r member => notAgain r (List.mem_cons_of_mem request member))
        (request.countLoads page n)
      refine ⟨Nat.le_trans here le, ?_⟩
      rintro ⟨r, member, begins⟩
      rcases List.mem_cons.1 member with rfl | later
      · exact Nat.lt_of_lt_of_le (Request.lt_countLoads begins n) le
      · exact Nat.lt_of_le_of_lt here (lt ⟨r, later, begins⟩)

theorem foldl_countLoads_eq {page : Page} {requests : List Request}
    (notAgain : ∀ request ∈ requests, ¬ request.Registers page)
    (idle : ∀ request ∈ requests, ¬ request.Begins page) (n : Nat) :
    requests.foldl (Request.countLoads page) n = n := by
  induction requests with
  | nil => rfl
  | cons request rest ih =>
      rw [List.foldl_cons, Request.countLoads_eq (notAgain request List.mem_cons_self)
        (idle request List.mem_cons_self)]
      exact ih (fun r member => notAgain r (List.mem_cons_of_mem request member))
        fun r member => idle r (List.mem_cons_of_mem request member)

namespace Store

variable {s : Store} {page : Page} {state : PageState}

/-- Whether the generation of a page, if it is registered, is a number. -/
def Counts (s : Store) (page : Page) (n : Nat) : Prop :=
  ∀ state, s.pages page = some state → state.generation = n

/-- Changing what is held for some page moves the count of a page to that of the new state. -/
theorem counts_set {n : Nat} {other : Page} (counted : s.Counts page n)
    (new : other = page → state.generation = n) : (s.set other state).Counts page n := by
  intro found registered
  by_cases same : page = other
  · subst same
    rw [pages_set_self] at registered
    cases registered
    exact new rfl
  · rw [pages_set_of_ne s same] at registered
    exact counted found registered

theorem counts_dispatch {n : Nat} (counted : s.Counts page n) (other : Page) (edit : Edit) :
    (s.dispatch other edit).store.Counts page n := by
  obtain same | ⟨state, views, found, _, changed⟩ := dispatch_cases s other edit
  · rwa [same]
  · rw [changed]
    exact counts_set counted fun here => counted state (here ▸ found)

theorem counts_completeLoad {n : Nat} (counted : s.Counts page n) (ticket : Ticket)
    (result : Except RepositoryError (Option PageViews)) :
    (s.completeLoad ticket result).store.Counts page n := by
  obtain same | ⟨state, loaded, found, _, changed⟩ := completeLoad_cases s ticket result
  · rwa [same]
  · rw [changed]
    exact counts_set counted fun here => counted state (here ▸ found)

theorem counts_begun {n : Nat} {other : Page} (counted : s.Counts page n)
    (found : s.pages other = some state) :
    (s.set other { state with generation := state.generation + 1 }).Counts page
      (if other = page then n + 1 else n) := by
  by_cases here : other = page
  · subst here
    rw [if_pos rfl]
    intro new registered
    rw [pages_set_self] at registered
    cases registered
    rw [counted state found]
  · rw [if_neg here]
    exact counts_set counted fun same => absurd same here

/-- One request moves the generation of a page as `Request.countLoads` says. -/
theorem perform_counts {n : Nat} (counted : s.Counts page n) (request : Request) :
    (s.perform request).Counts page (request.countLoads page n) := by
  -- What is said about a page that is not registered holds for any count.
  have unregistered : ∀ other m, s.pages other = none →
      s.Counts page (if other = page then m else n) := by
    intro other m missing
    by_cases here : other = page
    · subst here
      intro state registered
      rw [missing] at registered
      cases registered
    · rwa [if_neg here]
  cases request with
  | register catalog view =>
      by_cases here : catalog.page = page
      · subst here
        intro new registered
        simp only [perform, register, pages_set_self] at registered
        cases registered
        simp [Request.countLoads]
      · simp only [Request.countLoads, if_neg here]
        exact counts_set counted fun same => absurd same here
  | dispatch other edit => exact counts_dispatch counted other edit
  | beginLoad other =>
      simp only [perform, Request.countLoads]
      cases found : s.pages other with
      | none =>
          rw [beginLoad_of_unregistered found]
          exact unregistered other (n + 1) found
      | some state =>
          rw [beginLoad_of_registered found]
          exact counts_begun counted found
  | completeLoad ticket result => exact counts_completeLoad counted ticket result
  | loadFrom repository other =>
      simp only [perform, Request.countLoads]
      cases found : s.pages other with
      | none =>
          rw [loadFrom_of_unregistered repository found]
          exact unregistered other (n + 1) found
      | some state =>
          rw [loadFrom_of_registered repository found]
          exact counts_completeLoad (counts_begun counted found) _ _
  | saveSelected repository other =>
      simp only [perform, Request.countLoads]
      obtain same | ⟨index, id, changed⟩ := saveSelected_cases s repository other
      · rwa [same]
      · rw [changed]
        exact counts_dispatch counted other _

/-- After a run the generation of a page is the number of loads begun since it was last
registered. -/
theorem run_counts (layout : Layout) (page : Page) (requests : List Request) :
    ((empty layout).run requests).Counts page (loadsBegun page requests) := by
  have step : ∀ (s : Store) (n : Nat), s.Counts page n →
      (s.run requests).Counts page (requests.foldl (Request.countLoads page) n) := by
    induction requests with
    | nil => exact fun _ _ counted => counted
    | cons request rest ih =>
        intro s n counted
        exact ih _ _ (perform_counts counted request)
  apply step
  intro state registered
  cases registered

theorem set_registered (registered : (s.pages page).isSome) (other : Page) (state : PageState) :
    ((s.set other state).pages page).isSome := by
  by_cases here : page = other
  · rw [here, pages_set_self]
    rfl
  · rwa [pages_set_of_ne s here]

theorem perform_registered (registered : (s.pages page).isSome) (request : Request) :
    ((s.perform request).pages page).isSome := by
  refine perform_keeps (Q := fun t => (t.pages page).isSome) registered request ?_ ?_ ?_ ?_
  · intro catalog view _
    exact set_registered registered catalog.page _
  · intro other state edit views _ _ _
    exact set_registered registered other _
  · intro other state _
    exact set_registered registered other _
  · intro t other state loaded before _ _
    exact set_registered before other _

theorem run_registered (registered : (s.pages page).isSome) (requests : List Request) :
    ((s.run requests).pages page).isSome := by
  induction requests generalizing s with
  | nil => exact registered
  | cons request rest ih => exact ih (perform_registered registered request)

/-- A ticket has no effect, whatever comes back for it, exactly when it is not of the
newest generation. -/
theorem completeLoad_stale_iff {ticket : Ticket} (registered : s.pages ticket.page = some state) :
    (∀ result, (s.completeLoad ticket result).answer = .ok false ∧
        (s.completeLoad ticket result).store = s) ↔
      ticket.generation ≠ state.generation := by
  constructor
  · intro noEffect newest
    have answer := (noEffect (.error .io)).1
    simp [completeLoad, registered, newest] at answer
  · intro stale result
    simp [completeLoad, registered, stale]

/-- A ticket carries the number of loads that were begun when it was issued. -/
theorem issued_eq {layout : Layout} {before : List Request} {ticket : Ticket}
    (issued : (((empty layout).run before).beginLoad page).answer = .ok ticket) :
    (((empty layout).run before).pages page).isSome ∧
      ticket = ⟨page, loadsBegun page (before ++ [.beginLoad page])⟩ := by
  cases registered : ((empty layout).run before).pages page with
  | none =>
      rw [beginLoad_of_unregistered registered] at issued
      cases issued
  | some state =>
      rw [beginLoad_of_registered registered] at issued
      cases issued
      have counted : state.generation = loadsBegun page before :=
        run_counts layout page before state registered
      simp [Request.countLoads, counted, loadsBegun]

/-- A ticket is stale after more requests exactly if the number of loads begun since the
page was registered last has changed. One more load makes it stale for good, unless the
page was registered again: that starts the count afresh. -/
theorem earlier_ticket_stale_iff (layout : Layout) (before after : List Request) (page : Page)
    (ticket : Ticket)
    (issued : (((empty layout).run before).beginLoad page).answer = .ok ticket)
    (again : ∃ request ∈ after, request.Begins page) :
    let requests := before ++ .beginLoad page :: after
    let s := (empty layout).run requests
    let counted := loadsBegun page (before ++ [.beginLoad page])
    ((∀ result, (s.completeLoad ticket result).answer = .ok false ∧
        (s.completeLoad ticket result).store = s) ↔ loadsBegun page requests ≠ counted) ∧
      ((∀ request ∈ after, ¬ request.Registers page) → loadsBegun page requests ≠ counted) := by
  intro requests s counted
  obtain ⟨known, rfl⟩ := issued_eq issued
  have split : requests = (before ++ [.beginLoad page]) ++ after := by
    simp [requests]
  constructor
  · have registered : (s.pages page).isSome := by
      simp only [s, requests, run_append]
      exact run_registered known _
    obtain ⟨state, here⟩ := Option.isSome_iff_exists.1 registered
    have newest : state.generation = loadsBegun page requests :=
      run_counts layout page requests state here
    rw [completeLoad_stale_iff here, newest]
    exact ne_comm
  · intro notAgain
    have rises := (foldl_countLoads notAgain counted).2 again
    rw [split, loadsBegun_append]
    exact Nat.ne_of_gt rises

/-- Of two loads begun in a row, the first is stale. -/
theorem earlier_ticket_stale_peers :
    let before : List Request := [.register .peers (.plain "All" Catalog.peersColumns)]
    let after : List Request := [.beginLoad .peers]
    let requests := before ++ .beginLoad .peers :: after
    let s := (empty .standard).run requests
    ((((empty .standard).run before).beginLoad .peers).answer = .ok ⟨.peers, 1⟩) ∧
      (∃ request ∈ after, request.Begins .peers) ∧
      loadsBegun .peers requests ≠ loadsBegun .peers (before ++ [.beginLoad .peers]) ∧
      ∀ result, (s.completeLoad ⟨.peers, 1⟩ result).answer = .ok false ∧
        (s.completeLoad ⟨.peers, 1⟩ result).store = s := by
  intro before after requests s
  have issued : (((empty .standard).run before).beginLoad .peers).answer = .ok ⟨.peers, 1⟩ := rfl
  have again : ∃ request ∈ after, request.Begins .peers := ⟨_, List.mem_singleton_self _, rfl⟩
  have notAgain : ∀ request ∈ after, ¬ request.Registers .peers := by
    simp [after, Request.Registers]
  obtain ⟨stale, moved⟩ := earlier_ticket_stale_iff .standard before after .peers _ issued again
  exact ⟨issued, again, moved notAgain, stale.2 (moved notAgain)⟩

/-- Registering a page again between two loads lets the ticket of the first one bring its
views after the second has begun. -/
theorem earlier_ticket_not_always_stale :
    ¬ ∀ (before after : List Request) (page : Page) (ticket : Ticket),
      (((empty .standard).run before).beginLoad page).answer = .ok ticket →
      (∃ request ∈ after, request.Begins page) →
      ∀ result,
        let s := (empty .standard).run (before ++ .beginLoad page :: after)
        (s.completeLoad ticket result).answer = .ok false ∧
          (s.completeLoad ticket result).store = s := by
  intro alwaysStale
  let register : Request := .register .peers (.plain "All" Catalog.peersColumns)
  have stale := alwaysStale [register] [register, .beginLoad .peers] .peers ⟨.peers, 1⟩ rfl
    ⟨_, List.mem_cons_of_mem _ (List.mem_singleton_self _), rfl⟩
    (.ok (some ⟨.peers, [.plain "Stale" []], 0⟩))
  have answered : Except.ok true = Except.ok false := stale.1
  cases answered

end Store

end TableView
