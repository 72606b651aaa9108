import Mathlib.Data.List.Nodup
import Mathlib.Data.List.Perm.Basic
import TableView.Proofs.Store.Tickets

/-!
# The order of answers does not matter

Completing a load begins none, so it changes neither which ticket of a page is the
newest nor whether another one is stale. Of completions with different tickets at most
one for each page is of its newest ticket, and that one alone has an effect: it may
come first or last.
-/

namespace TableView

/-- A ticket and what came back for it. -/
structure Completion where
  ticket : Ticket
  result : Except RepositoryError (Option PageViews)

namespace Completion

variable {c d : Completion} {page : Page} {state : PageState}

/-- What a completion makes of the state of a page. It brings its views if it is of the newest
ticket of that page. -/
def settle (c : Completion) (page : Page) (state : PageState) : PageState :=
  if c.ticket = ⟨page, state.generation⟩ then
    match c.result with
    | .ok loaded => { state with views := Store.PageState.repair state page loaded }
    | .error _ => state
  else state

@[simp] theorem generation_settle (c : Completion) (page : Page) (state : PageState) :
    (c.settle page state).generation = state.generation := by
  rw [settle]
  split
  · cases c.result <;> rfl
  · rfl

theorem settle_of_ne (stale : c.ticket ≠ ⟨page, state.generation⟩) :
    c.settle page state = state := if_neg stale

/-- Of two completions with different tickets one is stale, before and after the other. -/
theorem settle_comm (different : c.ticket ≠ d.ticket) (page : Page) (state : PageState) :
    d.settle page (c.settle page state) = c.settle page (d.settle page state) := by
  by_cases newest : c.ticket = ⟨page, state.generation⟩
  · have stale : d.ticket ≠ ⟨page, state.generation⟩ := by
      intro same
      exact different (newest.trans same.symm)
    have staleAfter : d.ticket ≠ ⟨page, (c.settle page state).generation⟩ := by
      rwa [generation_settle]
    rw [settle_of_ne stale, settle_of_ne staleAfter]
  · have staleAfter : c.ticket ≠ ⟨page, (d.settle page state).generation⟩ := by
      rwa [generation_settle]
    rw [settle_of_ne newest, settle_of_ne staleAfter]

end Completion

namespace Store

variable {s : Store} {c d : Completion}

/-- The store after a completion, whatever the answer was. -/
def complete (s : Store) (c : Completion) : Store := (s.completeLoad c.ticket c.result).store

/-- The store after several completions. -/
def deliver (s : Store) (completions : List Completion) : Store := completions.foldl complete s

/-- The answers to several completions, one after the other. -/
def deliveryAnswers (s : Store) : List Completion → List (Except StoreError Bool)
  | [] => []
  | c :: rest => (s.completeLoad c.ticket c.result).answer :: (s.complete c).deliveryAnswers rest

theorem complete_of_registered {state : PageState}
    (registered : s.pages c.ticket.page = some state) :
    s.complete c = s.set c.ticket.page (c.settle c.ticket.page state) := by
  by_cases newest : c.ticket = ⟨c.ticket.page, state.generation⟩
  · have current : ¬ c.ticket.generation ≠ state.generation := by
      rw [newest]
      exact not_not_intro rfl
    rw [complete, completeLoad, Completion.settle, if_pos newest]
    cases c.result with
    | error error => simp only [registered, if_neg current, set_eq_self registered]
    | ok loaded => simp only [registered, if_neg current]
  · have stale : c.ticket.generation ≠ state.generation := by
      intro same
      exact newest (by rw [← same])
    rw [Completion.settle_of_ne newest, set_eq_self registered]
    exact ((completeLoad_stale_iff registered).2 stale c.result).2

/-- A completion settles the states of all pages, each on its own. -/
theorem complete_eq (s : Store) (c : Completion) :
    s.complete c = { s with pages := fun page => (s.pages page).map (c.settle page) } := by
  have elsewhere : ∀ page, page ≠ c.ticket.page →
      (s.pages page).map (c.settle page) = s.pages page := by
    intro page other
    cases s.pages page with
    | none => rfl
    | some state =>
        have stale : c.ticket ≠ ⟨page, state.generation⟩ := by
          intro same
          exact other (congrArg Ticket.page same).symm
        rw [Option.map_some, Completion.settle_of_ne stale]
  cases registered : s.pages c.ticket.page with
  | none =>
      have unchanged : s.complete c = s := by simp only [complete, completeLoad, registered]
      have pages : (fun page => (s.pages page).map (c.settle page)) = s.pages := by
        funext page
        by_cases here : page = c.ticket.page
        · rw [here, registered, Option.map_none]
        · exact elsewhere page here
      rw [unchanged, pages]
  | some state =>
      have pages : (fun page => (s.pages page).map (c.settle page)) =
          (s.set c.ticket.page (c.settle c.ticket.page state)).pages := by
        funext page
        by_cases here : page = c.ticket.page
        · rw [here, pages_set_self, registered, Option.map_some]
        · rw [pages_set_of_ne s here, elsewhere page here]
      rw [complete_of_registered registered, pages]
      rfl

theorem pages_complete (s : Store) (c : Completion) (page : Page) :
    (s.complete c).pages page = (s.pages page).map (c.settle page) := by
  rw [complete_eq]

/-- Completions with different tickets can change places. -/
theorem complete_comm (different : c.ticket ≠ d.ticket) (s : Store) :
    (s.complete c).complete d = (s.complete d).complete c := by
  simp only [complete_eq, Option.map_map]
  congr 1
  funext page
  refine congrArg (fun f => (s.pages page).map f) (funext ?_)
  exact Completion.settle_comm different page

theorem generation_complete (s : Store) (c : Completion) (page : Page) :
    ((s.complete c).pages page).map (·.generation) = (s.pages page).map (·.generation) := by
  rw [pages_complete, Option.map_map]
  exact congrArg (fun f => (s.pages page).map f) (funext (c.generation_settle page))

/-- The answer to a completion depends on the newest ticket of its page and on nothing else
in the store. -/
theorem completeLoad_answer (s : Store) (c : Completion) :
    (s.completeLoad c.ticket c.result).answer =
      match (s.pages c.ticket.page).map (·.generation), c.result with
      | none, _ => .error (.unknownPage c.ticket.page)
      | some latest, .ok _ => .ok (decide (c.ticket.generation = latest))
      | some latest, .error error =>
          if c.ticket.generation = latest then .error (.repository error) else .ok false := by
  rw [completeLoad]
  cases s.pages c.ticket.page with
  | none => rfl
  | some state =>
      by_cases newest : c.ticket.generation = state.generation
      · cases c.result <;> simp [newest]
      · cases c.result <;> simp [newest]

theorem deliveryAnswers_eq (s : Store) (completions : List Completion) :
    s.deliveryAnswers completions =
      completions.map fun c => (s.completeLoad c.ticket c.result).answer := by
  induction completions generalizing s with
  | nil => rfl
  | cons c rest ih =>
      rw [deliveryAnswers, ih, List.map_cons]
      congr 1
      refine List.map_congr_left ?_
      intro d _
      rw [completeLoad_answer, completeLoad_answer, generation_complete]

/-- Completions with different tickets lead to one store in every order. -/
theorem deliver_perm {first second : List Completion}
    (distinct : (first.map (·.ticket)).Nodup) (perm : first.Perm second) (s : Store) :
    s.deliver first = s.deliver second := by
  refine perm.foldl_eq' ?_ s
  intro c memC d memD t
  by_cases same : c = d
  · rw [same]
  · have different : c.ticket ≠ d.ticket := by
      intro equal
      exact same (List.inj_on_of_nodup_map distinct memC memD equal)
    exact complete_comm different t

/-- Whether the store ignores a completion: its ticket is not of the present generation of its
page. -/
def Ignores (s : Store) (c : Completion) : Prop :=
  ∀ state, s.pages c.ticket.page = some state → c.ticket.generation ≠ state.generation

theorem complete_of_ignores (ignored : s.Ignores c) : s.complete c = s := by
  cases registered : s.pages c.ticket.page with
  | none => simp only [complete, completeLoad, registered]
  | some state =>
      exact ((completeLoad_stale_iff registered).2 (ignored state registered) c.result).2

theorem Ignores.complete (ignored : s.Ignores d) (c : Completion) : (s.complete c).Ignores d := by
  intro state registered
  rw [pages_complete, Option.map_eq_some_iff] at registered
  obtain ⟨before, found, rfl⟩ := registered
  rw [Completion.generation_settle]
  exact ignored before found

/-- Only the completions that are not ignored have to be delivered. -/
theorem deliver_filter {p : Completion → Bool} {completions : List Completion}
    (ignored : ∀ c ∈ completions, p c = false → s.Ignores c) :
    s.deliver completions = s.deliver (completions.filter p) := by
  induction completions generalizing s with
  | nil => rfl
  | cons c rest ih =>
      cases kept : p c with
      | true =>
          rw [List.filter_cons_of_pos kept]
          exact ih fun d mem dropped =>
            (ignored d (List.mem_cons_of_mem c mem) dropped).complete c
      | false =>
          -- Nothing changes, so the rest meets the store that it would meet without it.
          have same := complete_of_ignores (ignored c List.mem_cons_self kept)
          have notKept : ¬ p c = true := by simp [kept]
          rw [List.filter_cons_of_neg notKept, deliver, List.foldl_cons, same]
          exact ih fun d mem => ignored d (List.mem_cons_of_mem c mem)

/-- Whether a run has given out a ticket, with some requests made after it, none of which
has registered the page of the ticket again. -/
def Issued (layout : Layout) (requests : List Request) (ticket : Ticket) (later : List Request) :
    Prop :=
  (∃ before, requests = before ++ .beginLoad ticket.page :: later ∧
    (((empty layout).run before).beginLoad ticket.page).answer = .ok ticket) ∧
  ∀ request ∈ later, ¬ request.Registers ticket.page

/-- Whether a run has given out a ticket and begun no other load of its page since. -/
def IsNewest (layout : Layout) (requests : List Request) (ticket : Ticket) : Prop :=
  ∃ later, Issued layout requests ticket later ∧
    ∀ request ∈ later, ¬ request.Begins ticket.page

variable {layout : Layout} {requests later : List Request} {ticket : Ticket}

/-- A ticket is of the present generation exactly if no load was begun after it. -/
theorem Issued.generation_eq_iff (issued : Issued layout requests ticket later) :
    ∃ state, ((empty layout).run requests).pages ticket.page = some state ∧
      (ticket.generation = state.generation ↔
        ∀ request ∈ later, ¬ request.Begins ticket.page) := by
  obtain ⟨⟨before, rfl, answered⟩, notAgain⟩ := issued
  obtain ⟨known, number⟩ := issued_eq answered
  have registered : (((empty layout).run (before ++ .beginLoad ticket.page :: later)).pages
      ticket.page).isSome := by
    rw [run_append]
    exact run_registered known _
  obtain ⟨state, here⟩ := Option.isSome_iff_exists.1 registered
  -- The generation counts the loads begun since the registration, and the ticket has the
  -- count at its own: they agree as long as the count has not moved.
  have latest := run_counts layout ticket.page _ state here
  have split : before ++ .beginLoad ticket.page :: later =
      (before ++ [.beginLoad ticket.page]) ++ later := by simp
  refine ⟨state, here, ?_⟩
  rw [latest, split, loadsBegun_append, congrArg Ticket.generation number]
  constructor
  · intro same request mem begins
    exact Nat.ne_of_lt ((foldl_countLoads notAgain _).2 ⟨request, mem, begins⟩) same
  · intro idle
    exact (foldl_countLoads_eq notAgain idle _).symm

theorem IsNewest.generation_eq (newest : IsNewest layout requests ticket) :
    ∃ state, ((empty layout).run requests).pages ticket.page = some state ∧
      ticket.generation = state.generation := by
  obtain ⟨later, issued, idle⟩ := newest
  obtain ⟨state, registered, same⟩ := issued.generation_eq_iff
  exact ⟨state, registered, same.2 idle⟩

theorem IsNewest.unique {other : Ticket} (newest : IsNewest layout requests ticket)
    (newestToo : IsNewest layout requests other) (same : ticket.page = other.page) :
    ticket = other := by
  obtain ⟨state, registered, generation⟩ := newest.generation_eq
  obtain ⟨stateToo, registeredToo, generationToo⟩ := newestToo.generation_eq
  rw [same, registeredToo, Option.some.injEq] at registered
  subst registered
  have number : ticket.generation = other.generation := generation.trans generationToo.symm
  obtain ⟨page, first⟩ := ticket
  obtain ⟨otherPage, second⟩ := other
  exact congr (congrArg Ticket.mk same) number

/-- An issued ticket that is not the newest of its page is ignored. -/
theorem Issued.ignores (issued : Issued layout requests c.ticket later)
    (notNewest : ¬ IsNewest layout requests c.ticket) :
    ((empty layout).run requests).Ignores c := by
  intro state registered same
  obtain ⟨found, here, idle⟩ := issued.generation_eq_iff
  rw [registered, Option.some.injEq] at here
  subst here
  exact notNewest ⟨later, issued, idle.1 same⟩

open scoped Classical in
/-- Completions of different tickets that a run has given out lead to one store and to one
answer each, in whatever order they are delivered. The store is that of the completions of
the newest tickets, at most one for each page. -/
theorem deliver_newest (layout : Layout) (requests : List Request)
    (completions : List Completion)
    (issued : ∀ c ∈ completions, ∃ later, Issued layout requests c.ticket later)
    (distinct : (completions.map (·.ticket)).Nodup) :
    let s := (empty layout).run requests
    let newest := completions.filter fun c => IsNewest layout requests c.ticket
    (newest.map (·.ticket.page)).Nodup ∧
      ∀ order : List Completion, order.Perm completions →
        s.deliver order = s.deliver newest ∧
        s.deliveryAnswers order =
          order.map fun c => (s.completeLoad c.ticket c.result).answer := by
  intro s newest
  constructor
  · have differ : newest.Pairwise fun c d => c.ticket ≠ d.ticket :=
      (List.pairwise_map.1 distinct).sublist List.filter_sublist
    rw [List.Nodup, List.pairwise_map]
    refine differ.imp_of_mem ?_
    intro c d memC memD different samePage
    have newestC := of_decide_eq_true (List.mem_filter.1 memC).2
    have newestD := of_decide_eq_true (List.mem_filter.1 memD).2
    exact different (newestC.unique newestD samePage)
  · intro order perm
    have distinctOrder : (order.map (·.ticket)).Nodup := (perm.map _).nodup_iff.2 distinct
    have ignored : ∀ c ∈ completions,
        decide (IsNewest layout requests c.ticket) = false → s.Ignores c := by
      intro c mem notNewest
      obtain ⟨later, given⟩ := issued c mem
      exact given.ignores (of_decide_eq_false notNewest)
    exact ⟨(deliver_perm distinctOrder perm s).trans (deliver_filter ignored),
      s.deliveryAnswers_eq order⟩

/-- Of three answers, a late one, a fresh one and a failure on another page, only the fresh one
counts, whichever comes last. -/
theorem deliver_newest_peers :
    let requests : List Request :=
      [.register .peers (.plain "All" Catalog.peersColumns),
        .register .closedChannels (.plain "Closed" []),
        .beginLoad .peers, .beginLoad .closedChannels, .beginLoad .peers]
    let late : Completion := ⟨⟨.peers, 1⟩, .ok (some ⟨.peers, [.plain "Late" []], 0⟩)⟩
    let fresh : Completion := ⟨⟨.peers, 2⟩, .ok (some ⟨.peers, [.plain "Fresh" []], 7⟩)⟩
    let failed : Completion := ⟨⟨.closedChannels, 1⟩, .error .io⟩
    let completions := [late, fresh, failed]
    let s := (empty .standard).run requests
    (∀ c ∈ completions, ∃ later, Issued .standard requests c.ticket later) ∧
      (completions.map (·.ticket)).Nodup ∧
      ∀ order : List Completion, order.Perm completions →
        s.deliver order = s.complete fresh ∧
        s.deliveryAnswers order =
          order.map fun c => (s.completeLoad c.ticket c.result).answer := by
  intro requests late fresh failed completions s
  have issued : ∀ c ∈ completions, ∃ later, Issued .standard requests c.ticket later := by
    intro c mem
    simp only [completions, List.mem_cons, List.not_mem_nil, or_false] at mem
    obtain rfl | rfl | rfl := mem
    · exact ⟨_, ⟨requests.take 2, rfl, rfl⟩, by simp [late, Request.Registers]⟩
    · exact ⟨_, ⟨requests.take 4, rfl, rfl⟩, by simp [Request.Registers]⟩
    · exact ⟨_, ⟨requests.take 3, rfl, rfl⟩, by simp [failed, Request.Registers]⟩
  have distinct : (completions.map (·.ticket)).Nodup := by decide
  obtain ⟨-, alike⟩ := deliver_newest .standard requests completions issued distinct
  have onlyFresh : s.deliver completions = s.complete fresh := rfl
  refine ⟨issued, distinct, ?_⟩
  intro order perm
  obtain ⟨store, answers⟩ := alike order perm
  exact ⟨(store.trans (alike completions (.refl _)).1.symm).trans onlyFresh, answers⟩

end Store

end TableView
