import TableView.Proofs.Edit.Accepted
import TableView.Proofs.Store.Run

/-!
# Changes of different views are independent

A change of a view reads the catalog of its page, how many views the page has and the view itself
(`Store.attempt`), and writes nothing but that view (`Store.change_eq`). What a change of another
view writes, of the same page or not, is therefore nothing that it reads: it is accepted or
rejected as if it were the only one, and two such changes can change places. Whatever way two
lists of changes are interleaved, if none of the first is of a view that one of the second is of,
they lead to one store, and each change is answered as in its own list (`change_interleaved`).
-/

namespace TableView

/-- A change of the view at a position of a page. -/
structure ViewChange where
  page : Page
  index : Nat
  edit : ViewEdit

/-- Whether a list consists of two others, each in its order. -/
inductive Interleaves : List α → List α → List α → Prop where
  | nil : Interleaves [] [] []
  | left {a : α} {first second mixed : List α} (rest : Interleaves first second mixed) :
      Interleaves (a :: first) second (a :: mixed)
  | right {a : α} {first second mixed : List α} (rest : Interleaves first second mixed) :
      Interleaves first (a :: second) (a :: mixed)

namespace ViewChange

/-- Where the view stands that a change is addressed to. -/
def place (c : ViewChange) : Page × Nat := (c.page, c.index)

/-- What a change makes of its view, or why it is rejected. -/
def attempt (c : ViewChange) (state : PageState) : Except EditError View :=
  match c.edit.refusal? (some state.catalog) with
  | some error => .error error
  | none => do
    let v ← state.views.viewAt c.index
    c.edit.apply (some state.catalog) v

/-- What a rejected change reports. -/
def rejectionLog (c : ViewChange) : StoreError → List LogLine
  | .edit error =>
    [⟨.debug, "Rejected " ++ c.edit.name ++ " on " ++ c.page.name ++ ": " ++ error.message⟩]
  | _ => []

end ViewChange

/-- Puts a view in the place of another. -/
def PageState.put (state : PageState) (index : Nat) (v : View) : PageState :=
  { state with views := { state.views with views := state.views.views.set index v } }

/-- Editing a view of a page is attempting the change and putting its result there. -/
theorem ViewChange.apply_inView (c : ViewChange) (state : PageState) :
    state.views.apply (some state.catalog) (.inView c.index c.edit) =
      (c.attempt state).map fun v => (state.put c.index v).views := by
  rw [PageViews.apply, attempt]
  cases c.edit.refusal? (some state.catalog) with
  | some error => rfl
  | none =>
      cases found : state.views.viewAt c.index with
      | error error => rfl
      | ok v => cases c.edit.apply (some state.catalog) v <;> rfl

/-- A change attempted on a page reads its view and how many there are, but no other view. -/
theorem ViewChange.attempt_put {c : ViewChange} {index : Nat} (other : index ≠ c.index)
    (state : PageState) (v : View) : c.attempt (state.put index v) = c.attempt state := by
  have sameView : (state.put index v).views.viewAt c.index = state.views.viewAt c.index := by
    simp only [PageViews.viewAt, PageState.put, List.getElem?_set_ne other, List.length_set]
  rw [attempt, attempt, sameView]
  rfl

theorem PageState.put_comm {i j : Nat} (different : i ≠ j) (state : PageState) (v w : View) :
    (state.put i v).put j w = (state.put j w).put i v := by
  simp only [put, List.set_comm v w different]

namespace Store

variable {s : Store} {c d : ViewChange}

/-- Puts a view in the place of another. -/
def put (s : Store) (place : Page × Nat) (v : View) : Store :=
  { s with pages := fun page => (s.pages page).map fun state =>
      if page = place.1 then state.put place.2 v else state }

/-- What a change makes of its view, or why the store rejects it. -/
def attempt (s : Store) (c : ViewChange) : Except StoreError View :=
  (s.page c.page).bind fun state => (c.attempt state).mapError .edit

/-- Makes a change. -/
def change (s : Store) (c : ViewChange) : Outcome Unit := s.dispatch c.page (.inView c.index c.edit)

theorem pages_put (s : Store) (place : Page × Nat) (v : View) (page : Page) :
    (s.put place v).pages page = (s.pages page).map fun state =>
      if page = place.1 then state.put place.2 v else state := rfl

theorem set_put {page : Page} {state : PageState} (registered : s.pages page = some state)
    (index : Nat) (v : View) : s.set page (state.put index v) = s.put (page, index) v := by
  rw [set, put]
  congr 1
  funext other
  by_cases here : other = page
  · rw [here, Page.update_self, registered, Option.map_some, if_pos rfl]
  · cases found : s.pages other <;> simp [here, found]

/-- A change puts what it makes of its view in its place, and nothing if it is rejected. -/
theorem change_eq (s : Store) (c : ViewChange) :
    s.change c = match s.attempt c with
      | .ok v => ⟨s.put c.place v, .ok (), []⟩
      | .error error => ⟨s, .error error, c.rejectionLog error⟩ := by
  rw [change, dispatch, attempt, Store.page]
  cases registered : s.pages c.page with
  | none => rfl
  | some state =>
      simp only [c.apply_inView, Except.bind]
      cases c.attempt state with
      | error error => rfl
      | ok v =>
          exact congrArg (fun t => (⟨t, .ok (), []⟩ : Outcome Unit)) (set_put registered c.index v)

/-- What a change makes of its view does not depend on other views. -/
theorem attempt_put {place : Page × Nat} (other : c.place ≠ place) (s : Store) (v : View) :
    (s.put place v).attempt c = s.attempt c := by
  rw [attempt, attempt, Store.page, Store.page, pages_put]
  cases s.pages c.page with
  | none => rfl
  | some state =>
      simp only [Option.map_some, Except.bind]
      by_cases samePage : c.page = place.1
      · have otherIndex : place.2 ≠ c.index := by
          intro same
          exact other (Prod.ext samePage same.symm)
        rw [if_pos samePage, ViewChange.attempt_put otherIndex]
      · rw [if_neg samePage]

theorem put_comm {a b : Page × Nat} (different : a ≠ b) (s : Store) (v w : View) :
    (s.put a v).put b w = (s.put b w).put a v := by
  simp only [put, Option.map_map]
  congr 1
  funext page
  refine congrArg (fun f => (s.pages page).map f) (funext ?_)
  intro state
  simp only [Function.comp_apply]
  by_cases first : page = a.1 <;> by_cases second : page = b.1
  · have otherIndex : a.2 ≠ b.2 := fun same => different (Prod.ext (first.symm.trans second) same)
    rw [if_pos first, if_pos second, if_pos second, if_pos first, PageState.put_comm otherIndex]
  · simp only [if_pos first, if_neg second]
  · simp only [if_neg first, if_pos second]
  · simp only [if_neg first, if_neg second]

theorem store_change (s : Store) (c : ViewChange) :
    (s.change c).store = match s.attempt c with
      | .ok v => s.put c.place v
      | .error _ => s := by
  rw [change_eq]
  cases s.attempt c <;> rfl

theorem attempt_change (different : c.place ≠ d.place) (s : Store) :
    (s.change d).store.attempt c = s.attempt c := by
  rw [store_change]
  cases s.attempt d with
  | error error => rfl
  | ok v => exact attempt_put different s v

theorem change_comm (different : c.place ≠ d.place) (s : Store) :
    ((s.change c).store.change d).store = ((s.change d).store.change c).store := by
  rw [store_change (s.change c).store d, attempt_change different.symm,
    store_change (s.change d).store c, attempt_change different, store_change s c, store_change s d]
  cases s.attempt c with
  | error error => rfl
  | ok v =>
      cases s.attempt d with
      | error error => rfl
      | ok w => exact put_comm different s v w

/-- How a change is answered, and what it reports. -/
def answerTo (s : Store) (c : ViewChange) : Except StoreError Unit × List LogLine :=
  ((s.change c).answer, (s.change c).log)

/-- A change is answered as if there were no change of another view before it. -/
theorem answerTo_change (different : c.place ≠ d.place) (s : Store) :
    (s.change d).store.answerTo c = s.answerTo c := by
  rw [answerTo, answerTo, change_eq _ c, change_eq s c, attempt_change different]
  cases s.attempt c <;> rfl

/-- The store after several changes, whatever the answers were. -/
def changeAll (s : Store) (changes : List ViewChange) : Store :=
  changes.foldl (fun t c => (t.change c).store) s

/-- Several changes, each with its answer and what it reports. -/
def answers (s : Store) : List ViewChange →
    List (ViewChange × Except StoreError Unit × List LogLine)
  | [] => []
  | c :: rest => (c, s.answerTo c) :: (s.change c).store.answers rest

theorem changeAll_cons (s : Store) (c : ViewChange) (rest : List ViewChange) :
    s.changeAll (c :: rest) = (s.change c).store.changeAll rest := rfl

theorem change_changeAll {changes : List ViewChange} (different : ∀ c ∈ changes, c.place ≠ d.place)
    (s : Store) :
    ((s.changeAll changes).change d).store = (s.change d).store.changeAll changes := by
  induction changes generalizing s with
  | nil => rfl
  | cons c rest ih =>
      rw [List.forall_mem_cons] at different
      rw [changeAll_cons, ih different.2, change_comm different.1, changeAll_cons]

theorem answers_change {changes : List ViewChange} (different : ∀ c ∈ changes, c.place ≠ d.place)
    (s : Store) : (s.change d).store.answers changes = s.answers changes := by
  induction changes generalizing s with
  | nil => rfl
  | cons c rest ih =>
      rw [List.forall_mem_cons] at different
      rw [answers, answers, answerTo_change different.1, change_comm different.1.symm,
        ih different.2]

/-- Changes of some views, interleaved with changes of others, lead to the store that they lead to
one list after the other, and are answered as each list is by itself. -/
theorem changeAll_interleaved {first second mixed : List ViewChange}
    (interleaves : Interleaves first second mixed)
    (different : ∀ c ∈ first, ∀ d ∈ second, c.place ≠ d.place) (s : Store) :
    s.changeAll mixed = (s.changeAll first).changeAll second ∧
      Interleaves (s.answers first) (s.answers second) (s.answers mixed) := by
  induction interleaves generalizing s with
  | nil => exact ⟨rfl, .nil⟩
  | @left c first second mixed _ ih =>
      rw [List.forall_mem_cons] at different
      obtain ⟨store, reports⟩ := ih different.2 (s.change c).store
      have unchanged : (s.change c).store.answers second = s.answers second :=
        answers_change (fun d mem => (different.1 d mem).symm) s
      exact ⟨store, .left (unchanged ▸ reports)⟩
  | @right d first second mixed _ ih =>
      have differentHere : ∀ c ∈ first, c.place ≠ d.place :=
        fun c mem => different c mem d List.mem_cons_self
      have differentLater : ∀ c ∈ first, ∀ e ∈ second, c.place ≠ e.place :=
        fun c mem e later => different c mem e (List.mem_cons_of_mem d later)
      obtain ⟨store, reports⟩ := ih differentLater (s.change d).store
      have unchanged : (s.change d).store.answers first = s.answers first :=
        answers_change differentHere s
      -- The change comes before the whole first list here, and after it in the store to reach.
      refine ⟨?_, .right (unchanged ▸ reports)⟩
      rw [changeAll_cons, store, changeAll_cons, change_changeAll differentHere]

/-- Changes of two different views commute, and each is answered alike before and after the other.
However two lists of changes are interleaved, if none of the first is of a view that one of the
second is of, they lead to the store that the first list and then the second leads to, and each
change is answered as in its own list. -/
theorem change_interleaved (s : Store) :
    (∀ c d : ViewChange, c.place ≠ d.place →
      ((s.change c).store.change d).store = ((s.change d).store.change c).store ∧
        (s.change d).store.answerTo c = s.answerTo c ∧
        (s.change c).store.answerTo d = s.answerTo d) ∧
    ∀ first second : List ViewChange, (∀ c ∈ first, ∀ d ∈ second, c.place ≠ d.place) →
      ∀ mixed, Interleaves first second mixed →
        s.changeAll mixed = (s.changeAll first).changeAll second ∧
          Interleaves (s.answers first) (s.answers second) (s.answers mixed) := by
  refine ⟨?_, ?_⟩
  · intro c d different
    exact ⟨change_comm different s, answerTo_change different s, answerTo_change different.symm s⟩
  · intro first second different mixed interleaves
    exact changeAll_interleaved interleaves different s

/-- A user changes the first view of the peers while another one changes the second one and a page
that is not registered. Two of the changes are rejected. -/
theorem change_interleaved_peers :
    let s := (empty .standard).run [.register .peers (.plain "A" Catalog.peersColumns),
      .dispatch .peers (.addView (.plain "B" Catalog.peersColumns))]
    let first : List ViewChange :=
      [⟨.peers, 0, .deleteColumn 0⟩, ⟨.peers, 0, .deleteColumn 1⟩]
    let second : List ViewChange :=
      [⟨.peers, 1, .deleteColumn 1⟩, ⟨.closedChannels, 0, .setTitle "C"⟩]
    let mixed : List ViewChange :=
      [⟨.peers, 1, .deleteColumn 1⟩, ⟨.peers, 0, .deleteColumn 0⟩,
        ⟨.closedChannels, 0, .setTitle "C"⟩, ⟨.peers, 0, .deleteColumn 1⟩]
    (∀ c ∈ first, ∀ d ∈ second, c.place ≠ d.place) ∧ Interleaves first second mixed ∧
      s.changeAll mixed = (s.changeAll first).changeAll second ∧
      ((s.change ⟨.peers, 0, .deleteColumn 1⟩).store.change ⟨.peers, 1, .deleteColumn 1⟩).store =
        ((s.change ⟨.peers, 1, .deleteColumn 1⟩).store.change ⟨.peers, 0, .deleteColumn 1⟩).store ∧
      (s.answers mixed).map (fun entry => entry.2.1) =
        [.ok (), .error (.edit (.lockedColumn "peerAlias")), .error (.unknownPage .closedChannels),
          .ok ()] := by
  intro s first second mixed
  have different : ∀ c ∈ first, ∀ d ∈ second, c.place ≠ d.place := by decide
  have interleaves : Interleaves first second mixed := .right (.left (.right (.left .nil)))
  obtain ⟨pairs, lists⟩ := change_interleaved s
  refine ⟨different, interleaves, (lists first second different mixed interleaves).1, ?_, rfl⟩
  exact (pairs ⟨.peers, 0, .deleteColumn 1⟩ ⟨.peers, 1, .deleteColumn 1⟩ (by decide)).1

end Store

end TableView
