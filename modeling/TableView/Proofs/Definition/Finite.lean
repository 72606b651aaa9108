import TableView.Definition.Edit
import TableView.Proofs.Definition.Filter
import TableView.Proofs.Json.Expressible

/-!
# Definitions read from JSON are finite

A number that is not finite cannot be spelled in JSON. So whatever is read from a tree
that can be spelled has finite numbers only, whichever way the tree spells it.
-/

namespace TableView

open Json

/-- Whether all numbers of a view are finite. -/
def View.isFinite (v : View) : Bool := v.filter.isFinite

/-- Whether all numbers of a page's views are finite. -/
def PageViews.isFinite (p : PageViews) : Bool := p.views.all (·.isFinite)

/-- Whether all numbers of a change of a view are finite. -/
def ViewEdit.isFinite : ViewEdit → Bool
  | setFilter filter => filter.isFinite
  | _ => true

/-- Whether all numbers of an edit are finite. -/
def Edit.isFinite : Edit → Bool
  | inView _ edit => edit.isFinite
  | addView view => view.isFinite
  | _ => true

variable {access : Access} {v : Json}

namespace NumberTest

theorem isFinite_of_against? (expressible : v.isExpressible = true) {x : Binary64}
    (read : against? v = some x) : x.isFinite = true := by
  obtain ⟨fields, spelled, required⟩ := Option.bind_eq_some_iff.1 read
  obtain ⟨part, partExpressible, number⟩ :=
    (all_isExpressible_of_fields? expressible spelled).exists_of_required? required
  exact isFinite_of_number? partExpressible number

theorem isFinite_of_range? (expressible : v.isExpressible = true) {least greatest : Binary64}
    (read : range? v = some (least, greatest)) :
    (least.isFinite && greatest.isFinite) = true := by
  simp only [range?, Option.bind_eq_bind, Option.bind_eq_some_iff, Option.some.injEq,
    Prod.mk.injEq] at read
  obtain ⟨fields, spelled, low, readLow, high, readHigh, rfl, rfl⟩ := read
  have parts := all_isExpressible_of_fields? expressible spelled
  obtain ⟨_, lowExpressible, lowNumber⟩ := parts.exists_of_required? readLow
  obtain ⟨_, highExpressible, highNumber⟩ := parts.exists_of_required? readHigh
  rw [isFinite_of_number? lowExpressible lowNumber, isFinite_of_number? highExpressible highNumber]
  rfl

theorem isFinite_of_ofJson? (expressible : v.isExpressible = true) {test : NumberTest}
    (read : ofJson? access v = some test) : test.isFinite = true := by
  simp only [ofJson?, Option.bind_eq_bind, Option.bind_eq_some_iff] at read
  obtain ⟨⟨name, rest⟩, tagged, read⟩ := read
  have restExpressible := isExpressible_of_taggedFields? expressible tagged
  have one : ∀ make : Binary64 → NumberTest, (∀ x, (make x).isFinite = x.isFinite) →
      (against? rest).map make = some test → test.isFinite = true := by
    intro make same found
    obtain ⟨x, number, rfl⟩ := Option.map_eq_some_iff.1 found
    rw [same, isFinite_of_against? restExpressible number]
  have two : ∀ make : Binary64 × Binary64 → NumberTest,
      (∀ x y, (make (x, y)).isFinite = (x.isFinite && y.isFinite)) →
      (range? rest).map make = some test → test.isFinite = true := by
    intro make same found
    obtain ⟨⟨x, y⟩, numbers, rfl⟩ := Option.map_eq_some_iff.1 found
    rw [same, isFinite_of_range? restExpressible numbers]
  split at read
  all_goals first
    | exact one _ (fun _ => rfl) read
    | exact two _ (fun _ _ => rfl) read
    | cases read

end NumberTest

theorem Json.Tagged.eq_of_bare? {tagged : Tagged} {value a : α}
    (read : tagged.bare? value = some a) : a = value := by
  rw [Tagged.bare?] at read
  split at read
  · exact (Option.some.inj read).symm
  · exact (Option.some.inj read).symm
  · cases read

theorem Condition.isFinite_of_ofJson? (expressible : v.isExpressible = true) {c : Condition}
    (read : ofJson? access v = some c) : c.isFinite = true := by
  simp only [ofJson?, Option.bind_eq_bind, Option.bind_eq_some_iff] at read
  obtain ⟨tagged, parted, read⟩ := read
  have numbers : ∀ make : NumberTest → Condition, (∀ test, (make test).isFinite = test.isFinite) →
      (tagged.required? NumberTest.ofJson?).map make = some c → c.isFinite = true := by
    intro make same found
    obtain ⟨test, required, rfl⟩ := Option.map_eq_some_iff.1 found
    obtain ⟨part, content, decoded⟩ := Option.bind_eq_some_iff.1 required
    have partExpressible := (isPart_of_taggedContent? parted content).isExpressible expressible
    rw [same, NumberTest.isFinite_of_ofJson? partExpressible decoded]
  split at read
  · exact numbers _ (fun _ => rfl) read
  · exact numbers _ (fun _ => rfl) read
  -- No other condition holds a number.
  all_goals first
    | (obtain ⟨_, -, rfl⟩ := Option.map_eq_some_iff.1 read; rfl)
    | (obtain rfl := Tagged.eq_of_bare? read; rfl)
    | cases read

theorem Clause.isFinite_of_ofMembers? {members : List (String × Json)}
    (expressible : (obj members).isExpressible = true) {c : Clause}
    (read : ofMembers? members = some c) : c.condition.isFinite = true := by
  have held : (obj (members.filter (·.1 != "columnKey"))).isExpressible = true := by
    rw [isExpressible_obj] at expressible ⊢
    intro m mem
    exact expressible m (List.mem_filter.1 mem).1
  simp only [ofMembers?, Option.bind_eq_bind] at read
  split at read
  · simp only [Option.bind_eq_some_iff, Option.ite_none_right_eq_some, Option.some.injEq] at read
    obtain ⟨_, -, -, condition, decoded, rfl⟩ := read
    exact Condition.isFinite_of_ofJson? held decoded
  · cases read

namespace Filter

theorem exists_of_childrenOf? {members : List (String × Json)} {children : List Filter}
    (read : childrenOf? members = some children) :
    ∃ m ∈ members, listOf? m.2 = some children := by
  induction members with
  | nil => cases read
  | cons m rest ih =>
      obtain ⟨key, part⟩ := m
      rw [childrenOf?] at read
      split at read
      · obtain ⟨-, read⟩ := Option.ite_none_left_eq_some.1 read
        exact ⟨(key, part), List.mem_cons_self, read⟩
      · obtain ⟨m, mem, found⟩ := ih read
        exact ⟨m, List.mem_cons_of_mem _ mem, found⟩

/-- What is read of a tree that can be spelled is finite, as a filter and as a list of them. -/
theorem isFinite_of_ofReadable? (v : Json) : v.isExpressible = true →
    (∀ f, ofReadable? v = some f → f.isFinite = true) ∧
      ∀ fs, listOf? v = some fs → ∀ f ∈ fs, f.isFinite = true := by
  induction v with
  | arr items ih =>
      intro expressible
      rw [isExpressible_arr] at expressible
      refine ⟨?_, ?_⟩
      · intro f read
        cases read
      · intro fs read f mem
        rw [listOf?, ofReadableAll?_eq] at read
        obtain ⟨item, known, found⟩ := exists_of_mapM read mem
        exact (ih item known (expressible item known)).1 f found
  | obj members ih =>
      intro expressible
      refine ⟨?_, ?_⟩
      · intro f read
        rw [ofReadable?] at read
        split at read
        next c clauseRead =>
          obtain rfl := Option.some.inj read
          rw [isFinite_clause]
          exact Clause.isFinite_of_ofMembers? expressible clauseRead
        next =>
          split at read
          next combinator children _ childrenRead =>
            obtain rfl := Option.some.inj read
            obtain ⟨m, mem, found⟩ := exists_of_childrenOf? childrenRead
            have finite := (ih m mem (isExpressible_obj.1 expressible m mem)).2 children found
            rw [isFinite_group, List.all_eq_true]
            exact finite
          next => cases read
      · intro fs read
        cases read
  | _ =>
      intro _
      refine ⟨?_, ?_⟩
      · intro f read
        cases read
      · intro fs read
        cases read

theorem isFinite_of_ofJson? (expressible : v.isExpressible = true) {f : Filter}
    (read : ofJson? v = some f) : f.isFinite = true := by
  obtain ⟨-, read⟩ := Option.ite_none_right_eq_some.1 read
  exact (isFinite_of_ofReadable? v expressible).1 f read

end Filter

theorem View.isFinite_of_ofJson? (expressible : v.isExpressible = true) {view : View}
    (read : ofJson? access v = some view) : view.isFinite = true := by
  simp only [ofJson?, Option.bind_eq_bind, Option.bind_eq_some_iff, Option.some.injEq] at read
  obtain ⟨fields, spelled, _, -, _, -, _, -, filter, readFilter, _, -, _, -, rfl⟩ := read
  have parts := all_isExpressible_of_fields? expressible spelled
  show filter.isFinite = true
  obtain rfl | ⟨part, partExpressible, decoded⟩ := parts.exists_of_withDefault? readFilter
  · rfl
  · exact Filter.isFinite_of_ofJson? partExpressible decoded

theorem PageViews.isFinite_of_ofJson? (expressible : v.isExpressible = true) {p : PageViews}
    (read : ofJson? access v = some p) : p.isFinite = true := by
  simp only [ofJson?, Option.bind_eq_bind, Option.bind_eq_some_iff, Option.some.injEq] at read
  obtain ⟨fields, spelled, _, -, views, readViews, _, -, rfl⟩ := read
  have parts := all_isExpressible_of_fields? expressible spelled
  obtain ⟨part, partExpressible, listed⟩ := parts.exists_of_required? readViews
  show views.all (·.isFinite) = true
  rw [List.all_eq_true]
  intro view mem
  obtain ⟨item, isItem, decoded⟩ := exists_of_list? listed mem
  exact View.isFinite_of_ofJson? (isItem.isExpressible partExpressible) decoded

theorem Json.index?_lt (expressible : v.isExpressible = true) {n : Nat} (read : v.index? = some n) :
    n < 0x10000000000000000 := by
  cases v with
  | int i =>
      obtain ⟨-, same⟩ := Option.ite_none_right_eq_some.1 read
      obtain rfl : i.toNat = n := Option.some.inj same
      simp only [isExpressible, Bool.and_eq_true, decide_eq_true_eq] at expressible
      omega
  | _ => cases read

theorem PageViews.selected_lt_of_ofJson? (expressible : v.isExpressible = true) {p : PageViews}
    (read : ofJson? access v = some p) : p.selected < 0x10000000000000000 := by
  simp only [ofJson?, Option.bind_eq_bind, Option.bind_eq_some_iff, Option.some.injEq] at read
  obtain ⟨fields, spelled, _, -, _, -, selected, readSelected, rfl⟩ := read
  have parts := all_isExpressible_of_fields? expressible spelled
  obtain rfl | ⟨part, partExpressible, position⟩ := parts.exists_of_withDefault? readSelected
  · exact Nat.succ_pos _
  · exact Json.index?_lt partExpressible position

namespace Edit

/-- A change of a view that is finite for all fields it may have is finite. -/
theorem isFinite_of_inView? {names : List String} {decode : Fields → Option ViewEdit}
    (expressible : v.isExpressible = true) {e : Edit} (read : inView? v names decode = some e)
    (finite : ∀ fields edit, fields.All (·.isExpressible = true) → decode fields = some edit →
      edit.isFinite = true) : e.isFinite = true := by
  simp only [inView?, Option.bind_eq_bind, Option.bind_eq_some_iff, Option.some.injEq] at read
  obtain ⟨fields, spelled, _, -, edit, decoded, rfl⟩ := read
  exact finite fields edit (all_isExpressible_of_fields? expressible spelled) decoded

/-- Only a new filter and a new view can bring numbers. -/
theorem isFinite_of_ofFields? {name : String} (expressible : v.isExpressible = true) {e : Edit}
    (read : ofFields? name v = some e) : e.isFinite = true := by
  have plain : ∀ {α : Type} {names : List String} {field : Fields → Option α}
      {make : α → ViewEdit}, (∀ a, (make a).isFinite = true) →
      inView? v names (fun fields => (field fields).map make) = some e → e.isFinite = true := by
    intro α names field make finite found
    refine isFinite_of_inView? expressible found ?_
    intro fields edit _ decoded
    obtain ⟨a, -, rfl⟩ := Option.map_eq_some_iff.1 decoded
    exact finite a
  have pair : ∀ {α β : Type} {names : List String} {first : Fields → Option α}
      {second : Fields → Option β} {make : α → β → ViewEdit},
      (∀ a b, (make a b).isFinite = true) →
      inView? v names (fun fields => do
        let a ← first fields
        let b ← second fields
        some (make a b)) = some e → e.isFinite = true := by
    intro α β names first second make finite found
    refine isFinite_of_inView? expressible found ?_
    intro fields edit _ decoded
    simp only [Option.bind_eq_bind, Option.bind_eq_some_iff, Option.some.injEq] at decoded
    obtain ⟨a, -, b, -, rfl⟩ := decoded
    exact finite a b
  have position : ∀ {make : Nat → Edit}, (∀ n, (make n).isFinite = true) →
      (viewIndex? v).map make = some e → e.isFinite = true := by
    intro make finite found
    obtain ⟨n, -, rfl⟩ := Option.map_eq_some_iff.1 found
    exact finite n
  -- One case for each name, in the order of the decoder, and one for all others.
  unfold ofFields? at read
  split at read
  · exact plain (fun _ => rfl) read
  · exact plain (fun _ => rfl) read
  · exact pair (fun _ _ => rfl) read
  · exact pair (fun _ _ => rfl) read
  · refine isFinite_of_inView? expressible read ?_
    intro fields edit parts decoded
    obtain ⟨f, required, rfl⟩ := Option.map_eq_some_iff.1 decoded
    obtain ⟨part, partExpressible, filterRead⟩ := parts.exists_of_required? required
    exact Filter.isFinite_of_ofJson? partExpressible filterRead
  · exact plain (fun _ => rfl) read
  · exact plain (fun _ => rfl) read
  · exact plain (fun _ => rfl) read
  · exact plain (fun _ => rfl) read
  · exact position (fun _ => rfl) read
  · exact position (fun _ => rfl) read
  · obtain ⟨fields, spelled, added⟩ := Option.bind_eq_some_iff.1 read
    obtain ⟨view, required, rfl⟩ := Option.map_eq_some_iff.1 added
    have parts := all_isExpressible_of_fields? expressible spelled
    obtain ⟨part, partExpressible, viewRead⟩ := parts.exists_of_required? required
    exact View.isFinite_of_ofJson? partExpressible viewRead
  · cases read

theorem isFinite_of_ofJson? (expressible : v.isExpressible = true) {e : Edit}
    (read : ofJson? access v = some e) : e.isFinite = true := by
  simp only [ofJson?, Option.bind_eq_bind, Option.bind_eq_some_iff] at read
  obtain ⟨⟨name, rest⟩, tagged, read⟩ := read
  exact isFinite_of_ofFields? (isExpressible_of_taggedFields? expressible tagged) read

end Edit

end TableView
