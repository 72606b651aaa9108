import Mathlib.Algebra.GroupWithZero.Nat
import Mathlib.Algebra.Order.BigOperators.Group.List
import Mathlib.Algebra.Order.Group.Nat
import Mathlib.Algebra.Ring.Int.Defs
import TableView.Proofs.Binary64.Exact
import TableView.Proofs.Group.Partition

/-!
# Sums of durations

Durations are added up as numbers, and their sum is rounded to whole seconds again. As long as
their lengths together are at most `2 ^ 53` seconds every partial sum is a representable whole
number, in whatever order the durations come and wherever other values stand between them. So
nothing is rounded on the way, and the sum is exact (`RunningSum.result_isTotal`). The groups of
some records have all their durations, so that their sums are together the sum over the records
(`Group.sum_durations`).
-/

namespace TableView

/-- How long a duration is, in seconds. -/
def Value.seconds? : Value → Option Int
  | .duration seconds => some seconds.toInt
  | _ => none

/-- The durations among some values, in seconds. -/
def durations (values : List Value) : List Int := values.filterMap (·.seconds?)

/-- The length of some durations together, be they positive or negative. -/
def totalLength (seconds : List Int) : Nat := (seconds.map (·.natAbs)).sum

/-- Whether a value is the exact sum of some durations: it is empty if there is none, and else
a duration of just as many seconds. -/
inductive Value.IsTotal : List Int → Value → Prop where
  | nothing : IsTotal [] .empty
  | total {seconds : List Int} {sum : Int64} (any : seconds ≠ [])
      (exact : sum.toInt = seconds.sum) : IsTotal seconds (.duration sum)

variable {values : List Value} {seconds : List Int}

theorem Value.seconds?_eq_some_iff {v : Value} {s : Int} :
    v.seconds? = some s ↔ ∃ d : Int64, v = .duration d ∧ d.toInt = s := by
  cases v <;> simp [seconds?]

theorem durations_append (before after : List Value) :
    durations (before ++ after) = durations before ++ durations after := List.filterMap_append

/-- An exact sum counts like the durations that it sums up. -/
theorem Value.IsTotal.sum_durations {v : Value} (isTotal : v.IsTotal seconds) :
    (durations [v]).sum = seconds.sum := by
  cases isTotal with
  | nothing => rfl
  | total _ exact => simp [durations, seconds?, exact]

/-- Exact sums are together the sum of all durations that they sum up. -/
theorem sum_durations_map {l : List α} {total : α → Value} {seconds : α → List Int}
    (areTotals : ∀ a ∈ l, (total a).IsTotal (seconds a)) :
    (durations (l.map total)).sum = (l.map fun a => (seconds a).sum).sum := by
  induction l with
  | nil => rfl
  | cons a rest ih =>
      obtain ⟨isTotal, areTotalsRest⟩ := List.forall_mem_cons.1 areTotals
      have split : durations (total a :: rest.map total) =
          durations [total a] ++ durations (rest.map total) := durations_append [total a] _
      rw [List.map_cons, split, List.sum_append, isTotal.sum_durations, ih areTotalsRest,
        List.map_cons, List.sum_cons]

theorem natAbs_sum_le_totalLength (seconds : List Int) :
    seconds.sum.natAbs ≤ totalLength seconds :=
  List.le_sum_of_subadditive Int.natAbs (Nat.le_of_eq Int.natAbs_zero) Int.natAbs_add_le seconds

theorem totalLength_le_of_sublist {fewer : List Int} (sublist : fewer.Sublist seconds) :
    totalLength fewer ≤ totalLength seconds :=
  (sublist.map _).sum_le_sum fun _ _ => Nat.zero_le _

namespace RunningSum

open Binary64 (exactBound ofInt)

variable {before : Int} {isEmpty : Bool}

theorem start_eq : start = ⟨ofInt 0, true⟩ := by
  rw [Binary64.ofInt_zero]
  rfl

/-- A duration is added exactly to a whole number of seconds. -/
theorem add_duration {added : Int64} (exactBefore : before.natAbs ≤ exactBound)
    (exactAdded : added.toInt.natAbs ≤ exactBound) :
    add ⟨ofInt before, isEmpty⟩ (.duration added) = ⟨ofInt (before + added.toInt), false⟩ := by
  simp only [add, Value.magnitude?, Binary64.isNaN_ofInt, Bool.false_eq_true, if_false,
    Binary64.ofInt_add exactBefore exactAdded]

theorem add_of_other {v : Value} (numberless : v.kind? ≠ some .number)
    (other : v.seconds? = none) (s : RunningSum) : s.add v = s := by
  cases v with
  | number x => exact absurd rfl numberless
  | duration added => cases other
  | _ => rfl

/-- Adding values to a whole number of seconds adds exactly the durations among them. -/
theorem foldl_add (numberless : ∀ v ∈ values, v.kind? ≠ some .number)
    (bounded : before.natAbs + totalLength (durations values) ≤ exactBound) :
    values.foldl add ⟨ofInt before, isEmpty⟩ =
      ⟨ofInt (before + (durations values).sum), isEmpty && (durations values).isEmpty⟩ := by
  -- What a duration takes from the bound is at least what it moves the sum away from zero.
  induction values generalizing before isEmpty with
  | nil => simp [durations]
  | cons v rest ih =>
      obtain ⟨numberlessHere, numberlessRest⟩ := List.forall_mem_cons.1 numberless
      rw [List.foldl_cons]
      cases added : v.seconds? with
      | none =>
          have unchanged : durations (v :: rest) = durations rest :=
            List.filterMap_cons_none added
          rw [unchanged] at bounded ⊢
          rw [add_of_other numberlessHere added, ih numberlessRest bounded]
      | some s =>
          have longer : durations (v :: rest) = s :: durations rest :=
            List.filterMap_cons_some added
          obtain ⟨d, rfl, rfl⟩ := Value.seconds?_eq_some_iff.1 added
          rw [longer, totalLength, List.map_cons, List.sum_cons, ← totalLength] at bounded
          have boundedRest :
              (before + d.toInt).natAbs + totalLength (durations rest) ≤ exactBound := by
            have triangle := Int.natAbs_add_le before d.toInt
            omega
          rw [add_duration (by omega) (by omega), ih numberlessRest boundedRest, longer,
            List.sum_cons, Int.add_assoc, Bool.false_and, List.isEmpty_cons, Bool.and_false]

/-- The sum of values is the exact sum of the durations among them, if these are not too long
together and there is no number. -/
theorem result_isTotal (numberless : ∀ v ∈ values, v.kind? ≠ some .number)
    (bounded : totalLength (durations values) ≤ exactBound) :
    ((ofValues values).result .duration).IsTotal (durations values) := by
  have fromZero : (0 : Int).natAbs + totalLength (durations values) ≤ exactBound := by
    rwa [Int.natAbs_zero, Nat.zero_add]
  rw [ofValues, start_eq, foldl_add numberless fromZero, Int.zero_add, Bool.true_and, result]
  cases found : durations values with
  | nil => exact .nothing
  | cons s rest =>
      have inRange : (s :: rest).sum.natAbs ≤ exactBound := by
        rw [found] at bounded
        exact Nat.le_trans (natAbs_sum_le_totalLength _) bounded
      exact .total (List.cons_ne_nil s rest) (Binary64.toInt_toInt64_ofInt inRange)

end RunningSum

namespace Group

variable {groupedBy : String} {records : List Record} {g : Group}

theorem partition_members_sublist (mem : g ∈ partition groupedBy records) :
    g.members.Sublist records := by
  obtain ⟨first, -, rfl⟩ := List.mem_map.1 mem
  exact List.filter_sublist

/-- The sums over the groups are together the sum over all records. -/
theorem sum_durations (key groupedBy : String) (records : List Record) :
    ((partition groupedBy records).map fun g =>
        (durations (g.members.map (·.value key))).sum).sum =
      (durations (records.map (·.value key))).sum := by
  have perm := ((partition_members_perm groupedBy records).map (·.value key)).filterMap
    (·.seconds?)
  rw [durations, ← perm.sum_eq, List.map_flatMap, List.filterMap_flatMap, List.flatMap_def,
    List.sum_flatten, List.map_map]
  rfl

end Group

end TableView
