import TableView.Definition.Filter
import TableView.Proofs.ItemByItem
import TableView.Proofs.Json.RoundTrip

/-!
# The numbers of a definition

Only conditions hold numbers. What is read back of a definition has each of them replaced
by what is read of its text, and there is nothing if one of them is not read as a number
(`Filter.reread?`). So a definition is read back as it was exactly if all its numbers are
(`Filter.reread?_eq_some_self_iff`). By a reader of nearest numbers these are the finite
ones (`Filter.reread?_eq_ite`).
-/

namespace TableView

open Json

/-- The number that is read back of one, if a number is. -/
def Binary64.reread? [NumberReader] (x : Binary64) : Option Binary64 := (float x).rereadLeaf.number?

/-- Only of finite numbers a number is read back, whatever reads it. -/
theorem Binary64.isFinite_of_isSome_reread? [NumberReader] {x : Binary64}
    (read : x.reread?.isSome) : x.isFinite := by
  cases finite : x.isFinite with
  | true => rfl
  | false =>
      rw [reread?, rereadLeaf, floatText, if_neg (by simp [finite])] at read
      exact Bool.noConfusion read

theorem Binary64.reread?_of_isFinite {x : Binary64} (finite : x.isFinite) :
    x.reread? = some x := by
  rw [reread?, rereadLeaf_float, if_pos finite]
  rfl

namespace NumberTest

/-- The numbers of a test. -/
def numbers : NumberTest → List Binary64
  | equals value => [value]
  | notEquals value => [value]
  | greaterThan value => [value]
  | greaterThanOrEqual value => [value]
  | lessThan value => [value]
  | lessThanOrEqual value => [value]
  | between least greatest => [least, greatest]
  | notBetween least greatest => [least, greatest]

/-- Whether all numbers of a test are finite. -/
def isFinite : NumberTest → Bool
  | equals value => value.isFinite
  | notEquals value => value.isFinite
  | greaterThan value => value.isFinite
  | greaterThanOrEqual value => value.isFinite
  | lessThan value => value.isFinite
  | lessThanOrEqual value => value.isFinite
  | between least greatest => least.isFinite && greatest.isFinite
  | notBetween least greatest => least.isFinite && greatest.isFinite

/-- What is read back of a test. -/
def reread? [NumberReader] : NumberTest → Option NumberTest
  | equals value => value.reread?.map equals
  | notEquals value => value.reread?.map notEquals
  | greaterThan value => value.reread?.map greaterThan
  | greaterThanOrEqual value => value.reread?.map greaterThanOrEqual
  | lessThan value => value.reread?.map lessThan
  | lessThanOrEqual value => value.reread?.map lessThanOrEqual
  | between least greatest => do some (between (← least.reread?) (← greatest.reread?))
  | notBetween least greatest => do some (notBetween (← least.reread?) (← greatest.reread?))

theorem reread?_eq_some_self_iff [NumberReader] {test : NumberTest} :
    test.reread? = some test ↔ ∀ x ∈ test.numbers, x.reread? = some x := by
  cases test <;> simp [reread?, numbers, Option.bind_eq_some_iff]

theorem isSome_reread? [NumberReader] {test : NumberTest} :
    test.reread?.isSome ↔ ∀ x ∈ test.numbers, x.reread?.isSome := by
  cases test with
  | between least greatest | notBetween least greatest =>
      cases low : least.reread? <;> cases high : greatest.reread? <;>
        simp [reread?, numbers, low, high]
  | _ => simp [reread?, numbers]

theorem isFinite_iff {test : NumberTest} : test.isFinite ↔ ∀ x ∈ test.numbers, x.isFinite := by
  cases test <;> simp [isFinite, numbers]

end NumberTest

namespace Condition

/-- The numbers of a condition. -/
def numbers : Condition → List Binary64
  | number test => test.numbers
  | duration test => test.numbers
  | _ => []

/-- Whether all numbers of a condition are finite. -/
def isFinite : Condition → Bool
  | number test => test.isFinite
  | duration test => test.isFinite
  | _ => true

/-- What is read back of a condition. -/
def reread? [NumberReader] : Condition → Option Condition
  | number test => test.reread?.map number
  | duration test => test.reread?.map duration
  | c => some c

theorem reread?_eq_some_self_iff [NumberReader] {c : Condition} :
    c.reread? = some c ↔ ∀ x ∈ c.numbers, x.reread? = some x := by
  cases c <;> simp [reread?, numbers, NumberTest.reread?_eq_some_self_iff]

theorem isSome_reread? [NumberReader] {c : Condition} :
    c.reread?.isSome ↔ ∀ x ∈ c.numbers, x.reread?.isSome := by
  cases c <;> simp [reread?, numbers, NumberTest.isSome_reread?]

theorem isFinite_iff {c : Condition} : c.isFinite ↔ ∀ x ∈ c.numbers, x.isFinite := by
  cases c <;> simp [isFinite, numbers, NumberTest.isFinite_iff]

end Condition

namespace Filter

/-- The numbers of a filter. -/
def numbers (f : Filter) : List Binary64 := f.clauses.flatMap (·.condition.numbers)

/-- Whether all numbers of a filter are finite. -/
def isFinite (f : Filter) : Bool := f.clauses.all (·.condition.isFinite)

theorem isFinite_clause (c : Clause) : (clause c).isFinite = c.condition.isFinite := by
  simp [isFinite, clauses]

theorem isFinite_group (combinator : Combinator) (children : List Filter) :
    (group combinator children).isFinite = children.all isFinite := by
  simp only [isFinite, clauses, clausesOf_eq, List.all_flatMap]
  rfl

theorem numbers_clause (c : Clause) : (clause c).numbers = c.condition.numbers := by
  simp [numbers, clauses]

theorem numbers_group (combinator : Combinator) (children : List Filter) :
    (group combinator children).numbers = children.flatMap numbers := by
  simp only [numbers, clauses, clausesOf_eq, List.flatMap_assoc]
  rfl

mutual

/-- What is read back of a filter. -/
def reread? [NumberReader] : Filter → Option Filter
  | clause c => c.condition.reread?.map fun condition => clause ⟨c.columnKey, condition⟩
  | group combinator children => (rereadAll? children).map (group combinator)

/-- What is read back of a list of filters. -/
def rereadAll? [NumberReader] : List Filter → Option (List Filter)
  | [] => some []
  | f :: rest => do some ((← reread? f) :: (← rereadAll? rest))

end

@[simp] theorem rereadAll?_eq [NumberReader] (fs : List Filter) :
    rereadAll? fs = fs.mapM reread? := by
  induction fs with
  | nil => rfl
  | cons f rest ih =>
      rw [rereadAll?, ih, List.mapM_cons]
      rfl

theorem reread?_eq_some_self_iff [NumberReader] {f : Filter} :
    f.reread? = some f ↔ ∀ x ∈ f.numbers, x.reread? = some x := by
  induction f with
  | clause c =>
      rw [numbers_clause, ← Condition.reread?_eq_some_self_iff, reread?]
      cases c.condition.reread? with
      | none => simp
      | some condition =>
          have same : (⟨c.columnKey, condition⟩ : Clause) = c ↔ condition = c.condition := by
            cases c
            simp
          simp [same]
  | group combinator children ih =>
      have each : (group combinator children).reread? = some (group combinator children) ↔
          children.mapM reread? = some children := by
        rw [reread?, rereadAll?_eq]
        cases children.mapM reread? <;> simp
      rw [each, mapM_eq_some_self_iff, numbers_group, List.forall_mem_flatMap]
      exact forall₂_congr ih

/-- Nothing is read back of a filter exactly if one of its numbers is not read as a number. -/
theorem isSome_reread? [NumberReader] {f : Filter} :
    f.reread?.isSome ↔ ∀ x ∈ f.numbers, x.reread?.isSome := by
  induction f with
  | clause c => rw [reread?, Option.isSome_map, Condition.isSome_reread?, numbers_clause]
  | group combinator children ih =>
      rw [reread?, rereadAll?_eq, Option.isSome_map, isSome_mapM, numbers_group,
        List.forall_mem_flatMap]
      exact forall₂_congr ih

theorem isFinite_iff {f : Filter} : f.isFinite ↔ ∀ x ∈ f.numbers, x.isFinite := by
  rw [isFinite, List.all_eq_true, numbers, List.forall_mem_flatMap]
  exact forall₂_congr fun c _ => Condition.isFinite_iff

/-- A number that is not finite is written as null, so no reader reads its filter back. -/
theorem reread?_of_not_finite [NumberReader] {f : Filter} (unbounded : f.isFinite = false) :
    f.reread? = none := by
  rw [← Option.not_isSome_iff_eq_none, isSome_reread?]
  intro each
  refine Bool.false_ne_true (unbounded.symm.trans (isFinite_iff.2 ?_))
  exact fun x mem => Binary64.isFinite_of_isSome_reread? (each x mem)

/-- A reader of nearest numbers reads a filter back if its numbers are finite. -/
theorem reread?_eq_ite (f : Filter) : f.reread? = if f.isFinite then some f else none := by
  cases finite : f.isFinite with
  | false => rw [reread?_of_not_finite finite, if_neg Bool.false_ne_true]
  | true =>
      rw [if_pos rfl, reread?_eq_some_self_iff]
      exact fun x mem => Binary64.reread?_of_isFinite (isFinite_iff.1 finite x mem)

end Filter

end TableView
