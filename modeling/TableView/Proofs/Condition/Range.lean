import TableView.Proofs.Binary64.Monotone
import TableView.Proofs.Condition.Complement
import TableView.Sort

/-!
# Range conditions

A range condition asks whether a number, a duration or an instant lies between bounds. Whatever
the bounds are, of two values that meet it every value between them in the order of sorting meets
it as well (`Condition.accepts_between`). For a value between two values of one section of the
order belongs to that section, and there the order of sorting is the order that the tests compare
by, also where large durations are rounded to numbers for the test only.
-/

namespace TableView

namespace Binary64

variable {x y : Binary64}

theorem eq_eq_true_iff :
    x.eq y = true ↔ (x.isNaN = false ∧ y.isNaN = false) ∧ x.rank = y.rank := by
  cases left : x.isNaN <;> cases right : y.isNaN <;> simp [eq, compare?, left, right]

theorem lt_eq_true_iff :
    x.lt y = true ↔ (x.isNaN = false ∧ y.isNaN = false) ∧ x.rank < y.rank := by
  cases left : x.isNaN <;> cases right : y.isNaN <;>
    simp [lt, compare?, left, right, Int.compare_eq_lt]

theorem le_eq_true_iff :
    x.le y = true ↔ (x.isNaN = false ∧ y.isNaN = false) ∧ x.rank ≤ y.rank := by
  rw [le, Bool.or_eq_true, lt_eq_true_iff, eq_eq_true_iff, ← and_or_left, Int.le_iff_lt_or_eq]

end Binary64

namespace NumberTest

/-- Whether the numbers that pass the test lie between bounds, perhaps on one side only. -/
def isRange : NumberTest → Bool
  | notEquals _ => false
  | notBetween _ _ => false
  | _ => true

/-- A number between two numbers that pass a range test passes it. -/
theorem accepts_between {test : NumberTest} (range : test.isRange = true) {x y z : Binary64}
    (number : y.isNaN = false) (low : x.rank ≤ y.rank) (high : y.rank ≤ z.rank)
    (first : test.accepts x = true) (last : test.accepts z = true) : test.accepts y = true := by
  cases test with
  | notEquals value => cases range
  | notBetween least greatest => cases range
  | equals value | greaterThan value | greaterThanOrEqual value | lessThan value
  | lessThanOrEqual value | between least greatest =>
      simp only [accepts, Bool.and_eq_true, Binary64.eq_eq_true_iff, Binary64.lt_eq_true_iff,
        Binary64.le_eq_true_iff, Bool.not_eq_true'] at first last ⊢
      grind

theorem isNaN_of_accepts {test : NumberTest} {x : Binary64} (passes : test.accepts x = true) :
    x.isNaN = false := by
  cases nan : x.isNaN with
  | false => rfl
  | true => rw [test.accepts_of_isNaN nan] at passes; cases passes

end NumberTest

theorem DateTest.accepts_between {test : DateTest} {s t u : Instant} (low : s.rank ≤ t.rank)
    (high : t.rank ≤ u.rank) (first : test.accepts s = true) (last : test.accepts u = true) :
    test.accepts t = true := by
  cases test with
  | before value | after value | between start finish =>
      simp only [accepts, Instant.isBefore, Instant.isAtMost, Bool.and_eq_true,
        decide_eq_true_eq] at first last ⊢
      omega

namespace Value

variable {a b c : Value} {x y : Binary64}

/-- Kinds come in the order of their ranks, but numbers and durations among each other. -/
theorem kindRank_le (upTo : (a.compareTo b).isLE) : a.kindRank ≤ max 1 b.kindRank := by
  cases a <;> cases b <;> simp_all [kindRank, compareTo, Nat.isLE_compare]

theorem kindRank_of_magnitude? (measured : a.magnitude? = some x) : a.kindRank ≤ 1 := by
  cases a <;> simp_all [kindRank, magnitude?]

theorem exists_magnitude? (early : a.kindRank ≤ 1) (present : a.isBlank = false) :
    ∃ x, a.magnitude? = some x ∧ x.isNaN = false := by
  cases a with
  | number x => exact ⟨x, rfl, present⟩
  | duration d => exact ⟨.ofInt d.toInt, rfl, Binary64.isNaN_ofInt _⟩
  | _ => simp [kindRank] at early

theorem magnitude_mono (left : a.magnitude? = some x) (right : b.magnitude? = some y)
    (presentLeft : x.isNaN = false) (presentRight : y.isNaN = false)
    (upTo : (a.compareTo b).isLE) : x.rank ≤ y.rank := by
  cases a with
  | number _ =>
      obtain rfl := Option.some.inj left
      cases b with
      | number _ | duration _ =>
          obtain rfl := Option.some.inj right
          rwa [compareTo, compareNumbers, Binary64.compare?_eq presentLeft presentRight,
            Option.getD_some, Int.isLE_compare] at upTo
      | _ => cases right
  | duration _ =>
      obtain rfl := Option.some.inj left
      cases b with
      | number _ =>
          obtain rfl := Option.some.inj right
          rwa [compareTo, compareNumbers, Binary64.compare?_eq presentLeft presentRight,
            Option.getD_some, Int.isLE_compare] at upTo
      | duration _ =>
          obtain rfl := Option.some.inj right
          rw [compareTo, Int.isLE_compare] at upTo
          exact Binary64.rank_ofInt_mono upTo
      | _ => cases right
  | _ => cases left

/-- What stands between two magnitudes is a magnitude between them. -/
theorem magnitude_between (below : (a.compareTo b).isLE) (above : (b.compareTo c).isLE)
    (present : b.isBlank = false) {z : Binary64} (left : a.magnitude? = some x)
    (right : c.magnitude? = some z) (numberLeft : x.isNaN = false) (numberRight : z.isNaN = false) :
    ∃ y, b.magnitude? = some y ∧ y.isNaN = false ∧ x.rank ≤ y.rank ∧ y.rank ≤ z.rank := by
  have early : b.kindRank ≤ 1 := by
    have upTo := kindRank_le above
    have last := kindRank_of_magnitude? right
    omega
  obtain ⟨y, measured, number⟩ := exists_magnitude? early present
  exact ⟨y, measured, number, magnitude_mono left measured numberLeft number below,
    magnitude_mono measured right number numberRight above⟩

theorem date_between {s u : Instant} (below : ((date s).compareTo b).isLE)
    (above : (b.compareTo (date u)).isLE) : ∃ t, b = date t ∧ s.rank ≤ t.rank ∧ t.rank ≤ u.rank := by
  have section_ : b.kindRank = 2 := by
    have least : 2 ≤ max 1 b.kindRank := kindRank_le below
    have greatest : b.kindRank ≤ max 1 2 := kindRank_le above
    omega
  cases b with
  | date t => exact ⟨t, rfl, Int.isLE_compare.1 below, Int.isLE_compare.1 above⟩
  | _ => simp [kindRank] at section_

end Value

namespace Condition

variable {c : Condition} {a b d : Value}

/-- Whether a condition asks for values between bounds. -/
def isRange : Condition → Bool
  | number test => test.isRange
  | duration test => test.isRange
  | date _ => true
  | _ => false

theorem isBlank_of_isRange {v : Value} (range : c.isRange = true) (accepted : c.accepts v = true) :
    v.isBlank = false := by
  have other : c.asksPresence = false := by
    cases c <;> first | rfl | cases range
  cases blank : v.isBlank with
  | false => rfl
  | true => rw [accepts_of_isBlank other blank] at accepted; cases accepted

theorem accepts_number_iff (test : NumberTest) (v : Value) :
    (number test).accepts v = true ↔ ∃ x, v = .number x ∧ test.accepts x = true := by
  cases v <;> simp [accepts, acceptsPresent, Value.isEmpty]

theorem accepts_duration_iff (test : NumberTest) (v : Value) :
    (duration test).accepts v = true ↔ ∃ x, v.magnitude? = some x ∧ test.accepts x = true := by
  cases v <;> simp [accepts, acceptsPresent, Value.isEmpty, Value.magnitude?]

theorem accepts_date_iff (test : DateTest) (v : Value) :
    (date test).accepts v = true ↔ ∃ t, v = .date t ∧ test.accepts t = true := by
  cases v <;> simp [accepts, acceptsPresent, Value.isEmpty]

/-- A value that stands between two values that meet a range condition meets it, but not a
duration that stands between two numbers. -/
theorem accepts_between (range : c.isRange = true) (below : (a.compareTo b).isLE)
    (above : (b.compareTo d).isLE) (present : b.isBlank = false)
    (alone : ∀ test, c = number test → ∀ seconds, b ≠ .duration seconds)
    (first : c.accepts a = true) (last : c.accepts d = true) : c.accepts b = true := by
  cases c with
  | number test =>
      obtain ⟨x, rfl, passes⟩ := (accepts_number_iff test a).1 first
      obtain ⟨z, rfl, passesLast⟩ := (accepts_number_iff test d).1 last
      obtain ⟨y, measured, number, low, high⟩ := Value.magnitude_between below above present rfl rfl
        (NumberTest.isNaN_of_accepts passes) (NumberTest.isNaN_of_accepts passesLast)
      cases b with
      | number _ =>
          obtain rfl := Option.some.inj measured
          exact (accepts_number_iff test _).2
            ⟨_, rfl, NumberTest.accepts_between range number low high passes passesLast⟩
      | duration seconds => exact absurd rfl (alone test rfl seconds)
      | _ => cases measured
  | duration test =>
      obtain ⟨x, left, passes⟩ := (accepts_duration_iff test a).1 first
      obtain ⟨z, right, passesLast⟩ := (accepts_duration_iff test d).1 last
      obtain ⟨y, measured, number, low, high⟩ := Value.magnitude_between below above present left right
        (NumberTest.isNaN_of_accepts passes) (NumberTest.isNaN_of_accepts passesLast)
      exact (accepts_duration_iff test b).2
        ⟨y, measured, NumberTest.accepts_between range number low high passes passesLast⟩
  | date test =>
      obtain ⟨s, rfl, passes⟩ := (accepts_date_iff test a).1 first
      obtain ⟨u, rfl, passesLast⟩ := (accepts_date_iff test d).1 last
      obtain ⟨t, rfl, low, high⟩ := Value.date_between below above
      exact (accepts_date_iff test _).2 ⟨t, rfl, DateTest.accepts_between low high passes passesLast⟩
  | text test | tag test | boolean expected | isEmpty | isNotEmpty => cases range

end Condition

end TableView
