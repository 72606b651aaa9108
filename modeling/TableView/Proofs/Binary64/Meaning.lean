import Mathlib.Logic.ExistsUnique
import TableView.Proofs.Binary64.Key
import TableView.Proofs.Binary64.Nearest

/-!
# What numbers stand for, and when they are one key

Every 64-bit word is the pattern of one number (`existsUnique_bits`). A pattern stands for a
multiple of `2 ^ -1074`, for an infinity or for nothing (`meaning`), and different patterns can
stand for the same: those of the two zeros do, and all those of NaN. These are the patterns that
are the same key (`sameKey_iff_meaning`), so that being the same key is an equivalence, although
numeric equality is none and equality of patterns tells the zeros apart. The words that
stand for numbers in a lookup agree with it (`keyWord_eq_iff`).
-/

namespace TableView.Binary64

variable {x y : Binary64}

theorem ofBits_bits (x : Binary64) : ofBits x.bits = x := by
  have bound := x.word_lt
  have sign : x.bits.testBit 63 = x.negative := by
    rw [Nat.testBit_eq_decide_div_mod_eq, bits]
    cases x.negative <;> simp <;> omega
  have others : x.bits % 0x8000000000000000 = x.word := by
    rw [bits]
    split <;> omega
  simp only [ofBits, sign, others]

theorem bits_ofBits {word : Nat} (fits : word < 2 ^ 64) : (ofBits word).bits = word := by
  simp only [bits, ofBits, Nat.testBit_eq_decide_div_mod_eq, decide_eq_true_eq]
  split <;> omega

/-- Every 64-bit word is the pattern of one number. -/
theorem existsUnique_bits (word : UInt64) : ∃! x : Binary64, x.bits = word.toNat := by
  refine ⟨ofBits word.toNat, bits_ofBits word.toNat_lt, ?_⟩
  intro x spelled
  rw [← spelled, ofBits_bits]

theorem keyWord_lt_two_pow (x : Binary64) : x.keyWord < 2 ^ 64 := by
  rw [keyWord]
  split
  · decide
  · split
    · decide
    · exact x.bits_lt

/-- What a pattern stands for. -/
inductive Meaning where
  | nothing
  | infinite (negative : Bool)
  /-- A number as a multiple of `2 ^ -1074`. -/
  | finite (units : Int)
deriving DecidableEq

/-- What a number stands for. -/
def meaning (x : Binary64) : Meaning :=
  if x.isNaN then .nothing
  else if x.isFinite then .finite x.signedUnits
  else .infinite x.negative

theorem units_inj : x.units = y.units ↔ x.word = y.word := by
  constructor
  · intro same
    rw [← nearestWord_units x Nat.one_pos, same, nearestWord_units y Nat.one_pos]
  · intro same
    simp only [units, significand, step, same]

theorem units_eq_zero_iff : x.units = 0 ↔ x.word = 0 := by
  rw [← units_zero false, units_inj]
  rfl

/-- Numbers are one multiple of the least one exactly if they are of one rank. -/
theorem signedUnits_inj : x.signedUnits = y.signedUnits ↔ x.rank = y.rank := by
  have words : x.units = y.units ↔ x.word = y.word := units_inj
  have zeroLeft : x.units = 0 ↔ x.word = 0 := units_eq_zero_iff
  have zeroRight : y.units = 0 ↔ y.word = 0 := units_eq_zero_iff
  rw [signedUnits, signedUnits, rank, rank]
  split <;> split <;> omega

theorem natAbs_rank (x : Binary64) : x.rank.natAbs = x.word := by
  rw [rank]
  split <;> omega

theorem word_of_infinite (number : x.isNaN = false) (infinite : x.isFinite = false) :
    x.word = infinityWord := by
  simp only [isNaN, isFinite, decide_eq_false_iff_not, Nat.not_lt] at number infinite
  exact Nat.le_antisymm number infinite

theorem meaning_eq_iff_rank (left : x.isNaN = false) (right : y.isNaN = false) :
    x.meaning = y.meaning ↔ x.rank = y.rank := by
  have apart : ∀ {u v : Binary64}, u.word = infinityWord → v.isFinite = true →
      u.rank ≠ v.rank := by
    intro u v infinite finite same
    have smaller : v.word < infinityWord := by simpa [isFinite] using finite
    rw [← natAbs_rank v, ← same, natAbs_rank u, infinite] at smaller
    exact Nat.lt_irrefl _ smaller
  simp only [meaning, left, right, Bool.false_eq_true, if_false]
  cases finiteLeft : x.isFinite <;> cases finiteRight : y.isFinite
  case true.true => simp [signedUnits_inj]
  case true.false =>
    simpa using Ne.symm (apart (word_of_infinite right finiteRight) finiteLeft)
  case false.true =>
    simpa using apart (word_of_infinite left finiteLeft) finiteRight
  case false.false =>
    rw [rank, rank, word_of_infinite left finiteLeft, word_of_infinite right finiteRight]
    cases x.negative <;> cases y.negative <;> simp [infinityWord]

theorem meaning_eq_nothing_iff : x.meaning = .nothing ↔ x.isNaN = true := by
  rw [meaning]
  split
  · simp [*]
  · split <;> simp [*]

theorem isNaN_eq_of_meaning (same : x.meaning = y.meaning) : x.isNaN = y.isNaN := by
  rw [Bool.eq_iff_iff, ← meaning_eq_nothing_iff, ← meaning_eq_nothing_iff, same]

/-- Numbers are the same key exactly if they stand for the same. -/
theorem sameKey_iff_meaning : x.sameKey y = true ↔ x.meaning = y.meaning := by
  rw [sameKey, Bool.or_eq_true, Bool.and_eq_true]
  have alike : x.meaning = y.meaning → x.isNaN = y.isNaN := isNaN_eq_of_meaning
  cases left : x.isNaN <;> cases right : y.isNaN
  case false.false =>
    rw [eq_iff left right, meaning_eq_iff_rank left right]
    simp
  case true.true =>
    rw [meaning_eq_nothing_iff.2 left, meaning_eq_nothing_iff.2 right]
    simp
  all_goals
    -- one side is NaN, which neither equals the other nor stands for the same
    have differ : x.meaning ≠ y.meaning := fun same => by simpa [left, right] using alike same
    simp [differ, eq, compare?, left, right]

theorem sameKey_equivalence : Equivalence fun x y : Binary64 => x.sameKey y = true where
  refl _ := sameKey_iff_meaning.2 rfl
  symm same := sameKey_iff_meaning.2 (sameKey_iff_meaning.1 same).symm
  trans first second :=
    sameKey_iff_meaning.2 ((sameKey_iff_meaning.1 first).trans (sameKey_iff_meaning.1 second))

/-- Of all numbers, whose patterns are all 64-bit words, two are the same key exactly if they stand
for the same, and exactly if they have one lookup word. This is reflexive, symmetric and transitive,
and lookup words are 64-bit words again. -/
theorem sameKey_lawful :
    (∀ word : UInt64, ∃! x : Binary64, x.bits = word.toNat) ∧
    (Equivalence fun x y : Binary64 => x.sameKey y = true) ∧
    ∀ x y : Binary64, x.keyWord < 2 ^ 64 ∧ (x.sameKey y = true ↔ x.meaning = y.meaning) ∧
      (x.sameKey y = true ↔ x.keyWord = y.keyWord) :=
  ⟨existsUnique_bits, sameKey_equivalence,
    fun x _ => ⟨x.keyWord_lt_two_pow, sameKey_iff_meaning, keyWord_eq_iff.symm⟩⟩

/-- Two patterns of NaN are one key, and so are the two zeros. -/
example : (ofBits 0x7ff0000000000001).sameKey (ofBits 0xffffffffffffffff) = true ∧
    (zero true).sameKey (zero false) = true := by decide

end TableView.Binary64
