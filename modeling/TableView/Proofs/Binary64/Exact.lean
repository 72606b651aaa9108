import TableView.Proofs.Binary64.Whole

/-!
# Whole numbers are added exactly

The magnitude of a representable whole number is that number of ones (`signedUnits_ofInt`). So
the exact sum of two of them is a whole number of ones as well, and the rounded sum is the
number nearest to it (`ofInt_add`), which is the sum itself as long as that is representable.
Rounding back to an integer then loses nothing (`toInt_toInt64_ofInt`).
-/

namespace TableView.Binary64

variable {x : Binary64} {i j : Int}

/-- Any word with a full significand tells the spacing and the significand apart. -/
theorem units_of_word {spacing significand : Nat}
    (word : x.word = spacing * 0x10000000000000 + significand) (least : 2 ^ 52 ≤ significand)
    (greatest : significand < 2 ^ 53) : x.units = significand <<< spacing := by
  have step : x.step = spacing := by
    rw [Binary64.step]
    omega
  have rest : x.significand = significand := by
    rw [Binary64.significand, step]
    omega
  rw [units, step, rest]

theorem ofInt_zero : ofInt 0 = zero false := ofQuotient_zero _ (by decide)

theorem units_ofInt (exact : i.natAbs ≤ exactBound) :
    (ofInt i).units = i.natAbs * 2 ^ 1074 := by
  by_cases zero : i = 0
  · rw [zero, ofInt_zero, units_zero, Int.natAbs_zero, Nat.zero_mul]
  · obtain ⟨significand, least, greatest, scaled, word⟩ :=
      nearestWord_whole (Int.natAbs_ne_zero.2 zero) exact
    have shifted : ∀ k, significand <<< (i.natAbs.log2 + k) = i.natAbs * 2 ^ (52 + k) := by
      intro k
      rw [shiftLeft_add_eq, scaled, Nat.pow_add, Nat.mul_assoc]
    rw [units_of_word ((word_ofInt (natAbs_lt_of_exact exact)).trans word) least greatest,
      shifted 1022]

/-- An integer, also in parts of one, is its magnitude with its sign. -/
theorem signed_natAbs_mul (i : Int) (k : Nat) :
    (if decide (i < 0) then -((i.natAbs * k : Nat) : Int) else (i.natAbs * k : Nat)) = i * k := by
  rw [Int.natCast_mul]
  by_cases negative : i < 0
  · rw [if_pos (decide_eq_true negative), Int.ofNat_natAbs_of_nonpos (Int.le_of_lt negative),
      Int.neg_mul, Int.neg_neg]
  · rw [if_neg (by simpa using negative), Int.natAbs_of_nonneg (Int.not_lt.1 negative)]

theorem signedUnits_ofInt (exact : i.natAbs ≤ exactBound) :
    (ofInt i).signedUnits = i * (2 ^ 1074 : Nat) := by
  rw [signedUnits, units_ofInt exact, negative_ofInt, signed_natAbs_mul]

theorem mul_two_pow_neg_iff (k : Nat) : i * (2 ^ k : Nat) < 0 ↔ i < 0 := by
  have positive : (0 : Int) < (2 ^ k : Nat) := Int.natCast_pos.2 (Nat.two_pow_pos k)
  constructor
  · intro product
    exact Int.neg_of_mul_neg_left product positive
  · intro negative
    exact Int.mul_neg_of_neg_of_pos negative positive

theorem mul_two_pow_eq_zero_iff (k : Nat) : i * (2 ^ k : Nat) = 0 ↔ i = 0 := by
  have nonzero : ((2 ^ k : Nat) : Int) ≠ 0 :=
    Int.natCast_ne_zero.2 (Nat.ne_of_gt (Nat.two_pow_pos k))
  rw [Int.mul_eq_zero, or_iff_left nonzero]

/-- A whole number of ones rounds to the number nearest to that integer. -/
theorem ofUnits_ones (i : Int) :
    ofUnits (decide (i * (2 ^ 1074 : Nat) < 0)) (i * (2 ^ 1074 : Nat)).natAbs 1 = ofInt i := by
  rw [ofInt, ofQuotient, Int.natAbs_mul, Int.natAbs_natCast, Nat.shiftLeft_eq]
  simp only [mul_two_pow_neg_iff]

/-- The sum of two representable integers is the number nearest to their sum. -/
theorem ofInt_add (exactLeft : i.natAbs ≤ exactBound) (exactRight : j.natAbs ≤ exactBound) :
    ofInt i + ofInt j = ofInt (i + j) := by
  have total : (ofInt i).signedUnits + (ofInt j).signedUnits = (i + j) * (2 ^ 1074 : Nat) := by
    rw [signedUnits_ofInt exactLeft, signedUnits_ofInt exactRight, Int.add_mul]
  have finiteLeft := isFinite_ofInt (natAbs_lt_of_exact exactLeft)
  have finiteRight := isFinite_ofInt (natAbs_lt_of_exact exactRight)
  show add (ofInt i) (ofInt j) = ofInt (i + j)
  simp only [add, isNaN_ofInt, finiteLeft, finiteRight, total, Bool.or_self, Bool.and_self,
    Bool.false_eq_true, if_false, if_true]
  split
  next nothing =>
    have cancels : i + j = 0 := (mul_two_pow_eq_zero_iff 1074).1 nothing
    -- Not both summands are negative, so the zero is the positive one.
    have positive : (decide (i < 0) && decide (j < 0)) = false := by
      rw [← Bool.decide_and, decide_eq_false_iff_not]
      omega
    rw [negative_ofInt, negative_ofInt, positive, cancels, ofInt_zero]
  next => exact ofUnits_ones (i + j)

theorem shiftRight_half (n k : Nat) : (2 * (n * 2 ^ k) + 1 <<< k) >>> (k + 1) = n := by
  have positive : 0 < 2 ^ k := Nat.two_pow_pos k
  have split : 2 * (n * 2 ^ k) + 2 ^ k = 2 ^ k + n * (2 ^ k * 2) := by
    rw [Nat.add_comm, ← Nat.mul_assoc, Nat.mul_comm 2, ← Nat.mul_assoc, Nat.mul_right_comm]
  have half : 2 ^ k / (2 ^ k * 2) = 0 := Nat.div_eq_of_lt (by omega)
  rw [Nat.one_shiftLeft, Nat.shiftRight_eq_div_pow, Nat.pow_succ, split,
    Nat.add_mul_div_right _ _ (by omega), half, Nat.zero_add]

theorem roundToInt_ofInt (exact : i.natAbs ≤ exactBound) : (ofInt i).roundToInt = i := by
  rw [roundToInt, units_ofInt exact, shiftRight_half, negative_ofInt]
  simpa only [Nat.mul_one, Int.natCast_one, Int.mul_one] using signed_natAbs_mul i 1

/-- A representable integer is within 64 bits, and the nearest 64-bit integer to it. -/
theorem toInt_toInt64_ofInt (exact : i.natAbs ≤ exactBound) : (ofInt i).toInt64.toInt = i := by
  have finite := isFinite_ofInt (natAbs_lt_of_exact exact)
  rw [exactBound] at exact
  have clamped : max Int64.minValue.toInt (min Int64.maxValue.toInt i) = i := by
    rw [Int64.toInt_minValue, Int64.toInt_maxValue]
    omega
  rw [toInt64, isNaN_ofInt, finite, roundToInt_ofInt exact, clamped]
  exact Int64.toInt_ofInt_of_le (by omega) (by omega)

end TableView.Binary64
