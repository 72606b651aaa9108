import TableView.Proofs.Binary64.Nearest

/-!
# Whole numbers as binary64 numbers

Every whole number of magnitude at most `2 ^ 53` is representable. Its word is the one
whose spacing puts the leading bit first, so greater whole numbers have greater words, and
comparing the converted numbers is comparing the whole ones (`compare_rank_ofInt`). Beyond
that bound neighbours are rounded to one number.
-/

namespace TableView.Binary64

/-- Up to this magnitude every whole number is representable. -/
def exactBound : Nat := 2 ^ 53

theorem shiftLeft_add_eq (n j k : Nat) : n <<< (j + k) = n * 2 ^ j * 2 ^ k := by
  rw [Nat.shiftLeft_eq, Nat.pow_add, Nat.mul_assoc]

theorem one_shiftLeft_pos (k : Nat) : 0 < 1 <<< k := by
  rw [Nat.one_shiftLeft]
  exact Nat.two_pow_pos k

/-- The spacing of a whole number is found from its leading bit. -/
theorem nearestWord_of_ne_zero {n : Nat} (positive : n ≠ 0) :
    nearestWord (n <<< 1074) 1 =
      (n.log2 + 1022) * 0x10000000000000 + divNearest (n <<< 1074) (1 <<< (n.log2 + 1022)) := by
  have step : (n <<< 1074).log2 - 52 = n.log2 + 1022 := by
    rw [log2_shiftLeft positive]
    omega
  simp only [nearestWord, Nat.div_one, step]

/-- The word of a representable whole number: its leading bit fixes the spacing, and its
significand has 53 bits. -/
theorem nearestWord_whole {n : Nat} (positive : n ≠ 0) (exact : n ≤ exactBound) :
    ∃ significand, 2 ^ 52 ≤ significand ∧ significand < 2 ^ 53 ∧
      significand * 2 ^ n.log2 = n * 2 ^ 52 ∧
      nearestWord (n <<< 1074) 1 = (n.log2 + 1022) * 0x10000000000000 + significand := by
  obtain ⟨least, greatest⟩ := (Nat.log2_eq_iff positive).1 rfl
  obtain ⟨significand, scaled⟩ : ∃ significand, significand * 2 ^ n.log2 = n * 2 ^ 52 := by
    by_cases last : n = exactBound
    · refine ⟨2 ^ 52, ?_⟩
      subst last
      decide
    · have small : n.log2 < 53 := (Nat.log2_lt positive).2 (Nat.lt_of_le_of_ne exact last)
      refine ⟨n * 2 ^ (52 - n.log2), ?_⟩
      rw [Nat.mul_assoc, ← Nat.pow_add, Nat.sub_add_cancel (Nat.le_of_lt_succ small)]
  have positivePower : 0 < 2 ^ n.log2 := Nat.two_pow_pos _
  refine ⟨significand, ?_, ?_, scaled, ?_⟩
  · refine Nat.le_of_mul_le_mul_right ?_ positivePower
    rw [scaled, Nat.mul_comm]
    exact Nat.mul_le_mul_right _ least
  · refine Nat.lt_of_mul_lt_mul_right (a := 2 ^ n.log2) ?_
    rw [scaled, show 2 ^ 53 * 2 ^ n.log2 = 2 ^ (n.log2 + 1) * 2 ^ 52 by rw [Nat.pow_succ]; omega]
    exact Nat.mul_lt_mul_of_pos_right greatest (Nat.two_pow_pos 52)
  · have spaced : ∀ k, n <<< (52 + k) = significand * 1 <<< (n.log2 + k) := by
      intro k
      rw [shiftLeft_add_eq, shiftLeft_add_eq, Nat.one_mul, ← Nat.mul_assoc, scaled]
    rw [nearestWord_of_ne_zero positive, show n <<< 1074 = _ from spaced 1022,
      divNearest_mul_self _ (one_shiftLeft_pos _)]

theorem nearestWord_whole_lt {n m : Nat} (less : n < m) (exact : m ≤ exactBound) :
    nearestWord (n <<< 1074) 1 < nearestWord (m <<< 1074) 1 := by
  obtain ⟨upper, leastUpper, -, scaledUpper, wordUpper⟩ :=
    nearestWord_whole (Nat.ne_of_gt (Nat.zero_lt_of_lt less)) exact
  by_cases zero : n = 0
  · subst zero
    have word : nearestWord (0 <<< 1074) 1 = 0 := by rw [Nat.zero_shiftLeft]; rfl
    rw [word, wordUpper]
    omega
  · obtain ⟨lower, -, greatestLower, scaledLower, wordLower⟩ :=
      nearestWord_whole zero (Nat.le_of_lt (Nat.lt_of_lt_of_le less exact))
    rw [wordLower, wordUpper]
    obtain spacing | spacing : n.log2 < m.log2 ∨ n.log2 = m.log2 := by
      have monotone : n.log2 ≤ m.log2 := by
        have nonzero : m ≠ 0 := Nat.ne_of_gt (Nat.zero_lt_of_lt less)
        rw [Nat.le_log2 nonzero]
        exact Nat.le_trans (Nat.log2_self_le zero) (Nat.le_of_lt less)
      omega
    · omega
    · -- With one spacing the significands are the numbers on one scale.
      have significands : lower < upper := by
        refine Nat.lt_of_mul_lt_mul_right (a := 2 ^ m.log2) ?_
        rw [scaledUpper, ← spacing, scaledLower]
        exact Nat.mul_lt_mul_of_pos_right less (Nat.two_pow_pos 52)
      omega

theorem isNaN_ofWord (negative : Bool) (word : Nat) : (ofWord negative word).isNaN = false := by
  rw [ofWord]
  split
  next finite => simpa [isNaN] using Nat.le_of_lt finite
  next => exact isNaN_infinity negative

theorem isNaN_ofInt (i : Int) : (ofInt i).isNaN = false := isNaN_ofWord _ _

theorem divNearest_le (n d : Nat) : divNearest n d ≤ n / d + 1 := by
  rw [divNearest]
  split <;> omega

theorem nearestWord_finite {n : Nat} (small : n < 2 ^ 64) :
    nearestWord (n <<< 1074) 1 < infinityWord := by
  by_cases zero : n = 0
  · subst zero
    rw [Nat.zero_shiftLeft]
    decide
  · have spacing : n.log2 < 64 := (Nat.log2_lt zero).2 small
    have greatest := ((Nat.log2_eq_iff zero).1 rfl).2
    have below : ∀ k, n <<< (52 + k) < 2 ^ 53 * 1 <<< (n.log2 + k) := by
      intro k
      rw [shiftLeft_add_eq, shiftLeft_add_eq, Nat.one_mul, ← Nat.mul_assoc]
      refine Nat.mul_lt_mul_of_pos_right ?_ (Nat.two_pow_pos k)
      rw [Nat.pow_succ] at greatest
      omega
    have quotient : n <<< 1074 / 1 <<< (n.log2 + 1022) < 2 ^ 53 :=
      (Nat.div_lt_iff_lt_mul (one_shiftLeft_pos _)).2 (below 1022)
    have significand := divNearest_le (n <<< 1074) (1 <<< (n.log2 + 1022))
    rw [nearestWord_of_ne_zero zero, infinityWord]
    omega

theorem natAbs_lt_of_exact {i : Int} (exact : i.natAbs ≤ exactBound) : i.natAbs < 2 ^ 64 :=
  Nat.lt_of_le_of_lt exact (by decide)

theorem negative_ofWord (negative : Bool) (word : Nat) :
    (ofWord negative word).negative = negative := by
  rw [ofWord]
  split <;> rfl

theorem negative_ofInt (i : Int) : (ofInt i).negative = decide (i < 0) := negative_ofWord _ _

/-- The word of an integer within 64 bits is the one nearest to its magnitude. -/
theorem word_ofInt {i : Int} (small : i.natAbs < 2 ^ 64) :
    (ofInt i).word = nearestWord (i.natAbs <<< 1074) 1 := by
  simp only [ofInt, ofQuotient, ofUnits, ofWord, dif_pos (nearestWord_finite small)]

theorem isFinite_ofInt {i : Int} (small : i.natAbs < 2 ^ 64) : (ofInt i).isFinite = true := by
  rw [isFinite, word_ofInt small]
  exact decide_eq_true (nearestWord_finite small)

/-- The rank of a representable integer is its word with its sign. -/
theorem rank_ofInt {i : Int} (exact : i.natAbs ≤ exactBound) :
    (ofInt i).rank = if i < 0 then -(nearestWord (i.natAbs <<< 1074) 1 : Int)
      else nearestWord (i.natAbs <<< 1074) 1 := by
  rw [rank, negative_ofInt, word_ofInt (natAbs_lt_of_exact exact)]
  simp only [decide_eq_true_eq]

theorem rank_ofInt_lt {i j : Int} (less : i < j) (exactLess : i.natAbs ≤ exactBound)
    (exactGreater : j.natAbs ≤ exactBound) : (ofInt i).rank < (ofInt j).rank := by
  rw [rank_ofInt exactLess, rank_ofInt exactGreater]
  by_cases negativeLess : i < 0
  · by_cases negativeGreater : j < 0
    · have words := nearestWord_whole_lt (n := j.natAbs) (m := i.natAbs) (by omega) exactLess
      rw [if_pos negativeLess, if_pos negativeGreater]
      omega
    · have word := nearestWord_whole_lt (n := 0) (m := i.natAbs) (by omega) exactLess
      rw [if_pos negativeLess, if_neg negativeGreater]
      omega
  · have words := nearestWord_whole_lt (n := i.natAbs) (m := j.natAbs) (by omega) exactGreater
    rw [if_neg negativeLess, if_neg (show ¬ j < 0 by omega)]
    omega

theorem compare_rank_ofInt {i j : Int} (exactLeft : i.natAbs ≤ exactBound)
    (exactRight : j.natAbs ≤ exactBound) :
    compare (ofInt i).rank (ofInt j).rank = compare i j := by
  obtain less | same | greater := Int.lt_trichotomy i j
  · rw [Int.compare_eq_lt.2 less, Int.compare_eq_lt.2 (rank_ofInt_lt less exactLeft exactRight)]
  · rw [same, Int.compare_eq_eq.2 rfl, Int.compare_eq_eq.2 rfl]
  · rw [Int.compare_eq_gt.2 greater, Int.compare_eq_gt.2 (rank_ofInt_lt greater exactRight exactLeft)]

end TableView.Binary64
