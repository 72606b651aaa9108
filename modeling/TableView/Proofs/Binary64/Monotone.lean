import TableView.Proofs.Binary64.Whole

/-!
# Rounding keeps the order

A greater quotient never rounds to a smaller number (`nearestWord_mono`): with one spacing the
significands are in order, and from one spacing to the next every word of the wider spacing
is above all words of the narrower one. So integers keep their order when they become numbers,
also beyond the bound up to which they are exact, where neighbours may become one number.
-/

namespace TableView.Binary64

theorem divNearest_mono {n m : Nat} (d : Nat) (le : n ≤ m) : divNearest n d ≤ divNearest m d := by
  have quotient : n / d ≤ m / d := Nat.div_le_div_right le
  have least : m / d ≤ divNearest m d := by
    rw [divNearest]
    split <;> omega
  obtain less | same := Nat.lt_or_eq_of_le quotient
  · have greatest := divNearest_le n d
    omega
  · -- With one quotient the remainders are in order.
    have remainder : n % d ≤ m % d := by
      have splitN := Nat.div_add_mod n d
      have splitM := Nat.div_add_mod m d
      rw [same] at splitN
      omega
    rw [divNearest, divNearest, same]
    split <;> split <;> omega

theorem divNearest_spaced_le (n d : Nat) :
    divNearest n (d <<< ((n / d).log2 - 52)) ≤ 2 ^ 53 := by
  have below : n / d < 2 ^ (53 + ((n / d).log2 - 52)) :=
    Nat.lt_of_lt_of_le Nat.lt_log2_self (Nat.pow_le_pow_right (by decide) (by omega))
  have quotient : n / d <<< ((n / d).log2 - 52) < 2 ^ 53 := by
    rw [Nat.shiftLeft_eq, ← Nat.div_div_eq_div_mul, Nat.div_lt_iff_lt_mul (Nat.two_pow_pos _),
      ← Nat.pow_add]
    exact below
  have rounded := divNearest_le n (d <<< ((n / d).log2 - 52))
  omega

theorem le_divNearest_spaced {n d : Nat} (spaced : 0 < (n / d).log2 - 52) :
    2 ^ 52 ≤ divNearest n (d <<< ((n / d).log2 - 52)) := by
  have nonzero : n / d ≠ 0 := by
    intro zero
    rw [zero] at spaced
    exact absurd spaced (by decide)
  have least : 2 ^ (52 + ((n / d).log2 - 52)) ≤ n / d := by
    rw [show 52 + ((n / d).log2 - 52) = (n / d).log2 by omega]
    exact Nat.log2_self_le nonzero
  have quotient : 2 ^ 52 ≤ n / d <<< ((n / d).log2 - 52) := by
    rw [Nat.shiftLeft_eq, ← Nat.div_div_eq_div_mul, Nat.le_div_iff_mul_le (Nat.two_pow_pos _),
      ← Nat.pow_add]
    exact least
  refine Nat.le_trans quotient ?_
  rw [divNearest]
  split <;> omega

theorem nearestWord_mono {n m : Nat} (d : Nat) (le : n ≤ m) :
    nearestWord n d ≤ nearestWord m d := by
  have spacing : (n / d).log2 ≤ (m / d).log2 := by
    by_cases zero : n / d = 0
    · simp [zero]
    · have quotient : n / d ≤ m / d := Nat.div_le_div_right le
      rw [Nat.le_log2 (Nat.ne_of_gt (Nat.lt_of_lt_of_le (Nat.pos_of_ne_zero zero) quotient))]
      exact Nat.le_trans (Nat.log2_self_le zero) quotient
  simp only [nearestWord]
  obtain wider | same : (n / d).log2 - 52 < (m / d).log2 - 52 ∨
      (n / d).log2 - 52 = (m / d).log2 - 52 := by omega
  · have greatest := divNearest_spaced_le n d
    have least := le_divNearest_spaced (n := m) (d := d) (by omega)
    omega
  · rw [same]
    exact Nat.add_le_add_left (divNearest_mono _ le) _

/-- The rank of a rounded number is its word with its sign, and that of infinity beyond the
finite words. -/
theorem rank_ofWord (negative : Bool) (word : Nat) : (ofWord negative word).rank =
    if negative then -((min word infinityWord : Nat) : Int) else (min word infinityWord : Nat) := by
  rw [ofWord]
  split
  next finite =>
    rw [Nat.min_eq_left (Nat.le_of_lt finite)]
    rfl
  next beyond =>
    rw [Nat.min_eq_right (Nat.not_lt.1 beyond)]
    rfl

theorem rank_ofInt_mono {i j : Int} (le : i ≤ j) : (ofInt i).rank ≤ (ofInt j).rank := by
  have words : ∀ {n m : Nat}, n ≤ m → min (nearestWord (n <<< 1074) 1) infinityWord ≤
      min (nearestWord (m <<< 1074) 1) infinityWord := by
    intro n m less
    have scaled : n <<< 1074 ≤ m <<< 1074 := by
      rw [Nat.shiftLeft_eq, Nat.shiftLeft_eq]
      exact Nat.mul_le_mul_right _ less
    have word := nearestWord_mono 1 scaled
    omega
  simp only [ofInt, ofQuotient, ofUnits, rank_ofWord, decide_eq_true_eq]
  by_cases negativeLess : i < 0
  · by_cases negativeGreater : j < 0
    · have magnitudes := words (n := j.natAbs) (m := i.natAbs) (by omega)
      rw [if_pos negativeLess, if_pos negativeGreater]
      exact Int.neg_le_neg (Int.ofNat_le.2 magnitudes)
    · rw [if_pos negativeLess, if_neg negativeGreater]
      omega
  · have magnitudes := words (n := i.natAbs) (m := j.natAbs) (by omega)
    rw [if_neg negativeLess, if_neg (show ¬ j < 0 by omega)]
    exact Int.ofNat_le.2 magnitudes

end TableView.Binary64
