import Mathlib.Algebra.Group.Nat.Defs
import TableView.Binary64.Rounding

/-!
# What rounding depends on

Rounding a quotient depends on its value only, not on how it is written as a fraction
(`ofQuotient_congr`), and rounding a number that is representable gives that number
back (`ofUnits_units`). Both follow from the shape of `nearestWord`: it looks at the
integer part of the quotient and at the remainder relative to the divisor, and
neither changes when the fraction is expanded.

Quotients far beyond the finite numbers round to infinity and those far below the
least one to zero. The bounds are coarse, since they only have to cover decimals that
are not worth computing.
-/

namespace TableView.Binary64

theorem divNearest_mul_right (n d : Nat) {c : Nat} (pos : 0 < c) :
    divNearest (n * c) (d * c) = divNearest n d := by
  have quotient : n * c / (d * c) = n / d := Nat.mul_div_mul_right n d pos
  have remainder : 2 * (n * c % (d * c)) = 2 * (n % d) * c := by
    rw [Nat.mul_mod_mul_right, Nat.mul_assoc]
  have below : 2 * (n % d) * c < d * c ↔ 2 * (n % d) < d := Nat.mul_lt_mul_right pos
  have half : 2 * (n % d) * c = d * c ↔ 2 * (n % d) = d := Nat.mul_left_inj (Nat.ne_of_gt pos)
  simp only [divNearest, quotient, remainder, below, half]

theorem nearestWord_mul_right (n d : Nat) {c : Nat} (pos : 0 < c) :
    nearestWord (n * c) (d * c) = nearestWord n d := by
  have quotient : n * c / (d * c) = n / d := Nat.mul_div_mul_right n d pos
  have spaced : ∀ step, (d * c) <<< step = (d <<< step) * c := by
    intro step
    rw [Nat.shiftLeft_eq, Nat.shiftLeft_eq, Nat.mul_right_comm]
  simp only [nearestWord, quotient, spaced, divNearest_mul_right _ _ pos]

/-- Equal quotients round to the same number. -/
theorem ofQuotient_congr (negative : Bool) {n d m e : Nat} (dpos : 0 < d) (epos : 0 < e)
    (same : n * e = m * d) : ofQuotient negative n d = ofQuotient negative m e := by
  have expanded : nearestWord (n <<< 1074) d = nearestWord (m <<< 1074) e := by
    rw [← nearestWord_mul_right _ d epos, ← nearestWord_mul_right _ e dpos, Nat.mul_comm e d]
    have numerators : n <<< 1074 * e = m <<< 1074 * d := by
      rw [Nat.shiftLeft_eq, Nat.shiftLeft_eq, Nat.mul_right_comm, same, Nat.mul_right_comm]
    rw [numerators]
  simp only [ofQuotient, ofUnits, expanded]

theorem divNearest_mul_self (m : Nat) {d : Nat} (pos : 0 < d) : divNearest (m * d) d = m := by
  simp [divNearest, Nat.mul_mod_left, Nat.mul_div_cancel m pos, pos]

theorem log2_shiftLeft {n : Nat} (nonzero : n ≠ 0) (k : Nat) : (n <<< k).log2 = n.log2 + k := by
  have positive : 0 < n <<< k := by
    rw [Nat.shiftLeft_eq]
    exact Nat.mul_pos (Nat.pos_of_ne_zero nonzero) (Nat.two_pow_pos k)
  obtain ⟨least, greatest⟩ := (Nat.log2_eq_iff nonzero).1 rfl
  refine (Nat.log2_eq_iff (Nat.ne_of_gt positive)).2 ⟨?_, ?_⟩
  · rw [Nat.shiftLeft_eq, Nat.pow_add]
    exact Nat.mul_le_mul_right _ least
  · rw [Nat.shiftLeft_eq, Nat.add_right_comm, Nat.pow_add]
    exact Nat.mul_lt_mul_of_pos_right greatest (Nat.two_pow_pos k)

/-- The spacing of a number is found from the size of its magnitude. -/
theorem log2_units_sub (x : Binary64) : x.units.log2 - 52 = x.step := by
  have split := x.step_mul_add_significand
  by_cases subnormal : x.step = 0
  · have small : x.units < 2 ^ 53 := by
      rw [units, subnormal, Nat.shiftLeft_zero]
      rw [step] at subnormal
      omega
    rw [subnormal]
    by_cases nothing : x.units = 0
    · rw [nothing]
      rfl
    · have bound := (Nat.log2_lt nothing).2 small
      omega
  · have least : 2 ^ 52 ≤ x.significand := by
      unfold step at *
      omega
    have greatest : x.significand < 2 ^ 53 := by
      unfold step at *
      omega
    have nonzero : x.significand ≠ 0 := by omega
    have log : x.significand.log2 = 52 := (Nat.log2_eq_iff nonzero).2 ⟨least, greatest⟩
    rw [units, log2_shiftLeft nonzero, log, Nat.add_sub_cancel_left]

/-- The nearest word to a number's own magnitude is its own, in whatever units. -/
theorem nearestWord_units (x : Binary64) {d : Nat} (pos : 0 < d) :
    nearestWord (x.units * d) d = x.word := by
  have significand : divNearest (x.units * d) (d <<< x.step) = x.significand := by
    have spaced : x.units * d = x.significand * (d <<< x.step) := by
      simp only [units, Nat.shiftLeft_eq]
      rw [Nat.mul_assoc, Nat.mul_comm (2 ^ x.step) d]
    rw [spaced]
    have scale : 0 < d <<< x.step := by
      rw [Nat.shiftLeft_eq]
      exact Nat.mul_pos pos (Nat.two_pow_pos _)
    exact divNearest_mul_self _ scale
  have wordEq := x.step_mul_add_significand
  simp only [nearestWord, Nat.mul_div_cancel _ pos, log2_units_sub, significand]
  exact wordEq

/-- A finite number is the number nearest to its own magnitude. -/
theorem ofUnits_units {x : Binary64} (finite : x.isFinite) {d : Nat} (pos : 0 < d) :
    ofUnits x.negative (x.units * d) d = x := by
  have inRange : x.word < infinityWord := by simpa [isFinite] using finite
  simp only [ofUnits, nearestWord_units x pos, ofWord, dif_pos inRange]

theorem ofQuotient_of_large (negative : Bool) {n : Nat} (large : 2 ^ 1029 ≤ n) :
    ofQuotient negative n 1 = infinity negative := by
  have beyond : infinityWord ≤ nearestWord (n <<< 1074) 1 := by
    have nonzero : n ≠ 0 := Nat.ne_of_gt (Nat.lt_of_lt_of_le (Nat.two_pow_pos 1029) large)
    have log : 1029 ≤ n.log2 := (Nat.le_log2 nonzero).2 large
    simp only [nearestWord, Nat.div_one, log2_shiftLeft nonzero, infinityWord]
    omega
  simp only [ofQuotient, ofUnits, ofWord, dif_neg (Nat.not_lt.2 beyond)]

theorem ofQuotient_of_small (negative : Bool) {n d : Nat} (small : 2 * (n <<< 1074) < d) :
    ofQuotient negative n d = zero negative := by
  have none : n <<< 1074 / d = 0 := Nat.div_eq_of_lt (by omega)
  have word : nearestWord (n <<< 1074) d = 0 := by
    simp only [nearestWord, none, Nat.log2_zero, Nat.zero_sub, Nat.shiftLeft_zero, divNearest,
      Nat.mod_eq_of_lt (show n <<< 1074 < d by omega), small, true_or, if_true]
  simp only [ofQuotient, ofUnits, word]
  rfl

theorem ofQuotient_zero (negative : Bool) {d : Nat} (pos : 0 < d) :
    ofQuotient negative 0 d = zero negative := by
  apply ofQuotient_of_small
  rwa [Nat.zero_shiftLeft]

end TableView.Binary64
