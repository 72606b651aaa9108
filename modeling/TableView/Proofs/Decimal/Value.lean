import TableView.Decimal.Basic
import TableView.Proofs.Binary64.Nearest

/-!
# A decimal stands for its value

The number nearest to a decimal does not depend on how the decimal is written: zeros
may be moved between its digits and its exponent (`toBinary64_mul_pow`). The bounds
that spare large powers agree with the rounding they replace, so `toBinary64` is one
rounding of one quotient for all decimals (`toBinary64_eq`).
-/

namespace TableView.Decimal

variable (negative : Bool)

theorem toBinary64_zero (e : Int) : toBinary64 negative ⟨0, e⟩ = .zero negative := if_pos rfl

/-- Fewer digits than the bound counts are below the power of ten that it allows for. -/
theorem lt_pow_log2 (n : Nat) : n < 10 ^ (n.log2 / 3 + 1) := by
  calc n < 2 ^ (n.log2 + 1) := Nat.lt_log2_self
    _ ≤ 2 ^ (3 * (n.log2 / 3 + 1)) := Nat.pow_le_pow_right (by decide) (by omega)
    _ = 8 ^ (n.log2 / 3 + 1) := Nat.pow_mul 2 3 _
    _ ≤ 10 ^ (n.log2 / 3 + 1) := Nat.pow_le_pow_left (by decide) _

theorem ofQuotient_of_exponent_large {n e : Nat} (nonzero : n ≠ 0) (large : 310 ≤ e) :
    Binary64.ofQuotient negative (n * 10 ^ e) 1 = .infinity negative := by
  apply Binary64.ofQuotient_of_large
  calc 2 ^ 1029 ≤ 10 ^ 310 := by decide +kernel
    _ ≤ 10 ^ e := Nat.pow_le_pow_right (by decide) large
    _ ≤ n * 10 ^ e := Nat.le_mul_of_pos_left _ (Nat.pos_of_ne_zero nonzero)

theorem ofQuotient_of_exponent_small {n e : Nat} (small : n.log2 / 3 + 1 + 330 < e) :
    Binary64.ofQuotient negative n (10 ^ e) = .zero negative := by
  apply Binary64.ofQuotient_of_small
  calc 2 * (n <<< 1074) = n <<< 1075 := (Nat.shiftLeft_succ n 1074).symm
    _ = n * 2 ^ 1075 := Nat.shiftLeft_eq n 1075
    _ < 10 ^ (n.log2 / 3 + 1) * 2 ^ 1075 :=
        Nat.mul_lt_mul_of_pos_right (lt_pow_log2 n) (Nat.two_pow_pos 1075)
    _ ≤ 10 ^ (n.log2 / 3 + 1) * 10 ^ 330 := Nat.mul_le_mul_left _ (by decide +kernel)
    _ = 10 ^ (n.log2 / 3 + 1 + 330) := (Nat.pow_add 10 _ 330).symm
    _ ≤ 10 ^ e := Nat.pow_le_pow_right (by decide) (Nat.le_of_lt small)

/-- The number nearest to a decimal is the rounded quotient of two integers. -/
theorem toBinary64_eq (d : Decimal) :
    d.toBinary64 negative =
      .ofQuotient negative (d.digits * 10 ^ d.exponent.toNat) (10 ^ (-d.exponent).toNat) := by
  unfold toBinary64 powerOfTen
  by_cases nothing : d.digits = 0
  · have zero := Binary64.ofQuotient_zero negative (Nat.pow_pos (n := (-d.exponent).toNat)
      (show 0 < 10 by decide))
    rw [if_pos nothing, nothing, Nat.zero_mul, zero]
  rw [if_neg nothing]
  by_cases large : d.exponent ≥ 310
  · have whole : (-d.exponent).toNat = 0 := by omega
    rw [if_pos large, whole, Nat.pow_zero, ofQuotient_of_exponent_large negative nothing (by omega)]
  rw [if_neg large]
  by_cases small : d.exponent + d.digits.log2 / 3 + 1 < -330
  · have fraction : d.exponent.toNat = 0 := by omega
    rw [if_pos small, fraction, Nat.pow_zero, Nat.mul_one,
      ofQuotient_of_exponent_small negative (by omega)]
  rw [if_neg small]
  by_cases whole : d.exponent ≥ 0
  · have one : (-d.exponent).toNat = 0 := by omega
    rw [if_pos whole, one, Nat.pow_zero]
    rfl
  · have one : d.exponent.toNat = 0 := by omega
    rw [if_neg whole, one, Nat.pow_zero, Nat.mul_one]
    rfl

/-- Zeros at the end of the digits may be counted in the exponent instead. -/
theorem toBinary64_mul_pow (n k : Nat) (e : Int) :
    toBinary64 negative ⟨n * 10 ^ k, e⟩ = toBinary64 negative ⟨n, e + k⟩ := by
  rw [toBinary64_eq, toBinary64_eq]
  apply Binary64.ofQuotient_congr negative (Nat.pow_pos (by decide)) (Nat.pow_pos (by decide))
  have exponents : k + e.toNat + (-(e + k)).toNat = (e + k).toNat + (-e).toNat := by omega
  calc n * 10 ^ k * 10 ^ e.toNat * 10 ^ (-(e + k)).toNat
      = n * 10 ^ (k + e.toNat + (-(e + k)).toNat) := by
        rw [Nat.pow_add, Nat.pow_add, ← Nat.mul_assoc, ← Nat.mul_assoc]
    _ = n * 10 ^ (e + k).toNat * 10 ^ (-e).toNat := by
        rw [exponents, Nat.pow_add, ← Nat.mul_assoc]

end TableView.Decimal
