import TableView.Decimal.Shortest
import TableView.Proofs.Decimal.Digits
import TableView.Proofs.Decimal.Value
import Mathlib.Data.List.TakeWhile

/-!
# The shortest decimal reads back

Every finite number is the number nearest to its shortest decimal, and the digits
that are written for that decimal, without the zeros at their end, still stand for
the number. What is left of a reader is to find the digits and the point again.
-/

namespace TableView

namespace Decimal

/-- Dropping the zeros at the end leaves digits to which they can be added again. -/
theorem exists_significant_append (d : Decimal) :
    ∃ zeros, Nat.toDigits 10 d.digits = d.significant ++ List.replicate zeros '0' := by
  let backwards := (Nat.toDigits 10 d.digits).reverse
  have dropped : backwards.takeWhile (· == '0') =
      List.replicate (backwards.takeWhile (· == '0')).length '0' := by
    refine List.eq_replicate_iff.2 ⟨rfl, ?_⟩
    intro c member
    simpa using List.mem_takeWhile_imp member
  refine ⟨(backwards.takeWhile (· == '0')).length, ?_⟩
  have split : backwards.takeWhile (· == '0') ++ backwards.dropWhile (· == '0') = backwards :=
    List.takeWhile_append_dropWhile
  rw [significant, ← List.reverse_replicate, ← dropped, ← List.reverse_append, split,
    List.reverse_reverse]

theorem areDigits_significant (d : Decimal) : AreDigits d.significant := by
  intro c member
  obtain ⟨zeros, split⟩ := d.exists_significant_append
  refine areDigits_toDigits d.digits c ?_
  rw [split]
  exact List.mem_append_left _ member

theorem head?_significant_ne_zero (d : Decimal) : d.significant.head? ≠ some '0' := by
  by_cases nothing : d.digits = 0
  · simp [significant, nothing]
  · obtain ⟨zeros, split⟩ := d.exists_significant_append
    have first := head?_toDigits_ne_zero (Nat.pos_of_ne_zero nothing)
    rw [split, List.head?_append] at first
    cases written : d.significant.head? with
    | none => simp
    | some c =>
        rw [written] at first
        exact first

/-- The digits and the point that are written stand for the decimal. -/
theorem toBinary64_significant (negative : Bool) (d : Decimal) :
    toBinary64 negative ⟨valueOf d.significant, d.point - d.significant.length⟩ =
      d.toBinary64 negative := by
  obtain ⟨zeros, split⟩ := d.exists_significant_append
  have value : d.digits = valueOf d.significant * 10 ^ zeros := by
    rw [← valueOf_append_zeros, ← split, valueOf_toDigits]
  have exponent : d.point - d.significant.length = d.exponent + zeros := by
    rw [point, split, List.length_append, List.length_replicate]
    omega
  rw [exponent, ← toBinary64_mul_pow, ← value]

end Decimal

namespace Binary64

variable {x : Binary64}

theorem toBinary64_exactDigits (finite : x.isFinite) :
    Decimal.toBinary64 x.negative ⟨x.exactDigits, -1074⟩ = x := by
  have scaled : ∀ k : Nat, (x.units * Nat.pow 5 k) <<< k = x.units * 10 ^ k := by
    intro k
    show (x.units * 5 ^ k) <<< k = x.units * 10 ^ k
    rw [Nat.shiftLeft_eq, Nat.mul_assoc, ← Nat.mul_pow]
  have whole : (-1074 : Int).toNat = 0 := rfl
  have shifted : x.exactDigits <<< 1074 = x.units * 10 ^ 1074 := scaled 1074
  simp only [Decimal.toBinary64_eq, whole, Nat.pow_zero, Nat.mul_one, ofQuotient, shifted]
  exact ofUnits_units finite (Nat.pow_pos (by decide))

theorem toBinary64_shortest (finite : x.isFinite) (tie : Tie) :
    (x.shortest tie).toBinary64 x.negative = x := by
  cases found : ((List.range (Nat.toDigits 10 x.exactDigits).length).reverse).findSome?
      (x.readBackOn? tie) with
  | none =>
      simp only [shortest, found, Option.getD_none]
      exact toBinary64_exactDigits finite
  | some d =>
      simp only [shortest, found, Option.getD_some]
      obtain ⟨grid, _, here⟩ := List.exists_of_findSome?_eq_some found
      exact toBinary64_of_readBackOn? here

theorem toBinary64_written (finite : x.isFinite) (tie : Tie) :
    Decimal.toBinary64 x.negative
      ⟨Decimal.valueOf (x.shortest tie).significant,
        (x.shortest tie).point - (x.shortest tie).significant.length⟩ = x := by
  rw [Decimal.toBinary64_significant, toBinary64_shortest finite]

end Binary64

end TableView
