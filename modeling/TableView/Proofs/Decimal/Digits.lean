import Mathlib.Algebra.Group.Nat.Defs
import Mathlib.Data.List.TakeDrop

/-!
# Rows of decimal digits

What the readers of numbers, dates and durations have in common: they take digits up to
the first other character, and leading or trailing zeros change the number that digits
spell in the way one expects. Without zeros in front a number is written in one way only
(`isNumeral_iff`).
-/

namespace TableView.Decimal

/-- The number that decimal digits spell. -/
def valueOf (digits : List Char) : Nat := Nat.ofDigitChars 10 digits 0

@[simp] theorem valueOf_nil : valueOf [] = 0 := by
  simp [valueOf]

@[simp] theorem valueOf_zero_cons (digits : List Char) :
    valueOf ('0' :: digits) = valueOf digits := by
  simp [valueOf, Nat.ofDigitChars_cons]

@[simp] theorem valueOf_toDigits (n : Nat) : valueOf (Nat.toDigits 10 n) = n :=
  Nat.ofDigitChars_ten_toDigits

@[simp] theorem valueOf_append_zeros (digits : List Char) (n : Nat) :
    valueOf (digits ++ List.replicate n '0') = valueOf digits * 10 ^ n := by
  rw [valueOf, Nat.ofDigitChars_append, Nat.ofDigitChars_replicate_zero, Nat.mul_comm, valueOf]

@[simp] theorem valueOf_zeros_append (n : Nat) (digits : List Char) :
    valueOf (List.replicate n '0' ++ digits) = valueOf digits := by
  rw [valueOf, Nat.ofDigitChars_append, Nat.ofDigitChars_replicate_zero, Nat.mul_zero, valueOf]

/-- No number but zero is written with a zero in front. -/
theorem head?_toDigits_ne_zero {n : Nat} (positive : 0 < n) :
    (Nat.toDigits 10 n).head? ≠ some '0' := by
  induction n using Nat.strongRecOn with
  | ind n ih =>
      rw [Nat.toDigits_eq_if (by decide)]
      by_cases single : n < 10
      · rw [if_pos single]
        simpa using Nat.ne_of_gt positive
      · have before := ih (n / 10) (by omega) (by omega)
        rw [if_neg single, List.head?_append]
        cases first : (Nat.toDigits 10 (n / 10)).head? with
        | none => exact absurd (List.head?_eq_none_iff.1 first) Nat.toDigits_ne_nil
        | some c =>
            rw [first] at before
            exact before

/-- Whether all characters are decimal digits. -/
def AreDigits (cs : List Char) : Prop := ∀ c ∈ cs, c.isDigit

theorem areDigits_toDigits (n : Nat) : AreDigits (Nat.toDigits 10 n) :=
  fun _ member => Nat.isDigit_of_mem_toDigits (by decide) (by decide) member

theorem areDigits_zeros (n : Nat) : AreDigits (List.replicate n '0') := by
  intro c member
  rw [List.eq_of_mem_replicate member]
  rfl

theorem AreDigits.append {cs ds : List Char} (left : AreDigits cs) (right : AreDigits ds) :
    AreDigits (cs ++ ds) :=
  fun c member => (List.mem_append.1 member).elim (left c) (right c)

theorem AreDigits.take {cs : List Char} (digits : AreDigits cs) (n : Nat) : AreDigits (cs.take n) :=
  fun c member => digits c (List.mem_of_mem_take member)

theorem AreDigits.drop {cs : List Char} (digits : AreDigits cs) (n : Nat) : AreDigits (cs.drop n) :=
  fun c member => digits c (List.mem_of_mem_drop member)

theorem AreDigits.tail {c : Char} {cs : List Char} (digits : AreDigits (c :: cs)) : AreDigits cs :=
  fun d member => digits d (List.mem_cons_of_mem c member)

variable {cs : List Char}

/-- A reader that takes all digits takes those up to the first other character. -/
theorem takeWhile_digits (digits : AreDigits cs) (rest : List Char)
    (stop : ∀ c ∈ rest.head?, c.isDigit = false) : (cs ++ rest).takeWhile Char.isDigit = cs := by
  have taken : rest.takeWhile Char.isDigit = [] := by
    cases rest with
    | nil => rfl
    | cons c _ => exact List.takeWhile_cons_of_neg (by simp [stop c rfl])
  rw [List.takeWhile_append_of_pos digits, taken, List.append_nil]

/-- What such a reader leaves begins with the first other character. -/
theorem span_digits (digits : AreDigits cs) (rest : List Char)
    (stop : ∀ c ∈ rest.head?, c.isDigit = false) :
    (cs ++ rest).span Char.isDigit = (cs, rest) := by
  have dropped : rest.dropWhile Char.isDigit = rest := by
    cases rest with
    | nil => rfl
    | cons c _ => exact List.dropWhile_cons_of_neg (by simp [stop c rfl])
  rw [List.span_eq_takeWhile_dropWhile, takeWhile_digits digits rest stop,
    List.dropWhile_append_of_pos digits, dropped]

/-- Whether characters are how a number is written: digits that spell it, the first of which is a
zero only if it is the only one. -/
structure IsNumeral (n : Nat) (cs : List Char) : Prop where
  digits : AreDigits cs
  value : valueOf cs = n
  nonempty : cs ≠ []
  leading : cs.head? = some '0' → cs.length = 1

theorem isNumeral_toDigits (n : Nat) : IsNumeral n (Nat.toDigits 10 n) where
  digits := areDigits_toDigits n
  value := valueOf_toDigits n
  nonempty := Nat.toDigits_ne_nil
  leading := by
    intro leading
    by_cases nothing : n = 0
    · rw [nothing]
      rfl
    · exact absurd leading (head?_toDigits_ne_zero (Nat.pos_of_ne_zero nothing))

theorem digitChar_of_isDigit {c : Char} (digit : c.isDigit) :
    c.toNat - '0'.toNat < 10 ∧ Nat.digitChar (c.toNat - '0'.toNat) = c := by
  have bounds : 48 ≤ c.toNat ∧ c.toNat ≤ 57 := by
    simpa [Char.isDigit, UInt32.le_iff_toNat_le] using digit
  have zero : '0'.toNat = 48 := rfl
  have small : c.toNat - '0'.toNat < 10 := by omega
  refine ⟨small, Char.toNat_inj.1 ?_⟩
  rw [Nat.toNat_digitChar_of_lt_ten small]
  omega

/-- More digits behind those of a number are the digits of the number that all of them spell. -/
theorem toDigits_append {n : Nat} (positive : 0 < n) (digits : AreDigits cs) :
    Nat.toDigits 10 n ++ cs = Nat.toDigits 10 (Nat.ofDigitChars 10 cs n) := by
  induction cs generalizing n with
  | nil => simp
  | cons c rest ih =>
      obtain ⟨small, char⟩ := digitChar_of_isDigit (digits c List.mem_cons_self)
      have one : Nat.toDigits 10 n ++ [c] = Nat.toDigits 10 (10 * n + (c.toNat - '0'.toNat)) := by
        rw [← Nat.toDigits_append_toDigits (by decide) positive small,
          Nat.toDigits_of_lt_base small, char]
      rw [Nat.ofDigitChars_cons, ← ih (by omega) digits.tail, ← one, List.append_assoc,
        List.singleton_append]

/-- A number has one numeral. -/
theorem isNumeral_iff {n : Nat} : IsNumeral n cs ↔ cs = Nat.toDigits 10 n := by
  constructor
  · rintro ⟨digits, rfl, nonempty, leading⟩
    cases cs with
    | nil => exact absurd rfl nonempty
    | cons c rest =>
        obtain ⟨small, char⟩ := digitChar_of_isDigit (digits c List.mem_cons_self)
        by_cases zero : c.toNat - '0'.toNat = 0
        · obtain rfl : c = '0' := by rw [← char, zero]; rfl
          obtain rfl : rest = [] := by simpa using leading rfl
          rfl
        · have first : Nat.toDigits 10 (c.toNat - '0'.toNat) = [c] := by
            rw [Nat.toDigits_of_lt_base small, char]
          have value : valueOf (c :: rest) = Nat.ofDigitChars 10 rest (c.toNat - '0'.toNat) := by
            rw [valueOf, Nat.ofDigitChars_cons, Nat.mul_zero, Nat.zero_add]
          rw [value, ← toDigits_append (Nat.pos_of_ne_zero zero) digits.tail, first,
            List.singleton_append]
  · rintro rfl
    exact isNumeral_toDigits n

end TableView.Decimal
