import TableView.Json.Token
import TableView.Json.Writer
import TableView.Proofs.Decimal.ReadBack

/-!
# Numbers read back

The text of a number spells a decimal that it is the nearest number to, so the nearest
number is what it was written for (`ofWord?_floatText`). The two layouts of a text without
exponent and the one with an exponent have their digits in one row; what differs is where
the point stands, and the decimal is the same. So each layout is one lemma about what is
spelled and one equation between decimals.

A whole number is read from its digits alone. It stays a whole number as long as it
fits 64 bits, which `ofWhole` decides.
-/

namespace TableView.Json

open Decimal

/-- Whether digits may stand in front of the point: there are some, and the first is a zero
only if it is the only one. -/
def IsWhole (cs : List Char) : Prop :=
  AreDigits cs ∧ cs ≠ [] ∧ (cs.head? = some '0' → cs.length = 1)

theorem isWhole_toDigits (n : Nat) : IsWhole (Nat.toDigits 10 n) :=
  have numeral := isNumeral_toDigits n
  ⟨numeral.digits, numeral.nonempty, numeral.leading⟩

theorem IsWhole.accepted {cs : List Char} (isWhole : IsWhole cs) :
    (cs.isEmpty || (cs.head? == some '0' && cs.length != 1)) = false := by
  obtain ⟨_, nonempty, leading⟩ := isWhole
  cases cs with
  | nil => exact absurd rfl nonempty
  | cons c rest => simpa using leading

theorem fraction?_point {places : List Char} (digits : AreDigits places) (nonempty : places ≠ [])
    (rest : List Char) (stop : ∀ c ∈ rest.head?, c.isDigit = false) :
    fraction? ('.' :: (places ++ rest)) = some (places, rest) := by
  simp only [fraction?, span_digits digits rest stop]
  cases places with
  | nil => exact absurd rfl nonempty
  | cons c cs => rfl

theorem exponent?_power (power : Int) :
    exponent? ('e' :: (if power < 0 then '-' else '+') :: Nat.toDigits 10 power.natAbs) =
      some power := by
  have digits : (Nat.toDigits 10 power.natAbs).all Char.isDigit = true :=
    List.all_eq_true.2 (areDigits_toDigits power.natAbs)
  have nonempty : (Nat.toDigits 10 power.natAbs).isEmpty = false := by
    simp
  have value : Nat.ofDigitChars 10 (Nat.toDigits 10 power.natAbs) 0 = power.natAbs :=
    Nat.ofDigitChars_toDigits (by decide) (by decide)
  by_cases below : power < 0
  · have back : -(power.natAbs : Int) = power := by omega
    simp only [exponent?, if_pos below, digits, nonempty, value, back, decide_true, Bool.true_or,
      Bool.not_false, Bool.and_self, if_true]
  · have back : (power.natAbs : Int) = power := by omega
    simp only [exponent?, if_neg below, digits, nonempty, value, back, decide_true, Bool.true_or,
      Bool.not_false, Bool.and_self, Bool.false_eq_true, if_true, if_false]

section Layouts

variable [NumberReader] {whole places rest : List Char} (negative : Bool)

theorem ofUnsigned?_whole (isWhole : IsWhole whole) :
    ofUnsigned? negative whole = some (ofWhole negative (valueOf whole)) := by
  have split : whole.span Char.isDigit = (whole, []) := by
    simpa using span_digits isWhole.1 [] (by simp)
  simp only [ofUnsigned?, split, isWhole.accepted, Bool.false_eq_true, if_false]
  rfl

theorem ofUnsigned?_point (isWhole : IsWhole whole) (digits : AreDigits places)
    (nonempty : places ≠ []) :
    ofUnsigned? negative (whole ++ '.' :: places) =
      some (ofDecimal negative (pointed whole places 0)) := by
  have split := span_digits isWhole.1 ('.' :: places) (by simp)
  have fraction := fraction?_point digits nonempty [] (by simp)
  rw [List.append_nil] at fraction
  simp only [ofUnsigned?, split, isWhole.accepted, Bool.false_eq_true, if_false, fraction]

theorem ofUnsigned?_exponent {e : Int} (isWhole : IsWhole whole)
    (power : exponent? ('e' :: rest) = some e) :
    ofUnsigned? negative (whole ++ 'e' :: rest) =
      some (ofDecimal negative (pointed whole [] e)) := by
  have split := span_digits isWhole.1 ('e' :: rest) (by simp)
  have fraction : fraction? ('e' :: rest) = some ([], 'e' :: rest) := rfl
  simp only [ofUnsigned?, split, isWhole.accepted, Bool.false_eq_true, if_false, fraction, power,
    Option.map_some]

theorem ofUnsigned?_point_exponent {e : Int} (isWhole : IsWhole whole) (digits : AreDigits places)
    (nonempty : places ≠ []) (power : exponent? ('e' :: rest) = some e) :
    ofUnsigned? negative (whole ++ '.' :: (places ++ 'e' :: rest)) =
      some (ofDecimal negative (pointed whole places e)) := by
  have split := span_digits isWhole.1 ('.' :: (places ++ 'e' :: rest)) (by simp)
  have fraction := fraction?_point digits nonempty ('e' :: rest) (by simp)
  simp only [ofUnsigned?, split, isWhole.accepted, Bool.false_eq_true, if_false, fraction, power,
    Option.map_some]

end Layouts

theorem pointed_eq (whole places : List Char) (e : Int) :
    pointed whole places e = ⟨valueOf (whole ++ places), e - places.length⟩ := rfl

/-- Digits that do not begin with a zero may stand in front of a point. -/
theorem isWhole_of_leading {digits : List Char} (areDigits : AreDigits digits)
    (leading : digits.head? ≠ some '0') (nonempty : digits ≠ []) : IsWhole digits :=
  ⟨areDigits, nonempty, fun zero => absurd zero leading⟩

section Written

variable [NumberReader] {negative : Bool} {digits : List Char} {point : Int}

theorem ofUnsigned?_point_before (areDigits : AreDigits digits) (nonempty : digits ≠ [])
    (before : point ≤ 0) :
    ofUnsigned? negative ('0' :: '.' :: (List.replicate (-point).toNat '0' ++ digits)) =
      some (ofDecimal negative ⟨valueOf digits, point - digits.length⟩) := by
  have exponent : (0 : Int) - (List.replicate (-point).toNat '0' ++ digits).length =
      point - digits.length := by
    rw [List.length_append, List.length_replicate]
    omega
  have read := ofUnsigned?_point negative (isWhole_toDigits 0)
    ((areDigits_zeros (-point).toNat).append areDigits) (by simp [nonempty])
  rw [pointed_eq, exponent] at read
  simpa using read

theorem ofUnsigned?_point_after (areDigits : AreDigits digits) (leading : digits.head? ≠ some '0')
    (nonempty : digits ≠ []) (zeros : Nat) :
    ofUnsigned? negative (digits ++ List.replicate zeros '0' ++ ['.', '0']) =
      some (ofDecimal negative ⟨valueOf digits * 10 ^ (zeros + 1), -1⟩) := by
  have isWhole : IsWhole (digits ++ List.replicate zeros '0') := by
    refine isWhole_of_leading (areDigits.append (areDigits_zeros zeros)) ?_ (by simp [nonempty])
    cases digits with
    | nil => exact absurd rfl nonempty
    | cons c rest => exact leading
  have read := ofUnsigned?_point negative isWhole (areDigits_zeros 1) (by simp)
  have value : valueOf (digits ++ List.replicate zeros '0' ++ List.replicate 1 '0') =
      valueOf digits * 10 ^ (zeros + 1) := by
    rw [List.append_assoc, List.replicate_append_replicate, valueOf_append_zeros]
  rw [pointed_eq, value] at read
  exact read

theorem ofUnsigned?_point_among (areDigits : AreDigits digits) (leading : digits.head? ≠ some '0')
    {n : Nat} (positive : 0 < n) (among : n < digits.length) :
    ofUnsigned? negative (digits.take n ++ '.' :: digits.drop n) =
      some (ofDecimal negative ⟨valueOf digits, n - digits.length⟩) := by
  have isWhole : IsWhole (digits.take n) := by
    refine isWhole_of_leading (areDigits.take n) ?_ ?_
    · rwa [List.head?_take, if_neg (Nat.ne_of_gt positive)]
    · intro none
      have length := congrArg List.length none
      simp only [List.length_take, List.length_nil] at length
      omega
  have nonempty : digits.drop n ≠ [] := by simpa using among
  have read := ofUnsigned?_point negative isWhole (areDigits.drop n) nonempty
  have exponent : (0 : Int) - (digits.drop n).length = n - digits.length := by
    rw [List.length_drop]
    omega
  rw [pointed_eq, List.take_append_drop, exponent] at read
  exact read

/-- The positional layout spells the decimal that its digits and its point stand for, or one
with zeros behind it. -/
theorem ofUnsigned?_positionalText (areDigits : AreDigits digits)
    (leading : digits.head? ≠ some '0') :
    ∃ d, ofUnsigned? negative (numberFormat.positionalText digits point) =
        some (ofDecimal negative d) ∧
      d.toBinary64 negative = toBinary64 negative ⟨valueOf digits, point - digits.length⟩ := by
  by_cases none : digits = []
  · -- Zero has a place of its own after the point.
    subst none
    have read := ofUnsigned?_point negative (isWhole_toDigits 0) (areDigits_zeros 1) (by simp)
    have digits : valueOf (Nat.toDigits 10 0 ++ List.replicate 1 '0') = 0 := by simp
    rw [pointed_eq, digits] at read
    refine ⟨_, read, ?_⟩
    rw [toBinary64_zero, valueOf_nil, toBinary64_zero]
  have nonempty : digits.isEmpty = false := by simpa using none
  simp only [NumberFormat.positionalText, nonempty, Bool.false_eq_true, if_false]
  by_cases before : point ≤ 0
  · rw [if_pos before]
    exact ⟨_, ofUnsigned?_point_before areDigits none before, rfl⟩
  rw [if_neg before]
  by_cases after : digits.length ≤ point.toNat
  · have exponent : (-1 : Int) + ((point.toNat - digits.length + 1 : Nat) : Int) =
        point - digits.length := by omega
    rw [if_pos after]
    refine ⟨_, ofUnsigned?_point_after areDigits leading none _, ?_⟩
    rw [toBinary64_mul_pow, exponent]
  · have exponent : (point.toNat : Int) - digits.length = point - digits.length := by omega
    rw [if_neg after]
    refine ⟨_, ofUnsigned?_point_among areDigits leading (by omega) (by omega), ?_⟩
    rw [exponent]

/-- The scientific layout spells the decimal that its digits and its point stand for. -/
theorem ofUnsigned?_scientificText (areDigits : AreDigits digits)
    (leading : digits.head? ≠ some '0') (nonempty : digits ≠ []) :
    ofUnsigned? negative (NumberFormat.scientificText digits point) =
      some (ofDecimal negative ⟨valueOf digits, point - digits.length⟩) := by
  have power := exponent?_power (point - 1)
  cases digits with
  | nil => exact absurd rfl nonempty
  | cons d rest =>
      have isWhole : IsWhole [d] := by
        refine isWhole_of_leading ?_ leading (by simp)
        intro c member
        exact areDigits c (by simp [List.mem_singleton.1 member])
      cases rest with
      | nil =>
          have read := ofUnsigned?_exponent negative isWhole power
          have exponent : point - 1 - ([] : List Char).length = point - [d].length := by
            simp only [List.length_cons, List.length_nil]
            omega
          rw [pointed_eq, List.append_nil, exponent] at read
          exact read
      | cons e more =>
          have places : AreDigits (e :: more) := by
            intro c member
            exact areDigits c (List.mem_cons_of_mem d member)
          have read := ofUnsigned?_point_exponent negative isWhole places (by simp) power
          have exponent : point - 1 - (e :: more).length = point - (d :: e :: more).length := by
            simp only [List.length_cons]
            omega
          have joined : [d] ++ e :: more = d :: e :: more := rfl
          rw [pointed_eq, exponent, joined] at read
          exact read

end Written

/-- What is read without a sign begins with a digit. -/
theorem exists_digit_of_ofUnsigned? [NumberReader] {negative : Bool} {word : List Char} {v : Json}
    (read : ofUnsigned? negative word = some v) : ∃ c rest, word = c :: rest ∧ c.isDigit := by
  cases word with
  | nil => cases read
  | cons c rest =>
      refine ⟨c, rest, rfl, ?_⟩
      by_contra other
      have noDigits : AreDigits [] := fun _ member => absurd member List.not_mem_nil
      have split := span_digits noDigits (c :: rest) (by simpa using other)
      rw [List.nil_append] at split
      simp only [ofUnsigned?, split, List.isEmpty_nil, Bool.true_or, if_true, reduceCtorEq] at read

/-- A number with its sign is no literal, and its sign is found again. -/
theorem ofWord?_of_ofUnsigned? [NumberReader] {negative : Bool} {word : List Char} {v : Json}
    (read : ofUnsigned? negative word = some v) :
    ofWord? (if negative then '-' :: word else word) = some v := by
  obtain ⟨c, rest, rfl, digit⟩ := exists_digit_of_ofUnsigned? read
  have literal : c ≠ 'n' ∧ c ≠ 't' ∧ c ≠ 'f' ∧ c ≠ '-' := by
    refine ⟨?_, ?_, ?_, ?_⟩ <;>
      · rintro rfl
        exact absurd digit (by decide)
  cases negative with
  | true => simpa [ofWord?] using read
  | false => simpa [ofWord?, literal] using read

/-- The text of a finite number spells a decimal that it is the nearest number to. -/
theorem ofWord?_floatText [NumberReader] {x : Binary64} (finite : x.isFinite) :
    ∃ negative d, ofWord? (floatText x) = some (ofDecimal negative d) ∧
      d.toBinary64 negative = x := by
  have value := Binary64.toBinary64_written finite numberFormat.tie
  have areDigits := areDigits_significant (x.shortest numberFormat.tie)
  have leading := head?_significant_ne_zero (x.shortest numberFormat.tie)
  simp only [floatText, finite, if_true, NumberFormat.write]
  by_cases positional : numberFormat.isPositional (x.shortest numberFormat.tie).significant
      (x.shortest numberFormat.tie).point = true
  · obtain ⟨d, read, same⟩ := ofUnsigned?_positionalText areDigits leading
    rw [if_pos positional]
    exact ⟨_, d, ofWord?_of_ofUnsigned? read, same.trans value⟩
  · -- Zero is written positionally.
    have nonempty : (x.shortest numberFormat.tie).significant ≠ [] := by
      intro zero
      rw [zero] at positional
      exact positional rfl
    rw [if_neg positional]
    exact ⟨_, _, ofWord?_of_ofUnsigned? (ofUnsigned?_scientificText areDigits leading nonempty),
      value⟩

/-- The nearest number is read as it is. -/
theorem ofDecimal_of_finite {negative : Bool} {d : Decimal} {x : Binary64} (finite : x.isFinite)
    (value : d.toBinary64 negative = x) : ofDecimal negative d = float x := by
  simp only [ofDecimal, NumberReader.read?, value, finite, if_true]

/-- A whole number is read back from its text, as a whole number if it fits 64 bits. -/
theorem ofWord?_intText [NumberReader] (i : Int) :
    ofWord? (intText i) = some (ofWhole (i < 0) i.natAbs) := by
  have read := ofUnsigned?_whole (decide (i < 0)) (isWhole_toDigits i.natAbs)
  rw [valueOf_toDigits] at read
  simpa [intText] using ofWord?_of_ofUnsigned? read

/-- A whole number that fits 64 bits stays a whole number. -/
theorem ofWhole_natAbs [NumberReader] {i : Int} (least : -0x8000000000000000 ≤ i)
    (greatest : i < 0x10000000000000000) : ofWhole (i < 0) i.natAbs = int i := by
  by_cases negative : i < 0
  · have bounds : 0 < i.natAbs ∧ i.natAbs ≤ 0x8000000000000000 := by omega
    have back : -(i.natAbs : Int) = i := by omega
    rw [ofWhole, if_neg (by simp [negative]), if_pos (by simp [negative, bounds]), back]
  · have bound : i.natAbs < 0x10000000000000000 := by omega
    have back : (i.natAbs : Int) = i := by omega
    rw [ofWhole, if_pos (by simp [negative, bound]), back]

/-- Whether all characters belong to words. -/
def AreWordChars (cs : List Char) : Prop := ∀ c ∈ cs, isWordChar c = true

namespace AreWordChars

variable {c : Char} {cs ds : List Char}

theorem of_digits (digits : AreDigits cs) : AreWordChars cs := by
  intro c member
  simp [isWordChar, Char.isAlphanum, digits c member]

theorem cons (first : isWordChar c = true) (others : AreWordChars cs) : AreWordChars (c :: cs) :=
  List.forall_mem_cons.2 ⟨first, others⟩

theorem append (left : AreWordChars cs) (right : AreWordChars ds) : AreWordChars (cs ++ ds) :=
  List.forall_mem_append.2 ⟨left, right⟩

end AreWordChars

theorem areWordChars_positionalText {digits : List Char} (areDigits : AreDigits digits)
    (point : Int) : AreWordChars (numberFormat.positionalText digits point) := by
  have ending : AreWordChars ['.', '0'] := List.all_eq_true.1 rfl
  have zeros : ∀ n, AreWordChars (List.replicate n '0') :=
    fun n => .of_digits (areDigits_zeros n)
  have zero : isWordChar '0' = true := by decide
  have dot : isWordChar '.' = true := by decide
  simp only [NumberFormat.positionalText, numberFormat, if_true]
  split
  · exact ending.cons zero
  split
  · exact (((zeros _).append (.of_digits areDigits)).cons dot).cons zero
  split
  · exact ((AreWordChars.of_digits areDigits).append (zeros _)).append ending
  · have before : AreWordChars (digits.take point.toNat) := .of_digits (areDigits.take _)
    have after : AreWordChars (digits.drop point.toNat) := .of_digits (areDigits.drop _)
    exact before.append (after.cons dot)

theorem areWordChars_scientificText {digits : List Char} (areDigits : AreDigits digits)
    (point : Int) : AreWordChars (NumberFormat.scientificText digits point) := by
  have sign : isWordChar (if point - 1 < 0 then '-' else '+') = true := by
    split <;> decide
  have magnitude : AreWordChars (Nat.toDigits 10 (point - 1).natAbs) :=
    .of_digits (areDigits_toDigits _)
  have power := (magnitude.cons sign).cons (c := 'e') (by decide)
  have written := AreWordChars.of_digits areDigits
  have dot : isWordChar '.' = true := by decide
  rw [NumberFormat.scientificText.eq_def]
  split
  · exact power.cons (by decide)
  · exact power.cons (written _ List.mem_cons_self)
  · obtain ⟨first, others⟩ := List.forall_mem_cons.1 written
    exact ((AreWordChars.append others power).cons dot).cons first

theorem areWordChars_write (x : Binary64) : AreWordChars (numberFormat.write x) := by
  have digits := areDigits_significant (x.shortest numberFormat.tie)
  have minus : isWordChar '-' = true := by decide
  have unsigned : AreWordChars
      (if numberFormat.isPositional (x.shortest numberFormat.tie).significant
        (x.shortest numberFormat.tie).point
      then numberFormat.positionalText (x.shortest numberFormat.tie).significant
        (x.shortest numberFormat.tie).point
      else NumberFormat.scientificText (x.shortest numberFormat.tie).significant
        (x.shortest numberFormat.tie).point) := by
    split
    · exact areWordChars_positionalText digits _
    · exact areWordChars_scientificText digits _
  rw [NumberFormat.write]
  split
  · exact unsigned.cons minus
  · exact unsigned

theorem areWordChars_intText (i : Int) : AreWordChars (intText i) := by
  have digits : AreWordChars (Nat.toDigits 10 i.natAbs) := .of_digits (areDigits_toDigits _)
  have minus : isWordChar '-' = true := by decide
  rw [intText]
  split
  · exact digits.cons minus
  · exact digits

end TableView.Json
