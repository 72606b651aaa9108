import TableView.Instant.Text
import TableView.Proofs.Decimal.Digits

/-!
# Instants read back

The text of an instant is read as that instant, leap seconds and years outside four
digits included. Each part of the text is read by its own reader, which takes the
digits it was written with and leaves the rest of the text.
-/

namespace TableView.Instant

open Decimal

theorem areDigits_padded (width n : Nat) : AreDigits (padded width n) :=
  (areDigits_zeros _).append (areDigits_toDigits n)

@[simp] theorem valueOf_padded (width n : Nat) : valueOf (padded width n) = n := by
  simp [padded]

theorem padded_ne_nil (width n : Nat) : padded width n ≠ [] := by
  simp [padded]

theorem length_padded {width n : Nat} (positive : 0 < width) (fits : n < 10 ^ width) :
    (padded width n).length = width := by
  have digits : (Nat.toDigits 10 n).length ≤ width :=
    (Nat.length_toDigits_le_iff (by decide) positive).2 fits
  simp only [padded, List.length_append, List.length_replicate]
  omega

theorem isBlank_of_isDigit {c : Char} (digit : c.isDigit) : Text.isBlank c = false := by
  have bounds : 48 ≤ c.toNat ∧ c.toNat ≤ 57 := by
    simpa [Char.isDigit, UInt32.le_iff_toNat_le] using digit
  simp only [Text.isBlank]
  simp
  omega

theorem skipBlank_cons {c : Char} (visible : Text.isBlank c = false) (rest : List Char) :
    Text.skipBlank (c :: rest) = c :: rest := by
  simp [Text.skipBlank, visible]

theorem skipBlank_digits {digits : List Char} (areDigits : AreDigits digits)
    (nonempty : digits ≠ []) (rest : List Char) :
    Text.skipBlank (digits ++ rest) = digits ++ rest := by
  cases digits with
  | nil => exact absurd rfl nonempty
  | cons c more => exact skipBlank_cons (isBlank_of_isDigit (areDigits c List.mem_cons_self)) _

/-- Digits are read up to the most that may be read, or up to the first other character. -/
theorem number?_digits {digits : List Char} (areDigits : AreDigits digits)
    (nonempty : digits ≠ []) {most : Nat} (fits : digits.length ≤ most) (rest : List Char)
    (stop : digits.length = most ∨ ∀ c ∈ rest.head?, c.isDigit = false) :
    number? most (digits ++ rest) = some (valueOf digits, rest) := by
  have taken : ((digits ++ rest).take most).takeWhile Char.isDigit = digits := by
    rw [List.take_append, List.take_of_length_le fits]
    apply takeWhile_digits areDigits
    intro c here
    obtain full | other := stop
    · simp [full] at here
    · rw [List.head?_take] at here
      split at here
      · cases here
      · exact other c here
  have some : digits.isEmpty = false := by simpa using nonempty
  simp only [number?, taken, some, Bool.false_eq_true, if_false, List.drop_left]
  rfl

theorem component?_padded {least greatest n : Nat} (low : least ≤ n) (high : n ≤ greatest)
    (small : n < 100) (rest : List Char) :
    component? least greatest (padded 2 n ++ rest) = some (n, rest) := by
  have length : (padded 2 n).length = 2 := length_padded (by decide) small
  have read : number? 2 (padded 2 n ++ rest) = some (n, rest) := by
    rw [number?_digits (areDigits_padded 2 n) (padded_ne_nil 2 n) (Nat.le_of_eq length) rest
      (.inl length), valueOf_padded]
  simp [component?, skipBlank_digits (areDigits_padded 2 n) (padded_ne_nil 2 n), read, low, high]

theorem mark?_cons {c : Char} (visible : Text.isBlank c = false) (rest : List Char) :
    mark? c (c :: rest) = some rest := by
  simp [mark?, skipBlank_cons visible]

theorem year?_digits {digits : List Char} (areDigits : AreDigits digits) (nonempty : digits ≠ [])
    (rest : List Char) :
    year? (digits ++ rest) =
      (number? 4 (digits ++ rest)).map fun (n, rest) => ((n : Int), rest) := by
  rw [year?, skipBlank_digits areDigits nonempty rest]
  cases digits with
  | nil => exact absurd rfl nonempty
  | cons c more =>
      have digit : c.isDigit := areDigits c List.mem_cons_self
      have unsigned : c ≠ '-' ∧ c ≠ '+' := by
        constructor <;>
          · rintro rfl
            exact absurd digit (by decide)
      simp [unsigned]

theorem year?_yearText (year : Int) (rest : List Char) :
    year? (yearText year ++ '-' :: rest) = some (year, '-' :: rest) := by
  have areDigits := areDigits_padded 4 year.natAbs
  have nonempty := padded_ne_nil 4 year.natAbs
  by_cases four : 0 ≤ year ∧ year ≤ 9999
  · have magnitude : year.toNat = year.natAbs := by omega
    have back : (year.natAbs : Int) = year := by omega
    have length : (padded 4 year.natAbs).length = 4 := length_padded (by decide) (by omega)
    rw [yearText, if_pos four, magnitude, year?_digits areDigits nonempty,
      number?_digits areDigits nonempty (Nat.le_of_eq length) _ (.inl length), valueOf_padded,
      Option.map_some]
    simp only [back]
  · have fits : (padded 4 year.natAbs).length ≤ (padded 4 year.natAbs ++ '-' :: rest).length := by
      rw [List.length_append]
      omega
    have read := number?_digits areDigits nonempty fits ('-' :: rest) (.inr (by simp))
    rw [valueOf_padded] at read
    by_cases negative : year < 0
    · have back : -(year.natAbs : Int) = year := by omega
      rw [yearText, if_neg four, if_pos negative, List.cons_append, year?,
        skipBlank_cons (by decide)]
      simp only [read, Option.map_some, back]
    · have back : (year.natAbs : Int) = year := by omega
      rw [yearText, if_neg four, if_neg negative, List.cons_append, year?,
        skipBlank_cons (by decide)]
      simp only [read, Option.map_some, back]

/-- Places of a second are read as nanoseconds, missing ones being zero. -/
theorem fraction?_places {width n : Nat} (positive : 0 < width) (nine : width ≤ 9)
    (fits : n < 10 ^ width) :
    fraction? ('.' :: padded width n ++ ['Z']) = some (n * 10 ^ (9 - width), ['Z']) := by
  have length := length_padded positive fits
  have taken : (padded width n ++ ['Z']).takeWhile Char.isDigit = padded width n :=
    takeWhile_digits (areDigits_padded width n) ['Z'] (by simp)
  have filled : (padded width n ++ List.replicate 9 '0').take 9 =
      padded width n ++ List.replicate (9 - width) '0' := by
    rw [List.take_append, List.take_of_length_le (by omega), length, List.take_replicate]
    congr 2
    omega
  have value : Nat.ofDigitChars 10 (padded width n ++ List.replicate (9 - width) '0') 0 =
      n * 10 ^ (9 - width) := by
    have padded := valueOf_append_zeros (padded width n) (9 - width)
    rwa [valueOf_padded] at padded
  have some : (padded width n).isEmpty = false := by simpa using padded_ne_nil width n
  simp only [List.cons_append, fraction?, taken, some, Bool.false_eq_true, if_false, filled, value,
    List.drop_left]

theorem fraction?_fractionText (t : TimeOfDay) :
    fraction? (fractionText t ++ ['Z']) = some (t.nanosecond % nanosPerSecond, ['Z']) := by
  have bound : t.nanosecond % nanosPerSecond < 10 ^ 9 := Nat.mod_lt _ (by decide)
  simp only [fractionText]
  generalize t.nanosecond % nanosPerSecond = nanos at bound
  by_cases none : nanos = 0
  · rw [if_pos none, none]
    rfl
  rw [if_neg none]
  by_cases three : nanos % 1000000 = 0
  · rw [if_pos three, fraction?_places (by decide) (by decide) (by omega)]
    have whole : nanos / 1000000 * 10 ^ (9 - 3) = nanos := by omega
    rw [whole]
  rw [if_neg three]
  by_cases six : nanos % 1000 = 0
  · rw [if_pos six, fraction?_places (by decide) (by decide) (by omega)]
    have whole : nanos / 1000 * 10 ^ (9 - 6) = nanos := by omega
    rw [whole]
  · rw [if_neg six, fraction?_places (by decide) (by decide) bound]
    simp

theorem ofLocal?_zero (t : Instant) : ofLocal? t.date t.time 0 = some t := by
  obtain ⟨date, ⟨hour, minute, second, nanosecond⟩, dateValid, timeValid⟩ := t
  have hours : hour < 24 := timeValid.1
  have minutes : minute < 60 := timeValid.2.1
  have notBefore : ¬ ((hour * 60 + minute : Int) - 0 < 0) := by omega
  have notAfter : (hour * 60 + minute : Int) - 0 < 24 * 60 := by omega
  have within : (((hour * 60 + minute : Int) - 0) % (24 * 60)).toNat = hour * 60 + minute := by
    omega
  have sameHour : (hour * 60 + minute) / 60 = hour := by omega
  have sameMinute : (hour * 60 + minute) % 60 = minute := by omega
  simp only [ofLocal?, if_neg notBefore, if_pos notAfter, within, sameHour, sameMinute,
    if_pos dateValid, of?]
  exact dif_pos ⟨dateValid, timeValid⟩

/-- The fields of a time are found again from the second it shows and its nanoseconds. -/
theorem shownSecond_eq {t : TimeOfDay} (valid : t.IsValid) :
    (if shownSecond t = 60 then
        (⟨t.hour, t.minute, 59, t.nanosecond % nanosPerSecond + nanosPerSecond⟩ : TimeOfDay)
      else ⟨t.hour, t.minute, shownSecond t, t.nanosecond % nanosPerSecond⟩) = t := by
  obtain ⟨_, _, seconds, nanos⟩ := valid
  unfold shownSecond nanosPerSecond at *
  by_cases ordinary : t.nanosecond < 1000000000
  · rw [if_pos ordinary, if_neg (by omega), Nat.mod_eq_of_lt ordinary]
  · obtain ⟨last, leap⟩ := nanos.resolve_left ordinary
    have split : t.nanosecond % 1000000000 + 1000000000 = t.nanosecond := by omega
    rw [if_neg ordinary, if_pos rfl, split, ← last]

/-- Every instant is read back from its text. -/
theorem ofText?_text (t : Instant) : ofText? t.text = some t := by
  obtain ⟨_, _, month, months, day, days⟩ := t.date_valid
  obtain ⟨hours, minutes, seconds, _⟩ := t.time_valid
  have daysMost : t.date.day ≤ 31 := by
    refine Nat.le_trans days ?_
    rw [Date.daysInMonth]
    split
    · split <;> omega
    · split <;> omega
  have second : shownSecond t.time ≤ 60 := by
    rw [shownSecond]
    split <;> omega
  have zone : offset? (Text.skipBlank ['Z']) = some (0, []) := rfl
  have ended : (Text.skipBlank []).isEmpty = true := rfl
  simp only [ofText?, text, String.toList_ofList, ofChars?, chars, dateText, clockText,
    List.append_assoc, List.cons_append]
  simp only [year?_yearText, mark?_cons (c := '-') (by decide), mark?_cons (c := ':') (by decide),
    component?_padded month months (by omega), component?_padded day daysMost (by omega),
    component?_padded (Nat.zero_le _) (Nat.le_of_lt_succ hours) (by omega),
    component?_padded (Nat.zero_le _) (Nat.le_of_lt_succ minutes) (by omega),
    component?_padded (Nat.zero_le _) second (by omega), fraction?_fractionText,
    bind, Option.bind, decide_true, Bool.true_or, if_true, zone, ended,
    shownSecond_eq t.time_valid]
  exact ofLocal?_zero t

end TableView.Instant
