import Mathlib.Data.List.TakeWhile
import TableView.Duration
import TableView.Proofs.Decimal.Digits
import TableView.Proofs.ItemByItem

/-!
# Durations read back

A duration is written as amounts of days, hours, minutes and seconds, of which leading ones that
are zero are left out (`Spells`). Amounts below those of the unit before are found again from
their total (`Clock.eq_of_total`), and so each duration has one written form, which is its text
(`spells_iff`). A reader that takes the form apart again, without looking at how it was written,
reads it as that duration, and nothing else (`read?_eq_some_iff`).
-/

namespace TableView.Duration

open Decimal

/-- A number of days and the time that is left as a clock shows it. -/
structure Clock where
  days : Nat
  hours : Nat
  minutes : Nat
  seconds : Nat
  hours_lt : hours < 24
  minutes_lt : minutes < 60
  seconds_lt : seconds < 60

namespace Clock

/-- The seconds of a clock, those of its days included. -/
def total (c : Clock) : Nat := 86400 * c.days + 3600 * c.hours + 60 * c.minutes + c.seconds

/-- The amounts of a clock with the letters of their units. -/
def amounts (c : Clock) : List (Nat × Char) :=
  [(c.days, 'd'), (c.hours, 'h'), (c.minutes, 'm'), (c.seconds, 's')]

/-- The clock of no time at all. -/
def zero : Clock := ⟨0, 0, 0, 0, by decide, by decide, by decide⟩

/-- The clock of some seconds. -/
def ofSeconds (n : Nat) : Clock where
  days := n / 86400
  hours := n % 86400 / 3600
  minutes := n % 3600 / 60
  seconds := n % 60
  hours_lt := by omega
  minutes_lt := by omega
  seconds_lt := by omega

theorem amounts_ofSeconds (n : Nat) : (ofSeconds n).amounts = units n := rfl

theorem total_ofSeconds (n : Nat) : (ofSeconds n).total = n := by
  simp only [total, ofSeconds]
  omega

theorem eq_of_total {c d : Clock} (same : c.total = d.total) : c = d := by
  obtain ⟨_, _, _, _, _, _, _⟩ := c
  obtain ⟨_, _, _, _, _, _, _⟩ := d
  simp only [total] at same
  congr 1 <;> omega

/-- No time at all is zero of each unit. -/
theorem total_eq_zero_iff {c : Clock} : c.total = 0 ↔ ∀ a ∈ c.amounts, a.1 = 0 := by
  simp only [total, amounts, List.forall_mem_cons, List.not_mem_nil, false_imp_iff, forall_true_iff,
    and_true]
  omega

theorem letter_of_mem {c : Clock} {a : Nat × Char} (mem : a ∈ c.amounts) :
    a.2.isDigit = false ∧ a.2 ≠ ' ' := by
  simp only [amounts, List.mem_cons, List.not_mem_nil, or_false] at mem
  obtain rfl | rfl | rfl | rfl := mem <;> exact ⟨rfl, by simp⟩

end Clock

/-- Whether characters are an amount with its unit: a numeral and the letter of the unit. -/
def SpellsAmount (piece : List Char) (amount : Nat × Char) : Prop :=
  ∃ numeral, IsNumeral amount.1 numeral ∧ piece = numeral ++ [amount.2]

/-- Whether some amounts are those to show of `n` seconds, which the clock splits into units: the
last ones of the clock, all before them being zero. The first of them is not zero, unless there is
nothing to show but zero seconds. -/
structure Shows (n : Int) (clock : Clock) (shown : List (Nat × Char)) : Prop where
  total : clock.total = n.natAbs
  rest : ∃ skipped, clock.amounts = skipped ++ shown ∧ ∀ a ∈ skipped, a.1 = 0
  first : (∃ a ∈ shown.head?, a.1 ≠ 0) ∨ n = 0 ∧ shown = [(0, 's')]

/-- Whether characters spell a duration of `n` seconds: a minus if it is negative, and the amounts
to show with single blanks between them. -/
def Spells (cs : List Char) (n : Int) : Prop :=
  ∃ clock shown pieces, Shows n clock shown ∧ List.Forall₂ SpellsAmount pieces shown ∧
    cs = (if n < 0 then ['-'] else []) ++ [' '].intercalate pieces

theorem spellsAmount_iff {piece : List Char} {amount : Nat × Char} :
    SpellsAmount piece amount ↔ piece = unitText amount := by
  simp only [SpellsAmount, isNumeral_iff, exists_eq_left, unitText]

theorem forall₂_spellsAmount_iff {pieces : List (List Char)} {shown : List (Nat × Char)} :
    List.Forall₂ SpellsAmount pieces shown ↔ pieces = shown.map unitText := by
  have same : SpellsAmount = fun piece amount => piece = unitText amount := by
    funext piece amount
    exact propext spellsAmount_iff
  rw [← List.forall₂_eq_eq_eq, List.forall₂_map_right_iff, same]

theorem joinUnits_eq (amounts : List (Nat × Char)) :
    joinUnits amounts = [' '].intercalate (amounts.map unitText) := by
  induction amounts with
  | nil => rfl
  | cons amount rest ih =>
      cases rest with
      | nil => simp [joinUnits]
      | cons next more => simp [joinUnits, ih]

/-- The amounts that are shown of some seconds. -/
def shownUnits (n : Nat) : List (Nat × Char) :=
  match (units n).dropWhile (·.1 == 0) with
  | [] => [(0, 's')]
  | shown => shown

theorem magnitudeText_eq (n : Nat) : magnitudeText n = joinUnits (shownUnits n) := by
  rw [magnitudeText, shownUnits]
  generalize (units n).dropWhile (·.1 == 0) = shown
  cases shown <;> rfl

theorem shownUnits_ne_nil (n : Nat) : shownUnits n ≠ [] := by
  rw [shownUnits]
  split
  · simp
  · assumption

/-- Of some time, all is shown from the first amount on that is not zero. -/
theorem shownUnits_of_pos {n : Nat} (positive : n ≠ 0) :
    shownUnits n = (units n).dropWhile (·.1 == 0) ∧ ∃ a ∈ (shownUnits n).head?, a.1 ≠ 0 := by
  rw [shownUnits]
  cases shown : (units n).dropWhile (·.1 == 0) with
  | nil =>
      have zeros : (Clock.ofSeconds n).total = 0 := by
        rw [Clock.total_eq_zero_iff, Clock.amounts_ofSeconds]
        simpa using List.dropWhile_eq_nil_iff.1 shown
      exact absurd (Clock.total_ofSeconds n ▸ zeros) positive
  | cons a rest =>
      have stop := List.head?_dropWhile_not (·.1 == 0) (units n)
      rw [shown] at stop
      exact ⟨rfl, a, rfl, by simpa using stop⟩

/-- The amounts of a duration are those of its seconds, and the ones to show are those that its
text shows. -/
theorem shows_iff {n : Int} {clock : Clock} {shown : List (Nat × Char)} :
    Shows n clock shown ↔ clock = .ofSeconds n.natAbs ∧ shown = shownUnits n.natAbs := by
  constructor
  · rintro ⟨total, ⟨skipped, amounts, zeros⟩, first⟩
    obtain rfl := Clock.eq_of_total (total.trans (Clock.total_ofSeconds n.natAbs).symm)
    refine ⟨rfl, ?_⟩
    rw [shownUnits, ← Clock.amounts_ofSeconds, amounts,
      List.dropWhile_append_of_pos (by simpa using zeros)]
    obtain ⟨a, head, nonzero⟩ | ⟨rfl, rfl⟩ := first
    · obtain ⟨rest, rfl⟩ : ∃ rest, shown = a :: rest := List.head?_eq_some_iff.1 head
      rw [List.dropWhile_cons_of_neg (by simpa using nonzero)]
    · rfl
  · rintro ⟨rfl, rfl⟩
    by_cases nothing : n = 0
    · subst nothing
      exact ⟨rfl, ⟨[(0, 'd'), (0, 'h'), (0, 'm')], rfl, by simp⟩, .inr ⟨rfl, rfl⟩⟩
    · obtain ⟨shown, first⟩ := shownUnits_of_pos (Int.natAbs_ne_zero.2 nothing)
      refine ⟨Clock.total_ofSeconds _, ⟨(units n.natAbs).takeWhile (·.1 == 0), ?_, ?_⟩, .inl first⟩
      · rw [shown, Clock.amounts_ofSeconds, List.takeWhile_append_dropWhile]
      · intro a mem
        simpa using List.mem_takeWhile_imp mem

/-- The characters of a duration. -/
def chars (n : Int) : List Char := (if n < 0 then ['-'] else []) ++ magnitudeText n.natAbs

theorem toList_text (n : Int64) : (text n).toList = chars n.toInt := by
  rw [text, chars, String.toList_ofList]
  split <;> rfl

/-- A duration has one written form. -/
theorem spells_iff {cs : List Char} {n : Int} : Spells cs n ↔ cs = chars n := by
  simp only [Spells, shows_iff, forall₂_spellsAmount_iff]
  constructor
  · rintro ⟨_, _, _, ⟨rfl, rfl⟩, rfl, rfl⟩
    rw [chars, magnitudeText_eq, joinUnits_eq]
  · rintro rfl
    exact ⟨_, _, _, ⟨rfl, rfl⟩, rfl, by rw [chars, magnitudeText_eq, joinUnits_eq]⟩

/-- Reads a numeral and one more character, the letter of a unit. -/
def amount? (piece : List Char) : Option (Nat × Char) :=
  let digits := piece.takeWhile Char.isDigit
  match piece.dropWhile Char.isDigit with
  | [unit] =>
    if digits ≠ [] ∧ (digits.head? = some '0' → digits.length = 1) then
      some (valueOf digits, unit)
    else none
  | _ => none

/-- The clock that shows some amounts last, and zero of the units before them. -/
def clock? (shown : List (Nat × Char)) : Option Clock :=
  match Clock.zero.amounts.take (4 - shown.length) ++ shown with
  | [(days, 'd'), (hours, 'h'), (minutes, 'm'), (seconds, 's')] =>
    if bounds : hours < 24 ∧ minutes < 60 ∧ seconds < 60 then
      some ⟨days, hours, minutes, seconds, bounds.1, bounds.2.1, bounds.2.2⟩
    else none
  | _ => none

/-- Reads a duration without its sign. -/
def magnitude? (cs : List Char) : Option Nat := do
  let shown ← (cs.splitOn ' ').mapM amount?
  let clock ← clock? shown
  if (∃ a ∈ shown.head?, a.1 ≠ 0) ∨ shown = [(0, 's')] then some clock.total else none

/-- Reads a duration. Zero has no sign. -/
def read? : List Char → Option Int
  | '-' :: rest =>
    match magnitude? rest with
    | some (n + 1) => some (-(n + 1 : Nat))
    | _ => none
  | cs => (magnitude? cs).map Nat.cast

theorem amount?_eq_some_iff {piece : List Char} {amount : Nat × Char} :
    amount? piece = some amount ↔ SpellsAmount piece amount ∧ amount.2.isDigit = false := by
  constructor
  · intro read
    have whole := List.takeWhile_append_dropWhile (p := Char.isDigit) (l := piece)
    have stop := List.head?_dropWhile_not Char.isDigit piece
    have digits : AreDigits (piece.takeWhile Char.isDigit) :=
      fun c mem => List.mem_takeWhile_imp mem
    simp only [amount?] at read
    split at read
    next unit behind =>
      rw [behind] at stop whole
      split at read
      next accepted =>
        obtain rfl := Option.some.inj read
        exact ⟨⟨_, ⟨digits, rfl, accepted.1, accepted.2⟩, whole.symm⟩, stop⟩
      next => cases read
    next => cases read
  · obtain ⟨n, unit⟩ := amount
    rintro ⟨⟨numeral, ⟨digits, rfl, nonempty, leading⟩, rfl⟩, letter⟩
    have split := span_digits digits [unit] (by simpa using letter)
    rw [List.span_eq_takeWhile_dropWhile] at split
    obtain ⟨taken, behind⟩ := Prod.mk.inj split
    simp only [amount?, taken, behind, if_pos (And.intro nonempty leading)]

/-- The amounts that are left out are zero. -/
theorem clock?_eq_some_iff {shown : List (Nat × Char)} {clock : Clock} :
    clock? shown = some clock ↔
      ∃ skipped, clock.amounts = skipped ++ shown ∧ ∀ a ∈ skipped, a.1 = 0 := by
  constructor
  · intro read
    rw [clock?] at read
    split at read
    next days hours minutes seconds padded =>
      split at read
      next bounds =>
        obtain rfl := Option.some.inj read
        refine ⟨_, padded.symm, fun a mem => ?_⟩
        exact Clock.total_eq_zero_iff.1 rfl a (List.mem_of_mem_take mem)
      next => cases read
    next => cases read
  · rintro ⟨skipped, amounts, zeros⟩
    have length : 4 - shown.length = skipped.length := by
      have lengths := congrArg List.length amounts
      rw [List.length_append] at lengths
      exact Nat.sub_eq_of_eq_add lengths
    have padding : Clock.zero.amounts.take (4 - shown.length) = skipped := by
      have units : Clock.zero.amounts = clock.amounts.map fun a => (0, a.2) := rfl
      have same : skipped.map (fun a => (0, a.2)) = skipped.map id :=
        List.map_congr_left fun a mem => Prod.ext (zeros a mem).symm rfl
      rw [units, length, amounts, List.map_append, List.take_left' (List.length_map _), same,
        List.map_id]
    rw [clock?, padding, ← amounts]
    exact dif_pos ⟨clock.hours_lt, clock.minutes_lt, clock.seconds_lt⟩

theorem not_mem_unitText {amount : Nat × Char} (letter : amount.2 ≠ ' ') :
    ' ' ∉ unitText amount := by
  rw [unitText, List.mem_append, List.mem_singleton, not_or]
  exact ⟨fun digit => by simpa using areDigits_toDigits amount.1 ' ' digit, letter.symm⟩

/-- Amounts are read from where they are joined, if their letters are no part of numerals and not
what they are joined by. -/
theorem mapM_splitOn_iff {cs : List Char} {shown : List (Nat × Char)} (nonempty : shown ≠ [])
    (letters : ∀ a ∈ shown, a.2.isDigit = false ∧ a.2 ≠ ' ') :
    (cs.splitOn ' ').mapM amount? = some shown ↔ cs = joinUnits shown := by
  rw [joinUnits_eq]
  constructor
  · intro read
    have pieces := (mapM_eq_some_iff.1 read).imp fun _ _ piece => (amount?_eq_some_iff.1 piece).1
    rw [← forall₂_spellsAmount_iff.1 pieces, List.intercalate_splitOn]
  · rintro rfl
    have split : ([' '].intercalate (shown.map unitText)).splitOn ' ' = shown.map unitText := by
      refine List.splitOn_intercalate ' ' ?_ (by simpa using nonempty)
      intro piece mem
      obtain ⟨a, known, rfl⟩ := List.mem_map.1 mem
      exact not_mem_unitText (letters a known).2
    rw [split, mapM_eq_some_iff, List.forall₂_map_left_iff, List.forall₂_same]
    exact fun a mem => amount?_eq_some_iff.2 ⟨spellsAmount_iff.2 rfl, (letters a mem).1⟩

/-- Without a sign it need not be known which duration is shown. -/
theorem shows_natCast_iff {n : Nat} {clock : Clock} {shown : List (Nat × Char)} :
    Shows n clock shown ↔ clock? shown = some clock ∧
      ((∃ a ∈ shown.head?, a.1 ≠ 0) ∨ shown = [(0, 's')]) ∧ clock.total = n := by
  rw [clock?_eq_some_iff]
  constructor
  · rintro ⟨total, rest, first⟩
    exact ⟨rest, first.imp_right And.right, total⟩
  · rintro ⟨rest, first, rfl⟩
    refine ⟨rfl, rest, first.imp_right ?_⟩
    rintro rfl
    obtain ⟨skipped, amounts, zeros⟩ := rest
    have nothing : clock.total = 0 := by
      rw [Clock.total_eq_zero_iff, amounts]
      intro a mem
      obtain mem | mem := List.mem_append.1 mem
      · exact zeros a mem
      · rw [List.mem_singleton.1 mem]
    exact ⟨congrArg _ nothing, rfl⟩

/-- A duration without its sign is read from its text, and from nothing else. -/
theorem magnitude?_eq_some_iff {cs : List Char} {n : Nat} :
    magnitude? cs = some n ↔ cs = magnitudeText n := by
  have texts : ∀ {shown clock}, Shows n clock shown →
      ((cs.splitOn ' ').mapM amount? = some shown ↔ cs = magnitudeText n) := by
    intro shown clock shows
    obtain ⟨skipped, amounts, -⟩ := shows.rest
    obtain ⟨rfl, rfl⟩ := shows_iff.1 shows
    rw [magnitudeText_eq]
    exact mapM_splitOn_iff (shownUnits_ne_nil n) fun a mem =>
      Clock.letter_of_mem (amounts ▸ List.mem_append_right skipped mem)
  simp only [magnitude?, Option.bind_eq_bind, Option.bind_eq_some_iff,
    Option.ite_none_right_eq_some, Option.some.injEq]
  constructor
  · rintro ⟨shown, read, clock, shows⟩
    exact (texts (shows_natCast_iff.2 shows)).1 read
  · intro written
    have shows : Shows n (.ofSeconds n) (shownUnits n) := shows_iff.2 ⟨rfl, rfl⟩
    exact ⟨_, (texts shows).2 written, _, shows_natCast_iff.1 shows⟩

theorem magnitudeText_ne_minus (n : Nat) (rest : List Char) : magnitudeText n ≠ '-' :: rest := by
  obtain ⟨a, more, shown⟩ := List.exists_cons_of_ne_nil (shownUnits_ne_nil n)
  have nonempty : Nat.toDigits 10 a.1 ≠ [] := Nat.toDigits_ne_nil
  obtain ⟨c, digits, numeral⟩ := List.exists_cons_of_ne_nil nonempty
  have digit : c.isDigit := areDigits_toDigits a.1 c (numeral ▸ List.mem_cons_self)
  intro signed
  have first : (magnitudeText n).head? = some c := by
    rw [magnitudeText_eq, shown]
    cases more <;> simp [joinUnits, unitText, numeral]
  rw [signed, List.head?_cons, Option.some.injEq] at first
  rw [← first] at digit
  exact absurd digit (by decide)

/-- Reading a duration undoes writing it, and nothing else is read as that duration. -/
theorem read?_eq_some_iff {cs : List Char} {n : Int} : read? cs = some n ↔ cs = chars n := by
  rw [chars, read?.eq_def]
  constructor
  · intro read
    split at read
    next rest =>
      split at read
      next k magnitude =>
        obtain rfl := Option.some.inj read
        rw [magnitude?_eq_some_iff.1 magnitude, if_pos (by omega), Int.natAbs_neg]
        rfl
      next => cases read
    next =>
      obtain ⟨k, magnitude, rfl⟩ := Option.map_eq_some_iff.1 read
      rw [magnitude?_eq_some_iff.1 magnitude, if_neg (by omega)]
      rfl
  · rintro rfl
    have magnitude : magnitude? (magnitudeText n.natAbs) = some n.natAbs :=
      magnitude?_eq_some_iff.2 rfl
    by_cases negative : n < 0
    · obtain ⟨k, size⟩ : ∃ k, n.natAbs = k + 1 := ⟨n.natAbs - 1, by omega⟩
      simp only [if_pos negative, List.singleton_append, magnitude]
      rw [size]
      show some (-((k + 1 : Nat) : Int)) = some n
      rw [Option.some.injEq]
      omega
    · rw [if_neg negative, List.nil_append]
      split
      next rest signed => exact absurd signed (magnitudeText_ne_minus n.natAbs rest)
      next =>
        rw [magnitude, Option.map_some, Option.some.injEq]
        omega

/-- The text of any 64-bit number of seconds is the one written form of that duration, and the one
text that is read as that duration. So different durations have different texts. -/
theorem text_read_back :
    (∀ (n : Int64) (s : String), (Spells s.toList n.toInt ↔ s = text n) ∧
      (read? s.toList = some n.toInt ↔ s = text n)) ∧
    Function.Injective text := by
  have spelled : ∀ (n : Int64) (s : String), s.toList = chars n.toInt ↔ s = text n := by
    intro n s
    rw [← toList_text, String.toList_inj]
  refine ⟨fun n s => ⟨spells_iff.trans (spelled n s), read?_eq_some_iff.trans (spelled n s)⟩, ?_⟩
  intro m n same
  have readLeft : read? (text m).toList = some m.toInt :=
    read?_eq_some_iff.2 (toList_text m)
  have readRight : read? (text m).toList = some n.toInt :=
    read?_eq_some_iff.2 (same ▸ toList_text n)
  exact Int64.toInt_inj.1 (Option.some.inj (readLeft.symm.trans readRight))

/-- The longest duration into the past has a text, although its length is no duration. -/
example : text Int64.minValue = "-106751991167300d 15h 30m 8s" := by decide +kernel

end TableView.Duration
