import TableView.Instant.Basic
import TableView.Text.Blank

/-!
# The text of an instant

Instants are written as RFC 3339 texts in universal time, with no fraction or the
fewest of three, six or nine places that lose nothing. The reader is more
generous: white space may stand around the parts, a month or an hour may have one
digit, the separator may be a blank, and any offset from universal time is
accepted and taken off.
-/

namespace TableView.Instant

/-- A natural in decimal, filled with zeros to a width. -/
def padded (width n : Nat) : List Char :=
  let digits := Nat.toDigits 10 n
  List.replicate (width - digits.length) '0' ++ digits

/-- A year: four digits, or a sign and at least four. -/
def yearText (year : Int) : List Char :=
  if 0 ≤ year ∧ year ≤ 9999 then padded 4 year.toNat
  else (if year < 0 then '-' else '+') :: padded 4 year.natAbs

/-- A date with hyphens. -/
def dateText (d : Date) : List Char :=
  yearText d.year ++ '-' :: padded 2 d.month ++ '-' :: padded 2 d.day

/-- The second as a clock shows it, 60 during a leap second. -/
def shownSecond (t : TimeOfDay) : Nat := if t.nanosecond < nanosPerSecond then t.second else 60

/-- A time of day with colons, without its fraction. -/
def clockText (t : TimeOfDay) : List Char :=
  padded 2 t.hour ++ ':' :: padded 2 t.minute ++ ':' :: padded 2 (shownSecond t)

/-- The fraction of a second. -/
def fractionText (t : TimeOfDay) : List Char :=
  let nanos := t.nanosecond % nanosPerSecond
  if nanos = 0 then []
  else if nanos % 1000000 = 0 then '.' :: padded 3 (nanos / 1000000)
  else if nanos % 1000 = 0 then '.' :: padded 6 (nanos / 1000)
  else '.' :: padded 9 nanos

/-- The RFC 3339 text. -/
def chars (t : Instant) : List Char :=
  dateText t.date ++ 'T' :: clockText t.time ++ fractionText t.time ++ ['Z']

/-- The RFC 3339 text. -/
def text (t : Instant) : String := String.ofList t.chars

/-- The text shown to people: a blank between date and time, and no fraction. -/
def display (t : Instant) : String :=
  String.ofList (dateText t.date ++ ' ' :: clockText t.time)

/-- A decimal number of at least one and at most `most` digits, and what follows. -/
def number? (most : Nat) (cs : List Char) : Option (Nat × List Char) :=
  let digits := (cs.take most).takeWhile Char.isDigit
  if digits.isEmpty then none else some (Nat.ofDigitChars 10 digits 0, cs.drop digits.length)

/-- A number of one or two digits within bounds, after any white space. -/
def component? (least greatest : Nat) (cs : List Char) : Option (Nat × List Char) := do
  let (n, rest) ← number? 2 (Text.skipBlank cs)
  if least ≤ n ∧ n ≤ greatest then some (n, rest) else none

/-- A year: up to four digits, or any number of them after a sign. -/
def year? (cs : List Char) : Option (Int × List Char) :=
  match Text.skipBlank cs with
  | '-' :: rest => (number? rest.length rest).map fun (n, rest) => (-(n : Int), rest)
  | '+' :: rest => (number? rest.length rest).map fun (n, rest) => ((n : Int), rest)
  | rest => (number? 4 rest).map fun (n, rest) => ((n : Int), rest)

/-- A mark that must come next, after any white space. -/
def mark? (c : Char) (cs : List Char) : Option (List Char) :=
  match Text.skipBlank cs with
  | d :: rest => if d = c then some rest else none
  | [] => none

/-- The nanoseconds of an optional fraction: its first nine places, missing ones being
zero. -/
def fraction? : List Char → Option (Nat × List Char)
  | '.' :: rest =>
    let places := rest.takeWhile Char.isDigit
    if places.isEmpty then none
    else
      let nine := (places ++ List.replicate 9 '0').take 9
      some (Nat.ofDigitChars 10 nine 0, rest.drop places.length)
  | rest => some (0, rest)

/-- Two digits. -/
def twoDigits? : List Char → Option (Nat × List Char)
  | a :: b :: rest =>
    if a.isDigit && b.isDigit then some (Nat.ofDigitChars 10 [a, b] 0, rest) else none
  | _ => none

/-- An offset in minutes: hours, any colons and white space, and minutes below 60. -/
def hoursMinutes? (cs : List Char) : Option (Nat × List Char) := do
  let (hours, rest) ← twoDigits? cs
  let (minutes, rest) ← twoDigits? (rest.dropWhile fun c => c = ':' || Text.isBlank c)
  if hours < 24 ∧ minutes < 60 then some (hours * 60 + minutes, rest) else none

/-- An offset from universal time in minutes: a letter for none, `UTC`, or a signed one. -/
def offset? (cs : List Char) : Option (Int × List Char) :=
  match cs with
  | 'Z' :: rest => some (0, rest)
  | 'z' :: rest => some (0, rest)
  | '+' :: rest => (hoursMinutes? rest).map fun (n, rest) => ((n : Int), rest)
  | '-' :: rest => (hoursMinutes? rest).map fun (n, rest) => (-(n : Int), rest)
  | '−' :: rest => (hoursMinutes? rest).map fun (n, rest) => (-(n : Int), rest)
  | _ => if (cs.take 3).map Char.toLower = ['u', 't', 'c'] then some (0, cs.drop 3) else none

/-- The instant whose local date and time are given at an offset in minutes. -/
def ofLocal? (date : Date) (time : TimeOfDay) (offset : Int) : Option Instant :=
  let minutes := (time.hour * 60 + time.minute : Int) - offset
  let day := if minutes < 0 then date.previous else if minutes < 24 * 60 then date else date.next
  let within := (minutes % (24 * 60)).toNat
  if date.IsValid then of? day { time with hour := within / 60, minute := within % 60 } else none

/-- Reads the characters of an instant. A second of 60 is the leap second after 59. -/
def ofChars? (cs : List Char) : Option Instant := do
  let (year, cs) ← year? cs
  let cs ← mark? '-' cs
  let (month, cs) ← component? 1 12 cs
  let cs ← mark? '-' cs
  let (day, cs) ← component? 1 31 cs
  let cs ← match cs with
    | c :: rest => if c = 'T' || c = 't' || c = ' ' then some rest else none
    | [] => none
  let (hour, cs) ← component? 0 23 cs
  let cs ← mark? ':' cs
  let (minute, cs) ← component? 0 59 cs
  let cs ← mark? ':' cs
  let (second, cs) ← component? 0 60 cs
  let (nanosecond, cs) ← fraction? cs
  let (offset, cs) ← offset? (Text.skipBlank cs)
  let time : TimeOfDay :=
    if second = 60 then ⟨hour, minute, 59, nanosecond + nanosPerSecond⟩
    else ⟨hour, minute, second, nanosecond⟩
  if (Text.skipBlank cs).isEmpty then ofLocal? ⟨year, month, day⟩ time offset else none

/-- Reads an instant. -/
def ofText? (s : String) : Option Instant := ofChars? s.toList

end TableView.Instant
