/-!
# Instants

A moment in universal time on the proleptic Gregorian calendar, to the
nanosecond. During a leap second the clock stays at second 59 and the nanoseconds
run on past `10 ^ 9`; instants are ordered field by field, so a leap second lies
between its minute and the next one.
-/

namespace TableView

/-- A calendar date. -/
structure Date where
  year : Int
  month : Nat
  day : Nat
deriving DecidableEq

namespace Date

/-- Whether a year has 366 days. -/
def isLeapYear (year : Int) : Bool := year % 4 == 0 && (year % 100 != 0 || year % 400 == 0)

/-- The number of days of a month. -/
def daysInMonth (year : Int) (month : Nat) : Nat :=
  if month = 2 then if isLeapYear year then 29 else 28
  else if month = 4 ∨ month = 6 ∨ month = 9 ∨ month = 11 then 30
  else 31

/-- The first year that is represented. -/
def firstYear : Int := -262143

/-- The last year that is represented. -/
def lastYear : Int := 262142

/-- Whether the fields name a day of a represented year. -/
def IsValid (d : Date) : Prop :=
  firstYear ≤ d.year ∧ d.year ≤ lastYear ∧ 1 ≤ d.month ∧ d.month ≤ 12 ∧
    1 ≤ d.day ∧ d.day ≤ daysInMonth d.year d.month

instance (d : Date) : Decidable d.IsValid := inferInstanceAs (Decidable (_ ∧ _))

/-- The day after, perhaps in a year that is not represented. -/
def next (d : Date) : Date :=
  if d.day < daysInMonth d.year d.month then { d with day := d.day + 1 }
  else if d.month < 12 then ⟨d.year, d.month + 1, 1⟩
  else ⟨d.year + 1, 1, 1⟩

/-- The day before, perhaps in a year that is not represented. -/
def previous (d : Date) : Date :=
  if 1 < d.day then { d with day := d.day - 1 }
  else if 1 < d.month then ⟨d.year, d.month - 1, daysInMonth d.year (d.month - 1)⟩
  else ⟨d.year - 1, 12, 31⟩

end Date

/-- The nanoseconds of a second. -/
def nanosPerSecond : Nat := 1000000000

/-- A time of day. Only second 59 may be followed by a leap second. -/
structure TimeOfDay where
  hour : Nat
  minute : Nat
  second : Nat
  nanosecond : Nat
deriving DecidableEq

/-- Whether the fields name a moment of a day. -/
def TimeOfDay.IsValid (t : TimeOfDay) : Prop :=
  t.hour < 24 ∧ t.minute < 60 ∧ t.second < 60 ∧
    (t.nanosecond < nanosPerSecond ∨ (t.second = 59 ∧ t.nanosecond < 2 * nanosPerSecond))

instance (t : TimeOfDay) : Decidable t.IsValid := inferInstanceAs (Decidable (_ ∧ _))

/-- A moment in universal time. -/
structure Instant where
  date : Date
  time : TimeOfDay
  date_valid : date.IsValid
  time_valid : time.IsValid
deriving DecidableEq

namespace Instant

/-- The instant with the given fields, if they are valid. -/
def of? (date : Date) (time : TimeOfDay) : Option Instant :=
  if h : date.IsValid ∧ time.IsValid then some ⟨date, time, h.1, h.2⟩ else none

/-- Position in time, comparable but not evenly spaced: later instants have greater ranks. -/
def rank (t : Instant) : Int :=
  (((((t.date.year * 12 + t.date.month) * 32 + t.date.day) * 24 + t.time.hour) * 60 +
    t.time.minute) * 60 + t.time.second) * (2 * nanosPerSecond) + t.time.nanosecond

instance : Ord Instant := ⟨fun a b => compare a.rank b.rank⟩

/-- Whether one instant is before another. -/
def isBefore (a b : Instant) : Bool := a.rank < b.rank

/-- Whether one instant is before another or the same. -/
def isAtMost (a b : Instant) : Bool := a.rank ≤ b.rank

end Instant

end TableView
