import TableView.Instant.Basic

/-!
# Seconds since the epoch

The days of the calendar are numbered, and with them the seconds since the beginning of
1970. A leap second has the number of the second before it and is told apart by its
nanoseconds, so the two numbers together determine an instant (`Instant.eq_of_timestamp`).
-/

namespace TableView

namespace Date

/-- How many days the years from 1 on have before a year. -/
def daysBeforeYear (year : Int) : Int :=
  365 * (year - 1) + (year - 1) / 4 - (year - 1) / 100 + (year - 1) / 400

/-- How many days of a year come before a month. -/
def daysBeforeMonth (year : Int) : Nat → Nat
  | 0 => 0
  | 1 => 0
  | month + 2 => daysBeforeMonth year (month + 1) + daysInMonth year (month + 1)

/-- The number of a day, counted from the first of the year 1. -/
def dayNumber (d : Date) : Int := daysBeforeYear d.year + daysBeforeMonth d.year d.month + d.day

variable {d e : Date}

theorem daysBeforeMonth_add_le (year : Int) {month later : Nat} (positive : 1 ≤ month)
    (before : month < later) :
    daysBeforeMonth year month + daysInMonth year month ≤ daysBeforeMonth year later := by
  obtain ⟨first, rfl⟩ := Nat.exists_eq_add_of_le' positive
  induction before with
  | refl => exact Nat.le_refl _
  | @step next passed ih =>
      obtain ⟨rest, rfl⟩ := Nat.exists_eq_add_of_le' (Nat.one_le_of_lt passed)
      exact Nat.le_trans ih (Nat.le_add_right _ _)

/-- The months of a year have its days. -/
theorem daysBeforeYear_succ (year : Int) :
    daysBeforeYear (year + 1) = daysBeforeYear year + daysBeforeMonth year 13 := by
  have months : daysBeforeMonth year 13 = if isLeapYear year then 366 else 365 := by
    cases leap : isLeapYear year <;> simp [daysBeforeMonth, daysInMonth, leap]
  rw [months, isLeapYear, daysBeforeYear, daysBeforeYear]
  simp only [Bool.and_eq_true, Bool.or_eq_true, beq_iff_eq, bne_iff_ne]
  split <;> omega

theorem daysBeforeYear_mono {year later : Int} (upTo : year ≤ later) :
    daysBeforeYear year ≤ daysBeforeYear later := by
  rw [daysBeforeYear, daysBeforeYear]
  omega

theorem dayNumber_lt_of_year (valid : d.IsValid) (validLater : e.IsValid)
    (before : d.year < e.year) : d.dayNumber < e.dayNumber := by
  obtain ⟨-, -, month, lastMonth, -, lastDay⟩ := valid
  obtain ⟨-, -, -, -, day, -⟩ := validLater
  have within : _ ≤ daysBeforeMonth d.year 13 :=
    daysBeforeMonth_add_le d.year month (Nat.lt_succ_of_le lastMonth)
  have year := daysBeforeYear_succ d.year
  have next := daysBeforeYear_mono (Int.add_one_le_of_lt before)
  rw [dayNumber, dayNumber]
  omega

theorem dayNumber_lt_of_month (valid : d.IsValid) (validLater : e.IsValid)
    (sameYear : d.year = e.year) (before : d.month < e.month) : d.dayNumber < e.dayNumber := by
  obtain ⟨-, -, month, -, -, lastDay⟩ := valid
  obtain ⟨-, -, -, -, day, -⟩ := validLater
  have within := daysBeforeMonth_add_le d.year month before
  rw [dayNumber, dayNumber, ← sameYear]
  omega

theorem eq_of_dayNumber (valid : d.IsValid) (validOther : e.IsValid)
    (same : d.dayNumber = e.dayNumber) : d = e := by
  have year : d.year = e.year := by
    obtain before | equal | after := Int.lt_trichotomy d.year e.year
    · exact absurd same (Int.ne_of_lt (dayNumber_lt_of_year valid validOther before))
    · exact equal
    · exact absurd same (Int.ne_of_gt (dayNumber_lt_of_year validOther valid after))
  have month : d.month = e.month := by
    obtain before | equal | after := Nat.lt_trichotomy d.month e.month
    · exact absurd same (Int.ne_of_lt (dayNumber_lt_of_month valid validOther year before))
    · exact equal
    · exact absurd same (Int.ne_of_gt (dayNumber_lt_of_month validOther valid year.symm after))
  rw [dayNumber, dayNumber, year, month] at same
  have day : d.day = e.day := by omega
  cases d
  cases e
  simp_all

end Date

/-- The number of a second of the day. A leap second counts as the second before it. -/
def TimeOfDay.secondNumber (t : TimeOfDay) : Nat := t.hour * 3600 + t.minute * 60 + t.second

theorem TimeOfDay.eq_of_secondNumber {t u : TimeOfDay} (valid : t.IsValid) (validOther : u.IsValid)
    (same : t.secondNumber = u.secondNumber) (nanos : t.nanosecond = u.nanosecond) : t = u := by
  obtain ⟨-, minute, second, -⟩ := valid
  obtain ⟨-, minuteOther, secondOther, -⟩ := validOther
  rw [secondNumber, secondNumber] at same
  have hours : t.hour = u.hour := by omega
  have minutes : t.minute = u.minute := by omega
  have seconds : t.second = u.second := by omega
  cases t
  cases u
  simp_all

theorem TimeOfDay.secondNumber_lt {t : TimeOfDay} (valid : t.IsValid) : t.secondNumber < 86400 := by
  obtain ⟨hour, minute, second, -⟩ := valid
  rw [secondNumber]
  omega

namespace Instant

/-- The number of the first day of 1970. -/
def epoch : Int := 719163

/-- The seconds from the beginning of 1970. -/
def timestamp (t : Instant) : Int := (t.date.dayNumber - epoch) * 86400 + t.time.secondNumber

/-- Instants with the same seconds since the epoch and nanoseconds in the second are the same. -/
theorem eq_of_timestamp {t u : Instant} (same : t.timestamp = u.timestamp)
    (nanos : t.time.nanosecond = u.time.nanosecond) : t = u := by
  have second := TimeOfDay.secondNumber_lt t.time_valid
  have secondOther := TimeOfDay.secondNumber_lt u.time_valid
  rw [timestamp, timestamp] at same
  have days : t.date.dayNumber = u.date.dayNumber := by omega
  have seconds : t.time.secondNumber = u.time.secondNumber := by omega
  have date := Date.eq_of_dayNumber t.date_valid u.date_valid days
  have time := TimeOfDay.eq_of_secondNumber t.time_valid u.time_valid seconds nanos
  cases t
  cases u
  simp_all

/-- Noon of the first of March 2023. -/
example : (of? ⟨2023, 3, 1⟩ ⟨12, 0, 0, 0⟩).map timestamp = some 1677672000 := by decide

end Instant

end TableView
