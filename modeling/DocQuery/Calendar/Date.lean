-- SUMMARY: Days of the Gregorian calendar, their running number, and ISO weeks.

/-!
# Dates

Days of the Gregorian calendar in the years 1 to 9999. Day 0 is the first of January
of the year 1; the running number of a day turns every question about dates into
arithmetic.
-/

namespace DocQuery

/-- A day, by year, month and day of the month. -/
structure Date where
  year : Nat
  month : Nat
  day : Nat
  deriving DecidableEq, Repr

namespace Calendar

/-- Every fourth year is a leap year, but of the centuries only every fourth. -/
def isLeap (year : Nat) : Bool :=
  year % 4 == 0 && (year % 100 != 0 || year % 400 == 0)

/-- The length of a month. -/
def daysInMonth (year month : Nat) : Nat :=
  match month with
  | 2 => if isLeap year then 29 else 28
  | 4 | 6 | 9 | 11 => 30
  | _ => 31

/-- The days before the first of January of `year`. -/
def daysBeforeYear (year : Nat) : Nat :=
  let y := year - 1
  365 * y + y / 4 - y / 100 + y / 400

/-- The days of `year` before the first of `month`. -/
def daysBeforeMonth (year : Nat) : Nat → Nat
  | 0 => 0
  | 1 => 0
  | m + 1 => daysBeforeMonth year m + daysInMonth year m

/-- The last year of the calendar. -/
def maxYear : Nat := 9999

/-- The number of days of the calendar. -/
def dayCount : Nat := daysBeforeYear (maxYear + 1)

/-- The year that day `n` falls in. The mean length of a year gives a guess that is off
    by one at most. -/
def yearOfDay (n : Nat) : Nat :=
  let guess := 400 * n / 146097 + 1
  if n < daysBeforeYear guess then guess - 1
  else if daysBeforeYear (guess + 1) ≤ n then guess + 1
  else guess

/-- The month that day `n` of a year falls in: one more than the number of later months
    that have begun. -/
def monthOfDay (year n : Nat) : Nat :=
  ((List.range' 2 11).filter fun m => daysBeforeMonth year m ≤ n).length + 1

end Calendar

namespace Date

open Calendar

/-- The day exists. -/
def isValid (d : Date) : Bool :=
  1 ≤ d.year && d.year ≤ maxYear && 1 ≤ d.month && d.month ≤ 12
    && 1 ≤ d.day && d.day ≤ daysInMonth d.year d.month

/-- The running number of a day. -/
def number (d : Date) : Nat :=
  daysBeforeYear d.year + daysBeforeMonth d.year d.month + (d.day - 1)

/-- The day with a running number. -/
def ofNumber (n : Nat) : Date :=
  let year := yearOfDay n
  let inYear := n - daysBeforeYear year
  let month := monthOfDay year inYear
  ⟨year, month, inYear - daysBeforeMonth year month + 1⟩

/-- The running number of the Monday of the first ISO week of `year`: the week that holds
    the fourth of January. Day 0 is a Monday. -/
def firstMonday (year : Nat) : Nat :=
  let first := daysBeforeYear year
  let weekday := first % 7
  if 3 < weekday then first + 7 - weekday else first - weekday

/-- A year has 53 ISO weeks when it begins on a Thursday, or on a Wednesday and is a leap
    year. -/
def hasLongIsoYear (year : Nat) : Bool :=
  let weekday := daysBeforeYear year % 7
  weekday == 3 || (weekday == 2 && isLeap year)

/-- Day `weekday` (Monday is 1) of ISO week `week` of `year`. -/
def ofIsoWeek? (year week weekday : Nat) : Option Date :=
  let weekExists := (1 ≤ week && week ≤ 52) || (week == 53 && hasLongIsoYear year)
  if 1 ≤ year && year ≤ maxYear && weekExists && 1 ≤ weekday && weekday ≤ 7 then
    let n := firstMonday year + 7 * (week - 1) + (weekday - 1)
    if n < dayCount then some (ofNumber n) else none
  else none

end Date

end DocQuery
