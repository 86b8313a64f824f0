import Jukebox.Calendar.Date

/-!
Dates by week. Weeks may be numbered inside a calendar year, from the first Sunday or the first
Monday, or through a year of their own, which begins with the Monday of the week that holds
4 January.
-/

set_option autoImplicit false
set_option relaxedAutoImplicit false

namespace Jukebox.Calendar

/-! ### Weeks of the calendar year -/

/-- The weeks begun by `start` in the year so far; days before the first `start` are in week 0. -/
def Date.weekFrom (d : Date) (start : Weekday) : Nat :=
  (d.ordinal + 6 - d.weekday.daysSince start) / 7

/-- The day of the year, counted from 1, of a weekday in a week begun by `start`. -/
def weekOrdinal (y : Int) (week : Nat) (day start : Weekday) : Int :=
  let newYear := Weekday.ofNumber ((yearStart y + 6) % 7).toNat
  1 + start.daysSince newYear + ((week : Int) - 1) * 7 + day.daysSince start

/-! ### Years of whole weeks -/

/-- The number of the day on which the first week of a year of whole weeks begins. -/
def weekYearStart (y : Int) : Int :=
  let fourth := yearStart y + 3
  fourth - (fourth + 5) % 7

/-- The weeks of a year of whole weeks, 52 or 53. -/
def weeksIn (y : Int) : Nat := ((weekYearStart (y + 1) - weekYearStart y) / 7).toNat

/-- The year of whole weeks that holds a date: the calendar year of the Thursday of its week. -/
def Date.weekYear (d : Date) : Int := yearOf (d.day - (d.day + 5) % 7 + 3)

/-- The number of the week in the year of whole weeks. -/
def Date.week (d : Date) : Nat := ((d.day - weekYearStart d.weekYear) / 7).toNat + 1

/-- The date with a year of whole weeks, a week and a weekday. -/
def Date.ofWeek? (y : Int) (week : Nat) (day : Weekday) : Option Date :=
  if 1 ≤ week ∧ week ≤ weeksIn y then
    ofDay? (weekYearStart y + ((week - 1) * 7 + day.daysSince .monday : Nat))
  else none

end Jukebox.Calendar
