import Jukebox.Calendar.Instant
import Jukebox.Calendar.Week

/-!
# What a timestamp says

A timestamp read through a layout says some things about a date and a time of day: a year, a
weekday, an hour before noon. `Parts` collects them; a part that is said twice must be said alike.
`Parts.date` and `Parts.time` find the date and the time of day that the parts determine, and
check every other part against them.
-/

set_option autoImplicit false
set_option relaxedAutoImplicit false

namespace Jukebox.Calendar

/-- Why parts determine no date or time of day. -/
inductive PartsFault where
  /-- Parts are missing. -/
  | notEnough
  /-- Parts contradict each other. -/
  | impossible
  /-- There is no such date or time. -/
  | outOfRange
  deriving DecidableEq, Repr

/-- The parts that are written as numbers. -/
inductive NumberPart where
  | year
  /-- The year without its last two digits. -/
  | century
  /-- The last two digits of the year. -/
  | yearOfCentury
  /-- The year of whole weeks. -/
  | weekYear
  /-- The last two digits of the year of whole weeks. -/
  | weekYearOfCentury
  | quarter
  | month
  | day
  /-- The week of the calendar year, weeks beginning on Sunday. -/
  | weekFromSunday
  /-- The week of the calendar year, weeks beginning on Monday. -/
  | weekFromMonday
  /-- The week of the year of whole weeks. -/
  | week
  /-- The weekday, Sunday being 0. -/
  | daysFromSunday
  /-- The weekday, Monday being 1. -/
  | dayFromMonday
  /-- The day of the year. -/
  | ordinal
  | hour
  /-- The hour since midnight or noon, 12 standing for 0. -/
  | hour12
  | minute
  | second
  | nanosecond
  /-- Seconds since the beginning of 1970. -/
  | unix
  deriving DecidableEq, Repr

/-- What is known about a date and a time of day. -/
structure Parts where
  year : Option Int := none
  century : Option Int := none
  yearOfCentury : Option Int := none
  weekYear : Option Int := none
  weekYearOfCentury : Option Int := none
  quarter : Option Nat := none
  month : Option Nat := none
  day : Option Nat := none
  weekFromSunday : Option Nat := none
  weekFromMonday : Option Nat := none
  week : Option Nat := none
  weekday : Option Weekday := none
  ordinal : Option Nat := none
  /-- 0 before noon and 1 after it. -/
  half : Option Nat := none
  hourOfHalf : Option Nat := none
  minute : Option Nat := none
  second : Option Nat := none
  nanosecond : Option Nat := none
  unix : Option Int := none
  /-- Seconds by which the clock is ahead of universal time. -/
  zone : Option Int := none
  deriving DecidableEq

/-- The new value of a part, unless it contradicts the old one. -/
def agree {α : Type} [DecidableEq α] (old : Option α) (value : α) : Option (Option α) :=
  match old with
  | none => some (some value)
  | some v => if v = value then some old else none

/-- `n` as a natural number between two limits. -/
def within (low high : Nat) (n : Int) : Option Nat :=
  if (low : Int) ≤ n ∧ n ≤ high then some n.toNat else none

namespace Parts

def setWeekday (p : Parts) (d : Weekday) : Option Parts :=
  (agree p.weekday d).map fun v ↦ { p with weekday := v }

def setHalf (p : Parts) (half : Nat) : Option Parts :=
  (agree p.half half).map fun v ↦ { p with half := v }

def setZone (p : Parts) (seconds : Int) : Option Parts :=
  (agree p.zone seconds).map fun v ↦ { p with zone := v }

private def setHourOfHalf (p : Parts) (hour : Nat) : Option Parts :=
  (agree p.hourOfHalf hour).map fun v ↦ { p with hourOfHalf := v }

/-- Puts in a number, unless it is out of range or contradicts what is there. -/
def set (p : Parts) (part : NumberPart) (n : Int) : Option Parts := do
  match part with
  | .year =>
    if n < -2147483648 ∨ 2147483647 < n then none
    else (agree p.year n).map fun v ↦ { p with year := v }
  | .century =>
    if n < 0 ∨ 2147483647 < n then none
    else (agree p.century n).map fun v ↦ { p with century := v }
  | .yearOfCentury =>
    if n < 0 ∨ 99 < n then none
    else (agree p.yearOfCentury n).map fun v ↦ { p with yearOfCentury := v }
  | .weekYear =>
    if n < -2147483648 ∨ 2147483647 < n then none
    else (agree p.weekYear n).map fun v ↦ { p with weekYear := v }
  | .weekYearOfCentury =>
    if n < 0 ∨ 99 < n then none
    else (agree p.weekYearOfCentury n).map fun v ↦ { p with weekYearOfCentury := v }
  | .quarter =>
    let v ← agree p.quarter (← within 1 4 n)
    some { p with quarter := v }
  | .month =>
    let v ← agree p.month (← within 1 12 n)
    some { p with month := v }
  | .day =>
    let v ← agree p.day (← within 1 31 n)
    some { p with day := v }
  | .weekFromSunday =>
    let v ← agree p.weekFromSunday (← within 0 53 n)
    some { p with weekFromSunday := v }
  | .weekFromMonday =>
    let v ← agree p.weekFromMonday (← within 0 53 n)
    some { p with weekFromMonday := v }
  | .week =>
    let v ← agree p.week (← within 1 53 n)
    some { p with week := v }
  | .daysFromSunday => p.setWeekday (.ofNumber (← within 0 6 n))
  | .dayFromMonday => p.setWeekday (.ofNumber (← within 1 7 n))
  | .ordinal =>
    let v ← agree p.ordinal (← within 1 366 n)
    some { p with ordinal := v }
  | .hour =>
    let h ← within 0 23 n
    (← p.setHalf (h / 12)).setHourOfHalf (h % 12)
  | .hour12 => p.setHourOfHalf ((← within 1 12 n) % 12)
  | .minute =>
    let v ← agree p.minute (← within 0 59 n)
    some { p with minute := v }
  | .second =>
    let v ← agree p.second (← within 0 60 n)
    some { p with second := v }
  | .nanosecond =>
    let v ← agree p.nanosecond (← within 0 999999999 n)
    some { p with nanosecond := v }
  | .unix => (agree p.unix n).map fun v ↦ { p with unix := v }

/-! ### The date -/

/-- The year from what is known of it; two digits alone mean a year from 1970 to 2069. -/
def wholeYear (year century ofCentury : Option Int) : Except PartsFault (Option Int) :=
  match year, century, ofCentury with
  | y, none, none => .ok y
  | some y, q, r =>
    if 0 ≤ y ∧ q.getD (y / 100) = y / 100 ∧ r.getD (y % 100) = y % 100 then .ok (some y)
    else .error .impossible
  | none, some q, some r => .ok (some (100 * q + r))
  | none, none, some r => .ok (some (if r < 70 then 2000 + r else 1900 + r))
  | none, some _, none => .error .notEnough

/-- A year written in two halves is the year `y`, which must not be below zero. -/
private def halvesAgree (century ofCentury : Option Int) (y : Int) : Bool :=
  (century.isNone || (0 ≤ y && century == some (y / 100))) &&
    (ofCentury.isNone || (0 ≤ y && ofCentury == some (y % 100)))

/-- What is said of year, month and day is true of a date. -/
def agreesByMonth (p : Parts) (d : Date) : Bool :=
  p.year.getD d.year == d.year && halvesAgree p.century p.yearOfCentury d.year &&
    p.month.getD d.month == d.month && p.day.getD d.dayOfMonth == d.dayOfMonth

/-- What is said of the year of whole weeks, its week and the weekday is true of a date. -/
def agreesByWeek (p : Parts) (d : Date) : Bool :=
  p.weekYear.getD d.weekYear == d.weekYear && halvesAgree none p.weekYearOfCentury d.weekYear &&
    p.week.getD d.week == d.week && p.weekday.getD d.weekday == d.weekday

/-- What is said of the day of the year and of weeks of the calendar year is true of a date. -/
def agreesByOrdinal (p : Parts) (d : Date) : Bool :=
  p.ordinal.getD d.ordinal == d.ordinal &&
    p.weekFromSunday.getD (d.weekFrom .sunday) == d.weekFrom .sunday &&
    p.weekFromMonday.getD (d.weekFrom .monday) == d.weekFrom .monday

/-- The date of a weekday in a week of the calendar year. -/
def dateOfWeek (y : Int) (week : Nat) (day start : Weekday) : Except PartsFault Date :=
  match Date.ofYearDay? y 1 with
  | none => .error .outOfRange
  | some _ =>
    let ordinal := weekOrdinal y week day start
    if ordinal ≤ 0 then .error .impossible
    else match Date.ofYearDay? y ordinal.toNat with
      | some d => .ok d
      | none => .error .impossible

private def orOutOfRange : Option Date → Except PartsFault Date
  | some d => .ok d
  | none => .error .outOfRange

/--
A date from the first of these that is there: year, month and day; year and day of the year; year,
week and weekday; year of whole weeks, week and weekday. It comes with the test of all parts that
did not determine it.
-/
def candidate (p : Parts) : Except PartsFault (Date × Bool) := do
  let year ← wholeYear p.year p.century p.yearOfCentury
  let weekYear ← wholeYear p.weekYear none p.weekYearOfCentury
  match year, p.month, p.day with
  | some y, some m, some n =>
    let d ← orOutOfRange (Date.ofYmd? y m n)
    return (d, p.agreesByWeek d && p.agreesByOrdinal d)
  | _, _, _ =>
  match year, p.ordinal with
  | some y, some n =>
    let d ← orOutOfRange (Date.ofYearDay? y n)
    return (d, p.agreesByMonth d && p.agreesByWeek d && p.agreesByOrdinal d)
  | _, _ =>
  match year, p.weekFromSunday, p.weekday with
  | some y, some w, some a =>
    let d ← dateOfWeek y w a .sunday
    return (d, p.agreesByMonth d && p.agreesByWeek d && p.agreesByOrdinal d)
  | _, _, _ =>
  match year, p.weekFromMonday, p.weekday with
  | some y, some w, some a =>
    let d ← dateOfWeek y w a .monday
    return (d, p.agreesByMonth d && p.agreesByWeek d && p.agreesByOrdinal d)
  | _, _, _ =>
  match weekYear, p.week, p.weekday with
  | some y, some w, some a =>
    let d ← orOutOfRange (Date.ofWeek? y w a)
    return (d, p.agreesByMonth d && p.agreesByOrdinal d)
  | _, _, _ => .error .notEnough

/-- The date that the parts determine and all of them agree with. -/
def date (p : Parts) : Except PartsFault Date := do
  let (d, agrees) ← p.candidate
  if agrees && p.quarter.getD d.quarter == d.quarter then .ok d else .error .impossible

/-! ### The time of day -/

/-- A time of day as written: hour, minute, second up to 60, and nanoseconds. -/
structure Clock where
  hour : Nat
  minute : Nat
  second : Nat
  nanosecond : Nat

/-- The time of day that the parts determine; seconds may be missing, but not under a fraction. -/
def clock (p : Parts) : Except PartsFault Clock :=
  match p.half, p.hourOfHalf, p.minute with
  | some half, some hour, some minute =>
    if p.second.isNone && p.nanosecond.isSome then .error .notEnough
    else .ok ⟨half * 12 + hour, minute, p.second.getD 0, p.nanosecond.getD 0⟩
  | _, _, _ => .error .notEnough

/-- The instant at a time of day. -/
def Clock.on? (c : Clock) (d : Date) : Option Instant :=
  Instant.ofTime? d c.hour c.minute c.second c.nanosecond

/-- The parts with year, day of the year, hour, minute and second of an instant put in. -/
private def fill (p : Parts) (t : Instant) : Option Parts := do
  let p ← if p.second = some 60 then some p else p.set .second (t.second % 60 : Nat)
  let p ← p.set .year t.year
  let p ← p.set .ordinal t.date.ordinal
  let p ← p.set .hour t.hour
  p.set .minute t.minute

/-- The instant that the parts determine through the seconds since 1970. -/
private def ofUnix (p : Parts) (seconds : Int) : Option Instant := do
  let t ← Instant.ofUnix? seconds
  let t ←
    if p.second = some 60 then
      if t.second % 60 = 59 then some t
      else if t.second % 60 = 0 then Instant.ofUnix? (seconds - 1)
      else none
    else some t
  let p ← p.fill t
  let d ← p.date.toOption
  let c ← p.clock.toOption
  c.on? d

/--
The instant that the parts determine, zones left aside. Seconds since 1970 must agree with date
and time of day, or stand in for what is missing of them.
-/
def instant (p : Parts) : Option Instant :=
  match p.date, p.clock with
  | .ok d, .ok c => do
    let t ← c.on? d
    match p.unix with
    | none => some t
    | some u => if u = t.toUnix ∨ (t.isLeap ∧ u = t.toUnix + 1) then some t else none
  | .ok _, .error .notEnough => p.unix.bind p.ofUnix
  | .error .notEnough, .ok _ => p.unix.bind p.ofUnix
  | .error .notEnough, .error .notEnough => p.unix.bind p.ofUnix
  | _, _ => none

end Parts

end Jukebox.Calendar
