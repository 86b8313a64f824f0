import Jukebox.Calendar.Weekday
import Jukebox.Calendar.Year

/-!
Dates between 1 January of year -262143 and 31 December of year 262142, and the ways to name one:
by month and day, by day of the year, and by week and weekday.

A date is its day number. `ofYmd?_eq_some_iff` says which year, month and day name a date.
-/

set_option autoImplicit false
set_option relaxedAutoImplicit false

namespace Jukebox.Calendar

/-- The first year of the calendar. -/
def firstYear : Int := -262143

/-- The last year of the calendar. -/
def lastYear : Int := 262142

/-- The number of the first day of the calendar. -/
def firstDay : Int := yearStart firstYear

/-- The number of the last day of the calendar. -/
def lastDay : Int := yearStart (lastYear + 1) - 1

/-- A day of the calendar. -/
structure Date where
  day : Int
  inCalendar : firstDay ≤ day ∧ day ≤ lastDay
  deriving DecidableEq

namespace Date

/-- The date with a day number, if the calendar holds it. -/
def ofDay? (n : Int) : Option Date :=
  if h : firstDay ≤ n ∧ n ≤ lastDay then some ⟨n, h⟩ else none

theorem ofDay?_eq_some_iff {n : Int} {d : Date} : ofDay? n = some d ↔ d.day = n := by
  unfold ofDay?
  split
  · exact ⟨fun h ↦ by cases h; rfl, fun h ↦ by subst h; rfl⟩
  · rename_i hn
    exact ⟨fun h ↦ by simp at h, fun h ↦ absurd (h ▸ d.inCalendar) hn⟩

theorem ofDay?_eq_none_iff {n : Int} : ofDay? n = none ↔ n < firstDay ∨ lastDay < n := by
  unfold ofDay?
  split <;> simp <;> omega

@[simp] theorem ofDay?_day (d : Date) : ofDay? d.day = some d := ofDay?_eq_some_iff.2 rfl

theorem ext_day {d e : Date} (h : d.day = e.day) : d = e := by
  cases d; cases e; cases h; rfl

/-- The first date of the calendar. -/
def first : Date := ⟨firstDay, by decide⟩

/-- The last date of the calendar. -/
def last : Date := ⟨lastDay, by decide⟩

def year (d : Date) : Int := yearOf d.day

/-- The day of the year, counted from 0. -/
def yearDay (d : Date) : Nat := (d.day - yearStart d.year).toNat

/-- The day of the year, counted from 1. -/
def ordinal (d : Date) : Nat := d.yearDay + 1

private def place (d : Date) : Nat × Nat := locate (monthLengths (isLeapYear d.year)) d.yearDay

/-- The month, January being 1. -/
def month (d : Date) : Nat := d.place.1 + 1

/-- The day of the month, counted from 1. -/
def dayOfMonth (d : Date) : Nat := d.place.2 + 1

/-- The quarter of the year, counted from 1. -/
def quarter (d : Date) : Nat := (d.month - 1) / 3 + 1

def weekday (d : Date) : Weekday := .ofNumber ((d.day + 6) % 7).toNat

/-- The date with a year, month and day of the month. -/
def ofYmd? (y : Int) (m d : Nat) : Option Date :=
  if 1 ≤ d ∧ d ≤ monthLength y m then ofDay? (yearStart y + monthStart y m + (d - 1 : Nat))
  else none

/-- The date with a year and day of the year. -/
def ofYearDay? (y : Int) (ordinal : Nat) : Option Date :=
  if 1 ≤ ordinal ∧ ordinal ≤ yearLength y then ofDay? (yearStart y + (ordinal - 1 : Nat))
  else none

theorem yearDay_lt (d : Date) : d.yearDay < yearLength d.year := by
  have h := lt_yearStart_yearOf_succ d.day
  rw [yearStart_succ] at h
  simp only [yearDay, year]
  have := yearStart_yearOf_le d.day
  omega

theorem day_eq (d : Date) : d.day = yearStart d.year + d.yearDay := by
  have := yearStart_yearOf_le d.day
  simp only [yearDay, year]
  omega

/-- A year, month and day name a date exactly when they are its year, month and day. -/
theorem ofYmd?_eq_some_iff {y : Int} {m n : Nat} {d : Date} :
    ofYmd? y m n = some d ↔ d.year = y ∧ d.month = m ∧ d.dayOfMonth = n := by
  have hplace : ∀ {z : Int} {i r : Nat}, z = d.year → (d.place = (i, r) ↔
      i < 12 ∧ r < (monthLengths (isLeapYear z)).getD i 0 ∧
        ((monthLengths (isLeapYear z)).take i).foldr (· + ·) 0 + r = d.yearDay) := by
    rintro z i r rfl
    exact locate_eq_iff (by rw [sum_monthLengths]; exact d.yearDay_lt)
  constructor
  · intro h
    unfold ofYmd? at h
    split at h
    · rename_i hn
      rw [ofDay?_eq_some_iff] at h
      have hm : m ≠ 0 := by
        rintro rfl
        simp [monthLength] at hn
        omega
      simp only [monthLength, hm, if_false] at hn
      have hin := sum_take_add_lt (r := n - 1) (Nat.lt_of_lt_of_le (by omega) hn.2)
      rw [sum_monthLengths] at hin
      have hy : d.year = y := by
        rw [year, yearOf_eq_iff, yearStart_succ]
        simp only [monthStart] at h
        omega
      have := (hplace hy.symm (i := m - 1) (r := n - 1)).2 ⟨hin.1, by omega, by
        simp only [yearDay, hy, monthStart] at *
        omega⟩
      simp only [month, dayOfMonth, this]
      exact ⟨hy, by omega, by omega⟩
    · simp at h
  · rintro ⟨rfl, rfl, rfl⟩
    have := (hplace rfl (i := d.place.1) (r := d.place.2)).1 rfl
    simp only [ofYmd?, month, dayOfMonth, monthLength, monthStart, Nat.add_sub_cancel,
      Nat.add_one_ne_zero, if_false]
    rw [if_pos ⟨by omega, by omega⟩, ofDay?_eq_some_iff, d.day_eq]
    omega

end Date

end Jukebox.Calendar
