import Mathlib.Algebra.Order.Ring.Int
import Jukebox.Proofs.Calendar.Months
import Jukebox.Proofs.Calendar.Timeline
import Jukebox.Text.Numeral

/-!
# Shifts are exact

Hours, days and weeks are numbers of seconds (`Span.seconds?`), and a shift by them is an addition
on the timeline. Months and years are numbers of months (`Span.months?`), and a shift by them is an
addition to the number of the month. Both are exact at every amount: `plus_eq_some_iff` and
`addMonths_eq_some_iff` say where a shift leads, `plus_eq_none_iff` and `Date.addMonths_eq_none_iff`
that only the end of the calendar stops it, and `plus_plus` and `addMonths_addMonths` how two of
them add up. `lt_shift_iff` gives the order: a shift leads to a later instant exactly if its amount
is positive, leap seconds included.

Where amounts, durations and numbers of months have to fit into words of 64 and 32 bits, nothing is
lost, because what does not fit leads out of the calendar (`shiftInWords_eq`).
-/

set_option autoImplicit false
set_option relaxedAutoImplicit false

namespace Jukebox.Calendar

/-! ### Units -/

namespace Span

/-- The seconds of a unit that always lasts as long. -/
def seconds? : Span → Option Int
  | hour => some 3600
  | day => some 86400
  | week => some 604800
  | month => none
  | year => none

/-- The months of a unit that goes by months. -/
def months? : Span → Option Int
  | hour => none
  | day => none
  | week => none
  | month => some 1
  | year => some 12

/-- A unit has a number of seconds or a number of months. -/
theorem exists_seconds_or_months (u : Span) :
    (∃ seconds, u.seconds? = some seconds ∧ 0 < seconds) ∨
      ∃ months, u.months? = some months ∧ 0 < months := by
  cases u with
  | hour => exact .inl ⟨3600, rfl, by decide⟩
  | day => exact .inl ⟨86400, rfl, by decide⟩
  | week => exact .inl ⟨604800, rfl, by decide⟩
  | month => exact .inr ⟨1, rfl, by decide⟩
  | year => exact .inr ⟨12, rfl, by decide⟩

end Span

namespace Instant

variable {t v : Instant} {u : Span} {seconds months : Int}

theorem shift_eq_plus (hu : u.seconds? = some seconds) (t : Instant) (amount : Int) :
    t.shift amount u = t.plus (amount * seconds * 1000000000) := by
  cases u <;> cases hu
  all_goals
    rw [shift, Int.mul_assoc]
    rfl

theorem shift_eq_addMonths (hu : u.months? = some months) (t : Instant) (amount : Int) :
    t.shift amount u = t.addMonths (amount * months) := by
  cases u <;> cases hu
  · rw [shift, Int.mul_one]
  · rw [shift, Int.mul_comm]

end Instant

/-! ### Seconds -/

namespace Instant

variable {t v : Instant} {nanos : Int}

theorem plus_eq_some_iff (ht : ¬ t.isLeap) :
    t.plus nanos = some v ↔ ¬ v.isLeap ∧ v.timeline = t.timeline + nanos := by
  rw [plus_of_not_leap ht, ofTimeline?_eq_some_iff, not_isLeap_iff, and_comm]

theorem plus_eq_none_iff (ht : ¬ t.isLeap) :
    t.plus nanos = none ↔
      t.timeline + nanos < first.timeline ∨ last.timeline < t.timeline + nanos := by
  have hfirst := first_timeline
  have hlast := last_timeline
  rw [← Option.not_isSome_iff_eq_none, Option.isSome_iff_exists, exists_plus_eq_some_iff ht]
  omega

/-- Two durations add up, as long as the instant between them is in the calendar. -/
theorem plus_plus (ht : ¬ t.isLeap) (h : t.plus nanos = some v) (more : Int) :
    v.plus more = t.plus (nanos + more) := by
  obtain ⟨htime, hv⟩ := timeline_of_plus ht h
  rw [plus_of_not_leap hv, plus_of_not_leap ht, htime, Int.add_assoc]

/-- What an addition can do: stay in the leap second in which it begins, go on along the timeline,
or leave a leap second, which then counts as the second before it. -/
theorem plus_cases (h : t.plus nanos = some v) :
    (v.date = t.date ∧ v.second = t.second ∧ (v.nano : Int) = t.nano + nanos) ∨
      (¬ v.isLeap ∧ v.timeline = t.timeline + nanos ∧ (t.isLeap → nanos ≤ -1000000000)) ∨
      (¬ v.isLeap ∧ v.timeline = t.timeline + nanos - 1000000000 ∧ t.isLeap ∧ 0 < nanos ∧
        2000000000 ≤ t.nano + nanos) := by
  have hnano := t.nano_lt
  simp only [isLeap_iff]
  unfold plus at h
  split at h
  · obtain ⟨htime, hleap⟩ := ofTimeline?_eq_some_iff.1 h
    exact .inr (.inl ⟨by omega, htime, by omega⟩)
  · split at h
    · obtain rfl := Option.some.inj h
      exact .inl ⟨rfl, rfl, by simp only; omega⟩
    · split at h
      · obtain ⟨htime, hleap⟩ := ofTimeline?_eq_some_iff.1 h
        exact .inr (.inr ⟨by omega, by omega, by omega, by omega, by omega⟩)
      · obtain ⟨htime, hleap⟩ := ofTimeline?_eq_some_iff.1 h
        exact .inr (.inl ⟨by omega, htime, by omega⟩)

/-- Time goes on by positive durations only. -/
theorem lt_plus_iff (h : t.plus nanos = some v) : t < v ↔ 0 < nanos := by
  have hsecond := t.second_lt
  have hnano := t.nano_lt
  have hcases := plus_cases h
  simp only [isLeap_iff, timeline] at hcases
  rw [lt_iff, rank, rank]
  rcases hcases with ⟨hdate, hsame, hwithin⟩ | ⟨hv, htime, hback⟩ | ⟨hv, htime, hleap, hpos, hout⟩
  · rw [hdate, hsame]
    omega
  · omega
  · omega

end Instant

/-! ### Months -/

namespace Date

variable {d e : Date} {months : Int}

/-- A date moves to the month sought, on its own day or the last one of that month. -/
theorem addMonths_eq_some_iff :
    d.addMonths months = some e ↔ e.monthIndex = d.monthIndex + months ∧
      e.dayOfMonth = min d.dayOfMonth (monthLength e.year e.month) := by
  rw [addMonths_eq, ofYmd?_eq_some_iff]
  constructor
  · rintro ⟨hyear, hmonth, hday⟩
    rw [hyear, hmonth]
    refine ⟨?_, hday⟩
    simp only [monthIndex] at *
    omega
  · rintro ⟨hindex, hday⟩
    rw [← hindex, monthIndex_div, monthIndex_mod]
    exact ⟨rfl, rfl, hday⟩

/-- Two numbers of months add up from a day that every month has. -/
theorem addMonths_addMonths (hday : d.dayOfMonth ≤ 28) (h : d.addMonths months = some e)
    (more : Int) : e.addMonths more = d.addMonths (months + more) := by
  obtain ⟨hindex, hsame⟩ := addMonths_eq_some_iff.1 h
  have hlen := twentyEight_le_monthLength e.year e.one_le_month e.month_le
  rw [Nat.min_eq_left (by omega)] at hsame
  rw [addMonths_eq, addMonths_eq, hindex, hsame, Int.add_assoc]

/-- Dates go on by positive numbers of months only. -/
theorem day_lt_addMonths_iff (h : d.addMonths months = some e) : d.day < e.day ↔ 0 < months := by
  obtain ⟨hindex, hday⟩ := addMonths_eq_some_iff.1 h
  rcases Int.lt_trichotomy months 0 with hneg | rfl | hpos
  · have hback := day_lt_day_of_monthIndex_lt (show e.monthIndex < d.monthIndex by omega)
    omega
  · have hyear : e.year = d.year := by rw [← monthIndex_div, ← monthIndex_div, hindex, Int.add_zero]
    have hmonth : e.month = d.month := by
      rw [← monthIndex_mod, ← monthIndex_mod, hindex, Int.add_zero]
    have hparts := d.parts_eq
    have hparts' := e.parts_eq
    rw [hyear, hmonth] at hparts'
    omega
  · have hforth := day_lt_day_of_monthIndex_lt (show d.monthIndex < e.monthIndex by omega)
    omega

theorem addMonths_zero (d : Date) : d.addMonths 0 = some d := by
  have hparts := d.parts_eq
  exact addMonths_eq_some_iff.2 ⟨(Int.add_zero _).symm, (Nat.min_eq_left hparts.2.1).symm⟩

end Date

namespace Instant

variable {t v : Instant} {months : Int}

theorem addMonths_eq_some_iff :
    t.addMonths months = some v ↔
      t.date.addMonths months = some v.date ∧ v.second = t.second ∧ v.nano = t.nano := by
  obtain ⟨d, second, nano, _, _, _⟩ := v
  simp only [addMonths, Option.map_eq_some_iff, mk.injEq]
  constructor
  · rintro ⟨e, he, rfl, hsecond, hnano⟩
    exact ⟨he, hsecond.symm, hnano.symm⟩
  · rintro ⟨he, hsecond, hnano⟩
    exact ⟨d, he, rfl, hsecond.symm, hnano.symm⟩

theorem addMonths_eq_none_iff :
    t.addMonths months = none ↔ (t.date.monthIndex + months) / 12 < firstYear ∨
      lastYear < (t.date.monthIndex + months) / 12 := by
  rw [addMonths, Option.map_eq_none_iff, Date.addMonths_eq_none_iff]

theorem addMonths_addMonths (hday : t.date.dayOfMonth ≤ 28) (h : t.addMonths months = some v)
    (more : Int) : v.addMonths more = t.addMonths (months + more) := by
  ext w
  obtain ⟨hdate, hsecond, hnano⟩ := addMonths_eq_some_iff.1 h
  rw [addMonths_eq_some_iff, addMonths_eq_some_iff, Date.addMonths_addMonths hday hdate, hsecond,
    hnano]

theorem lt_addMonths_iff (h : t.addMonths months = some v) : t < v ↔ 0 < months := by
  obtain ⟨hdate, hsecond, hnano⟩ := addMonths_eq_some_iff.1 h
  rw [← Date.day_lt_addMonths_iff hdate, lt_iff, rank, rank, hsecond, hnano]
  omega

/-! ### Order -/

variable {u : Span} {amount : Int}

/-- Time goes on by positive shifts only, whatever the unit. -/
theorem lt_shift_iff (h : t.shift amount u = some v) : t < v ↔ 0 < amount := by
  rcases u.exists_seconds_or_months with ⟨seconds, hu, hpos⟩ | ⟨months, hu, hpos⟩
  · rw [shift_eq_plus hu] at h
    rw [lt_plus_iff h, mul_pos_iff_of_pos_right (by decide), mul_pos_iff_of_pos_right hpos]
  · rw [shift_eq_addMonths hu] at h
    rw [lt_addMonths_iff h, mul_pos_iff_of_pos_right hpos]

theorem shift_zero (t : Instant) (u : Span) : t.shift 0 u = some t := by
  rcases u.exists_seconds_or_months with ⟨seconds, hu, _⟩ | ⟨months, hu, _⟩
  · rw [shift_eq_plus hu, Int.zero_mul, Int.zero_mul, plus_zero]
  · rw [shift_eq_addMonths hu, Int.zero_mul, addMonths_eq_some_iff]
    exact ⟨t.date.addMonths_zero, rfl, rfl⟩

/-! ### Words -/

open Text

/-- Adds `amount` times some seconds: the product has to fit into 64 bits, and so have its
milliseconds. -/
def plusInWords (t : Instant) (amount seconds : Int) : Option Instant :=
  let total := amount * seconds
  if minInt64 ≤ total ∧ total ≤ maxInt64 ∧ total.natAbs ≤ maxInt64 / 1000 then
    t.plus (total * 1000000000)
  else none

/-- Adds months: their number has to fit into 32 bits, without a sign at first and with one then,
and so has the number of the month that they lead to. -/
def addMonthsInWords (t : Instant) (months : Int) : Option Instant :=
  if months.natAbs ≤ maxUInt32 ∧ months.natAbs ≤ maxInt32 ∧
      minInt32 ≤ t.date.monthIndex + months ∧ t.date.monthIndex + months ≤ maxInt32 then
    t.addMonths months
  else none

/-- The shift by an amount of 64 bits, each step of which has to fit into its word. -/
def shiftInWords (t : Instant) (amount : Int) (u : Span) : Option Instant :=
  if amount = 0 then some t
  else match u with
    | .hour => t.plusInWords amount 3600
    | .day => t.plusInWords amount 86400
    | .week => t.plusInWords amount 604800
    | .month => t.addMonthsInWords amount
    | .year =>
      if minInt64 ≤ amount * 12 ∧ amount * 12 ≤ maxInt64 then t.addMonthsInWords (amount * 12)
      else none

/-- No duration inside the calendar comes near the limit of durations. -/
theorem plus_bounds {nanos : Int} (h : t.plus nanos = some v) :
    -100000000000000000000000 < nanos ∧ nanos < 100000000000000000000000 := by
  have hfirst : firstDay = -95745764 := by decide
  have hlast : lastDay = 95745764 := by decide
  have hday := t.date.inCalendar
  have hday' := v.date.inCalendar
  have hsecond := t.second_lt
  have hsecond' := v.second_lt
  have hnano := t.nano_lt
  have hnano' := v.nano_lt
  have hcases := plus_cases h
  simp only [timeline] at hcases
  omega

/-- No number of months inside the calendar comes near the limits of words. -/
theorem addMonths_bounds {months : Int} (h : t.addMonths months = some v) :
    -10000000 < months ∧ months < 10000000 ∧ -10000000 < t.date.monthIndex + months ∧
      t.date.monthIndex + months < 10000000 := by
  have hfirst := t.date.firstYear_le_year
  have hlast := t.date.year_le_lastYear
  have hfirst' := v.date.firstYear_le_year
  have hlast' := v.date.year_le_lastYear
  have hindex := Date.monthIndex_addMonths (addMonths_eq_some_iff.1 h).1
  rw [← Date.monthIndex_div, firstYear] at hfirst hfirst'
  rw [← Date.monthIndex_div, lastYear] at hlast hlast'
  omega

theorem plusInWords_eq (t : Instant) (amount seconds : Int) :
    t.plusInWords amount seconds = t.plus (amount * seconds * 1000000000) := by
  unfold plusInWords
  dsimp only
  split
  · rfl
  · rename_i hout
    symm
    by_contra hsome
    obtain ⟨v, hv⟩ := Option.ne_none_iff_exists'.1 hsome
    have hbounds := plus_bounds hv
    simp only [minInt64, maxInt64] at hout
    omega

theorem addMonthsInWords_eq (t : Instant) (months : Int) :
    t.addMonthsInWords months = t.addMonths months := by
  unfold addMonthsInWords
  split
  · rfl
  · rename_i hout
    symm
    by_contra hsome
    obtain ⟨v, hv⟩ := Option.ne_none_iff_exists'.1 hsome
    have hbounds := addMonths_bounds hv
    simp only [maxUInt32, minInt32, maxInt32] at hout
    omega

/-- What does not fit into the words leads out of the calendar. -/
theorem shiftInWords_eq (t : Instant) (amount : Int) (u : Span) :
    t.shiftInWords amount u = t.shift amount u := by
  unfold shiftInWords
  split
  · rename_i hzero
    rw [hzero, shift_zero]
  · cases u with
    | hour => exact (t.plusInWords_eq amount 3600).trans (shift_eq_plus rfl t amount).symm
    | day => exact (t.plusInWords_eq amount 86400).trans (shift_eq_plus rfl t amount).symm
    | week => exact (t.plusInWords_eq amount 604800).trans (shift_eq_plus rfl t amount).symm
    | month => exact t.addMonthsInWords_eq amount
    | year =>
      rw [shift_eq_addMonths rfl]
      dsimp only
      split
      · exact t.addMonthsInWords_eq (amount * 12)
      · rename_i hout
        symm
        by_contra hsome
        obtain ⟨v, hv⟩ := Option.ne_none_iff_exists'.1 hsome
        have hbounds := addMonths_bounds hv
        simp only [minInt64, maxInt64] at hout
        omega

end Instant

/-! ### At every amount -/

open Instant

/-- From an instant outside leap seconds, shifts are exact at every amount, also where every step
has to fit into its word. Hours, days and weeks lead to the instant so many seconds later, if the
calendar has it; months and years lead to the month so many months later, at the same time of day
and on the same day, or the last day of the month if that comes earlier, if the calendar has the
year. Two shifts by one unit lead where the shift by their sum does, by months and years as long as
the day is one that every month has. -/
theorem shift_exact {t : Instant} (ht : ¬ t.isLeap) (n : Int) (u : Span) :
    t.shiftInWords n u = t.shift n u ∧
      (∀ seconds, u.seconds? = some seconds →
        (∀ v, t.shift n u = some v ↔
          ¬ v.isLeap ∧ v.timeline = t.timeline + n * seconds * 1000000000) ∧
        (t.shift n u = none ↔ t.timeline + n * seconds * 1000000000 < first.timeline ∨
          last.timeline < t.timeline + n * seconds * 1000000000) ∧
        ∀ v m, t.shift n u = some v → v.shift m u = t.shift (n + m) u) ∧
      ∀ months, u.months? = some months →
        (∀ v, t.shift n u = some v ↔ v.second = t.second ∧ v.nano = t.nano ∧
          v.date.monthIndex = t.date.monthIndex + n * months ∧
          v.date.dayOfMonth = min t.date.dayOfMonth (monthLength v.year v.month)) ∧
        (t.shift n u = none ↔ (t.date.monthIndex + n * months) / 12 < firstYear ∨
          lastYear < (t.date.monthIndex + n * months) / 12) ∧
        (t.date.dayOfMonth ≤ 28 →
          ∀ v m, t.shift n u = some v → v.shift m u = t.shift (n + m) u) := by
  refine ⟨t.shiftInWords_eq n u, fun seconds hu ↦ ?_, fun months hu ↦ ?_⟩
  · simp only [shift_eq_plus hu]
    refine ⟨fun v ↦ plus_eq_some_iff ht, plus_eq_none_iff ht, fun v m h ↦ ?_⟩
    rw [plus_plus ht h, Int.add_mul, Int.add_mul]
  · simp only [shift_eq_addMonths hu]
    refine ⟨fun v ↦ ?_, addMonths_eq_none_iff, fun hday v m h ↦ ?_⟩
    · rw [addMonths_eq_some_iff, Date.addMonths_eq_some_iff, and_comm, and_assoc]
      rfl
    · rw [addMonths_addMonths hday h, Int.add_mul]

/-- Thirteen months after ten o'clock on 31 January 2023 it is 29 February. -/
theorem shift_exact_leap_day :
    let t : Instant := ⟨⟨yearStart 2023 + 30, by decide⟩, 36000, 0, by decide, by decide, by decide⟩
    ¬ t.isLeap ∧ t.shiftInWords 13 .month = t.shift 13 .month ∧
      t.shift 13 .month = some { t with date := ⟨yearStart 2024 + 59, by decide⟩ } := by
  intro t
  have ht : ¬ t.isLeap := by decide
  obtain ⟨hwords, _, hmonths⟩ := shift_exact ht 13 .month
  obtain ⟨hsome, _⟩ := hmonths 1 rfl
  exact ⟨ht, hwords, (hsome _).2 ⟨rfl, rfl, by decide, by decide⟩⟩

end Jukebox.Calendar
