import Jukebox.Proofs.Calendar.Shift

/-!
# Looking back by months

`monthsAgo t n` is the instant `n` months before `t`, on the last day of a month that is too short,
or the beginning of the calendar where there is no such instant. `lt_monthsAgo_iff` says by month,
day and time of day what comes before it. So looking back further never leads to a later instant
(`lt_monthsAgo_of_le`).

Looking back from a later instant mostly leads to a later instant, but not always: from the last
days of a month several days lead to the last day of a short one, each at its own time of day.
`turnsBack_iff` says between which instants this happens, and which instants are passed in the wrong
direction then.
-/

set_option autoImplicit false
set_option relaxedAutoImplicit false

namespace Jukebox.Calendar

/-! ### Dates and months -/

namespace Date

variable {d e : Date}

theorem day_eq_monthDay (d : Date) :
    d.day = monthDay d.monthIndex + ((d.dayOfMonth : Int) - 1) := by
  have hparts := d.parts_eq
  rw [monthDay, d.monthIndex_div, d.monthIndex_mod]
  omega

theorem year_month_eq_of_monthIndex_eq (h : d.monthIndex = e.monthIndex) :
    d.year = e.year ∧ d.month = e.month := by
  rw [← d.monthIndex_div, ← e.monthIndex_div, ← d.monthIndex_mod, ← e.monthIndex_mod, h]
  exact ⟨rfl, rfl⟩

end Date

/-- A month has different lengths in two years only if it is a February. -/
theorem eq_february_of_monthLength_lt {y z : Int} {m : Nat} (hm : 1 ≤ m) (hle : m ≤ 12)
    (h : monthLength y m < monthLength z m) :
    m = 2 ∧ monthLength y m = 28 ∧ monthLength z m = 29 := by
  have hall : ∀ leap leap' : Bool, ∀ i : Fin 12,
      (monthLengths leap).getD i 0 < (monthLengths leap').getD i 0 →
        i.val + 1 = 2 ∧ (monthLengths leap).getD i 0 = 28 ∧
          (monthLengths leap').getD i 0 = 29 := by
    decide
  simp only [monthLength, if_neg (show m ≠ 0 by omega)] at h ⊢
  have hfebruary := hall (isLeapYear y) (isLeapYear z) ⟨m - 1, by omega⟩ h
  exact ⟨by simp only at hfebruary; omega, hfebruary.2⟩

namespace Instant

variable {t now later : Instant} {m n : Int}

/-! ### Times of day -/

/-- The place of an instant in its day, leap seconds included. -/
def timeOfDay (t : Instant) : Nat := t.second * 2000000000 + t.nano

theorem lt_iff_timeOfDay {t u : Instant} :
    t < u ↔ t.date.day < u.date.day ∨ t.date.day = u.date.day ∧ t.timeOfDay < u.timeOfDay := by
  have hsecond := t.second_lt
  have hsecond' := u.second_lt
  have hnano := t.nano_lt
  have hnano' := u.nano_lt
  rw [lt_iff, rank, rank, timeOfDay, timeOfDay]
  omega

/-- A later instant is in a later month, on a later day of the month or at a later time of day. -/
theorem lt_iff_month {t u : Instant} :
    t < u ↔ t.date.monthIndex < u.date.monthIndex ∨ t.date.monthIndex = u.date.monthIndex ∧
      (t.date.dayOfMonth < u.date.dayOfMonth ∨
        t.date.dayOfMonth = u.date.dayOfMonth ∧ t.timeOfDay < u.timeOfDay) := by
  rw [lt_iff_timeOfDay]
  rcases Int.lt_trichotomy t.date.monthIndex u.date.monthIndex with hlt | heq | hgt
  · have hday := Date.day_lt_day_of_monthIndex_lt hlt
    omega
  · rw [t.date.day_eq_monthDay, u.date.day_eq_monthDay, heq]
    omega
  · have hday := Date.day_lt_day_of_monthIndex_lt hgt
    omega

/-! ### Looking back -/

/-- The instant a number of months before, or the beginning of the calendar. -/
def monthsAgo (t : Instant) (n : Int) : Instant := (t.addMonths (-n)).getD first

/-- An instant was more than `n` months ago exactly if it is in an earlier month than the one
sought, or in that month on an earlier day, the days behind the end of the month counting as its
last one, or on that day at an earlier time. -/
theorem lt_monthsAgo_iff (hn : 0 ≤ n) :
    t < now.monthsAgo n ↔
      t.date.monthIndex < now.date.monthIndex - n ∨ t.date.monthIndex = now.date.monthIndex - n ∧
        (t.date.dayOfMonth < min now.date.dayOfMonth (monthLength t.date.year t.date.month) ∨
          t.date.dayOfMonth = min now.date.dayOfMonth (monthLength t.date.year t.date.month) ∧
            t.timeOfDay < now.timeOfDay) := by
  unfold monthsAgo
  cases hback : now.addMonths (-n) with
  | none =>
    -- The month sought is in front of the calendar, and `t` in neither of them.
    have hlast := now.date.year_le_lastYear
    have hfirst := t.date.firstYear_le_year
    have hle := first_le t
    rw [← Date.monthIndex_div] at hlast hfirst
    rw [addMonths_eq_none_iff] at hback
    rw [Option.getD_none, lt_iff]
    rw [le_iff] at hle
    omega
  | some v =>
    obtain ⟨hdate, hsecond, hnano⟩ := addMonths_eq_some_iff.1 hback
    obtain ⟨hindex, hday⟩ := Date.addMonths_eq_some_iff.1 hdate
    have htime : v.timeOfDay = now.timeOfDay := by rw [timeOfDay, timeOfDay, hsecond, hnano]
    rw [Option.getD_some, lt_iff_month, htime, hday, hindex, Int.sub_eq_add_neg]
    refine or_congr_right (and_congr_right fun hsame ↦ ?_)
    obtain ⟨hyear, hmonth⟩ := Date.year_month_eq_of_monthIndex_eq (hsame.trans hindex.symm)
    rw [hyear, hmonth]

/-- What was more than a number of months ago was more than any smaller number of months ago. -/
theorem lt_monthsAgo_of_le (hm : 0 ≤ m) (h : m ≤ n) (hlt : t < now.monthsAgo n) :
    t < now.monthsAgo m := by
  rw [lt_monthsAgo_iff (hm.trans h)] at hlt
  rw [lt_monthsAgo_iff hm]
  rcases h.lt_or_eq with hless | rfl
  · exact Or.inl (by omega)
  · exact hlt

/-! ### Turning back -/

/-- `t` is more than `n` months before `now`, but not before `later`, which comes after `now`: both
lie in one month, behind the last day of the month that holds `t`, so both look back to that last
day, `later` from the earlier time of day. -/
structure TurnsBack (n : Int) (now later t : Instant) : Prop where
  sameMonth : later.date.monthIndex = now.date.monthIndex
  laterDay : now.date.dayOfMonth < later.date.dayOfMonth
  monthBack : t.date.monthIndex = now.date.monthIndex - n
  lastDay : t.date.dayOfMonth = monthLength t.date.year t.date.month
  pastLastDay : t.date.dayOfMonth ≤ now.date.dayOfMonth
  notBeforeLater : later.timeOfDay ≤ t.timeOfDay
  beforeNow : t.timeOfDay < now.timeOfDay

/-- Looking back passes an instant in the wrong direction exactly if it turns back. -/
theorem turnsBack_iff (hn : 0 ≤ n) (h : now ≤ later) :
    TurnsBack n now later t ↔ t < now.monthsAgo n ∧ ¬ t < later.monthsAgo n := by
  have horder : ¬ later < now := Int.not_lt.2 h
  rw [lt_iff_month] at horder
  rw [lt_monthsAgo_iff hn, lt_monthsAgo_iff hn]
  constructor
  · rintro ⟨hmonth, hday, hback, hlast, hpast, hlater, hnow⟩
    omega
  · rintro ⟨hnow, hlater⟩
    exact ⟨by omega, by omega, by omega, by omega, by omega, by omega, by omega⟩

/-- A year back, this happens only from 28 to 29 February. -/
theorem TurnsBack.leapDay (h : TurnsBack 12 now later t) :
    now.month = 2 ∧ now.date.dayOfMonth = 28 ∧ later.date.dayOfMonth = 29 := by
  have hlength := later.date.parts_eq.2.1
  obtain ⟨hyear, hmonth⟩ := Date.year_month_eq_of_monthIndex_eq h.sameMonth
  have hbefore : t.date.month = later.date.month := by
    rw [← t.date.monthIndex_mod, ← later.date.monthIndex_mod, h.monthBack, h.sameMonth]
    omega
  have hlast := h.lastDay
  have hday := h.laterDay
  have hpast := h.pastLastDay
  rw [hbefore] at hlast
  obtain ⟨hfebruary, hshort, hlong⟩ :=
    eq_february_of_monthLength_lt (y := t.date.year) (z := later.date.year)
      later.date.one_le_month later.date.month_le (by omega)
  exact ⟨hmonth.symm.trans hfebruary, by omega, by omega⟩

end Instant

end Jukebox.Calendar
