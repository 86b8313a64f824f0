import Mathlib.Algebra.BigOperators.Group.List.Basic
import Mathlib.Order.Monotone.Basic
import Jukebox.Calendar.Shift

/-!
# Months in one row

Months are numbered through, `12 * y` being January of year `y`, and `monthDay i` is the number of
the first day of month `i`. `monthDay_monthIndex_le` and `lt_monthDay_monthIndex_succ` put every
date into its month; `monthDay_le_iff` says it for all months at once. `addMonths_eq_none_iff` says
that a date moves by any number of months unless the target year is outside the calendar.
-/

set_option autoImplicit false
set_option relaxedAutoImplicit false

namespace Jukebox.Calendar

/-! ### The parts of a date -/

namespace Date

theorem ofYmd?_parts (d : Date) : ofYmd? d.year d.month d.dayOfMonth = some d :=
  ofYmd?_eq_some_iff.2 ⟨rfl, rfl, rfl⟩

theorem parts_eq (d : Date) :
    1 ≤ d.dayOfMonth ∧ d.dayOfMonth ≤ monthLength d.year d.month ∧
      d.day = yearStart d.year + monthStart d.year d.month + (d.dayOfMonth - 1 : Nat) := by
  have h := d.ofYmd?_parts
  unfold ofYmd? at h
  split at h
  · rename_i hday
    exact ⟨hday.1, hday.2, ofDay?_eq_some_iff.1 h⟩
  · cases h

theorem one_le_month (d : Date) : 1 ≤ d.month := Nat.le_add_left ..

theorem month_le (d : Date) : d.month ≤ 12 := by
  by_contra hlate
  have hlen := d.parts_eq
  have hnone : monthLength d.year d.month = 0 := by
    rw [monthLength, if_neg (by omega), List.getD_eq_getElem?_getD, List.getElem?_eq_none]
    · rfl
    · simp only [monthLengths, List.length_cons, List.length_nil]
      omega
  omega

theorem firstYear_le_year (d : Date) : firstYear ≤ d.year := by
  by_contra hlt
  have hday := lt_yearStart_yearOf_succ d.day
  have hstart := yearStart_le_yearStart (show yearOf d.day + 1 ≤ firstYear from by
    simp only [year] at hlt
    omega)
  have := d.inCalendar.1
  simp only [firstDay] at this
  omega

theorem year_le_lastYear (d : Date) : d.year ≤ lastYear := by
  by_contra hlt
  have hday := yearStart_yearOf_le d.day
  have hstart := yearStart_le_yearStart (show lastYear + 1 ≤ yearOf d.day from by
    simp only [year] at hlt
    omega)
  have := d.inCalendar.2
  simp only [lastDay] at this
  omega

end Date

/-! ### Months and their days -/

theorem monthStart_succ {y : Int} {m : Nat} (hm : 1 ≤ m) (hle : m ≤ 12) :
    monthStart y (m + 1) = monthStart y m + monthLength y m := by
  have hlt : m - 1 < (monthLengths (isLeapYear y)).length := by
    simp only [monthLengths, List.length_cons, List.length_nil]
    omega
  have hsum : ((monthLengths (isLeapYear y)).take (m - 1 + 1)).foldr (· + ·) 0 =
      ((monthLengths (isLeapYear y)).take (m - 1)).foldr (· + ·) 0 +
        (monthLengths (isLeapYear y))[m - 1] :=
    List.sum_take_succ (monthLengths (isLeapYear y)) (m - 1) hlt
  rw [Nat.sub_add_cancel hm] at hsum
  rw [monthStart, monthStart, monthLength, Nat.add_sub_cancel, if_neg (by omega),
    List.getD_eq_getElem?_getD, List.getElem?_eq_getElem hlt, hsum]
  rfl

theorem monthStart_one (y : Int) : monthStart y 1 = 0 := rfl

theorem monthStart_thirteen (y : Int) : monthStart y 13 = yearLength y := by
  rw [← sum_monthLengths]
  rfl

theorem twentyEight_le_monthLength (y : Int) {m : Nat} (hm : 1 ≤ m) (hle : m ≤ 12) :
    28 ≤ monthLength y m := by
  have hall : ∀ leap : Bool, ∀ i : Fin 12, 28 ≤ (monthLengths leap).getD i 0 := by decide
  rw [monthLength, if_neg (by omega)]
  exact hall (isLeapYear y) ⟨m - 1, by omega⟩

theorem monthLength_le (y : Int) (m : Nat) : monthLength y m ≤ 31 := by
  have hall : ∀ leap : Bool, ∀ n ∈ monthLengths leap, n ≤ 31 := by decide
  rw [monthLength]
  split
  · decide
  · rw [List.getD_eq_getElem?_getD]
    cases hlength : (monthLengths (isLeapYear y))[m - 1]? with
    | none => exact Nat.zero_le 31
    | some n => exact hall _ n (List.mem_of_getElem? hlength)

theorem Date.dayOfMonth_le (d : Date) : d.dayOfMonth ≤ 31 :=
  d.parts_eq.2.1.trans (monthLength_le d.year d.month)

/-- A year, month and day inside the calendar and inside the month name a date. -/
theorem exists_ofYmd? {y : Int} {m n : Nat} (hfirst : firstYear ≤ y) (hlast : y ≤ lastYear)
    (hpos : 1 ≤ n) (hle : n ≤ monthLength y m) : ∃ d, Date.ofYmd? y m n = some d := by
  have hm : m ≠ 0 := by
    rintro rfl
    simp only [monthLength, if_pos] at hle
    omega
  have hin : m - 1 < (monthLengths (isLeapYear y)).length ∧
      ((monthLengths (isLeapYear y)).take (m - 1)).foldr (· + ·) 0 + (n - 1) <
        (monthLengths (isLeapYear y)).foldr (· + ·) 0 := by
    refine sum_take_add_lt ?_
    simp only [monthLength, hm, if_false] at hle
    omega
  rw [sum_monthLengths] at hin
  have hlow := yearStart_le_yearStart hfirst
  have hhigh := yearStart_le_yearStart (show y + 1 ≤ lastYear + 1 by omega)
  rw [yearStart_succ] at hhigh
  rw [Date.ofYmd?, if_pos ⟨hpos, hle⟩]
  have hday : firstDay ≤ yearStart y + monthStart y m + (n - 1 : Nat) ∧
      yearStart y + monthStart y m + (n - 1 : Nat) ≤ lastDay := by
    simp only [firstDay, lastDay, monthStart]
    omega
  exact ⟨⟨_, hday⟩, Date.ofDay?_eq_some_iff.2 rfl⟩

/-! ### Numbering the months -/

/-- A year inside the calendar has a first day. -/
theorem exists_newYear {y : Int} (hfirst : firstYear ≤ y) (hlast : y ≤ lastYear) :
    ∃ d, Date.ofYmd? y 1 1 = some d ∧ d.day = yearStart y := by
  have hlen := twentyEight_le_monthLength y (m := 1) (Nat.le_refl 1) (by decide)
  obtain ⟨d, hd⟩ := exists_ofYmd? hfirst hlast (Nat.le_refl 1)
    (show 1 ≤ monthLength y 1 by omega)
  obtain ⟨hyear, hmonth, hday⟩ := Date.ofYmd?_eq_some_iff.1 hd
  have hparts := d.parts_eq
  rw [hyear, hmonth, hday, monthStart_one] at hparts
  exact ⟨d, hd, by omega⟩

/-- The number of the month that holds a date, January of year 0 being 0. -/
def Date.monthIndex (d : Date) : Int := 12 * d.year + ((d.month : Int) - 1)

/-- The number of the first day of a month. -/
def monthDay (i : Int) : Int := yearStart (i / 12) + monthStart (i / 12) ((i % 12).toNat + 1)

theorem monthDay_twelve_mul (y : Int) : monthDay (12 * y) = yearStart y := by
  have hdiv : 12 * y / 12 = y := by omega
  have hmod : (12 * y % 12).toNat = 0 := by omega
  rw [monthDay, hdiv, hmod, Nat.zero_add, monthStart_one]
  exact add_zero _

theorem monthDay_succ (i : Int) :
    monthDay (i + 1) = monthDay i + monthLength (i / 12) ((i % 12).toNat + 1) := by
  have hstep := monthStart_succ (y := i / 12) (m := (i % 12).toNat + 1) (by omega) (by omega)
  by_cases hlast : i % 12 = 11
  · have hyear : i + 1 = 12 * (i / 12 + 1) := by omega
    have hmonth : (i % 12).toNat + 1 = 12 := by omega
    rw [hmonth, monthStart_thirteen] at hstep
    rw [hyear, monthDay_twelve_mul, yearStart_succ, monthDay, hmonth]
    omega
  · have hdiv : (i + 1) / 12 = i / 12 := by omega
    have hmod : ((i + 1) % 12).toNat = (i % 12).toNat + 1 := by omega
    rw [monthDay, hdiv, hmod, hstep, monthDay]
    omega

theorem monthDay_lt_succ (i : Int) : monthDay i < monthDay (i + 1) := by
  have hlen := twentyEight_le_monthLength (i / 12) (m := (i % 12).toNat + 1) (by omega)
    (by omega)
  rw [monthDay_succ]
  omega

theorem monthDay_le_monthDay {i j : Int} (h : i ≤ j) : monthDay i ≤ monthDay j :=
  (strictMono_int_of_lt_succ monthDay_lt_succ).monotone h

theorem Date.monthIndex_div (d : Date) : d.monthIndex / 12 = d.year := by
  have := d.one_le_month
  have := d.month_le
  simp only [Date.monthIndex]
  omega

theorem Date.monthIndex_mod (d : Date) : (d.monthIndex % 12).toNat + 1 = d.month := by
  have := d.one_le_month
  have := d.month_le
  simp only [Date.monthIndex]
  omega

theorem monthDay_monthIndex_le (d : Date) : monthDay d.monthIndex ≤ d.day := by
  have := d.parts_eq
  rw [monthDay, d.monthIndex_div, d.monthIndex_mod]
  omega

theorem lt_monthDay_monthIndex_succ (d : Date) : d.day < monthDay (d.monthIndex + 1) := by
  have := d.parts_eq
  rw [monthDay_succ, monthDay, d.monthIndex_div, d.monthIndex_mod]
  omega

/-- A month has begun on a date exactly when it is the month of the date or an earlier one. -/
theorem monthDay_le_iff {d : Date} {i : Int} : monthDay i ≤ d.day ↔ i ≤ d.monthIndex := by
  constructor
  · intro h
    by_contra hlate
    have hmono := monthDay_le_monthDay (show d.monthIndex + 1 ≤ i by omega)
    have := lt_monthDay_monthIndex_succ d
    omega
  · intro h
    exact Int.le_trans (monthDay_le_monthDay h) (monthDay_monthIndex_le d)

/-- A later month has later days. -/
theorem Date.day_lt_day_of_monthIndex_lt {d e : Date} (h : d.monthIndex < e.monthIndex) :
    d.day < e.day := by
  have hlate : ¬ monthDay e.monthIndex ≤ d.day := by
    rw [monthDay_le_iff]
    omega
  have hbegun := monthDay_monthIndex_le e
  omega

/-! ### Moving by months -/

namespace Date

theorem addMonths_eq (d : Date) (months : Int) :
    d.addMonths months = ofYmd? ((d.monthIndex + months) / 12)
      (((d.monthIndex + months) % 12).toNat + 1)
      (min d.dayOfMonth (monthLength ((d.monthIndex + months) / 12)
        (((d.monthIndex + months) % 12).toNat + 1))) := rfl

theorem addMonths_eq_none_iff {d : Date} {months : Int} :
    d.addMonths months = none ↔
      (d.monthIndex + months) / 12 < firstYear ∨ lastYear < (d.monthIndex + months) / 12 := by
  constructor
  · intro h
    by_contra hin
    have hlen := twentyEight_le_monthLength ((d.monthIndex + months) / 12)
      (m := ((d.monthIndex + months) % 12).toNat + 1) (by omega) (by omega)
    have hpos := d.parts_eq.1
    obtain ⟨e, he⟩ := exists_ofYmd? (y := (d.monthIndex + months) / 12)
      (m := ((d.monthIndex + months) % 12).toNat + 1)
      (n := min d.dayOfMonth (monthLength ((d.monthIndex + months) / 12)
        (((d.monthIndex + months) % 12).toNat + 1)))
      (by omega) (by omega) (by omega) (by omega)
    rw [addMonths_eq, he] at h
    cases h
  · intro hout
    cases h : d.addMonths months with
    | none => rfl
    | some e =>
      obtain ⟨hyear, _⟩ := ofYmd?_eq_some_iff.1 h
      have hfirst := e.firstYear_le_year
      have hlast := e.year_le_lastYear
      simp only [Date.monthIndex] at hout
      omega

/-- The month of a moved date is the month sought. -/
theorem monthIndex_addMonths {d e : Date} {months : Int} (h : d.addMonths months = some e) :
    e.monthIndex = d.monthIndex + months := by
  obtain ⟨hyear, hmonth, _⟩ := ofYmd?_eq_some_iff.1 h
  simp only [Date.monthIndex]
  omega

end Date

end Jukebox.Calendar
