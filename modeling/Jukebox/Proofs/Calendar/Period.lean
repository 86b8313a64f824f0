import Jukebox.Proofs.Calendar.Months
import Jukebox.Proofs.Calendar.Timeline

/-!
# Calendar periods

The calendar is cut into days, weeks, months and years. The periods of one kind are numbered
through, with `firstDay` the number of the first day of a period and `index` the number of the
period that holds a date. The two are a pair: a period has begun exactly when its number has been
reached (`firstDay_le_iff`). From the beginning of a period, a shift by whole periods leads to the
beginning of a period (`shift_midnight`).
-/

set_option autoImplicit false
set_option relaxedAutoImplicit false

namespace Jukebox.Calendar

/-! ### Periods -/

/-- The kinds of periods into which the calendar is cut. -/
inductive Period where
  | day | week | month | year
  deriving DecidableEq

namespace Period

/-- The unit that counts periods. -/
def span : Period → Span
  | day => .day
  | week => .week
  | month => .month
  | year => .year

/-- The number of the period that holds a date; weeks begin on `weekStart`. -/
def index (weekStart : Weekday) (d : Date) : Period → Int
  | day => d.day
  | week => (d.day + 6 - weekStart.number) / 7
  | month => d.monthIndex
  | year => d.year

/-- The number of the first day of a period; weeks begin on `weekStart`. -/
def firstDay (weekStart : Weekday) (i : Int) : Period → Int
  | day => i
  | week => 7 * i - 6 + weekStart.number
  | month => monthDay i
  | year => yearStart i

variable {p : Period} {weekStart : Weekday}

theorem firstDay_lt_succ (p : Period) (weekStart : Weekday) (i : Int) :
    p.firstDay weekStart i < p.firstDay weekStart (i + 1) := by
  cases p with
  | day =>
    simp only [firstDay]
    omega
  | week =>
    simp only [firstDay]
    omega
  | month => exact monthDay_lt_succ i
  | year => exact yearStart_lt_succ i

theorem firstDay_lt_firstDay_iff {i j : Int} :
    p.firstDay weekStart i < p.firstDay weekStart j ↔ i < j :=
  (strictMono_int_of_lt_succ (p.firstDay_lt_succ weekStart)).lt_iff_lt

theorem firstDay_le_firstDay {i j : Int} (h : i ≤ j) :
    p.firstDay weekStart i ≤ p.firstDay weekStart j :=
  (strictMono_int_of_lt_succ (p.firstDay_lt_succ weekStart)).monotone h

/-- A period has begun on a date exactly when it is that of the date or an earlier one. -/
theorem firstDay_le_iff {d : Date} {i : Int} :
    p.firstDay weekStart i ≤ d.day ↔ i ≤ p.index weekStart d := by
  cases p with
  | day => rfl
  | week =>
    simp only [firstDay, index]
    omega
  | month => exact monthDay_le_iff
  | year =>
    rw [firstDay, index, ← monthDay_twelve_mul, monthDay_le_iff, ← d.monthIndex_div]
    omega

theorem lt_firstDay_iff {d : Date} {i : Int} :
    d.day < p.firstDay weekStart i ↔ p.index weekStart d < i := by
  rw [← not_le, firstDay_le_iff, not_le]

/-! ### Shifts from the beginning of a period -/

theorem addMonths_firstOfMonth {d : Date} {i : Int} (hd : d.day = monthDay i) (months : Int) :
    d.addMonths months = Date.ofDay? (monthDay (i + months)) := by
  have hlen := twentyEight_le_monthLength (i / 12) (m := (i % 12).toNat + 1) (by omega)
    (by omega)
  have hparts : Date.ofYmd? (i / 12) ((i % 12).toNat + 1) 1 = some d := by
    rw [Date.ofYmd?, if_pos ⟨le_rfl, by omega⟩, Date.ofDay?_eq_some_iff, hd, monthDay]
    exact (add_zero _).symm
  obtain ⟨hyear, hmonth, hday⟩ := Date.ofYmd?_eq_some_iff.1 hparts
  have hindex : d.monthIndex = i := by
    simp only [Date.monthIndex]
    omega
  have hlen' := twentyEight_le_monthLength ((i + months) / 12)
    (m := ((i + months) % 12).toNat + 1) (by omega) (by omega)
  rw [Date.addMonths_eq, hindex, hday, Nat.min_eq_left (by omega), Date.ofYmd?,
    if_pos ⟨le_rfl, by omega⟩, monthDay]
  exact congrArg Date.ofDay? (add_zero _)

theorem addMonths_midnight (d : Date) (months : Int) :
    (Instant.midnight d).addMonths months = (d.addMonths months).map Instant.midnight := rfl

/-- From the beginning of a period, `k` periods lead to the beginning of the `k`-th period from
there, unless that lies outside the calendar. -/
theorem shift_midnight {d : Date} {i : Int} (hd : d.day = p.firstDay weekStart i) (k : Int) :
    (Instant.midnight d).shift k p.span =
      (Date.ofDay? (p.firstDay weekStart (i + k))).map Instant.midnight := by
  cases p with
  | day =>
    rw [span, Instant.shift, Instant.plus_midnight, hd]
    rfl
  | week =>
    have hnanos : k * 604800000000000 = 7 * k * 86400000000000 := by omega
    rw [span, Instant.shift, hnanos, Instant.plus_midnight, hd]
    congr 2
    simp only [firstDay]
    omega
  | month => rw [span, Instant.shift, addMonths_midnight, addMonths_firstOfMonth hd, firstDay]
  | year =>
    have hmonth : d.day = monthDay (12 * i) := by rw [monthDay_twelve_mul, hd, firstDay]
    rw [span, Instant.shift, addMonths_midnight, addMonths_firstOfMonth hmonth, ← Int.mul_add,
      monthDay_twelve_mul, firstDay]

end Period

end Jukebox.Calendar
