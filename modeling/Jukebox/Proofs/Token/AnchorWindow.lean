import Mathlib.Algebra.BigOperators.Group.Finset.Basic
import Mathlib.Algebra.BigOperators.Ring.Finset
import Jukebox.Proofs.Calendar.Period
import Jukebox.Proofs.Token.Range
import Jukebox.Statistics.Evaluate

/-!
# Windows of whole periods

Every anchor but the present itself stands at the beginning of a calendar period, and a range from
it that is shifted and measured in the unit of the anchor runs over whole periods.
`resolve_anchor_eq_ok_iff` says which window that is. `anchorWindow_wholePeriods` draws the
consequences: the window holds the instants of `n` periods and no others, the next window begins
where it stops, and it counts what the windows of its periods count together.
-/

set_option autoImplicit false
set_option relaxedAutoImplicit false

namespace Jukebox

open Calendar Token

namespace Calendar.Period

/-- The anchor at the beginning of the current period. -/
def anchor : Period → Anchor
  | day => .today
  | week => .week
  | month => .month
  | year => .year

@[simp] theorem unit_anchor (p : Period) : p.anchor.unit = p.span := by cases p <;> rfl

/-- The number of the period that holds the present. -/
def current (p : Period) (r : Reference) : Int := p.index r.weekStart r.now.date

end Calendar.Period

/-- An amount of `n` units: written as such, with or without the unit, or left out where that
stands for `n`. -/
def Token.Amount.Counts (unit : Span) (absent n : Int) (amount : Option Amount) : Prop :=
  amount = none ∧ n = absent ∨ ∃ u : Option Span, amount = some ⟨n, u⟩ ∧ u.getD unit = unit

theorem Token.Amount.Counts.measure_eq {unit : Span} {absent n : Int} {amount : Option Amount}
    (h : Counts unit absent n amount) : measure absent unit amount = (n, unit) := by
  rcases h with ⟨rfl, rfl⟩ | ⟨u, rfl, hu⟩
  · rfl
  · exact Prod.ext rfl hu

namespace Reference

variable {r : Reference}

theorem weekDate_day (hnow : firstDay + 7 ≤ r.now.date.day) :
    r.weekDate.day = Period.week.firstDay r.weekStart (Period.week.current r) := by
  have hstart := r.weekStart.number_lt
  have hlast := r.now.date.inCalendar.2
  have hsince : (r.now.weekday.daysSince r.weekStart : Int) =
      (r.now.date.day + 6 - r.weekStart.number) % 7 := by
    simp only [Weekday.daysSince, Instant.weekday, Date.weekday, Weekday.number_ofNumber]
    omega
  have hin : firstDay ≤ r.now.date.day - r.now.weekday.daysSince r.weekStart ∧
      r.now.date.day - r.now.weekday.daysSince r.weekStart ≤ lastDay := by omega
  rw [weekDate, Date.ofDay?, dif_pos hin]
  simp only [Option.getD_some, Period.firstDay, Period.current, Period.index]
  omega

/-- An anchor stands at midnight of the first day of the current period. -/
theorem anchor_eq_midnight (p : Period) (hnow : firstDay + 7 ≤ r.now.date.day) :
    ∃ d, r.anchor p.anchor = .midnight d ∧ d.day = p.firstDay r.weekStart (p.current r) := by
  cases p with
  | day => exact ⟨r.now.date, rfl, rfl⟩
  | week => exact ⟨r.weekDate, rfl, weekDate_day hnow⟩
  | month =>
    have hlen := twentyEight_le_monthLength r.now.date.year r.now.date.one_le_month
      r.now.date.month_le
    obtain ⟨d, hd⟩ := exists_ofYmd? r.now.date.firstYear_le_year r.now.date.year_le_lastYear
      le_rfl (show 1 ≤ monthLength r.now.date.year r.now.date.month by omega)
    refine ⟨d, by rw [Period.anchor, anchor, Instant.year, Instant.month, hd]; rfl, ?_⟩
    obtain ⟨hyear, hmonth, hday⟩ := Date.ofYmd?_eq_some_iff.1 hd
    have hparts := d.parts_eq
    rw [hyear, hmonth, hday] at hparts
    simp only [Period.firstDay, Period.current, Period.index, monthDay, Date.monthIndex_div,
      Date.monthIndex_mod]
    omega
  | year =>
    obtain ⟨d, hd, hday⟩ :=
      exists_newYear r.now.date.firstYear_le_year r.now.date.year_le_lastYear
    exact ⟨d, by rw [Period.anchor, anchor, Instant.year, hd]; rfl, hday⟩

end Reference

namespace Token

variable {r : Reference} {p : Period} {text : String} {shift length : Option Amount} {k n : Int}

theorem rangeStart?_anchor (hnow : firstDay + 7 ≤ r.now.date.day)
    (hshift : Amount.Counts p.span 0 k shift) :
    rangeStart? r p.anchor shift =
      (Date.ofDay? (p.firstDay r.weekStart (p.current r + k))).map Instant.midnight := by
  obtain ⟨d, hanchor, hd⟩ := Reference.anchor_eq_midnight p hnow
  rw [rangeStart?_eq, Period.unit_anchor, hshift.measure_eq, Amount.lead, hanchor,
    Period.shift_midnight hd]

theorem windowFrom_eq_ok_iff {start : Instant} {unit : Span} {w : Window}
    (hlength : Amount.Counts unit 1 n length) :
    windowFrom text start length unit = .ok w ↔
      ∃ stop, start.shift n unit = some stop ∧ start < stop ∧ w = ⟨start, stop⟩ := by
  rw [windowFrom_eq, hlength.measure_eq, Amount.lead]
  cases hstop : start.shift n unit with
  | none => simp
  | some stop =>
    simp only [Option.bind_some, Option.some.injEq, exists_eq_left', Window.between?]
    by_cases hlt : start < stop <;> simp [hlt, eq_comm]

/-- The window of `n` periods that begins `k` periods after the current one. -/
theorem resolve_anchor_eq_ok_iff (hnow : firstDay + 7 ≤ r.now.date.day)
    (hshift : Amount.Counts p.span 0 k shift) (hlength : Amount.Counts p.span 1 n length)
    {w : Window} :
    (Expr.relative p.anchor shift length).resolve text r = .ok (.range w) ↔
      0 < n ∧ ∃ a b : Date, a.day = p.firstDay r.weekStart (p.current r + k) ∧
        b.day = p.firstDay r.weekStart (p.current r + k + n) ∧
        w = ⟨.midnight a, .midnight b⟩ := by
  have hmono : p.firstDay r.weekStart (p.current r + k) <
      p.firstDay r.weekStart (p.current r + k + n) ↔ p.current r + k < p.current r + k + n :=
    Period.firstDay_lt_firstDay_iff
  rw [Expr.resolve, rangeStart?_anchor hnow hshift, Period.unit_anchor]
  cases hstart : Date.ofDay? (p.firstDay r.weekStart (p.current r + k)) with
  | none =>
    constructor
    · intro h
      cases h
    · rintro ⟨_, a, _, ha, _⟩
      rw [Date.ofDay?_eq_some_iff.2 ha] at hstart
      cases hstart
  | some d =>
    have hd := Date.ofDay?_eq_some_iff.1 hstart
    have hrange : (windowFrom text (.midnight d) length p.span).map Token.range = .ok (.range w) ↔
        windowFrom text (.midnight d) length p.span = .ok w := by
      cases windowFrom text (.midnight d) length p.span <;> simp [Except.map]
    simp only [Option.map_some, hrange, windowFrom_eq_ok_iff hlength, Period.shift_midnight hd,
      Option.map_eq_some_iff, Date.ofDay?_eq_some_iff]
    constructor
    · rintro ⟨_, ⟨b, hb, rfl⟩, hlt, rfl⟩
      rw [Instant.lt_midnight_iff] at hlt
      have hdays : d.day < b.day := hlt
      rw [hd, hb] at hdays
      exact ⟨by have := hmono.1 hdays; omega, d, b, hd, hb, rfl⟩
    · rintro ⟨hn, a, b, ha, hb, rfl⟩
      obtain rfl : a = d := Date.ext_day (by rw [ha, hd])
      refine ⟨.midnight b, ⟨b, hb, rfl⟩, Instant.lt_midnight_iff.2 ?_, rfl⟩
      change a.day < b.day
      rw [ha, hb]
      exact hmono.2 (by omega)

end Token

/-! ### Counting by windows -/

namespace Window

/-- Two windows that meet count together what one window over both of them counts. -/
theorem countP_contains_add {a b c : Instant} (hab : a ≤ b) (hbc : b ≤ c) (plays : List Instant) :
    plays.countP (contains ⟨a, b⟩) + plays.countP (contains ⟨b, c⟩) =
      plays.countP (contains ⟨a, c⟩) := by
  rw [Instant.le_iff] at hab hbc
  induction plays with
  | nil => rfl
  | cons t rest ih =>
    have hsplit : (if contains ⟨a, b⟩ t = true then 1 else 0) +
        (if contains ⟨b, c⟩ t = true then 1 else 0) =
          if contains ⟨a, c⟩ t = true then 1 else 0 := by
      simp only [contains_iff, Instant.le_iff, Instant.lt_iff]
      split_ifs <;> omega
    simp only [List.countP_cons]
    omega

/-- A row of windows, each beginning where the one before stops. -/
theorem countP_contains_row {d : Nat → Date} {n : Nat}
    (hd : ∀ j < n, (d j).day ≤ (d (j + 1)).day) (plays : List Instant) :
    plays.countP (contains ⟨.midnight (d 0), .midnight (d n)⟩) =
      ∑ j ∈ Finset.range n,
        plays.countP (contains ⟨.midnight (d j), .midnight (d (j + 1))⟩) := by
  induction n with
  | zero =>
    rw [Finset.range_zero, Finset.sum_empty, List.countP_eq_zero]
    intro t _ ht
    simp only [contains_iff, Instant.le_iff, Instant.lt_iff] at ht
    omega
  | succ n ih =>
    have hrow : ∀ m ≤ n, (d 0).day ≤ (d m).day := by
      intro m hm
      induction m with
      | zero => exact le_rfl
      | succ m ihm => exact (ihm (by omega)).trans (hd m (by omega))
    rw [Finset.sum_range_succ, ← ih fun j hj ↦ hd j (by omega)]
    exact (countP_contains_add (Instant.midnight_le_iff.2 (hrow n le_rfl))
      (Instant.midnight_le_iff.2 (hd n (by omega))) plays).symm

end Window

theorem Token.evaluate_range (w : Window) (record : Record) (c : Context) :
    (Token.range w).evaluate record c = .count (record.events.countP w.contains : Nat) := rfl

/-! ### Windows of whole periods -/

/-- The date on which a period begins, where the calendar has it. -/
def Calendar.Period.dateAt (p : Period) (weekStart : Weekday) (i : Int) : Date :=
  (Date.ofDay? (p.firstDay weekStart i)).getD .first

/-- Between two periods that begin inside the calendar, all do. -/
theorem Calendar.Period.day_dateAt {p : Period} {weekStart : Weekday} {a b : Date} {i j m : Int}
    (ha : a.day = p.firstDay weekStart i) (hb : b.day = p.firstDay weekStart m) (hij : i ≤ j)
    (hjm : j ≤ m) : (p.dateAt weekStart j).day = p.firstDay weekStart j := by
  have hlow : p.firstDay weekStart i ≤ p.firstDay weekStart j := firstDay_le_firstDay hij
  have hhigh : p.firstDay weekStart j ≤ p.firstDay weekStart m := firstDay_le_firstDay hjm
  have hfirst := a.inCalendar.1
  have hlast := b.inCalendar.2
  have hin : Calendar.firstDay ≤ p.firstDay weekStart j ∧ p.firstDay weekStart j ≤ lastDay := by
    omega
  rw [dateAt, Date.ofDay?, dif_pos hin]
  rfl

/-- Between the first days of two periods, the ranges of the single periods exist and count together
what the window between the two days counts. -/
theorem Token.exists_periodWindows {r : Reference} {p : Period} {text : String} {k n : Int}
    {a b : Date} (hnow : firstDay + 7 ≤ r.now.date.day)
    (ha : a.day = p.firstDay r.weekStart (p.current r + k))
    (hb : b.day = p.firstDay r.weekStart (p.current r + k + n)) (hn : 0 < n) :
    ∃ units : Nat → Window,
      (∀ j < n.toNat, (Expr.relative p.anchor (some ⟨k + j, none⟩) none).resolve text r =
        .ok (.range (units j))) ∧
      ∀ plays : List Instant, plays.countP (Window.contains ⟨.midnight a, .midnight b⟩) =
        ∑ j ∈ Finset.range n.toNat, plays.countP (units j).contains := by
  let d : Nat → Date := fun j ↦ p.dateAt r.weekStart (p.current r + k + j)
  have hd : ∀ j ≤ n.toNat, (d j).day = p.firstDay r.weekStart (p.current r + k + j) :=
    fun j hj ↦ Period.day_dateAt ha hb (by omega) (by omega)
  refine ⟨fun j ↦ ⟨.midnight (d j), .midnight (d (j + 1))⟩, fun j hj ↦ ?_, fun plays ↦ ?_⟩
  · have hunit : Amount.Counts p.span 0 (k + j) (some ⟨k + j, none⟩) := .inr ⟨none, rfl, rfl⟩
    refine (resolve_anchor_eq_ok_iff hnow hunit (.inl ⟨rfl, rfl⟩)).2
      ⟨one_pos, d j, d (j + 1), ?_, ?_, rfl⟩
    · rw [hd j (by omega), Int.add_assoc]
    · rw [hd (j + 1) (by omega), Int.add_assoc, Int.add_assoc, Int.add_assoc]
      rfl
  · have hrow : ∀ j < n.toNat, (d j).day ≤ (d (j + 1)).day := by
      intro j hj
      rw [hd j (by omega), hd (j + 1) (by omega)]
      exact Period.firstDay_le_firstDay (by omega)
    have hfirst : d 0 = a := Date.ext_day (by rw [hd 0 (by omega), ha]; simp)
    have hlast : d n.toNat = b := by
      refine Date.ext_day ?_
      rw [hd _ le_rfl, hb, Int.toNat_of_nonneg (by omega)]
    have hcount := Window.countP_contains_row hrow plays
    rw [hfirst, hlast] at hcount
    exact hcount

/-- A range from the beginning of the current period, shifted by `k` and `n` long in the unit of its
anchor: it holds the instants of exactly the periods from the `k`-th on, `n` of them; the range that
is shifted by `k + n` begins where it stops; and for every record it counts the sum of what the
ranges of its single periods count, all of which exist. -/
theorem anchorWindow_wholePeriods {r : Reference} {p : Period} {text : String}
    {shift length : Option Token.Amount} {k n : Int} {w : Window}
    (hnow : firstDay + 7 ≤ r.now.date.day) (hshift : Token.Amount.Counts p.span 0 k shift)
    (hlength : Token.Amount.Counts p.span 1 n length)
    (h : (Token.Expr.relative p.anchor shift length).resolve text r = .ok (.range w)) :
    (∀ t, w.contains t = true ↔ p.current r + k ≤ p.index r.weekStart t.date ∧
      p.index r.weekStart t.date < p.current r + k + n) ∧
    (∀ shift' length' m w', Token.Amount.Counts p.span 0 (k + n) shift' →
      Token.Amount.Counts p.span 1 m length' →
      (Token.Expr.relative p.anchor shift' length').resolve text r = .ok (.range w') →
      w'.start = w.stop) ∧
    ∃ units : Nat → Window,
      (∀ j < n.toNat, (Token.Expr.relative p.anchor (some ⟨k + j, none⟩) none).resolve text r =
        .ok (.range (units j))) ∧
      ∀ record c, (Token.range w).evaluate record c = .count
        (∑ j ∈ Finset.range n.toNat, ((Token.range (units j)).evaluate record c).number) := by
  obtain ⟨hn, a, b, ha, hb, rfl⟩ := (Token.resolve_anchor_eq_ok_iff hnow hshift hlength).1 h
  refine ⟨fun t ↦ ?_, fun shift' length' m w' hshift' hlength' h' ↦ ?_, ?_⟩
  · rw [Window.contains_iff, Instant.midnight_le_iff, Instant.lt_midnight_iff, ha, hb,
      Period.firstDay_le_iff, Period.lt_firstDay_iff]
  · obtain ⟨_, a', _, ha', _, rfl⟩ :=
      (Token.resolve_anchor_eq_ok_iff hnow hshift' hlength').1 h'
    have hsame : a' = b := Date.ext_day (by rw [ha', hb, Int.add_assoc])
    rw [hsame]
  · obtain ⟨units, hunits, hcount⟩ := Token.exists_periodWindows hnow ha hb hn
    refine ⟨units, hunits, fun record c ↦ ?_⟩
    rw [Token.evaluate_range, hcount]
    congr 1
    exact Nat.cast_sum _ _

/-- On 29 February 2024 the token `month-14,3m` stands for the months from December 2022 to
February 2023. -/
theorem anchorWindow_wholePeriods_winter :
    let r : Reference := ⟨.midnight ⟨yearStart 2024 + 59, by decide⟩, .monday⟩
    ∃ w, (Token.Expr.relative .month (some ⟨-14, none⟩) (some ⟨3, some .month⟩)).resolve
        "month-14,3m" r = .ok (.range w) ∧
      (∀ t, w.contains t = true ↔
        12 * 2022 + 11 ≤ t.date.monthIndex ∧ t.date.monthIndex < 12 * 2023 + 2) := by
  intro r
  have hnow : firstDay + 7 ≤ r.now.date.day := by decide
  have hshift : Token.Amount.Counts Period.month.span 0 (-14) (some ⟨-14, none⟩) :=
    .inr ⟨none, rfl, rfl⟩
  have hlength : Token.Amount.Counts Period.month.span 1 3 (some ⟨3, some .month⟩) :=
    .inr ⟨some .month, rfl, rfl⟩
  obtain ⟨w, hresolve⟩ : ∃ w, (Token.Expr.relative Period.month.anchor (some ⟨-14, none⟩)
      (some ⟨3, some .month⟩)).resolve "month-14,3m" r = .ok (.range w) :=
    ⟨_, (Token.resolve_anchor_eq_ok_iff hnow hshift hlength).2
      ⟨by decide, ⟨yearStart 2022 + 334, by decide⟩, ⟨yearStart 2023 + 59, by decide⟩, by decide,
        by decide, rfl⟩⟩
  have hcurrent : Period.month.current r = 12 * 2024 + 1 := by decide
  have hcontains := (anchorWindow_wholePeriods hnow hshift hlength hresolve).1
  rw [hcurrent] at hcontains
  exact ⟨w, hresolve, hcontains⟩

end Jukebox
