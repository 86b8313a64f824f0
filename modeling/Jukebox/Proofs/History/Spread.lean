import Jukebox.History.Prehistory
import Jukebox.Proofs.Calendar.Months
import Jukebox.Proofs.Calendar.Timeline

/-!
# Plays spread before a floor

Inferred plays start at `spreadStart` and follow at even distances, the play with number `i` being
`spreadOffset` nanoseconds after the first. `StartPlace` says where the start can be: before the
floor, in the leap second of the year before it, or at the sentinel where the year before the floor
is not in the calendar.

Two things can go wrong. Where the floor lies in the first year of the calendar there is no room
before it. And where the floor lies in a leap second, the distance from the start counts that
second, while a play which is no leap second goes on into the next one (`RunsPast`); at the end of
the calendar such plays are lost. `length_spread_eq_iff` and `forall_mem_spread_lt_iff` say that
nothing else does.
-/

set_option autoImplicit false
set_option relaxedAutoImplicit false

namespace Jukebox

open Calendar

namespace Calendar.Instant

/-! ### A year before -/

/-- The year before an instant is missing exactly in the first year of the calendar. -/
theorem shift_year_before_eq_none_iff {t : Instant} :
    t.shift (-1) .year = none ↔ t.year = firstYear := by
  have hfirst := t.date.firstYear_le_year
  have hlast := t.date.year_le_lastYear
  have hindex := t.date.monthIndex_div
  rw [shift, addMonths, Option.map_eq_none_iff, Date.addMonths_eq_none_iff, year]
  omega

/-- The instant a year before comes on an earlier day, at the same time of day. -/
theorem shift_year_before {t u : Instant} (h : t.shift (-1) .year = some u) :
    u.date.day < t.date.day ∧ u.second = t.second ∧ u.nano = t.nano := by
  rw [shift, addMonths, Option.map_eq_some_iff] at h
  obtain ⟨d, hd, rfl⟩ := h
  have hindex := Date.monthIndex_addMonths hd
  have hearlier : d.monthIndex < t.date.monthIndex := by omega
  exact ⟨Date.day_lt_day_of_monthIndex_lt hearlier, rfl, rfl⟩

end Calendar.Instant

namespace History

/-! ### Where plays start -/

/-- The places of a start relative to the floor. -/
inductive StartPlace (floor : Instant) : Instant → Prop
  /-- At the import, or a year before the floor, outside leap seconds. -/
  | before {start : Instant} (hleap : ¬ start.isLeap) (hlt : start < floor)
      (hyear : floor.year ≠ firstYear) : StartPlace floor start
  /-- A year before a floor in a leap second. -/
  | leapYearBefore {start : Instant} (hleap : start.isLeap) (hday : start.date.day < floor.date.day)
      (hsecond : start.second = floor.second) (hnano : start.nano = floor.nano)
      (hyear : floor.year ≠ firstYear) : StartPlace floor start
  /-- At the sentinel, far behind a floor in the first year of the calendar. -/
  | sentinel (hyear : floor.year = firstYear) : StartPlace floor sentinel

theorem year_ne_firstYear_of_sentinel_le {t : Instant} (h : sentinel ≤ t) : t.year ≠ firstYear := by
  intro hyear
  have hnext := lt_yearStart_yearOf_succ t.date.day
  have hday := Instant.midnight_le_iff.1 h
  have hbound : yearStart (firstYear + 1) ≤ yearStart 2000 := by decide
  rw [Instant.year, Date.year] at hyear
  rw [hyear] at hnext
  change yearStart 2000 ≤ t.date.day at hday
  omega

/-- Before it is compared with the floor, the start is the import or the sentinel, and not before
this one. -/
theorem exists_spreadStart_eq {imported : Option Instant} (floor : Instant) {P : Instant → Prop}
    (hsentinel : P sentinel) (himported : ∀ t, imported = some t → P t) :
    ∃ start : Instant, P start ∧ sentinel ≤ start ∧ spreadStart imported floor =
      if floor ≤ start then (floor.shift (-1) .year).getD sentinel else start := by
  cases imported with
  | none => exact ⟨sentinel, hsentinel, Int.le_refl _, rfl⟩
  | some t =>
    refine ⟨t.later sentinel, ?_, ?_, rfl⟩
    · unfold Instant.later
      split
      · exact hsentinel
      · exact himported t rfl
    · unfold Instant.later
      split
      · exact Int.le_refl _
      · rename_i hlater
        exact Int.le_of_lt (Int.not_le.1 hlater)

/-- The year before the floor, or the sentinel. -/
theorem startPlace_year_before (floor : Instant) :
    StartPlace floor ((floor.shift (-1) .year).getD sentinel) := by
  cases hback : floor.shift (-1) .year with
  | none => exact .sentinel (Instant.shift_year_before_eq_none_iff.1 hback)
  | some u =>
    obtain ⟨hday, hsecond, hnano⟩ := Instant.shift_year_before hback
    have hyear : floor.year ≠ firstYear := by
      intro hfirst
      rw [Instant.shift_year_before_eq_none_iff.2 hfirst] at hback
      cases hback
    by_cases hleap : u.isLeap
    · exact .leapYearBefore hleap hday hsecond hnano hyear
    · refine .before hleap ?_ hyear
      have hlate := u.second_lt
      have hlate' := u.nano_lt
      simp only [Instant.lt_iff, Instant.rank, Option.getD_some]
      omega

theorem startPlace_spreadStart {imported : Option Instant} (floor : Instant)
    (himported : ∀ t, imported = some t → ¬ t.isLeap) :
    StartPlace floor (spreadStart imported floor) := by
  obtain ⟨start, hleap, hsentinel, hstart⟩ :=
    exists_spreadStart_eq (P := fun t ↦ ¬ t.isLeap) floor (by decide) himported
  rw [hstart]
  split
  · exact startPlace_year_before floor
  · rename_i hlt
    have hbefore : start < floor := Int.not_le.1 hlt
    exact .before hleap hbefore
      (year_ne_firstYear_of_sentinel_le (Int.le_trans hsentinel (Int.le_of_lt hbefore)))

/-! ### Distances -/

/-- How many nanoseconds after the first play the play with number `i` comes. -/
def spreadOffset (start floor : Instant) (count i : Nat) : Int :=
  spreadStep start floor count * i * 1000000

theorem spreadOffset_zero (start floor : Instant) (count : Nat) :
    spreadOffset start floor count 0 = 0 := by
  simp [spreadOffset]

/-- The steps into which a duration of whole milliseconds is cut fit into it. -/
theorem tdiv_steps_le {d : Int} {count i : Nat} (hi : i < count) (hd : 0 ≤ d) :
    0 ≤ (d.tdiv 1000000).tdiv count ∧ 0 ≤ (d.tdiv 1000000).tdiv count * i * 1000000 ∧
      (d.tdiv 1000000).tdiv count * i * 1000000 + (d.tdiv 1000000).tdiv count * 1000000 ≤ d := by
  have hmillis : 0 ≤ d.tdiv 1000000 := Int.tdiv_nonneg hd (by decide)
  have hnanos : 1000000 * d.tdiv 1000000 ≤ d := Int.mul_tdiv_self_le hd
  have hstep : 0 ≤ (d.tdiv 1000000).tdiv count := Int.tdiv_nonneg hmillis (by omega)
  have htotal : (count : Int) * (d.tdiv 1000000).tdiv count ≤ d.tdiv 1000000 :=
    Int.mul_tdiv_self_le hmillis
  have hnext : (d.tdiv 1000000).tdiv count * ((i : Int) + 1) ≤
      (d.tdiv 1000000).tdiv count * count :=
    Int.mul_le_mul_of_nonneg_left (by omega) hstep
  have hoffset : 0 ≤ (d.tdiv 1000000).tdiv count * i := Int.mul_nonneg hstep (by omega)
  rw [Int.mul_add, Int.mul_one] at hnext
  rw [Int.mul_comm] at htotal
  omega

/-- From a start before the floor, the plays and one more step fit into the time up to the floor. -/
theorem spreadOffset_bounds {start floor : Instant} {count i : Nat} (hi : i < count)
    (hsince : 0 ≤ floor.since start) :
    0 ≤ spreadStep start floor count ∧ 0 ≤ spreadOffset start floor count i ∧
      spreadOffset start floor count i + spreadStep start floor count * 1000000 ≤
        floor.since start :=
  tdiv_steps_le hi hsince

/-- From a start behind the floor, the plays run backwards and do not pass the floor. -/
theorem spreadOffset_bounds_of_nonpos {start floor : Instant} {count i : Nat} (hi : i < count)
    (hsince : floor.since start ≤ 0) :
    floor.since start ≤ spreadOffset start floor count i ∧
      spreadOffset start floor count i ≤ 0 := by
  have hsteps := tdiv_steps_le (d := -floor.since start) hi (by omega)
  rw [Int.neg_tdiv, Int.neg_tdiv, Int.neg_mul, Int.neg_mul, Int.neg_mul] at hsteps
  simp only [spreadOffset, spreadStep]
  omega

theorem spreadOffset_mono {start floor : Instant} {count i j : Nat} (hij : i ≤ j) (hj : j < count)
    (hsince : 0 ≤ floor.since start) :
    spreadOffset start floor count i ≤ spreadOffset start floor count j := by
  have hstep := (spreadOffset_bounds hj hsince).1
  have hmul : spreadStep start floor count * i ≤ spreadStep start floor count * j :=
    Int.mul_le_mul_of_nonneg_left (by omega) hstep
  simp only [spreadOffset]
  omega

/-! ### The time up to the floor -/

/-- From a start outside leap seconds the time is not negative, and a leap second of the floor may
count less, but never more. -/
theorem since_bounds {start floor : Instant} (hleap : ¬ start.isLeap) (hlt : start < floor) :
    0 ≤ floor.since start ∧ floor.since start ≤ floor.timeline - start.timeline := by
  have hsecond := start.second_lt
  have hfloor := floor.leap_second
  rw [Instant.not_isLeap_iff] at hleap
  simp only [Instant.lt_iff, Instant.rank] at hlt
  simp only [Instant.since, Instant.timeline, Instant.isLeap_iff]
  split_ifs <;> omega

theorem since_eq_of_second_eq {start floor : Instant} (hsecond : start.second = floor.second) :
    floor.since start = floor.timeline - start.timeline := by
  simp [Instant.since, hsecond]

/-! ### Plays in their place -/

theorem mem_spread_iff {imported : Option Instant} {count : Nat} {floor t : Instant} :
    t ∈ spread imported count floor ↔ ∃ i < count, (spreadStart imported floor).plus
      (spreadOffset (spreadStart imported floor) floor count i) = some t := by
  simp only [spread, List.mem_filterMap, List.mem_range]
  rfl

theorem length_spread_eq_iff_forall {imported : Option Instant} {count : Nat} {floor : Instant} :
    (spread imported count floor).length = count ↔ ∀ i < count, ∃ t,
      (spreadStart imported floor).plus
        (spreadOffset (spreadStart imported floor) floor count i) = some t := by
  have hlength := List.filterMap_length_eq_length (l := List.range count) (f := fun i : Nat ↦
    (spreadStart imported floor).plus
      (spreadStep (spreadStart imported floor) floor count * i * 1000000))
  rw [List.length_range] at hlength
  simp only [List.mem_range, Option.isSome_iff_exists] at hlength
  exact hlength

/-- Where the second of an instant ends on the timeline. A leap second is part of the second that
it extends, and plays which are no leap seconds know only that second. -/
def secondEnd (t : Instant) : Int := (t.date.day * 86400 + t.second + 1) * 1000000000

/-- The instant lies in the last second of the calendar, or in the leap second that extends it. -/
def EndsCalendar (t : Instant) : Prop := t.date = Date.last ∧ t.second = 86399

/-- The floor lies in a leap second, the start does not, and the last play comes behind it. -/
def RunsPast (imported : Option Instant) (count : Nat) (floor : Instant) : Prop :=
  floor.isLeap ∧ ¬ (spreadStart imported floor).isLeap ∧
    secondEnd floor ≤ (spreadStart imported floor).timeline +
      spreadOffset (spreadStart imported floor) floor count (count - 1)

section Before

variable {start floor : Instant} {count i : Nat}

/-- A play that comes before the end of the floor's second is a play before the floor. -/
theorem exists_plus_lt_floor (hleap : ¬ start.isLeap) (hlt : start < floor) (hi : i < count)
    (hin : start.timeline + spreadOffset start floor count i < secondEnd floor) :
    ∃ t, start.plus (spreadOffset start floor count i) = some t ∧ t < floor := by
  have hoffset := spreadOffset_bounds hi (since_bounds hleap hlt).1
  have hfloor := floor.date.inCalendar
  have hsecond := floor.second_lt
  obtain ⟨t, ht⟩ : ∃ t, start.plus (spreadOffset start floor count i) = some t := by
    have hstart := start.date.inCalendar
    refine (Instant.exists_plus_eq_some_iff hleap).2 ⟨?_, ?_⟩
    · simp only [Instant.timeline]
      omega
    · simp only [secondEnd] at hin
      omega
  refine ⟨t, ht, ?_⟩
  obtain ⟨htime, htleap⟩ := Instant.timeline_of_plus hleap ht
  by_cases hfloorLeap : floor.isLeap
  · have htsecond := t.second_lt
    rw [Instant.isLeap_iff] at hfloorLeap
    rw [Instant.not_isLeap_iff] at htleap
    simp only [secondEnd] at hin
    simp only [Instant.timeline] at htime hin
    simp only [Instant.lt_iff, Instant.rank]
    omega
  · rw [Instant.lt_iff_timeline htleap hfloorLeap, htime]
    rcases Int.lt_or_eq_of_le hoffset.1 with hstep | hstep
    · have hsince := (since_bounds hleap hlt).2
      omega
    · have hzero : spreadOffset start floor count i = 0 := by
        rw [spreadOffset, ← hstep, Int.zero_mul, Int.zero_mul]
      rw [hzero, Int.add_zero]
      exact (Instant.lt_iff_timeline hleap hfloorLeap).1 hlt

/-- No play comes after the floor on the timeline, so only a leap second has plays behind it. -/
theorem isLeap_of_secondEnd_le (hleap : ¬ start.isLeap) (hlt : start < floor) (hi : i < count)
    (hout : secondEnd floor ≤ start.timeline + spreadOffset start floor count i) :
    start.timeline + spreadOffset start floor count i ≤ floor.timeline ∧ floor.isLeap := by
  have hsince := since_bounds hleap hlt
  have hoffset := spreadOffset_bounds hi hsince.1
  have htotal : start.timeline + spreadOffset start floor count i ≤ floor.timeline := by omega
  refine ⟨htotal, Instant.isLeap_iff.2 ?_⟩
  simp only [secondEnd] at hout
  simp only [Instant.timeline] at hout htotal
  omega

/-- If a play comes after the floor's second, then so does the last one. -/
theorem runsPast_of_secondEnd_le (hleap : ¬ start.isLeap) (hlt : start < floor) (hi : i < count)
    (hout : secondEnd floor ≤ start.timeline + spreadOffset start floor count i) :
    floor.isLeap ∧ ¬ start.isLeap ∧
      secondEnd floor ≤ start.timeline + spreadOffset start floor count (count - 1) := by
  have hmono := spreadOffset_mono (show i ≤ count - 1 by omega) (show count - 1 < count by omega)
    (since_bounds hleap hlt).1
  exact ⟨(isLeap_of_secondEnd_le hleap hlt hi hout).2, hleap, by omega⟩

/-- At the end of the calendar a play that comes after the floor's second is lost. -/
theorem plus_eq_none_of_endsCalendar (hleap : ¬ start.isLeap) (hends : EndsCalendar floor)
    (hout : secondEnd floor ≤ start.timeline + spreadOffset start floor count i) :
    start.plus (spreadOffset start floor count i) = none := by
  rw [← Option.not_isSome_iff_eq_none, Option.isSome_iff_exists]
  intro hplace
  have hin := ((Instant.exists_plus_eq_some_iff hleap).1 hplace).2
  have hlast : floor.date.day = lastDay := congrArg Date.day hends.1
  have hlate := hends.2
  simp only [secondEnd] at hout
  omega

/-- Anywhere else it is a play that does not come before the floor. -/
theorem exists_plus_not_lt_floor (hleap : ¬ start.isLeap) (hlt : start < floor) (hi : i < count)
    (hends : ¬ EndsCalendar floor)
    (hout : secondEnd floor ≤ start.timeline + spreadOffset start floor count i) :
    ∃ t, start.plus (spreadOffset start floor count i) = some t ∧ ¬ t < floor := by
  obtain ⟨htotal, hfloorLeap⟩ := isLeap_of_secondEnd_le hleap hlt hi hout
  have hfloor := floor.date.inCalendar
  have hsecond := floor.second_lt
  have hnano := floor.nano_lt
  have hminute := floor.leap_second (Instant.isLeap_iff.1 hfloorLeap)
  have hearly : floor.date.day * 86400 + floor.second < lastDay * 86400 + 86399 := by
    by_contra hlate
    exact hends ⟨Date.ext_day (show floor.date.day = lastDay by omega), by omega⟩
  obtain ⟨t, ht⟩ : ∃ t, start.plus (spreadOffset start floor count i) = some t := by
    refine (Instant.exists_plus_eq_some_iff hleap).2 ⟨?_, Int.lt_of_le_of_lt htotal ?_⟩
    · simp only [secondEnd] at hout
      omega
    · simp only [Instant.timeline]
      omega
  refine ⟨t, ht, ?_⟩
  obtain ⟨htime, htleap⟩ := Instant.timeline_of_plus hleap ht
  have htsecond := t.second_lt
  rw [Instant.not_isLeap_iff] at htleap
  simp only [secondEnd] at hout
  simp only [Instant.timeline] at htime hout
  simp only [Instant.lt_iff, Instant.rank]
  omega

end Before

/-- From a leap second a year before the floor, all plays come before the floor. -/
theorem exists_plus_of_leapYearBefore {start floor : Instant} {count i : Nat} (hi : i < count)
    (hleap : start.isLeap) (hday : start.date.day < floor.date.day)
    (hsecond : start.second = floor.second) (hnano : start.nano = floor.nano) :
    ∃ t, start.plus (spreadOffset start floor count i) = some t ∧ t < floor := by
  have hsince := since_eq_of_second_eq hsecond
  have hlate := start.second_lt
  have hlate' := start.nano_lt
  have hnonneg : 0 ≤ floor.since start := by
    rw [hsince]
    simp only [Instant.timeline]
    omega
  have hoffset := spreadOffset_bounds hi hnonneg
  have hstart := start.date.inCalendar
  have hfloor := floor.date.inCalendar
  rw [Instant.isLeap_iff] at hleap
  rw [Instant.plus, dif_neg (by omega)]
  by_cases hstay : start.nano + spreadOffset start floor count i < 2000000000
  · rw [dif_pos ⟨by omega, hstay⟩]
    refine ⟨_, rfl, ?_⟩
    simp only [Instant.lt_iff, Instant.rank]
    omega
  · rw [dif_neg (by omega), if_pos (by omega)]
    obtain ⟨t, ht⟩ : ∃ t, Instant.ofTimeline? (start.timeline - 1000000000 +
        spreadOffset start floor count i) = some t := by
      refine Instant.exists_ofTimeline?_iff.2 ?_
      simp only [Instant.timeline] at hsince ⊢
      omega
    obtain ⟨htime, htnano⟩ := Instant.ofTimeline?_eq_some_iff.1 ht
    have htsecond := t.second_lt
    refine ⟨t, ht, ?_⟩
    simp only [Instant.timeline] at htime hsince
    simp only [Instant.lt_iff, Instant.rank]
    omega

/-- From the sentinel, plays run back towards a floor in the first year and stay in the calendar. -/
theorem exists_plus_of_sentinel {floor : Instant} {count i : Nat} (hi : i < count)
    (hyear : floor.year = firstYear) :
    ∃ t, sentinel.plus (spreadOffset sentinel floor count i) = some t := by
  have hday : floor.date.day < yearStart (firstYear + 1) := by
    rw [← hyear]
    exact lt_yearStart_yearOf_succ floor.date.day
  have hfar : yearStart (firstYear + 1) + 1 < yearStart 2000 := by decide
  have htime : sentinel.timeline = yearStart 2000 * 86400000000000 := by decide
  have hsecond := floor.second_lt
  have hnano := floor.nano_lt
  have hfloor := floor.date.inCalendar
  have hlast : yearStart 2000 < lastDay := by decide
  have hsince : floor.since sentinel = floor.timeline - sentinel.timeline := by
    simp [Instant.since, sentinel, Instant.midnight, Instant.isLeap]
  have hnonpos : floor.since sentinel ≤ 0 := by
    rw [hsince, htime]
    simp only [Instant.timeline]
    omega
  have hoffset := spreadOffset_bounds_of_nonpos hi hnonpos
  refine (Instant.exists_plus_eq_some_iff (by decide)).2 ?_
  rw [hsince, htime] at hoffset
  rw [htime]
  simp only [Instant.timeline] at hoffset
  omega

theorem not_endsCalendar_of_firstYear {t : Instant} (h : t.year = firstYear) :
    ¬ EndsCalendar t := by
  rintro ⟨hlast, _⟩
  rw [Instant.year, hlast] at h
  exact absurd h (by decide)

section Main

variable {imported : Option Instant} {count : Nat} {floor : Instant}

/-- All plays are in the calendar, unless the last one runs past a floor that ends it. -/
theorem length_spread_eq_iff (hcount : 0 < count)
    (himported : ∀ t, imported = some t → ¬ t.isLeap) :
    (spread imported count floor).length = count ↔
      ¬ (RunsPast imported count floor ∧ EndsCalendar floor) := by
  have hplace := startPlace_spreadStart floor himported
  rw [length_spread_eq_iff_forall, RunsPast]
  generalize spreadStart imported floor = start at *
  cases hplace with
  | before hleap hlt _ =>
    constructor
    · rintro hall ⟨⟨_, _, hpast⟩, hends⟩
      obtain ⟨t, ht⟩ := hall (count - 1) (by omega)
      rw [plus_eq_none_of_endsCalendar hleap hends hpast] at ht
      cases ht
    · intro hnot i hi
      by_cases hin : start.timeline + spreadOffset start floor count i < secondEnd floor
      · obtain ⟨t, ht, _⟩ := exists_plus_lt_floor hleap hlt hi hin
        exact ⟨t, ht⟩
      · rw [Int.not_lt] at hin
        have hends : ¬ EndsCalendar floor :=
          fun hends ↦ hnot ⟨runsPast_of_secondEnd_le hleap hlt hi hin, hends⟩
        obtain ⟨t, ht, _⟩ := exists_plus_not_lt_floor hleap hlt hi hends hin
        exact ⟨t, ht⟩
  | leapYearBefore hleap hday hsecond hnano _ =>
    refine iff_of_true (fun i hi ↦ ?_) fun h ↦ h.1.2.1 hleap
    obtain ⟨t, ht, _⟩ := exists_plus_of_leapYearBefore hi hleap hday hsecond hnano
    exact ⟨t, ht⟩
  | sentinel hyear =>
    exact iff_of_true (fun i hi ↦ exists_plus_of_sentinel hi hyear)
      fun h ↦ not_endsCalendar_of_firstYear hyear h.2

/-- All plays come before the floor, unless it lies in the first year of the calendar or the last
play runs past it and is in the calendar. -/
theorem forall_mem_spread_lt_iff (hcount : 0 < count)
    (himported : ∀ t, imported = some t → ¬ t.isLeap) :
    (∀ t ∈ spread imported count floor, t < floor) ↔
      floor.year ≠ firstYear ∧ (RunsPast imported count floor → EndsCalendar floor) := by
  have hplace := startPlace_spreadStart floor himported
  simp only [mem_spread_iff, RunsPast]
  generalize spreadStart imported floor = start at *
  cases hplace with
  | before hleap hlt hyear =>
    constructor
    · refine fun hall ↦ ⟨hyear, fun ⟨_, _, hpast⟩ ↦ ?_⟩
      by_contra hends
      obtain ⟨t, ht, hlate⟩ := exists_plus_not_lt_floor hleap hlt (by omega) hends hpast
      exact hlate (hall t ⟨count - 1, by omega, ht⟩)
    · rintro ⟨_, hends⟩ t ⟨i, hi, ht⟩
      by_cases hin : start.timeline + spreadOffset start floor count i < secondEnd floor
      · obtain ⟨u, hu, hbefore⟩ := exists_plus_lt_floor hleap hlt hi hin
        rw [hu] at ht
        cases ht
        exact hbefore
      · rw [Int.not_lt] at hin
        have hlast := hends (runsPast_of_secondEnd_le hleap hlt hi hin)
        rw [plus_eq_none_of_endsCalendar hleap hlast hin] at ht
        cases ht
  | leapYearBefore hleap hday hsecond hnano hyear =>
    refine iff_of_true ?_ ⟨hyear, fun h ↦ absurd hleap h.2.1⟩
    rintro t ⟨i, hi, ht⟩
    obtain ⟨u, hu, hbefore⟩ := exists_plus_of_leapYearBefore hi hleap hday hsecond hnano
    rw [hu] at ht
    cases ht
    exact hbefore
  | sentinel hyear =>
    refine iff_of_false (fun hall ↦ ?_) fun h ↦ h.1 hyear
    have hfirst : sentinel.plus (spreadOffset sentinel floor count 0) = some sentinel := by
      rw [spreadOffset_zero, Instant.plus_of_not_leap (by decide), Int.add_zero]
      exact Instant.ofTimeline?_eq_some_iff.2 ⟨rfl, by decide⟩
    have hlt := hall sentinel ⟨0, hcount, hfirst⟩
    exact year_ne_firstYear_of_sentinel_le (Int.le_of_lt hlt) hyear

end Main

end History

end Jukebox
