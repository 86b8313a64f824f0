import Jukebox.Proofs.Calendar.Shift
import Jukebox.Proofs.History.Spread

/-!
# Plays at even distances

The start that is sought for inferred plays comes before the floor and is missing only where the
floor lies in the first year of the calendar (`soughtStart_lt`, `spreadStart_lt_or`).

Whatever the start, leap seconds included, the additions that give the plays go on from its
`restart` and end with the calendar (`exists_plus_onward_iff`). As they are made within the time up
to the floor, a play is lost only if the floor is in the leap second at the end of the calendar
(`length_spread_eq_iff_restart`). Outside leap seconds the plays are an arithmetic sequence on the
timeline (`spread_evenly`).
-/

set_option autoImplicit false
set_option relaxedAutoImplicit false

namespace Jukebox

open Calendar

/-! ### Additions forwards -/

namespace Calendar.Instant

/-- The place on the timeline from which additions go on that leave the second of an instant: a leap
second repeats the second before it. -/
def restart (t : Instant) : Int :=
  (t.date.day * 86400 + t.second) * 1000000000 + (t.nano % 1000000000 : Nat)

theorem restart_of_not_leap {t : Instant} (ht : ¬ t.isLeap) : t.restart = t.timeline := by
  rw [not_isLeap_iff] at ht
  rw [restart, timeline, Nat.mod_eq_of_lt ht]

theorem restart_of_leap {t : Instant} (ht : t.isLeap) : t.restart + 1000000000 = t.timeline := by
  have hnano := t.nano_lt
  rw [isLeap_iff] at ht
  rw [restart, timeline]
  omega

theorem restart_le_last (t : Instant) : t.restart ≤ last.timeline := by
  have hlast := last_timeline
  have hday := t.date.inCalendar
  have hsecond := t.second_lt
  rw [restart]
  omega

/-- Only the end of the calendar stops additions that do not lead back before the second of an
instant. -/
theorem exists_plus_onward_iff {t : Instant} {nanos : Int}
    (h : 0 ≤ nanos ∨ t.isLeap ∧ -1000000000 < nanos) :
    (∃ u, t.plus nanos = some u) ↔ t.restart + nanos ≤ last.timeline := by
  have hlast := last_timeline
  have hday := t.date.inCalendar
  have hsecond := t.second_lt
  have hnano := t.nano_lt
  have htime : t.timeline = (t.date.day * 86400 + t.second) * 1000000000 + t.nano := rfl
  by_cases ht : t.isLeap
  · have hrestart := restart_of_leap ht
    rw [isLeap_iff] at ht
    rw [plus, dif_neg (by omega)]
    by_cases hstay : t.nano + nanos < 2000000000
    · rw [dif_pos ⟨by omega, hstay⟩]
      exact iff_of_true ⟨_, rfl⟩ (by omega)
    · rw [dif_neg (by omega), if_pos (by omega), exists_ofTimeline?_iff]
      omega
  · have hforth := h.resolve_right fun hback ↦ ht hback.1
    rw [exists_plus_eq_some_iff ht, restart_of_not_leap ht]
    omega

end Calendar.Instant

namespace History

open Instant

variable {imported : Option Instant} {start floor : Instant} {count i : Nat}

/-! ### The start that is sought -/

/-- The import, not before the sentinel; a year before the floor if that is not before it. -/
def soughtStart? (imported : Option Instant) (floor : Instant) : Option Instant :=
  let raised := (imported.getD sentinel).later sentinel
  if floor ≤ raised then floor.shift (-1) .year else some raised

theorem spreadStart_eq_getD (imported : Option Instant) (floor : Instant) :
    spreadStart imported floor = (soughtStart? imported floor).getD sentinel := by
  cases imported with
  | none =>
    have hself : sentinel.later sentinel = sentinel := ite_self _
    simp only [spreadStart, soughtStart?, Option.getD_none, hself]
    split <;> rfl
  | some t =>
    simp only [spreadStart, soughtStart?, Option.getD_some]
    split <;> rfl

theorem spreadStart_of_soughtStart (h : soughtStart? imported floor = some start) :
    spreadStart imported floor = start := by
  rw [spreadStart_eq_getD, h, Option.getD_some]

theorem soughtStart_lt (h : soughtStart? imported floor = some start) : start < floor := by
  simp only [soughtStart?] at h
  split at h
  · obtain ⟨hday, hsecond, hnano⟩ := shift_year_before h
    rw [lt_iff, rank, rank]
    omega
  · rename_i hbefore
    obtain rfl := Option.some.inj h
    exact Int.not_le.1 hbefore

/-- Plays start before the floor, or at the sentinel behind a floor in the first year. -/
theorem spreadStart_lt_or (imported : Option Instant) (floor : Instant) :
    spreadStart imported floor < floor ∨
      floor.year = firstYear ∧ spreadStart imported floor = sentinel := by
  rw [spreadStart_eq_getD]
  cases hsought : soughtStart? imported floor with
  | some start => exact .inl (soughtStart_lt hsought)
  | none =>
    refine .inr ⟨?_, rfl⟩
    simp only [soughtStart?] at hsought
    split at hsought
    · exact shift_year_before_eq_none_iff.1 hsought
    · cases hsought

/-! ### The number of plays -/

/-- The time up to the floor does not lead past it, and back into the past by less than the leap
second of the start. -/
theorem since_restart_bounds (h : start < floor) :
    start.restart + floor.since start ≤ floor.timeline ∧
      (0 ≤ floor.since start ∨ start.isLeap ∧ -1000000000 < floor.since start) := by
  by_cases hleap : start.isLeap
  · have hrestart := restart_of_leap hleap
    have hsecond := start.second_lt
    have hnano := start.nano_lt
    have hfloor := floor.second_lt
    have hfloorNano := floor.nano_lt
    simp only [lt_iff, rank] at h
    simp only [since, timeline, isLeap_iff] at *
    split_ifs <;> omega
  · have hsince := since_bounds hleap h
    rw [restart_of_not_leap hleap]
    exact ⟨by omega, .inl hsince.1⟩

/-- Behind the end of the calendar there are only the floors in its last leap second. -/
theorem endsCalendar_of_le_timeline (h : last.timeline < floor.timeline) :
    floor.isLeap ∧ EndsCalendar floor := by
  have hlast := last_timeline
  have hday := floor.date.inCalendar
  have hsecond := floor.second_lt
  have hnano := floor.nano_lt
  have hfloor : floor.timeline =
      (floor.date.day * 86400 + floor.second) * 1000000000 + floor.nano := rfl
  refine ⟨isLeap_iff.2 (by omega), Date.ext_day ?_, by omega⟩
  change floor.date.day = lastDay
  omega

/-- From a start before the floor, a play is in the calendar unless it comes behind its end. -/
theorem exists_play_iff (h : start < floor) (hi : i < count) :
    (∃ t, start.plus (spreadOffset start floor count i) = some t) ↔
      start.restart + spreadOffset start floor count i ≤ last.timeline := by
  have hplace : 0 ≤ spreadOffset start floor count i ∨
      start.isLeap ∧ -1000000000 < spreadOffset start floor count i := by
    by_cases hsince : 0 ≤ floor.since start
    · exact .inl (spreadOffset_bounds hi hsince).2.1
    · have hback := spreadOffset_bounds_of_nonpos hi (show floor.since start ≤ 0 by omega)
      have hbounds := (since_restart_bounds h).2.resolve_left hsince
      exact .inr ⟨hbounds.1, by omega⟩
  exact exists_plus_onward_iff hplace

/-- The last play comes behind the end of the calendar. -/
def LastPlayLost (imported : Option Instant) (count : Nat) (floor : Instant) : Prop :=
  let start := spreadStart imported floor
  last.timeline < start.restart + spreadOffset start floor count (count - 1)

/-- No play is lost before the last one. -/
theorem length_spread_eq_iff_restart (hcount : 0 < count) :
    (spread imported count floor).length = count ↔ ¬ LastPlayLost imported count floor := by
  rw [length_spread_eq_iff_forall, LastPlayLost]
  rcases spreadStart_lt_or imported floor with hlt | ⟨hyear, hsentinel⟩
  · generalize spreadStart imported floor = start at *
    constructor
    · intro hall
      have hplay := (exists_play_iff hlt (by omega)).1 (hall (count - 1) (by omega))
      omega
    · intro hlost i hi
      refine (exists_play_iff hlt hi).2 ?_
      have hend := start.restart_le_last
      by_cases hsince : 0 ≤ floor.since start
      · have hmono := spreadOffset_mono (show i ≤ count - 1 by omega)
          (show count - 1 < count by omega) hsince
        omega
      · have hback := spreadOffset_bounds_of_nonpos hi (show floor.since start ≤ 0 by omega)
        omega
  · rw [hsentinel]
    refine iff_of_true (fun i hi ↦ exists_plus_of_sentinel hi hyear) ?_
    obtain ⟨t, ht⟩ := exists_plus_of_sentinel (show count - 1 < count by omega) hyear
    obtain ⟨htime, htleap⟩ := timeline_of_plus (by decide) ht
    rw [restart_of_not_leap (by decide), ← htime, ← restart_of_not_leap htleap]
    exact Int.not_lt.2 t.restart_le_last

/-- Only where the floor is in the leap second at the end of the calendar is a play lost. -/
theorem endsCalendar_of_lastPlayLost (hcount : 0 < count)
    (h : LastPlayLost imported count floor) : floor.isLeap ∧ EndsCalendar floor := by
  rcases spreadStart_lt_or imported floor with hlt | ⟨hyear, hsentinel⟩
  · rw [LastPlayLost] at h
    have hrestart := (since_restart_bounds hlt).1
    by_cases hsince : 0 ≤ floor.since (spreadStart imported floor)
    · have hoffset := spreadOffset_bounds (show count - 1 < count by omega) hsince
      exact endsCalendar_of_le_timeline (by omega)
    · have hback := spreadOffset_bounds_of_nonpos (show count - 1 < count by omega)
        (show floor.since (spreadStart imported floor) ≤ 0 by omega)
      have hend := (spreadStart imported floor).restart_le_last
      omega
  · have hall : ∀ i < count, ∃ t, (spreadStart imported floor).plus
        (spreadOffset (spreadStart imported floor) floor count i) = some t := by
      rw [hsentinel]
      exact fun i hi ↦ exists_plus_of_sentinel hi hyear
    exact absurd h ((length_spread_eq_iff_restart hcount).1 (length_spread_eq_iff_forall.2 hall))

/-! ### The plays -/

/-- Where no play is lost, each has its place in the list. -/
theorem getElem?_spread (hlength : (spread imported count floor).length = count) (hi : i < count) :
    (spread imported count floor)[i]? = (spreadStart imported floor).plus
      (spreadOffset (spreadStart imported floor) floor count i) := by
  rw [length_spread_eq_iff_forall] at hlength
  have hplays : spread imported count floor = (List.range count).map fun i ↦
      ((spreadStart imported floor).plus
        (spreadOffset (spreadStart imported floor) floor count i)).getD sentinel := by
    rw [← List.filterMap_eq_map]
    refine List.filterMap_congr fun i hi ↦ ?_
    obtain ⟨t, ht⟩ := hlength i (List.mem_range.1 hi)
    rw [Function.comp_apply, ht]
    exact ht
  obtain ⟨t, ht⟩ := hlength i hi
  rw [hplays, List.getElem?_map, List.getElem?_range hi, Option.map_some, ht, Option.getD_some]

/-- Outside leap seconds the steps go by the time on the timeline. -/
theorem spreadStep_of_not_leap (hstart : ¬ start.isLeap) (hfloor : ¬ floor.isLeap)
    (h : start < floor) (count : Nat) :
    spreadStep start floor count = (floor.timeline - start.timeline) / 1000000 / count := by
  have hsince : floor.since start = floor.timeline - start.timeline := by
    simp [since, hstart, hfloor]
  have hnonneg := (since_bounds hstart h).1
  have hmillis : 0 ≤ floor.since start / 1000000 := Int.ediv_nonneg hnonneg (by decide)
  rw [spreadStep, Int.tdiv_eq_ediv_of_nonneg hnonneg, Int.tdiv_eq_ediv_of_nonneg hmillis, hsince]

section Plays

variable {t : Instant}

theorem timeline_lt_secondEnd (h : ¬ t.isLeap) : t.timeline < secondEnd t := by
  rw [not_isLeap_iff] at h
  rw [timeline, secondEnd]
  omega

/-- Outside leap seconds a play comes so many steps after the start, and before the floor by a step
at least. -/
theorem play_of_not_leap (hstart : ¬ start.isLeap) (hfloor : ¬ floor.isLeap) (h : start < floor)
    (hi : i < count) (ht : start.plus (spreadOffset start floor count i) = some t) :
    ¬ t.isLeap ∧ t.timeline = start.timeline + i * spreadStep start floor count * 1000000 ∧
      t < floor ∧ t.timeline + spreadStep start floor count * 1000000 ≤ floor.timeline := by
  obtain ⟨htime, hleap⟩ := timeline_of_plus hstart ht
  have hsince := since_bounds hstart h
  have hoffset := spreadOffset_bounds hi hsince.1
  have hend := timeline_lt_secondEnd hfloor
  have hnext : t.timeline + spreadStep start floor count * 1000000 ≤ floor.timeline := by omega
  obtain ⟨u, hu, hlt⟩ := exists_plus_lt_floor hstart h hi (by omega)
  obtain rfl : t = u := Option.some.inj (ht.symm.trans hu)
  refine ⟨hleap, ?_, hlt, hnext⟩
  rw [htime, spreadOffset, Int.mul_comm (i : Int)]

/-- The same of the places in the list, if the start that was sought is in the calendar. -/
theorem play_of_getElem? (hsought : soughtStart? imported floor = some start)
    (hstart : ¬ start.isLeap) (hfloor : ¬ floor.isLeap)
    (hlength : (spread imported count floor).length = count)
    (ht : (spread imported count floor)[i]? = some t) :
    ¬ t.isLeap ∧ t.timeline = start.timeline + i * spreadStep start floor count * 1000000 ∧
      t < floor ∧ t.timeline + spreadStep start floor count * 1000000 ≤ floor.timeline := by
  have hi : i < count := hlength ▸ (List.getElem?_eq_some_iff.1 ht).1
  rw [getElem?_spread hlength hi, spreadStart_of_soughtStart hsought] at ht
  exact play_of_not_leap hstart hfloor (soughtStart_lt hsought) hi ht

end Plays

theorem head?_spread (hcount : 0 < count) (hsought : soughtStart? imported floor = some start)
    (hlength : (spread imported count floor).length = count) :
    (spread imported count floor).head? = some start := by
  rw [List.head?_eq_getElem?, getElem?_spread hlength hcount, spreadStart_of_soughtStart hsought,
    spreadOffset_zero, plus_zero]

theorem pairwise_spread (hcount : 0 < count) (hsought : soughtStart? imported floor = some start)
    (hstart : ¬ start.isLeap) (hfloor : ¬ floor.isLeap)
    (hlength : (spread imported count floor).length = count) :
    (spread imported count floor).Pairwise (· ≤ ·) := by
  have hstep := (spreadOffset_bounds hcount (since_bounds hstart (soughtStart_lt hsought)).1).1
  refine List.pairwise_iff_getElem.2 fun i j hi hj hij ↦ ?_
  obtain ⟨hleap, htime, _⟩ :=
    play_of_getElem? hsought hstart hfloor hlength (List.getElem?_eq_getElem hi)
  obtain ⟨hleap', htime', _⟩ :=
    play_of_getElem? hsought hstart hfloor hlength (List.getElem?_eq_getElem hj)
  have hmul : (i : Int) * spreadStep start floor count ≤ j * spreadStep start floor count :=
    Int.mul_le_mul_of_nonneg_right (by omega) hstep
  refine Int.not_lt.1 fun hback ↦ ?_
  have hback := (lt_iff_timeline hleap' hleap).1 hback
  omega

/-- The plays number as many as counted unless the last one comes behind the end of the calendar,
which takes a floor in the leap second there. From a start in the calendar, if neither the start
nor the floor is in a leap second, they are an arithmetic sequence: the first is the start, each
comes a step of whole milliseconds after the one before, all come before the floor, and at least a
step before it. -/
theorem spread_evenly (hcount : 0 < count) (imported : Option Instant) (floor : Instant) :
    ((spread imported count floor).length = count ↔ ¬ LastPlayLost imported count floor) ∧
      (LastPlayLost imported count floor → floor.isLeap ∧ EndsCalendar floor) ∧
      ∀ start, soughtStart? imported floor = some start → ¬ start.isLeap → ¬ floor.isLeap →
        let step := (floor.timeline - start.timeline) / 1000000 / count
        let plays := spread imported count floor
        plays.length = count ∧ plays.head? = some start ∧ plays.Pairwise (· ≤ ·) ∧ 0 ≤ step ∧
          ∀ (i : Nat) t, plays[i]? = some t → ¬ t.isLeap ∧
            t.timeline = start.timeline + i * step * 1000000 ∧ t < floor ∧
            t.timeline + step * 1000000 ≤ floor.timeline := by
  refine ⟨length_spread_eq_iff_restart hcount, endsCalendar_of_lastPlayLost hcount,
    fun start hsought hstart hfloor ↦ ?_⟩
  have hlt := soughtStart_lt hsought
  have hkept : ¬ LastPlayLost imported count floor :=
    fun hlost ↦ hfloor (endsCalendar_of_lastPlayLost hcount hlost).1
  have hlength := (length_spread_eq_iff_restart hcount).2 hkept
  simp only [← spreadStep_of_not_leap hstart hfloor hlt count]
  exact ⟨hlength, head?_spread hcount hsought hlength,
    pairwise_spread hcount hsought hstart hfloor hlength,
    (spreadOffset_bounds hcount (since_bounds hstart hlt).1).1,
    fun i t ht ↦ play_of_getElem? hsought hstart hfloor hlength ht⟩

/-- Three plays before the leap second at the end of the calendar are not three; four plays from
1 January 2020 to the fifth are a day apart. -/
theorem spread_evenly_days :
    let late : Instant := ⟨Date.last, 86399, 0, by decide, by decide, by decide⟩
    let floor : Instant := ⟨Date.last, 86399, 1999000000, by decide, by decide, by decide⟩
    let start : Instant := .midnight ⟨yearStart 2020, by decide⟩
    let fifth : Instant := .midnight ⟨yearStart 2020 + 4, by decide⟩
    (spread (some late) 3 floor).length ≠ 3 ∧ (spread (some start) 4 fifth).length = 4 ∧
      ∀ (i : Nat) t, (spread (some start) 4 fifth)[i]? = some t →
        t.timeline = start.timeline + i * 86400000 * 1000000 := by
  intro late floor start fifth
  have hlate := (spread_evenly (show 0 < 3 by decide) (some late) floor).1
  have hdays := (spread_evenly (show 0 < 4 by decide) (some start) fifth).2.2 start (by decide)
    (by decide) (by decide)
  have hlost : LastPlayLost (some late) 3 floor := by
    rw [LastPlayLost]
    decide
  have hstep : (fifth.timeline - start.timeline) / 1000000 / (4 : Nat) = 86400000 := by decide
  simp only [hstep] at hdays
  obtain ⟨hlength, _, _, _, hplay⟩ := hdays
  exact ⟨fun hthree ↦ hlate.1 hthree hlost, hlength, fun i t ht ↦ (hplay i t ht).2.1⟩

end History

end Jukebox
