import Jukebox.Proofs.History.Spread
import Jukebox.Proofs.Run.Evaluation
import Jukebox.Proofs.Token.AnchorWindow

/-!
# What the total counts

The window of the whole calendar ends before the last instant, so a play at that instant or in the
leap second behind it is not counted (`Window.whole_contains_iff`). Serial dates and imports lie on
whole milliseconds, and no play that is inferred comes so late (`History.lt_last_of_mem_spread`).
So the total of a record is the number of its plays exactly if no timestamp of its history names
the end of the calendar (`total_counts_plays_before_last`).
-/

set_option autoImplicit false
set_option relaxedAutoImplicit false

namespace Jukebox

open Calendar

/-! ### The end of the calendar -/

/-- The window of the whole calendar lacks the last instant and the leap second behind it. -/
theorem Window.whole_contains_iff {t : Instant} :
    whole.contains t = true ↔ t < Instant.last :=
  contains_iff.trans (and_iff_right t.first_le)

namespace Calendar.Instant

theorem lt_last_of_day_lt {t : Instant} (h : t.date.day < lastDay) : t < last := by
  have hlast : last.rank = (lastDay * 86400 + 86399) * 2000000000 + 999999999 := rfl
  have hsecond := t.second_lt
  have hnano := t.nano_lt
  rw [lt_iff, hlast, rank]
  omega

/-- On a whole millisecond, and in no leap second. -/
structure OnMillisecond (t : Instant) : Prop where
  nano_lt : t.nano < 1000000000
  nano_mod : t.nano % 1000000 = 0

theorem onMillisecond_midnight (d : Date) : (midnight d).OnMillisecond :=
  ⟨Nat.zero_lt_succ _, rfl⟩

/-- Whole milliseconds lead from one to another. -/
theorem OnMillisecond.of_plus {t u : Instant} (ht : t.OnMillisecond) {millis : Int}
    (h : t.plus (millis * 1000000) = some u) : u.OnMillisecond := by
  obtain ⟨hleap, hmillis⟩ := ht
  obtain ⟨htime, hleap'⟩ := timeline_of_plus (not_isLeap_iff.2 hleap) h
  rw [not_isLeap_iff] at hleap'
  simp only [timeline] at htime
  exact ⟨hleap', by omega⟩

theorem OnMillisecond.lt_last {t : Instant} (ht : t.OnMillisecond) : t < last := by
  obtain ⟨hleap, hmillis⟩ := ht
  have hday : t.date.day ≤ lastDay := t.date.inCalendar.2
  have hlast : last.rank = (lastDay * 86400 + 86399) * 2000000000 + 999999999 := rfl
  have hsecond := t.second_lt
  rw [lt_iff, hlast, rank]
  omega

end Calendar.Instant

/-- Imports are known to the second. -/
theorem File.onMillisecond_of_importedAt {f : File} {t : Instant} (h : f.importedAt = some t) :
    t.OnMillisecond := by
  unfold File.importedAt at h
  split at h
  · cases h
  · obtain ⟨htime, hleap⟩ := Instant.ofTimeline?_eq_some_iff.1 h
    simp only [Instant.timeline] at htime
    exact ⟨hleap, by omega⟩

/-! ### Inferred plays -/

namespace History

variable {imported : Option Instant} {floor start t : Instant} {count i : Nat}

/-- Inferred plays start on a whole millisecond or a year before the floor. -/
theorem onMillisecond_spreadStart_or (floor : Instant)
    (himported : ∀ t, imported = some t → t.OnMillisecond) :
    (spreadStart imported floor).OnMillisecond ∨
      floor.shift (-1) .year = some (spreadStart imported floor) := by
  obtain ⟨start, hmillis, _, hstart⟩ :=
    exists_spreadStart_eq floor (Instant.onMillisecond_midnight _) himported
  rw [hstart]
  split
  · cases hback : floor.shift (-1) .year with
    | none => exact Or.inl (Instant.onMillisecond_midnight _)
    | some u => exact Or.inr rfl
  · exact Or.inl hmillis

/-- From a year before the floor, plays do not come up to the last instant: the first one is on an
earlier day, and the others keep a step away from the floor. -/
theorem lt_last_of_plus_year_before (hback : floor.shift (-1) .year = some start) (hi : i < count)
    (ht : start.plus (spreadOffset start floor count i) = some t) : t < Instant.last := by
  obtain ⟨hday, hsecond, hnano⟩ := Instant.shift_year_before hback
  have hfloor : floor.date.day ≤ lastDay := floor.date.inCalendar.2
  have hlate := start.second_lt
  have hlate' := start.nano_lt
  have hlast : Instant.last.timeline = (lastDay * 86400 + 86399) * 1000000000 + 999999999 := rfl
  have hsince : floor.since start = (floor.date.day - start.date.day) * 86400000000000 := by
    rw [since_eq_of_second_eq hsecond]
    simp only [Instant.timeline]
    omega
  have hnonneg : 0 ≤ floor.since start := by omega
  obtain ⟨hstep, hoffset, hroom⟩ := spreadOffset_bounds hi hnonneg
  have hkeep : spreadOffset start floor count i = 0 ∨
      spreadOffset start floor count i + 1000000 ≤ floor.since start := by
    rcases Int.lt_or_eq_of_le hstep with hpositive | hzero
    · exact Or.inr (by omega)
    · exact Or.inl (by rw [spreadOffset, ← hzero, Int.zero_mul, Int.zero_mul])
  by_cases hleap : start.isLeap
  · -- A sum from a leap second stays inside it, on the earlier day, or goes on from its end.
    rw [Instant.isLeap_iff] at hleap
    rw [Instant.plus, dif_neg (by omega)] at ht
    split at ht
    · obtain rfl := Option.some.inj ht
      exact Instant.lt_last_of_day_lt (by dsimp only; omega)
    · rw [if_pos (by omega)] at ht
      obtain ⟨htime, htnano⟩ := Instant.ofTimeline?_eq_some_iff.1 ht
      rw [Instant.lt_iff_timeline (Instant.not_isLeap_iff.2 htnano) (by decide), htime, hlast]
      simp only [Instant.timeline]
      omega
  · obtain ⟨htime, htleap⟩ := Instant.timeline_of_plus hleap ht
    rw [Instant.not_isLeap_iff] at hleap
    rw [Instant.lt_iff_timeline htleap (by decide), htime, hlast]
    simp only [Instant.timeline]
    omega

/-- No play that is inferred comes at the last instant or behind it. -/
theorem lt_last_of_mem_spread (himported : ∀ t, imported = some t → t.OnMillisecond)
    (h : t ∈ spread imported count floor) : t < Instant.last := by
  obtain ⟨i, hi, ht⟩ := mem_spread_iff.1 h
  rcases onMillisecond_spreadStart_or floor himported with hstart | hback
  · exact (hstart.of_plus ht).lt_last
  · exact lt_last_of_plus_year_before hback hi ht

/-! ### Serial dates -/

theorem onMillisecond_of_ofSerial? {days : Decimal.Binary64} (h : ofSerial? days = some t) :
    t.OnMillisecond := by
  obtain ⟨millis, _, h⟩ := Option.bind_eq_some_iff.1 h
  exact (Instant.onMillisecond_midnight serialBase).of_plus h

/-- The plays of a history in serial dates lie on whole milliseconds. -/
theorem Format.onMillisecond_of_plays {format : Format} {file : FileName} {raw : String}
    {plays : List Instant} {first : List Char} {rest : List (List Char)}
    (h : format.plays file raw = .ok plays) (hentries : format.entries raw = first :: rest)
    (hserial : (serial? first).isSome) : ∀ t ∈ plays, t.OnMillisecond := by
  intro t ht
  rw [Format.plays, hentries] at h
  obtain ⟨unsorted, hmap, rfl⟩ := Traversal.map_eq_ok_iff.1 h
  obtain ⟨entry, _, hplay⟩ :=
    Traversal.exists_eq_ok_of_mem hmap ((Instant.ascending_perm unsorted).mem_iff.1 ht)
  rw [reader, if_pos hserial, Format.play] at hplay
  split at hplay
  · cases hplay
  · rename_i u hread
    split at hplay
    · cases hplay
    · rename_i v hplus
      obtain rfl := Except.ok.inj hplay
      obtain ⟨days, _, hdays⟩ := Option.bind_eq_some_iff.1 hread
      have hmillis : -(format.midnightOffset * 60000000000) =
          -(format.midnightOffset * 60000) * 1000000 := by omega
      rw [hmillis] at hplus
      exact (onMillisecond_of_ofSerial? hdays).of_plus hplus

end History

/-! ### The total -/

theorem NamedToken.ofText_total (r : Reference) :
    ofText "[total]" r = .ok ⟨"total", .range .whole⟩ := by
  rfl

/-- The total leaves out the plays at the last instant of the calendar and behind it. -/
theorem Record.countP_whole_add (record : Record) :
    record.events.countP Window.whole.contains +
      record.events.countP (fun t ↦ Instant.last ≤ t) = record.events.length := by
  rw [List.length_eq_countP_add_countP Window.whole.contains]
  congr 1
  refine List.countP_congr fun t _ ↦ ?_
  rw [decide_eq_true_eq, decide_eq_true_eq, Window.whole_contains_iff]
  exact Int.not_lt.symm

namespace Plan

/-- Of the plays of a record, those at the end of the calendar all come from the history. -/
theorem countP_last_events (p : Plan) (c : Context) (f : File) (plays : List Instant) :
    (p.record c f plays).events.countP (fun t ↦ Instant.last ≤ t) =
      plays.countP fun t ↦ Instant.last ≤ t := by
  have hinferred : (p.inferredPlays c f plays).countP (fun t ↦ Instant.last ≤ t) = 0 := by
    rw [List.countP_eq_zero]
    intro t ht
    unfold inferredPlays at ht
    split at ht
    · rw [decide_eq_true_eq]
      exact Int.not_le.2 (History.lt_last_of_mem_spread
        (fun _ ↦ File.onMillisecond_of_importedAt) ht)
    · cases ht
  rw [(perm_events_record p c f plays).countP_eq, List.countP_append, hinferred, Nat.add_zero]

end Plan

/-- The total of a record counts all plays but those at the last instant of the calendar and in the
leap second behind it. No play that is inferred lies there, nor any of a history in serial dates,
so the total is the number of plays exactly if no timestamp of the history leads there. -/
theorem total_counts_plays_before_last {p : Plan} {format : History.Format} {name : FileName}
    {raw : String} {plays : List Instant} (h : format.plays name raw = .ok plays) (c : Context)
    (f : File) (r : Reference) :
    ∃ total n, NamedToken.ofText "[total]" r = .ok total ∧
      total.token.evaluate (p.record c f plays) c = .count (n : Nat) ∧
      n + plays.countP (fun t ↦ Instant.last ≤ t) = (p.record c f plays).events.length ∧
      (n = (p.record c f plays).events.length ↔ ∀ t ∈ plays, t < Instant.last) ∧
      ∀ first rest, format.entries raw = first :: rest → (History.serial? first).isSome →
        n = (p.record c f plays).events.length := by
  have hcount := (p.record c f plays).countP_whole_add
  rw [Plan.countP_last_events] at hcount
  have hall : (p.record c f plays).events.countP Window.whole.contains =
      (p.record c f plays).events.length ↔ ∀ t ∈ plays, t < Instant.last := by
    rw [← hcount, eq_comm, Nat.add_eq_left, List.countP_eq_zero]
    simp only [decide_eq_true_eq]
    exact forall₂_congr fun t _ ↦ Int.not_le
  refine ⟨_, _, NamedToken.ofText_total r, rfl, hcount, hall, fun first rest hentries hserial ↦ ?_⟩
  exact hall.2 fun t ht ↦
    (History.Format.onMillisecond_of_plays h hentries hserial t ht).lt_last

/-- Of two plays, one lies in the leap second at the end of the calendar. -/
theorem total_counts_plays_before_last_leap_second :
    let format : History.Format := ⟨";", "", 0⟩
    let r : Reference := ⟨.midnight ⟨yearStart 2024, by decide⟩, .sunday⟩
    let p : Plan := ⟨{}, r, .empty, [], []⟩
    ∃ plays total n,
      format.plays ⟨1, "a"⟩ "+262142-12-31 23:59:60;2023-05-01" = .ok plays ∧
      NamedToken.ofText "[total]" r = .ok total ∧
      total.token.evaluate (p.record (.of r none) {} plays) (.of r none) = .count (n : Nat) ∧
      n + 1 = (p.record (.of r none) {} plays).events.length := by
  intro format r p
  obtain ⟨plays, hplays⟩ := Traversal.exists_eq_ok_of_isOk
    (x := format.plays ⟨1, "a"⟩ "+262142-12-31 23:59:60;2023-05-01") (by decide +kernel)
  have hentries : format.entries "+262142-12-31 23:59:60;2023-05-01" =
      ["+262142-12-31 23:59:60".toList, "2023-05-01".toList] := by
    decide +kernel
  have hlast := History.Format.countP_of_plays_eq_ok hplays hentries fun t ↦ Instant.last ≤ t
  have hone : plays.countP (fun t ↦ Instant.last ≤ t) = 1 :=
    Except.ok.inj (hlast.symm.trans (by decide +kernel))
  obtain ⟨total, n, htotal, hn, hcount, _⟩ :=
    total_counts_plays_before_last (p := p) hplays (.of r none) {} r
  rw [hone] at hcount
  exact ⟨plays, total, n, hplays, htotal, hn, hcount⟩

end Jukebox
