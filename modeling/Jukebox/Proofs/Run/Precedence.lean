import Jukebox.Proofs.History.Spread
import Jukebox.Proofs.Run.Evaluation

/-!
# Inferred plays come first

Inferred plays should look older than anything on record. `inferred_before_observed_iff` says for
which files they are: the floor has to lie behind the first year of the calendar, which leaves no
room before it, and no inferred play may run past a floor in a leap second.
-/

set_option autoImplicit false
set_option relaxedAutoImplicit false

namespace Jukebox

open Calendar

/-- Plays inferred for the file of a record come before a floor: there is room before it, and those
that run past it are not in the calendar. -/
def Record.StaysBefore (floor : Instant) (r : Record) : Prop :=
  0 < r.prehistory → floor.year ≠ firstYear ∧
    (History.RunsPast r.file.importedAt r.prehistory floor → History.EndsCalendar floor)

namespace Plan

theorem forall_mem_inferredPlays_lt_iff {p : Plan} (hinfer : p.settings.inferPrehistory = true)
    (c : Context) (f : File) (plays : List Instant) :
    (∀ t ∈ p.inferredPlays c f plays, t < c.floor) ↔
      (p.record c f plays).StaysBefore c.floor := by
  unfold inferredPlays Record.StaysBefore
  rw [if_pos hinfer, record_file, record_prehistory]
  rcases Nat.eq_zero_or_pos (f.declaredPlays - plays.length) with hzero | hpos
  · rw [hzero]
    exact iff_of_true (fun t ht ↦ by cases ht) fun h ↦ absurd h (Nat.lt_irrefl 0)
  · rw [History.forall_mem_spread_lt_iff hpos fun t ↦ File.not_isLeap_of_importedAt]
    exact ⟨fun h _ ↦ h, fun h ↦ h hpos⟩

end Plan

/-- The plays of a record that its history does not have come before all plays on record, and
before the present when there are none, exactly for files whose plays stay before the floor. The
floor is the oldest play on record or the present. -/
theorem inferred_before_observed_iff {p : Plan} {files : List File} {records : List Record}
    {c : Context} (hinfer : p.settings.inferPrehistory = true)
    (h : p.evaluate files = .ok (records, c)) :
    ∃ format, p.format = .ok format ∧
      ((∃ q ∈ records, c.floor ∈ format.observed q.file) ∨
        (∀ q ∈ records, format.observed q.file = []) ∧ c.floor = p.reference.now) ∧
      ∀ r ∈ records, (∀ t ∈ r.events.diff (format.observed r.file),
          (∀ q ∈ records, ∀ u ∈ format.observed q.file, t < u) ∧
            ((∀ q ∈ records, format.observed q.file = []) → t < p.reference.now)) ↔
        r.StaysBefore c.floor := by
  obtain ⟨format, hformat⟩ := Plan.exists_format_of_evaluate h
  have hfiles := Plan.map_file_of_evaluate hformat h
  have hall : ∀ P : File → Prop, (∀ q ∈ records, P q.file) ↔ ∀ f ∈ files, P f := by
    intro P
    rw [← hfiles, List.forall_mem_map]
  refine ⟨format, hformat, ?_, fun r hr ↦ ?_⟩
  · rw [hall fun f ↦ format.observed f = []]
    refine (Plan.floor_cases hformat h).imp_left fun ⟨f, hf, hfloor⟩ ↦ ?_
    rw [← hfiles] at hf
    obtain ⟨q, hq, rfl⟩ := List.mem_map.1 hf
    exact ⟨q, hq, hfloor⟩
  · obtain ⟨_, _, hrecords⟩ := (Plan.evaluate_eq_ok_iff hformat).1 h
    rw [hrecords] at hr
    obtain ⟨f, hf, rfl⟩ := List.mem_map.1 hr
    rw [← Plan.forall_mem_inferredPlays_lt_iff hinfer, Plan.record_file]
    refine forall_congr' fun t ↦ ?_
    rw [Plan.mem_diff_events_record_iff, hall fun f ↦ ∀ u ∈ format.observed f, t < u,
      hall fun f ↦ format.observed f = [], Plan.lt_floor_iff hformat h]

/-- The only play on record is in a leap second, and of three plays to infer before it the last
one runs past it. -/
theorem inferred_before_observed_iff_leap_second :
    ∃ p records c, Plan.of {} (.midnight ⟨yearStart 2024, by decide⟩) = .ok p ∧
      p.settings.inferPrehistory = true ∧
      p.evaluate [{
        imported := 1483228799
        declaredPlays := 4
        history := "2016-12-31T23:59:60.999Z" }] = .ok (records, c) ∧
      ∃ format, p.format = .ok format ∧
        ((∃ q ∈ records, c.floor ∈ format.observed q.file) ∨
          (∀ q ∈ records, format.observed q.file = []) ∧ c.floor = p.reference.now) ∧
        ∀ r ∈ records, (∀ t ∈ r.events.diff (format.observed r.file),
            (∀ q ∈ records, ∀ u ∈ format.observed q.file, t < u) ∧
              ((∀ q ∈ records, format.observed q.file = []) → t < p.reference.now)) ↔
          r.StaysBefore c.floor := by
  have hok : (Plan.of {} (.midnight ⟨yearStart 2024, by decide⟩) >>= fun p ↦
      p.evaluate [{
        imported := 1483228799
        declaredPlays := 4
        history := "2016-12-31T23:59:60.999Z" }]).isOk = true := by
    decide +kernel
  obtain ⟨⟨records, c⟩, hboth⟩ := Traversal.exists_eq_ok_of_isOk hok
  obtain ⟨p, hplan, h⟩ := Traversal.bind_eq_ok_iff.1 hboth
  have hinfer : p.settings.inferPrehistory = true := by
    rw [(Plan.settings_of_eq_ok hplan).2.1]
  exact ⟨p, records, c, hplan, hinfer, h, inferred_before_observed_iff hinfer h⟩

end Jukebox
