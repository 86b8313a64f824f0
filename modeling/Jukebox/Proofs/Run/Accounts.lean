import Jukebox.Proofs.History.Spread
import Jukebox.Proofs.Library.Merging
import Jukebox.Proofs.Run.Outcome
import Jukebox.Proofs.Statistics.Ageing

/-!
# What records say about files

An evaluation gives one record for each file, in order. `Record.Accounts` collects what the record
says: how many plays the history has and how many it lacks, the plays in order with the oldest of
them first, and the statistics about missing plays. Inferring plays makes up for all that the
history lacks, except where the floor is the leap second at the end of the calendar: the plays
which run past it are lost.
-/

set_option autoImplicit false
set_option relaxedAutoImplicit false

namespace Jukebox

open Calendar

namespace Record

/-- The number of plays that the history of a file lacks. -/
def lacking (format : History.Format) (f : File) : Nat :=
  f.declaredPlays - (format.entries f.history).length

/-- What a record of a plan says about its file when plays are inferred before `floor`. -/
structure Accounts (p : Plan) (format : History.Format) (floor : Instant) (r : Record) : Prop where
  observed : r.observed = (format.entries r.file.history).length
  prehistory : r.prehistory = lacking format r.file
  /-- No play is lost, unless plays are inferred for the file and run past a floor that ends the
  calendar. -/
  length_iff : r.events.length = (format.entries r.file.history).length +
      (if p.settings.inferPrehistory then lacking format r.file else 0) ↔
    ¬ (p.settings.inferPrehistory ∧ 0 < lacking format r.file ∧
      History.RunsPast r.file.importedAt (lacking format r.file) floor ∧
      History.EndsCalendar floor)
  ordered : r.events.Pairwise (· ≤ ·)
  earliest_none : r.earliest? = none ↔ r.events = []
  earliest_some : ∀ t, r.earliest? = some t → t ∈ r.events ∧ ∀ u ∈ r.events, t ≤ u
  prehistory_token : "prehistory" ∈ p.tokens.texts →
    r.statistics.get? "prehistory" = some (.count (lacking format r.file))
  unplayed_token : "unplayed" ∈ p.tokens.texts →
    r.statistics.get? "unplayed" = some (.count (if r.events = [] then 1 else 0))

end Record

namespace Plan

variable {s : Settings} {now : Instant} {p : Plan}

/-- The statistic under the text of a keyword without value is that of the keyword's token. -/
theorem get?_statistics_of_text (h : Plan.of s now = .ok p) (c : Context) (f : File)
    (plays : List Instant) {text : String} {word : Token.Keyword} {token : Token}
    (htext : text ∈ p.tokens.texts) (hread : Token.Expr.ofText text = .ok (.keyword word none))
    (hresolve : Token.ofKeyword text word none = .ok token) :
    (p.record c f plays).statistics.get? text = some (token.evaluate (p.record c f plays) c) := by
  obtain ⟨t, ht, rfl⟩ := List.mem_map.1 htext
  rw [get?_statistics p c f plays ht, (resolves h t ht).token_of_text rfl hread hresolve]

/-- Inferred plays make up for what the history lacks, unless some run past a floor that ends the
calendar. -/
theorem length_inferredPlays_iff (p : Plan) (c : Context) (f : File) (plays : List Instant) :
    (p.inferredPlays c f plays).length =
        (if p.settings.inferPrehistory then f.declaredPlays - plays.length else 0) ↔
      ¬ (p.settings.inferPrehistory ∧ 0 < f.declaredPlays - plays.length ∧
        History.RunsPast f.importedAt (f.declaredPlays - plays.length) c.floor ∧
        History.EndsCalendar c.floor) := by
  unfold inferredPlays
  by_cases hinfer : p.settings.inferPrehistory
  · rw [if_pos hinfer, if_pos hinfer]
    rcases Nat.eq_zero_or_pos (f.declaredPlays - plays.length) with hzero | hpos
    · rw [hzero]
      exact iff_of_true rfl fun h ↦ Nat.lt_irrefl 0 h.2.1
    · rw [History.length_spread_eq_iff hpos fun t ↦ File.not_isLeap_of_importedAt]
      exact not_congr ⟨fun h ↦ ⟨hinfer, hpos, h⟩, fun h ↦ h.2.2⟩
  · rw [if_neg hinfer, if_neg hinfer]
    exact iff_of_true rfl fun h ↦ hinfer h.1

theorem ofText_prehistory :
    Token.Expr.ofText "prehistory" = .ok (.keyword .prehistory none) := by
  rfl

theorem ofText_unplayed : Token.Expr.ofText "unplayed" = .ok (.keyword .unplayed none) := by
  rfl

theorem accounts_record (h : Plan.of s now = .ok p) {format : History.Format} (c : Context)
    {f : File} {plays : List Instant} (hplays : format.plays f.label f.history = .ok plays) :
    (p.record c f plays).Accounts p format c.floor := by
  have hlength := History.Format.length_of_plays_eq_ok hplays
  have hordered := pairwise_events_record p c f plays
  have hlacking : Record.lacking format f = f.declaredPlays - plays.length := by
    rw [Record.lacking, hlength]
  have hevents : (p.record c f plays).events.length =
      plays.length + (p.inferredPlays c f plays).length := by
    rw [(perm_events_record p c f plays).length_eq, List.length_append]
  have hprehistory := record_prehistory p c f plays
  refine ⟨?_, ?_, ?_, hordered, Record.earliest?_eq_none_iff,
    fun t ↦ Record.earliest?_spec hordered, fun htext ↦ ?_, fun htext ↦ ?_⟩
  · rw [record_observed, record_file, hlength]
  · rw [record_file, hlacking, hprehistory]
  · rw [record_file, hlacking, ← hlength, hevents, Nat.add_left_cancel_iff]
    exact length_inferredPlays_iff p c f plays
  · rw [get?_statistics_of_text h c f plays htext ofText_prehistory rfl, record_file, hlacking,
      ← hprehistory]
    rfl
  · rw [get?_statistics_of_text h c f plays htext ofText_unplayed rfl, Record.evaluate_unplayed]

end Plan

/-- An evaluation gives one record for each file, in order, which accounts for its plays; a run
adds them up. Of the plays to be inferred some are lost exactly for a file whose plays run past a
floor at the end of the calendar. -/
theorem evaluate_accounts_for_files {s : Settings} {now : Instant} {p : Plan} {files : List File}
    {records : List Record} {c : Context} (hplan : Plan.of s now = .ok p)
    (h : p.evaluate files = .ok (records, c)) :
    ∃ format, p.format = .ok format ∧ records.map Record.file = files ∧
      (∀ r ∈ records, r.Accounts p format c.floor) ∧
      ∃ report, p.run files = .ok report ∧
        report.totalEvents = (records.map fun r ↦ r.events.length).sum ∧
        report.inferredEvents = (records.map fun r ↦ r.events.length - r.observed).sum := by
  obtain ⟨format, hformat⟩ := Plan.exists_format hplan
  obtain ⟨report, hreport⟩ := Plan.exists_run_of_evaluate hplan h
  obtain ⟨hplays, _, hrecords⟩ := (Plan.evaluate_eq_ok_iff hformat).1 h
  refine ⟨format, hformat, Plan.map_file_of_evaluate hformat h, ?_, report, hreport,
    Plan.totals_of_run_eq_ok hreport h⟩
  intro r hr
  rw [hrecords] at hr
  obtain ⟨f, hf, rfl⟩ := List.mem_map.1 hr
  obtain ⟨plays, hok⟩ := hplays f hf
  rw [← Plan.plays_eq_observed hok]
  exact Plan.accounts_record hplan c hok

/-- Three plays are missing from a history whose floor is the leap second at the end of the
calendar; the last of them would come after it and is lost. -/
theorem evaluate_accounts_for_files_at_end :
    ∃ p records c,
      Plan.of { stats := [{ enabled := true, template := "[prehistory];[unplayed]" }] }
        ⟨Date.last, 86399, 1999000000, by decide, by decide, by decide⟩ = .ok p ∧
      p.evaluate [{ imported := 8210266876799, declaredPlays := 3 }] = .ok (records, c) ∧
      ∃ format, p.format = .ok format ∧
        records.map Record.file = [{ imported := 8210266876799, declaredPlays := 3 }] ∧
        (∀ r ∈ records, r.Accounts p format c.floor) ∧
        ∃ report, p.run [{ imported := 8210266876799, declaredPlays := 3 }] = .ok report ∧
          report.totalEvents = (records.map fun r ↦ r.events.length).sum ∧
          report.inferredEvents = (records.map fun r ↦ r.events.length - r.observed).sum := by
  have hok : (Plan.of { stats := [{ enabled := true, template := "[prehistory];[unplayed]" }] }
      ⟨Date.last, 86399, 1999000000, by decide, by decide, by decide⟩ >>= fun p ↦
        p.evaluate [{ imported := 8210266876799, declaredPlays := 3 }]).isOk = true := by
    decide +kernel
  obtain ⟨⟨records, c⟩, hboth⟩ := Traversal.exists_eq_ok_of_isOk hok
  obtain ⟨p, hplan, h⟩ := Traversal.bind_eq_ok_iff.1 hboth
  exact ⟨p, records, c, hplan, h, evaluate_accounts_for_files hplan h⟩

end Jukebox
