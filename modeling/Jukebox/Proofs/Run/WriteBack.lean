import Jukebox.Proofs.Run.Outcome
import Jukebox.Proofs.Statistics.Writing

/-!
# Writing a report back

All groups of a run see the files as the library has given them, so a report says what each group
makes of that, not what it makes of the work of the groups before it. For a field of one group
there is no difference. Where groups share a field, the last one that changes its first value
stands, and `Plan.written_of_run` says exactly when nothing of the others is lost by that;
`Plan.run_loses_appended_text` is a run that loses a text.
-/

set_option autoImplicit false
set_option relaxedAutoImplicit false

namespace Jukebox

open Calendar

namespace Plan

variable {p : Plan} {files : List File} {records : List Record} {c : Context} {report : Report}

/-- The updates in a report are those of the active groups, each for the records as they are. -/
theorem updates_of_run_eq_ok (h : p.run files = .ok report)
    (heval : p.evaluate files = .ok (records, c)) :
    (∀ g ∈ p.activeGroups, ∀ r ∈ records, ∃ text,
        p.filler.fill g.template (g.grouping.statistics records r) = .ok text) ∧
      report.stats.flatMap Outcome.updates =
        p.activeGroups.flatMap fun g ↦ g.updates p.filler records := by
  obtain ⟨hstats, _⟩ := stages_of_run_eq_ok h heval
  have hgroups := (Traversal.mapM_eq_ok_iff_map fun g outcome houtcome ↦
    (Group.apply_eq_ok_iff.1 houtcome).2).1 hstats
  refine ⟨fun g hg ↦ ?_, ?_⟩
  · obtain ⟨outcome, houtcome⟩ := hgroups.1 g hg
    exact (Group.apply_eq_ok_iff.1 houtcome).1
  · rw [hgroups.2, List.flatMap_map]

/-- The updates of a report come to the same as those of the groups in turn for a field that at
most one group updates. For a file with a key of its own, a field is left with what the last group
that changes its first value makes of that, in turn it would be edited by one group after another,
and the two are the same exactly when no group changes the first value or the last one stands. -/
theorem written_of_run (hapart : Group.GroupingsApart p.groups) (h : p.run files = .ok report) :
    ∃ (count : File → Record) (c : Context) (inTurn : List FieldUpdate),
      p.evaluate files = .ok (files.map count, c) ∧ (∀ f, (count f).file = f) ∧
      Group.updatesInTurn p.filler p.activeGroups (files.map count) = .ok inTurn ∧
      ∀ f ∈ files, ∀ field,
        let value := f.fields.value field
        let written := (f.writeAll (report.stats.flatMap Outcome.updates)).fields.value field
        let turned := (f.writeAll inTurn).fields.value field
        let edits := Group.edits p.activeGroups p.filler (files.map count) (count f) field
        ((p.activeGroups.countP fun g ↦ Text.lower g.updateField = Text.lower field) ≤ 1 →
          written = turned) ∧
        ((∀ f' ∈ files, f'.key = f.key → f' = f) →
          written = Edit.fromFirst edits value ∧ turned = Edit.inTurn edits value ∧
            (written = turned ↔
              (∀ e ∈ edits, e.apply value = value) ∨ Edit.LastStands edits value)) := by
  obtain ⟨⟨records, c⟩, heval, _⟩ := Traversal.bind_eq_ok_iff.1 h
  obtain ⟨format, hformat⟩ := exists_format_of_evaluate heval
  obtain ⟨hfill, hupdates⟩ := updates_of_run_eq_ok h heval
  obtain ⟨_, _, hrecords⟩ := (evaluate_eq_ok_iff hformat).1 heval
  let count : File → Record := fun f ↦ p.record c f (format.observed f)
  have hfile : ∀ f, (count f).file = f := fun f ↦ record_file p c f (format.observed f)
  obtain rfl : records = files.map count := hrecords
  have hactive : Group.GroupingsApart p.activeGroups := hapart.mono p.activeGroups_sublist.subset
  obtain ⟨inTurn, hturn⟩ := Group.exists_updatesInTurn_eq_ok hactive hfill
  refine ⟨count, c, inTurn, heval, hfile, hturn, fun f hf field ↦ ⟨fun hone ↦ ?_, fun hkey ↦ ?_⟩⟩
  · rw [File.value_writeAll, File.value_writeAll, hupdates,
      Group.filter_updatesInTurn hactive hturn hone]
  · have hunique : ∀ q ∈ files.map count, q.file.key = (count f).file.key → q = count f := by
      intro q hq hq'
      obtain ⟨f', hf', rfl⟩ := List.mem_map.1 hq
      rw [hfile, hfile] at hq'
      rw [hkey f' hf' hq']
    have hmem : count f ∈ files.map count := List.mem_map_of_mem hf
    have hwritten := Group.value_writeAll_updates p.activeGroups p.filler hmem hunique rfl field
    have hturned := Group.value_writeAll_updatesInTurn hactive hturn hmem hunique field
    rw [hfile, ← hupdates] at hwritten
    rw [hfile] at hturned
    refine ⟨hwritten, hturned, ?_⟩
    rw [hwritten, hturned]
    exact Edit.fromFirst_eq_inTurn_iff

/-- Two groups by file write one field and a group by artist another; two files have one key. -/
theorem written_of_run_shared_field :
    let s : Settings := {
      stats := [
        { enabled := true, updateField := "Custom", template := "[total]" },
        { enabled := true, append := true, updateField := "custom", template := "/[unplayed]" },
        { enabled := true, groupByField := "Artist", template := "[permonth]" }] }
    let files : List File := [
      { key := 1, history := "2023-05-01", fields := [("custom", "jazz"), ("artist", "ABBA")] },
      { key := 2, fields := [("artist", "abba")] }, { key := 2 }]
    ∃ p report, Plan.of s (.midnight ⟨yearStart 2024, by decide⟩) = .ok p ∧
      Group.GroupingsApart p.groups ∧ p.run files = .ok report ∧
      ∃ (count : File → Record) (c : Context) (inTurn : List FieldUpdate),
        p.evaluate files = .ok (files.map count, c) ∧ (∀ f, (count f).file = f) ∧
        Group.updatesInTurn p.filler p.activeGroups (files.map count) = .ok inTurn ∧
        ∀ f ∈ files, ∀ field,
          let value := f.fields.value field
          let written := (f.writeAll (report.stats.flatMap Outcome.updates)).fields.value field
          let turned := (f.writeAll inTurn).fields.value field
          let edits := Group.edits p.activeGroups p.filler (files.map count) (count f) field
          ((p.activeGroups.countP fun g ↦ Text.lower g.updateField = Text.lower field) ≤ 1 →
            written = turned) ∧
          ((∀ f' ∈ files, f'.key = f.key → f' = f) →
            written = Edit.fromFirst edits value ∧ turned = Edit.inTurn edits value ∧
              (written = turned ↔
                (∀ e ∈ edits, e.apply value = value) ∨ Edit.LastStands edits value)) := by
  intro s files
  have hok : (Plan.of s (.midnight ⟨yearStart 2024, by decide⟩) >>= fun p ↦ p.run files).isOk := by
    decide +kernel
  obtain ⟨report, hboth⟩ := Traversal.exists_eq_ok_of_isOk hok
  obtain ⟨p, hplan, h⟩ := Traversal.bind_eq_ok_iff.1 hboth
  have hapart : Group.GroupingsApart p.groups := by
    rw [(settings_of_eq_ok hplan).2.2.2]
    decide +kernel
  exact ⟨p, report, hplan, hapart, h, written_of_run hapart h⟩

/-- Two groups append to a field, and the text of the first is lost. Files with the same key take
each other's updates, so none of them but the last is left with its own value. -/
theorem run_loses_appended_text :
    let s : Settings := {
      stats := [
        { enabled := true, append := true, updateField := "Custom", template := " plays [total]" },
        { enabled := true, append := true, updateField := "Custom",
          template := " unplayed [unplayed]" }] }
    let files : List File := [
      { key := 1, name := "a", declaredPlays := 1, history := "2023-05-01",
        fields := [("custom", "jazz")] },
      { key := 2, fields := [("custom", "x")] }, { key := 2, fields := [("custom", "y")] }]
    ∃ p records c report inTurn, Plan.of s (.midnight ⟨yearStart 2024, by decide⟩) = .ok p ∧
      Group.GroupingsApart p.groups ∧ p.evaluate files = .ok (records, c) ∧
      p.run files = .ok report ∧
      Group.updatesInTurn p.filler p.activeGroups records = .ok inTurn ∧
      (files.map fun f ↦ (f.writeAll (report.stats.flatMap Outcome.updates)).fields.value
        "Custom") = ["jazz unplayed 0", "y unplayed 1", "y unplayed 1"] ∧
      (files.map fun f ↦ (f.writeAll inTurn).fields.value "Custom") =
        ["jazz plays 1 unplayed 0", "y plays 0 unplayed 1", "y plays 0 unplayed 1"] ∧
      (records.map fun r ↦ Edit.inTurn (Group.edits p.activeGroups p.filler records r "Custom")
          (r.file.fields.value "Custom")) =
        ["jazz plays 1 unplayed 0", "x plays 0 unplayed 1", "y plays 0 unplayed 1"] := by
  intro s files
  have hvalues : (Plan.of s (.midnight ⟨yearStart 2024, by decide⟩) >>= fun p ↦
      p.evaluate files >>= fun counted ↦ p.run files >>= fun report ↦
        (Group.updatesInTurn p.filler p.activeGroups counted.1).mapError .statistic >>= fun inTurn ↦
          Except.ok (
            files.map fun f ↦ (f.writeAll (report.stats.flatMap Outcome.updates)).fields.value
              "Custom",
            files.map fun f ↦ (f.writeAll inTurn).fields.value "Custom",
            counted.1.map fun r ↦ Edit.inTurn
              (Group.edits p.activeGroups p.filler counted.1 r "Custom")
              (r.file.fields.value "Custom"))).toOption =
      some (["jazz unplayed 0", "y unplayed 1", "y unplayed 1"],
        ["jazz plays 1 unplayed 0", "y plays 0 unplayed 1", "y plays 0 unplayed 1"],
        ["jazz plays 1 unplayed 0", "x plays 0 unplayed 1", "y plays 0 unplayed 1"]) := by
    decide +kernel
  obtain ⟨p, hplan, h⟩ := Traversal.bind_eq_ok_iff.1 (Traversal.toOption_eq_some_iff.1 hvalues)
  obtain ⟨⟨records, c⟩, heval, h⟩ := Traversal.bind_eq_ok_iff.1 h
  obtain ⟨report, hrun, h⟩ := Traversal.bind_eq_ok_iff.1 h
  obtain ⟨inTurn, hturn, h⟩ := Traversal.bind_eq_ok_iff.1 h
  obtain ⟨hwritten, hboth⟩ := Prod.mk.inj (Except.ok.inj h)
  obtain ⟨hturned, hown⟩ := Prod.mk.inj hboth
  have hapart : Group.GroupingsApart p.groups := by
    rw [(settings_of_eq_ok hplan).2.2.2]
    decide +kernel
  exact ⟨p, records, c, report, inTurn, hplan, hapart, heval, hrun,
    Traversal.mapError_eq_ok_iff.1 hturn, hwritten, hturned, hown⟩

end Plan

end Jukebox
