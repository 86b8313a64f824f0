import Jukebox.Proofs.Playlist.Alike
import Jukebox.Proofs.Run.WriteBack

/-!
# Running again after writing back

Of what a run looks at in a file, writing fields changes the fields alone
(`File.exists_writeAll_eq`), and these only matter to groups. So files to which a report has been
written are evaluated like the files before (`Plan.evaluate_writeAll`), and their playlists are the
same (`Definition.build_writeAll`). A group whose field no other group writes finds in it what it
would write (`Group.updates_writeAll_eq_nil`), so a second run changes nothing: writing back is a
fixed point (`Plan.run_writeAll_of_run`).
-/

set_option autoImplicit false
set_option relaxedAutoImplicit false

namespace Jukebox

open Calendar

/-! ### What writing leaves alone -/

/-- Writing updates changes nothing of a file but its fields. -/
theorem File.exists_writeAll_eq (f : File) (us : List FieldUpdate) :
    ∃ fields, f.writeAll us = { f with fields } := by
  induction us generalizing f with
  | nil => exact ⟨f.fields, rfl⟩
  | cons u us ih =>
    obtain ⟨fields, hrest⟩ := ih (f.write u)
    have hwrite : ∃ fields, f.write u = { f with fields } := by
      unfold write
      split
      · exact ⟨_, rfl⟩
      · exact ⟨f.fields, rfl⟩
    obtain ⟨written, hwritten⟩ := hwrite
    refine ⟨fields, ?_⟩
    change (f.write u).writeAll us = _
    rw [hrest, hwritten]

namespace Record

variable {us : List FieldUpdate}

theorem prehistory_writeAll (r : Record) (us : List FieldUpdate) :
    (r.writeAll us).prehistory = r.prehistory := by
  obtain ⟨fields, hfields⟩ := r.file.exists_writeAll_eq us
  rw [prehistory, prehistory, file_writeAll, hfields]
  rfl

theorem imported_writeAll (r : Record) (us : List FieldUpdate) :
    (r.writeAll us).file.imported = r.file.imported := by
  obtain ⟨fields, hfields⟩ := r.file.exists_writeAll_eq us
  rw [file_writeAll, hfields]

end Record

/-! ### Playlists -/

/-- Playlists do not look at fields. -/
theorem Record.alike_writeAll (token : NamedToken) (r : Record) (us : List FieldUpdate) :
    Playlist.Alike token (r.writeAll us) r :=
  ⟨File.key_writeAll r.file us, imported_writeAll r us, rfl, prehistory_writeAll r us, rfl⟩

/-- A playlist of files to which updates have been written lists the same keys. -/
theorem Definition.build_writeAll {d : Definition} {tokens : TokenSet} {records : List Record}
    (h : ∀ t ∈ tokens.tokens, ∀ r ∈ records, r.statistics.Has t.text) (us : List FieldUpdate) :
    d.build tokens (Record.sortByOldest (records.map (·.writeAll us))) =
      d.build tokens (Record.sortByOldest records) := by
  cases htoken : d.rankingToken tokens with
  | error e =>
    unfold build
    rw [htoken]
    rfl
  | ok token =>
    exact build_map htoken htoken (fun r _ ↦ r.alike_writeAll token us)
      (h token (mem_of_rankingToken htoken))

/-! ### Groups -/

namespace Group

variable {gs : List Group} {g : Group} {f : Filler} {records : List Record}

/-- The field of a group that no other one updates has a single edit. -/
theorem edits_eq_singleton (hfields : (gs.map fun g ↦ Text.lower g.updateField).Nodup)
    (hg : g ∈ gs) (f : Filler) (records : List Record) (r : Record) :
    edits gs f records r g.updateField = [⟨g.append, g.text f records r⟩] := by
  induction gs with
  | nil => cases hg
  | cons g' gs ih =>
    rw [List.map_cons, List.nodup_cons, List.mem_map] at hfields
    rw [edits_cons]
    rcases List.mem_cons.1 hg with rfl | hg
    · have hnone : edits gs f records r g.updateField = [] :=
        List.filterMap_eq_nil_iff.2 fun g' hg' ↦ if_neg fun heq ↦ hfields.1 ⟨g', hg', heq⟩
      rw [hnone, edit?, if_pos rfl]
      rfl
    · rw [ih hfields.2 hg, edit?, if_neg fun heq ↦ hfields.1 ⟨g, hg, heq.symm⟩]
      rfl

/-- No group is by a field that updates of the groups are for. -/
theorem GroupingsApart.isFor_flatMap_updates (h : GroupingsApart gs) (hg : g ∈ gs) (f : Filler)
    (records : List Record) : ∀ name, g.grouping = .field name →
      ∀ u ∈ gs.flatMap fun g ↦ g.updates f records, u.isFor name = false := by
  intro name hname u hu
  obtain ⟨g', hg', hu⟩ := List.mem_flatMap.1 hu
  exact h.isFor_updates hg' hg f records name hname u hu

/-- Where groups replace the values of different fields, a file with the updates of all of them has
the text of each group in its field. -/
theorem value_writeAll_eq_text (hfields : (gs.map fun g ↦ Text.lower g.updateField).Nodup)
    (hg : g ∈ gs) (hreplace : g.append = false) (f : Filler) {r : Record} (hr : r ∈ records)
    (hunique : ∀ q ∈ records, q.file.key = r.file.key → q = r) :
    (r.file.writeAll (gs.flatMap fun g ↦ g.updates f records)).fields.value g.updateField =
      g.text f records r := by
  have hvalue := value_writeAll_updates gs f hr hunique rfl g.updateField
  rw [edits_eq_singleton hfields hg, hreplace, Edit.overwrite_cons,
    Edit.apply_of_replace rfl] at hvalue
  rw [hvalue]
  split
  · rename_i hsame
    exact hsame.symm
  · rfl

/-- A group finds nothing to change in files with the updates of all groups, if these replace the
values of different fields and none of them is by such a field. -/
theorem updates_writeAll_eq_nil (hreplace : ∀ g ∈ gs, g.append = false)
    (hfields : (gs.map fun g ↦ Text.lower g.updateField).Nodup) (hapart : GroupingsApart gs)
    (f : Filler) (hunique : ∀ r ∈ records, ∀ q ∈ records, q.file.key = r.file.key → q = r)
    (hg : g ∈ gs) :
    g.updates f (records.map (·.writeAll (gs.flatMap fun g ↦ g.updates f records))) = [] := by
  rw [updates, List.filterMap_map, List.filterMap_eq_nil_iff]
  intro r hr
  have htext := text_writeAll (hapart.isFor_flatMap_updates hg f records) f records r
  have hvalue := value_writeAll_eq_text hfields hg (hreplace g hg) f hr (hunique r hr)
  have hnew : ∀ q text, g.newValue q text = text := by
    intro q text
    rw [newValue, hreplace g hg]
    rfl
  simp only [Function.comp_def, htext, update?, hnew, Record.file_writeAll, hvalue, if_true]

/-- So all files are unchanged for every group. -/
theorem mapM_apply_writeAll_updates (hreplace : ∀ g ∈ gs, g.append = false)
    (hfields : (gs.map fun g ↦ Text.lower g.updateField).Nodup) (hapart : GroupingsApart gs)
    (hunique : ∀ r ∈ records, ∀ q ∈ records, q.file.key = r.file.key → q = r)
    (hfill : ∀ g ∈ gs, ∀ r ∈ records, ∃ text,
      f.fill g.template (g.grouping.statistics records r) = .ok text) :
    gs.mapM (fun g ↦ g.apply f
        (records.map (·.writeAll (gs.flatMap fun g ↦ g.updates f records)))) =
      .ok (gs.map fun g ↦ ⟨g.updateField, [], records.length⟩) := by
  rw [Traversal.mapM_eq_ok_iff, List.forall₂_map_right_iff, List.forall₂_same]
  refine fun g hg ↦ apply_eq_ok_iff.2 ⟨List.forall_mem_map.2 fun r hr ↦ ?_, ?_⟩
  · rw [statistics_writeAll (hapart.isFor_flatMap_updates hg f records)]
    exact hfill g hg r hr
  · rw [updates_writeAll_eq_nil hreplace hfields hapart f hunique hg, List.length_map]
    rfl

end Group

/-! ### Evaluation -/

/-- Counting plays does not look at fields. -/
theorem TokenSet.evaluate_with_fields (tokens : TokenSet) (r : Record) (fields : Fields)
    (c : Context) :
    tokens.evaluate { r with file := { r.file with fields } } c = tokens.evaluate r c := by
  have htoken : ∀ t : Token,
      t.evaluate { r with file := { r.file with fields } } c = t.evaluate r c := by
    intro t
    cases t <;> rfl
  simp only [TokenSet.evaluate, htoken]

namespace Plan

variable {s : Settings} {now : Instant} {p : Plan} {files : List File} {records : List Record}
  {c : Context} {report : Report}

theorem record_with_fields (p : Plan) (c : Context) (f : File) (plays : List Instant)
    (fields : Fields) : p.record c { f with fields } plays =
      { p.record c f plays with file := { f with fields } } := by
  have hcount := fun r : Record ↦ p.tokens.evaluate_with_fields r fields c
  unfold record
  dsimp only
  by_cases hinfer : (p.settings.inferPrehistory &&
      decide (0 < (Record.ofFile f plays).prehistory)) = true
  · have hsame : (p.settings.inferPrehistory &&
        decide (0 < (Record.ofFile { f with fields } plays).prehistory)) = true := hinfer
    rw [if_pos hinfer, if_pos hsame]
    exact congrArg (Record.mk _ _ _) (hcount ((Record.ofFile f plays).completed c.floor))
  · have hsame : ¬ (p.settings.inferPrehistory &&
        decide (0 < (Record.ofFile { f with fields } plays).prehistory)) = true := hinfer
    rw [if_neg hinfer, if_neg hsame]
    exact congrArg (Record.mk _ _ _) (hcount (Record.ofFile f plays))

theorem record_writeAll (p : Plan) (c : Context) (f : File) (plays : List Instant)
    (us : List FieldUpdate) :
    p.record c (f.writeAll us) plays = (p.record c f plays).writeAll us := by
  obtain ⟨fields, hfields⟩ := f.exists_writeAll_eq us
  rw [hfields, record_with_fields, Record.writeAll, record_file, hfields]

theorem evaluate_writeAll (h : p.evaluate files = .ok (records, c)) (us : List FieldUpdate) :
    p.evaluate (files.map (·.writeAll us)) = .ok (records.map (·.writeAll us), c) := by
  obtain ⟨format, hformat⟩ := exists_format_of_evaluate h
  obtain ⟨hplays, rfl, rfl⟩ := (evaluate_eq_ok_iff hformat).1 h
  have hsame : ∀ f : File, format.plays (f.writeAll us).label (f.writeAll us).history =
      format.plays f.label f.history := by
    intro f
    obtain ⟨fields, hfields⟩ := f.exists_writeAll_eq us
    rw [hfields]
    rfl
  have hobserved : ∀ f : File, format.observed (f.writeAll us) = format.observed f := by
    intro f
    rw [History.Format.observed, hsame, ← History.Format.observed]
  refine (evaluate_eq_ok_iff hformat).2 ⟨List.forall_mem_map.2 fun f hf ↦ ?_, ?_, ?_⟩
  · rw [hsame]
    exact hplays f hf
  · simp only [List.map_map, Function.comp_def, hobserved]
  · simp only [List.map_map, Function.comp_def, hobserved, record_writeAll]

/-- Whatever is written, a report changes in nothing but what the groups have to say. -/
theorem run_writeAll (heval : p.evaluate files = .ok (records, c)) (h : p.run files = .ok report)
    (us : List FieldUpdate) {stats : List Outcome}
    (hstats : p.activeGroups.mapM
      (fun g ↦ g.apply p.filler (records.map (·.writeAll us))) = .ok stats) :
    p.run (files.map (·.writeAll us)) = .ok { report with stats } := by
  obtain ⟨_, playlists, _, hplaylists, rfl⟩ := exists_of_run_eq_ok h heval
  have hbuild : ∀ d : Definition,
      d.build p.tokens (Record.sortByOldest (records.map (·.writeAll us))) =
        d.build p.tokens (Record.sortByOldest records) := fun d ↦
    Definition.build_writeAll (has_statistics_of_evaluate heval) us
  have hevents : (records.map (·.writeAll us)).map (fun r ↦ r.events.length) =
      records.map fun r ↦ r.events.length := by
    rw [List.map_map]
    rfl
  have hinferred : (records.map (·.writeAll us)).map Record.inferred =
      records.map Record.inferred := by
    rw [List.map_map]
    rfl
  refine run_eq_ok_iff.2
    ⟨_, _, stats, playlists, evaluate_writeAll heval us, hstats, ?_, ?_⟩
  · simp only [hbuild]
    exact hplaylists
  · rw [hevents, hinferred, List.length_map]

/-- Writing a run's updates to the files and running again changes nothing more, if every group
replaces the value of a field of its own and none is by such a field: no group has an update, and
the totals and playlists are as before. -/
theorem run_writeAll_of_run (hplan : Plan.of s now = .ok p)
    (hreplace : ∀ g ∈ p.groups, g.append = false)
    (hfields : (p.groups.map fun g ↦ Text.lower g.updateField).Nodup)
    (hapart : Group.GroupingsApart p.groups) (hkeys : (files.map File.key).Nodup)
    (h : p.run files = .ok report) :
    p.run (files.map (·.writeAll (report.stats.flatMap Outcome.updates))) = .ok { report with
      stats := p.activeGroups.map fun g ↦ ⟨g.updateField, [], files.length⟩ } := by
  obtain ⟨⟨records, c⟩, heval, _⟩ := Traversal.bind_eq_ok_iff.1 h
  obtain ⟨hfill, hupdates⟩ := updates_of_run_eq_ok h heval
  obtain ⟨format, hformat⟩ := exists_format hplan
  have hfiles := map_file_of_evaluate hformat heval
  have hlength : files.length = records.length := by rw [← hfiles, List.length_map]
  have hunique : ∀ r ∈ records, ∀ q ∈ records, q.file.key = r.file.key → q = r := by
    rw [← hfiles, List.map_map] at hkeys
    exact fun r hr q hq hkey ↦ List.inj_on_of_nodup_map hkeys hq hr hkey
  have hactive := p.activeGroups_sublist
  rw [hupdates, hlength]
  exact run_writeAll heval h _ (Group.mapM_apply_writeAll_updates
    (fun g hg ↦ hreplace g (hactive.mem hg)) ((hactive.map _).nodup hfields)
    (hapart.mono hactive.subset) hunique hfill)

/-- A group by file, one by artist and one with the empty text for a field which no file has; the
group that appends is switched off. -/
theorem run_writeAll_of_run_by_artist :
    let s : Settings := {
      stats := [
        { enabled := true, updateField := "Custom", template := "[total] plays" },
        { enabled := true, updateField := "Notes", groupByField := " Artist ",
          template := "[permonth]" },
        { enabled := true, updateField := "Mood", template := "[peryear=2100]" },
        { append := true, updateField := "custom" }]
      playlists := [{ name := "Old", token := "unpopular" }] }
    let files : List File := [
      { key := 1, history := "2023-05-01", fields := [("custom", "jazz"), ("artist", "ABBA")] },
      { key := 2, fields := [("artist", "abba"), ("notes", "0")] }, { key := 3 }]
    ∃ p report, Plan.of s (.midnight ⟨yearStart 2024, by decide⟩) = .ok p ∧
      (∀ g ∈ p.groups, g.append = false) ∧
      (p.groups.map fun g ↦ Text.lower g.updateField).Nodup ∧ Group.GroupingsApart p.groups ∧
      (files.map File.key).Nodup ∧ p.run files = .ok report ∧
      p.run (files.map (·.writeAll (report.stats.flatMap Outcome.updates))) = .ok { report with
        stats := p.activeGroups.map fun g ↦ ⟨g.updateField, [], files.length⟩ } := by
  intro s files
  have hok : (Plan.of s (.midnight ⟨yearStart 2024, by decide⟩) >>= fun p ↦
      p.evaluate files).isOk = true := by
    decide +kernel
  obtain ⟨⟨_, _⟩, hboth⟩ := Traversal.exists_eq_ok_of_isOk hok
  obtain ⟨p, hplan, heval⟩ := Traversal.bind_eq_ok_iff.1 hboth
  obtain ⟨report, h⟩ := exists_run_of_evaluate hplan heval
  have hgroups : (∀ g ∈ p.groups, g.append = false) ∧
      (p.groups.map fun g ↦ Text.lower g.updateField).Nodup ∧ Group.GroupingsApart p.groups := by
    rw [(settings_of_eq_ok hplan).2.2.2]
    decide +kernel
  obtain ⟨hreplace, hfields, hapart⟩ := hgroups
  have hkeys : (files.map File.key).Nodup := by decide +kernel
  exact ⟨p, report, hplan, hreplace, hfields, hapart, hkeys, h,
    run_writeAll_of_run hplan hreplace hfields hapart hkeys h⟩

end Plan

end Jukebox
