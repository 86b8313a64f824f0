import Jukebox.Proofs.Run.Evaluation

/-!
# When a run has a report

A run is an evaluation, and then what groups and playlists make of its records
(`Plan.run_eq_ok_iff`). A plan has been checked once, when it was made; a run of it can fail only
for the histories of its files. `Plan.exists_run_of_evaluate` says that nothing goes wrong behind
the evaluation: whatever a template or a playlist asks for has a statistic in every record. So a
run has a report exactly when all histories have plays, and otherwise names a fault of one of them
(`run_ok_iff_histories_have_plays`).
-/

set_option autoImplicit false
set_option relaxedAutoImplicit false

namespace Jukebox

open Calendar

namespace Plan

variable {s : Settings} {now : Instant} {p : Plan} {files : List File} {records : List Record}
  {c : Context}

/-- Evaluated records have a statistic for each token of the plan. -/
theorem has_statistics_of_evaluate (h : p.evaluate files = .ok (records, c)) :
    ∀ t ∈ p.tokens.tokens, ∀ r ∈ records, r.statistics.Has t.text := by
  obtain ⟨format, hformat⟩ := exists_format_of_evaluate h
  obtain ⟨_, _, rfl⟩ := (evaluate_eq_ok_iff hformat).1 h
  intro t ht r hr
  obtain ⟨f, _, rfl⟩ := List.mem_map.1 hr
  exact ⟨_, get?_statistics p c f (format.observed f) ht⟩

/-- Evaluated records can be filled into the templates of the plan. -/
theorem covers_of_evaluate (hplan : Plan.of s now = .ok p)
    (h : p.evaluate files = .ok (records, c)) {g : Group} (hg : g ∈ p.groups) (separator : String) :
    ∀ r ∈ records, (Filler.mk p.tokens separator).Covers g.template r.statistics := by
  intro r hr inner hinner
  obtain ⟨t, ht⟩ := exists_get?_of_group hplan hg hinner
  exact ⟨t, ht, has_statistics_of_evaluate h t (TokenSet.mem_of_get?_eq_some ht) r hr⟩

/-- A report says what the active groups and playlists make of the evaluated records. -/
theorem run_eq_ok_iff {report : Report} :
    p.run files = .ok report ↔ ∃ records c stats playlists, p.evaluate files = .ok (records, c) ∧
      p.activeGroups.mapM (fun g ↦ g.apply p.filler records) = .ok stats ∧
      p.activePlaylists.mapM (fun d ↦ d.build p.tokens (Record.sortByOldest records)) =
        .ok playlists ∧
      report = {
        now := p.reference.now
        files := files.length
        totalEvents := (records.map fun r ↦ r.events.length).sum
        inferredEvents := (records.map Record.inferred).sum
        stats
        playlists } := by
  constructor
  · intro h
    obtain ⟨⟨records, c⟩, heval, h⟩ := Traversal.bind_eq_ok_iff.1 h
    obtain ⟨stats, hstats, h⟩ := Traversal.bind_eq_ok_iff.1 h
    obtain ⟨playlists, hplaylists, h⟩ := Traversal.bind_eq_ok_iff.1 h
    exact ⟨records, c, stats, playlists, heval, Traversal.mapError_eq_ok_iff.1 hstats,
      Traversal.mapError_eq_ok_iff.1 hplaylists, (Except.ok.inj h).symm⟩
  · rintro ⟨records, c, stats, playlists, heval, hstats, hplaylists, rfl⟩
    exact Traversal.bind_eq_ok_iff.2 ⟨(records, c), heval, Traversal.bind_eq_ok_iff.2
      ⟨stats, Traversal.mapError_eq_ok_iff.2 hstats, Traversal.bind_eq_ok_iff.2
        ⟨playlists, Traversal.mapError_eq_ok_iff.2 hplaylists, rfl⟩⟩⟩

/-- Nothing goes wrong behind the evaluation. -/
theorem exists_run_of_evaluate (hplan : Plan.of s now = .ok p)
    (h : p.evaluate files = .ok (records, c)) : ∃ report, p.run files = .ok report := by
  obtain ⟨stats, hstats⟩ : ∃ stats, p.activeGroups.mapM
      (fun g ↦ g.apply p.filler records) = .ok stats := by
    apply Traversal.exists_mapM_eq_ok
    intro g hg
    apply Group.exists_apply_eq_ok
    exact covers_of_evaluate hplan h (p.activeGroups_sublist.mem hg) p.settings.seriesSeparator
  obtain ⟨playlists, hplaylists⟩ : ∃ playlists, p.activePlaylists.mapM
      (fun d ↦ d.build p.tokens (Record.sortByOldest records)) = .ok playlists := by
    apply Traversal.exists_mapM_eq_ok
    intro d hd
    obtain ⟨token, htoken⟩ := exists_rankingToken hplan d (p.activePlaylists_sublist.mem hd)
    apply Definition.exists_build_eq_ok htoken
    intro t ht r hr
    exact has_statistics_of_evaluate h t ht r ((List.mergeSort_perm _ _).mem_iff.1 hr)
  exact ⟨_, run_eq_ok_iff.2 ⟨records, c, stats, playlists, h, hstats, hplaylists, rfl⟩⟩

/-- A report is about the records of the evaluation. -/
theorem exists_of_run_eq_ok {report : Report} (h : p.run files = .ok report)
    (heval : p.evaluate files = .ok (records, c)) :
    ∃ stats playlists, p.activeGroups.mapM (fun g ↦ g.apply p.filler records) = .ok stats ∧
      p.activePlaylists.mapM (fun d ↦ d.build p.tokens (Record.sortByOldest records)) =
        .ok playlists ∧
      report = {
        now := p.reference.now
        files := files.length
        totalEvents := (records.map fun r ↦ r.events.length).sum
        inferredEvents := (records.map Record.inferred).sum
        stats
        playlists } := by
  obtain ⟨_, _, stats, playlists, hok, hall⟩ := run_eq_ok_iff.1 h
  rw [heval] at hok
  obtain ⟨rfl, rfl⟩ := Prod.mk.inj (Except.ok.inj hok)
  exact ⟨stats, playlists, hall⟩

/-- A report adds up the records of the evaluation. -/
theorem totals_of_run_eq_ok {report : Report} (h : p.run files = .ok report)
    (heval : p.evaluate files = .ok (records, c)) :
    report.totalEvents = (records.map fun r ↦ r.events.length).sum ∧
      report.inferredEvents = (records.map Record.inferred).sum := by
  obtain ⟨_, _, _, _, rfl⟩ := exists_of_run_eq_ok h heval
  exact ⟨rfl, rfl⟩

/-- What a report says about groups and playlists, they make of the records of the evaluation. -/
theorem stages_of_run_eq_ok {report : Report} (h : p.run files = .ok report)
    (heval : p.evaluate files = .ok (records, c)) :
    p.activeGroups.mapM (fun g ↦ g.apply p.filler records) = .ok report.stats ∧
      p.activePlaylists.mapM (fun d ↦ d.build p.tokens (Record.sortByOldest records)) =
        .ok report.playlists := by
  obtain ⟨_, _, hstats, hplaylists, rfl⟩ := exists_of_run_eq_ok h heval
  exact ⟨hstats, hplaylists⟩

/-- A run that ends without a report ends in the evaluation. -/
theorem evaluate_eq_error_of_run {e : RunError} (hplan : Plan.of s now = .ok p)
    (h : p.run files = .error e) : p.evaluate files = .error e := by
  cases heval : p.evaluate files with
  | error e' =>
    rcases Traversal.bind_eq_error_iff.1 h with herror | ⟨_, hok, _⟩
    · rw [← heval, herror]
    · rw [heval] at hok
      cases hok
  | ok result =>
    obtain ⟨report, hreport⟩ := exists_run_of_evaluate hplan heval
    rw [h] at hreport
    cases hreport

end Plan

/-- A run has a report exactly when every history has plays. Otherwise it ends with the fault of a
history: an entry that is no date, or a play that the midnight offset moves out of the calendar. -/
theorem run_ok_iff_histories_have_plays {s : Settings} {now : Instant} {p : Plan}
    (h : Plan.of s now = .ok p) (files : List File) :
    ∃ format, p.format = .ok format ∧
      ((∃ report, p.run files = .ok report) ↔
        ∀ f ∈ files, ∃ plays, format.plays f.label f.history = .ok plays) ∧
      ∀ e, p.run files = .error e → ∃ f ∈ files, ∃ cause, e = .history cause ∧
        format.plays f.label f.history = .error cause ∧ format.Fault f.label f.history cause := by
  obtain ⟨format, hformat⟩ := Plan.exists_format h
  refine ⟨format, hformat, ?_, ?_⟩
  · rw [← Plan.exists_evaluate_iff hformat]
    constructor
    · rintro ⟨report, hreport⟩
      obtain ⟨⟨records, c⟩, heval, _⟩ := Traversal.bind_eq_ok_iff.1 hreport
      exact ⟨records, c, heval⟩
    · rintro ⟨records, c, heval⟩
      exact Plan.exists_run_of_evaluate h heval
  · intro e he
    obtain ⟨f, hf, cause, hplays, rfl⟩ :=
      Plan.exists_of_evaluate_eq_error hformat (Plan.evaluate_eq_error_of_run h he)
    exact ⟨f, hf, cause, rfl, hplays, History.Format.fault_of_plays_eq_error hplays⟩

/-- A plan with a template and a yearly playlist, run for a file with an entry that is no date. -/
theorem run_ok_iff_histories_have_plays_bad_entry :
    ∃ p, Plan.of {
          stats := [{ enabled := true, template := "[ Total ];[month-1]" }]
          playlists := [{ name := "Best of [year]", token := "[ PerYear ]" }] }
        (.midnight ⟨yearStart 2021, by decide⟩) = .ok p ∧
      ∃ format, p.format = .ok format ∧
        ((∃ report, p.run [{ history := "45000;x" }] = .ok report) ↔
          ∀ f ∈ [({ history := "45000;x" } : File)],
            ∃ plays, format.plays f.label f.history = .ok plays) ∧
        ∀ e, p.run [{ history := "45000;x" }] = .error e →
          ∃ f ∈ [({ history := "45000;x" } : File)], ∃ cause, e = .history cause ∧
            format.plays f.label f.history = .error cause ∧
            format.Fault f.label f.history cause := by
  have hok : (Plan.of {
        stats := [{ enabled := true, template := "[ Total ];[month-1]" }]
        playlists := [{ name := "Best of [year]", token := "[ PerYear ]" }] }
      (.midnight ⟨yearStart 2021, by decide⟩)).isOk = true := by
    decide +kernel
  obtain ⟨p, hplan⟩ := Traversal.exists_eq_ok_of_isOk hok
  exact ⟨p, hplan, run_ok_iff_histories_have_plays hplan _⟩

end Jukebox
