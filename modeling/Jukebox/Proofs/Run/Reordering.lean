import Jukebox.Proofs.Run.Outcome
import Jukebox.Proofs.Statistics.Sharing

/-!
# The order of files

The files of a library have no order that means anything. What all files share is a minimum
(`oldestPlay?_of_perm`), and what some of them share is a sum that is looked up by tokens only
(`Group.text_of_perm`), so each file is counted, filled and updated alike wherever it stands
(`evaluate_and_apply_of_perm`).
-/

set_option autoImplicit false
set_option relaxedAutoImplicit false

namespace Jukebox

open Calendar

/-! ### The oldest play -/

theorem oldestPlay?_of_perm {histories others : List (List Instant)}
    (hsorted : ∀ plays ∈ histories, plays.Pairwise (· ≤ ·)) (hperm : histories.Perm others) :
    oldestPlay? histories = oldestPlay? others := by
  have hsorted' : ∀ plays ∈ others, plays.Pairwise (· ≤ ·) :=
    fun plays hplays ↦ hsorted plays (hperm.mem_iff.2 hplays)
  ext t
  rw [oldestPlay?_eq_some_iff hsorted, oldestPlay?_eq_some_iff hsorted']
  simp only [hperm.mem_iff]

/-! ### Texts -/

/-- Filling looks at statistics only token by token. -/
theorem Filler.fill_congr {s t : Statistics} (h : ∀ text, s.get? text = t.get? text) (f : Filler)
    (template : String) : f.fill template s = f.fill template t :=
  fill_congr_of_tokens rfl (fun _ _ ↦ rfl) fun _ _ token _ ↦ h token.text

theorem Grouping.get?_statistics_of_perm {records others : List Record}
    (hperm : records.Perm others) (r : Record) (grouping : Grouping) (text : String) :
    (grouping.statistics records r).get? text = (grouping.statistics others r).get? text := by
  cases grouping with
  | file => rfl
  | field name => exact Statistics.get?_sum_of_perm ((hperm.filter _).map _) text

/-- The text for a record is the same among the same records in another order. -/
theorem Group.text_of_perm {records others : List Record} (hperm : records.Perm others) (g : Group)
    (f : Filler) (r : Record) : g.text f records r = g.text f others r := by
  rw [Group.text, Group.text,
    f.fill_congr (g.grouping.get?_statistics_of_perm hperm r) g.template]

/-! ### Runs -/

namespace Plan

variable {p : Plan} {format : History.Format} {files others : List File}

/-- Files in another order have the same context, and the same records in this order. -/
theorem exists_evaluate_of_perm (hformat : p.format = .ok format)
    (hplays : ∀ f ∈ files, ∃ plays, format.plays f.label f.history = .ok plays)
    (hperm : files.Perm others) :
    ∃ c, p.evaluate files = .ok (files.map fun f ↦ p.record c f (format.observed f), c) ∧
      p.evaluate others = .ok (others.map fun f ↦ p.record c f (format.observed f), c) := by
  have hplays' : ∀ f ∈ others, ∃ plays, format.plays f.label f.history = .ok plays :=
    fun f hf ↦ hplays f (hperm.mem_iff.2 hf)
  have hsorted : ∀ plays ∈ files.map format.observed, plays.Pairwise (· ≤ ·) :=
    pairwise_histories files
  have holdest := oldestPlay?_of_perm hsorted (hperm.map format.observed)
  refine ⟨_, (evaluate_eq_ok_iff hformat).2 ⟨hplays, rfl, rfl⟩, ?_⟩
  rw [holdest]
  exact (evaluate_eq_ok_iff hformat).2 ⟨hplays', rfl, rfl⟩

end Plan

/-- Files in another order are evaluated in the same context to the same records in this order, and
every group finds the same texts for them: the same files are updated, to the same values. -/
theorem evaluate_and_apply_of_perm {s : Settings} {now : Instant} {p : Plan}
    {format : History.Format} {files others : List File} (hplan : Plan.of s now = .ok p)
    (hformat : p.format = .ok format)
    (hplays : ∀ f ∈ files, ∃ plays, format.plays f.label f.history = .ok plays)
    (hperm : files.Perm others) :
    ∃ (c : Context) (count : File → Record),
      p.evaluate files = .ok (files.map count, c) ∧ p.evaluate others = .ok (others.map count, c) ∧
      (∀ f, (count f).file = f) ∧
      ∀ g ∈ p.groups, ∃ (text : File → String) (outcome other : Outcome),
        g.apply p.filler (files.map count) = .ok outcome ∧
        g.apply p.filler (others.map count) = .ok other ∧
        outcome.updates = files.filterMap (fun f ↦ g.update? (count f) (text f)) ∧
        other.updates = others.filterMap (fun f ↦ g.update? (count f) (text f)) ∧
        outcome.unchanged = other.unchanged := by
  obtain ⟨c, hfiles, hothers⟩ := Plan.exists_evaluate_of_perm hformat hplays hperm
  let count : File → Record := fun f ↦ p.record c f (format.observed f)
  refine ⟨c, count, hfiles, hothers, fun f ↦ Plan.record_file p c f (format.observed f),
    fun g hg ↦ ?_⟩
  obtain ⟨outcome, houtcome⟩ :=
    Group.exists_apply_eq_ok (Plan.covers_of_evaluate hplan hfiles hg p.settings.seriesSeparator)
  obtain ⟨other, hother⟩ :=
    Group.exists_apply_eq_ok (Plan.covers_of_evaluate hplan hothers hg p.settings.seriesSeparator)
  let text : File → String := fun f ↦ g.text p.filler (files.map count) (count f)
  have hupdates : g.updates p.filler (files.map count) =
      files.filterMap fun f ↦ g.update? (count f) (text f) := List.filterMap_map
  have hupdates' : g.updates p.filler (others.map count) =
      others.filterMap fun f ↦ g.update? (count f) (text f) := by
    have htext := Group.text_of_perm (hperm.map count) g p.filler
    rw [Group.updates, List.filterMap_map]
    simp only [Function.comp_def, ← htext]
    rfl
  refine ⟨text, outcome, other, houtcome, hother, ?_, ?_, ?_⟩
  · rw [(Group.apply_eq_ok_iff.1 houtcome).2]
    exact hupdates
  · rw [(Group.apply_eq_ok_iff.1 hother).2]
    exact hupdates'
  · rw [(Group.apply_eq_ok_iff.1 houtcome).2, (Group.apply_eq_ok_iff.1 hother).2]
    change _ - (g.updates p.filler (files.map count)).length =
      _ - (g.updates p.filler (others.map count)).length
    rw [hupdates, hupdates', (hperm.map count).length_eq, (hperm.filterMap _).length_eq]

/-- Three files, two of which share a series by their album, in the opposite order. -/
theorem evaluate_and_apply_of_perm_reverse :
    let s : Settings := {
      stats := [
        { enabled := true, append := true, groupByField := "Album", template := "[permonth]" },
        { enabled := true, template := "[total]" }] }
    let files : List File := [
      { key := 1, history := "2024-05-01", declaredPlays := 3, fields := [("album", "Gold")] },
      { key := 2, history := "2024-06-02;2023-01-31" },
      { key := 3, imported := 1700000000, declaredPlays := 2, fields := [("album", "GOLD")] }]
    ∃ p format, Plan.of s (.midnight ⟨yearStart 2024, by decide⟩) = .ok p ∧
      p.format = .ok format ∧
      (∀ f ∈ files, ∃ plays, format.plays f.label f.history = .ok plays) ∧
      files.Perm files.reverse ∧
      ∃ (c : Context) (count : File → Record),
        p.evaluate files = .ok (files.map count, c) ∧
        p.evaluate files.reverse = .ok (files.reverse.map count, c) ∧
        (∀ f, (count f).file = f) ∧
        ∀ g ∈ p.groups, ∃ (text : File → String) (outcome other : Outcome),
          g.apply p.filler (files.map count) = .ok outcome ∧
          g.apply p.filler (files.reverse.map count) = .ok other ∧
          outcome.updates = files.filterMap (fun f ↦ g.update? (count f) (text f)) ∧
          other.updates = files.reverse.filterMap (fun f ↦ g.update? (count f) (text f)) ∧
          outcome.unchanged = other.unchanged := by
  intro s files
  have hok : (Plan.of s (.midnight ⟨yearStart 2024, by decide⟩) >>= fun p ↦
      p.evaluate files).isOk = true := by
    decide +kernel
  obtain ⟨⟨records, c⟩, hboth⟩ := Traversal.exists_eq_ok_of_isOk hok
  obtain ⟨p, hplan, h⟩ := Traversal.bind_eq_ok_iff.1 hboth
  obtain ⟨format, hformat⟩ := Plan.exists_format_of_evaluate h
  have hplays := (Plan.exists_evaluate_iff hformat).1 ⟨records, c, h⟩
  have hperm : files.Perm files.reverse := files.reverse_perm.symm
  exact ⟨p, format, hplan, hformat, hplays, hperm,
    evaluate_and_apply_of_perm hplan hformat hplays hperm⟩

end Jukebox
