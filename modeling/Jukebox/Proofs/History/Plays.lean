import Mathlib.Data.Option.Basic
import Jukebox.History.Basic
import Jukebox.Proofs.Calendar.Timeline
import Jukebox.Proofs.Traversal

/-!
The plays that a history records. There is one for every entry that is not blank
(`length_of_plays_eq_ok`), and they are in order (`pairwise_of_plays_eq_ok`). Once every entry has
an instant, only the midnight offset can fail: the plays are those instants moved back, all of them
or none (`plays_iff_of_read`). A history without plays has an entry that is no date, or a play that
the midnight offset moves out of the calendar (`fault_of_plays_eq_error`).
-/

set_option autoImplicit false
set_option relaxedAutoImplicit false

namespace Jukebox.History.Format

open Calendar

variable {f : Format} {file : FileName} {raw : String} {entries : List (List Char)}
  {instants : List Instant} {read : List Char → Option Instant}

/-- A play is what its entry names, moved back by the midnight offset. -/
theorem play_eq_ok_iff {entry : List Char} {t : Instant} :
    f.play file read entry = .ok t ↔
      ∃ u, read entry = some u ∧ u.plus (-(f.midnightOffset * 60000000000)) = some t := by
  unfold Format.play
  cases read entry with
  | none => simp
  | some u => cases hback : u.plus (-(f.midnightOffset * 60000000000)) <;> simp [hback]

/-- The plays are those of the entries, all taken by one reader, put in order. -/
theorem exists_mapM_of_plays_eq_ok {plays : List Instant} (h : f.plays file raw = .ok plays) :
    ∃ read unsorted, (f.entries raw).mapM (f.play file read) = .ok unsorted ∧
      plays = Instant.ascending unsorted := by
  unfold Format.plays at h
  split at h
  · rename_i hentries
    obtain rfl := Except.ok.inj h
    exact ⟨fun _ ↦ none, [], by rw [hentries]; rfl, List.mergeSort_nil.symm⟩
  · rename_i first rest hentries
    obtain ⟨unsorted, hmap, rfl⟩ := Traversal.map_eq_ok_iff.1 h
    exact ⟨f.reader first, unsorted, by rw [hentries, hmap], rfl⟩

/-- Plays can be counted before they are put in order. -/
theorem countP_of_plays_eq_ok {plays : List Instant} {first : List Char} {rest : List (List Char)}
    (h : f.plays file raw = .ok plays) (hentries : f.entries raw = first :: rest)
    (q : Instant → Bool) :
    ((first :: rest).mapM (f.play file (f.reader first))).map (List.countP q) =
      .ok (plays.countP q) := by
  rw [Format.plays, hentries] at h
  obtain ⟨unsorted, hmap, rfl⟩ := Traversal.map_eq_ok_iff.1 h
  rw [hmap, (Instant.ascending_perm unsorted).countP_eq]
  rfl

/-- There is one play for each entry that is not blank. -/
theorem length_of_plays_eq_ok {plays : List Instant} (h : f.plays file raw = .ok plays) :
    plays.length = (f.entries raw).length := by
  obtain ⟨read, unsorted, hmap, rfl⟩ := exists_mapM_of_plays_eq_ok h
  rw [(Instant.ascending_perm unsorted).length_eq]
  exact (Traversal.mapM_eq_ok_iff.1 hmap).length_eq.symm

theorem pairwise_of_plays_eq_ok {plays : List Instant} (h : f.plays file raw = .ok plays) :
    plays.Pairwise (· ≤ ·) := by
  obtain ⟨read, unsorted, _, rfl⟩ := exists_mapM_of_plays_eq_ok h
  exact Instant.pairwise_ascending unsorted

/-! ### The midnight offset -/

/-- An instant moved back by the midnight offset. -/
def moveBack (f : Format) (file : FileName) (t : Instant) : Except HistoryError Instant :=
  match t.plus (-(f.midnightOffset * 60000000000)) with
  | none => .error (.outOfRange file)
  | some u => .ok u

/-- Each instant goes back by the midnight offset, within the calendar. -/
def MovedBack (f : Format) : (instants moved : List Instant) → Prop :=
  List.Forall₂ fun t u ↦ t.plus (-(f.midnightOffset * 60000000000)) = some u

theorem moveBack_eq_ok_iff {t u : Instant} :
    f.moveBack file t = .ok u ↔ t.plus (-(f.midnightOffset * 60000000000)) = some u := by
  unfold moveBack
  cases t.plus (-(f.midnightOffset * 60000000000)) <;> simp

theorem moveBack_eq_error_iff {t : Instant} {e : HistoryError} :
    f.moveBack file t = .error e ↔
      e = .outOfRange file ∧ t.plus (-(f.midnightOffset * 60000000000)) = none := by
  unfold moveBack
  cases t.plus (-(f.midnightOffset * 60000000000)) <;> simp [eq_comm]

theorem mapM_moveBack_eq_ok_iff {moved : List Instant} :
    instants.mapM (f.moveBack file) = .ok moved ↔ f.MovedBack instants moved := by
  rw [Traversal.mapM_eq_ok_iff, MovedBack]
  simp only [moveBack_eq_ok_iff]

theorem mapM_moveBack_eq_error_iff {e : HistoryError} :
    instants.mapM (f.moveBack file) = .error e ↔ e = .outOfRange file ∧
      ∃ t ∈ instants, t.plus (-(f.midnightOffset * 60000000000)) = none := by
  have hforth : ∀ {e : HistoryError}, instants.mapM (f.moveBack file) = .error e →
      e = .outOfRange file ∧
        ∃ t ∈ instants, t.plus (-(f.midnightOffset * 60000000000)) = none := by
    intro e h
    obtain ⟨t, ht, herror⟩ := Traversal.exists_mem_eq_error h
    obtain ⟨he, hnone⟩ := moveBack_eq_error_iff.1 herror
    exact ⟨he, t, ht, hnone⟩
  refine ⟨hforth, ?_⟩
  rintro ⟨rfl, t, ht, hnone⟩
  cases hmap : instants.mapM (f.moveBack file) with
  | error e => rw [(hforth hmap).1]
  | ok moved =>
    obtain ⟨u, hu⟩ := Traversal.exists_mapM_eq_ok_iff.1 ⟨moved, hmap⟩ t ht
    rw [moveBack_eq_ok_iff, hnone] at hu
    cases hu

/-! ### Entries that all have an instant -/

/-- What is left to do for an entry that has an instant is to move it back. -/
theorem play_eq_moveBack {entry : List Char} {t : Instant} (h : read entry = some t) :
    f.play file read entry = f.moveBack file t := by
  rw [Format.play, h]
  rfl

theorem mapM_play_eq_mapM_moveBack
    (h : List.Forall₂ (fun entry t ↦ read entry = some t) entries instants) :
    entries.mapM (f.play file read) = instants.mapM (f.moveBack file) := by
  induction h with
  | nil => rfl
  | cons hread _ ih => rw [List.mapM_cons, List.mapM_cons, play_eq_moveBack hread, ih]

/-- Once every entry has an instant, the plays are these instants moved back, and the only fault is
an instant that cannot be moved. -/
theorem plays_iff_of_read {first : List Char} {rest : List (List Char)}
    (hentries : f.entries raw = first :: rest)
    (h : List.Forall₂ (fun entry t ↦ f.reader first entry = some t) (f.entries raw) instants) :
    (∀ plays, f.plays file raw = .ok plays ↔
      ∃ moved, f.MovedBack instants moved ∧ plays.Perm moved ∧ plays.Pairwise (· ≤ ·)) ∧
    ∀ e, f.plays file raw = .error e ↔ e = .outOfRange file ∧
      ∃ t ∈ instants, t.plus (-(f.midnightOffset * 60000000000)) = none := by
  have hplays : f.plays file raw = (instants.mapM (f.moveBack file)).map Instant.ascending := by
    rw [Format.plays, hentries, ← mapM_play_eq_mapM_moveBack h, hentries]
  constructor
  · intro plays
    simp only [hplays, Traversal.map_eq_ok_iff, mapM_moveBack_eq_ok_iff, Instant.ascending_eq_iff]
  · intro e
    rw [hplays, Traversal.map_eq_error_iff, mapM_moveBack_eq_error_iff]

/-! ### Faults -/

/-- What can be wrong with a history: an entry of it, or where its midnight offset leads. -/
inductive Fault (f : Format) (file : FileName) (raw : String) : HistoryError → Prop
  | entry (entry : List Char) (hentry : entry ∈ f.entries raw) :
      Fault f file raw (.badEntry file (String.ofList entry))
  | range : Fault f file raw (.outOfRange file)

theorem fault_of_play_eq_error {entry : List Char} {e : HistoryError}
    (hentry : entry ∈ f.entries raw) (h : f.play file read entry = .error e) :
    Fault f file raw e := by
  unfold Format.play at h
  split at h
  · obtain rfl := Except.error.inj h
    exact .entry entry hentry
  · split at h
    · obtain rfl := Except.error.inj h
      exact .range
    · cases h

theorem fault_of_plays_eq_error {e : HistoryError} (h : f.plays file raw = .error e) :
    Fault f file raw e := by
  unfold Format.plays at h
  split at h
  · cases h
  · rename_i first rest hentries
    rw [← hentries, Traversal.map_eq_error_iff] at h
    obtain ⟨entry, hentry, hplay⟩ := Traversal.exists_mem_eq_error h
    exact fault_of_play_eq_error hentry hplay

end Jukebox.History.Format
