import Jukebox.Library.Record
import Jukebox.Proofs.Calendar.Timeline
import Jukebox.Text.Numeral

/-!
# Plays that are added to a record

A record begins with the plays of a history, and lists of inferred plays are added to it, one after
the other. `Record.Merged` says what it holds then: all plays in order and none of them lost, the
oldest of them, and the counts of the observed and of the missing ones. A record has this when it
begins (`Record.merged_ofFile`), an addition keeps it (`Record.Merged.addInferred`), and so it has it
after any additions (`Record.merged_addAll`).

The oldest play and the number of missing plays may be kept in places of their own, the one written
anew with each list that is not empty and the other once, in a word of 32 bits. They stay what the
record says (`Record.Kept.addAll_eq`).
-/

set_option autoImplicit false
set_option relaxedAutoImplicit false

namespace Jukebox

open Calendar

namespace Record

/-! ### The oldest play -/

theorem earliest?_eq_none_iff {r : Record} : r.earliest? = none ↔ r.events = [] :=
  List.head?_eq_none_iff

/-- Of plays in order, the first is the oldest. -/
theorem earliest?_spec {r : Record} (hordered : r.events.Pairwise (· ≤ ·)) {t : Instant}
    (h : r.earliest? = some t) : t ∈ r.events ∧ ∀ u ∈ r.events, t ≤ u := by
  refine ⟨List.mem_of_head? h, fun u hu ↦ ?_⟩
  unfold earliest? at h
  cases hevents : r.events with
  | nil =>
    rw [hevents] at h
    cases h
  | cons first rest =>
    rw [hevents] at h hordered hu
    obtain rfl := Option.some.inj h
    rcases List.mem_cons.1 hu with rfl | hu
    · exact Int.le_refl _
    · exact (List.pairwise_cons.1 hordered).1 u hu

theorem earliest?_eq_some_iff {r : Record} (hordered : r.events.Pairwise (· ≤ ·)) {t : Instant} :
    r.earliest? = some t ↔ t ∈ r.events ∧ ∀ u ∈ r.events, t ≤ u := by
  refine ⟨earliest?_spec hordered, fun ⟨hmem, hle⟩ ↦ ?_⟩
  obtain ⟨s, hs⟩ := Option.ne_none_iff_exists'.1 fun hnone ↦
    List.ne_nil_of_mem hmem (earliest?_eq_none_iff.1 hnone)
  obtain ⟨hmem', hle'⟩ := earliest?_spec hordered hs
  rw [hs, Instant.rank_inj.1 (Int.le_antisymm (hle s hmem') (hle' t hmem))]

/-! ### Additions -/

/-- The record after some lists of plays have been added. -/
def addAll (r : Record) (lists : List (List Instant)) : Record := lists.foldl addInferred r

/-- What a record of a file says when some plays have been observed and others have been added. -/
structure Merged (file : File) (observed added : List Instant) (r : Record) : Prop where
  file_eq : r.file = file
  ordered : r.events.Pairwise (· ≤ ·)
  /-- No play is lost, and none is doubled. -/
  perm : r.events.Perm (observed ++ added)
  earliest_none : r.earliest? = none ↔ r.events = []
  earliest_some : ∀ t, r.earliest? = some t ↔ t ∈ r.events ∧ ∀ u ∈ r.events, t ≤ u
  observed_eq : r.observed = observed.length
  observed_le : r.observed ≤ r.events.length
  inferred_eq : r.inferred = added.length
  prehistory_eq : (r.prehistory : Int) = max 0 ((file.declaredPlays : Int) - observed.length)

section

variable {file : File} {observed added : List Instant} {r : Record}

/-- The counts and the oldest play follow from the plays. -/
theorem Merged.of_perm (hfile : r.file = file) (hordered : r.events.Pairwise (· ≤ ·))
    (hperm : r.events.Perm (observed ++ added)) (hobserved : r.observed = observed.length) :
    r.Merged file observed added := by
  have hlength : r.events.length = observed.length + added.length := by
    rw [hperm.length_eq, List.length_append]
  refine ⟨hfile, hordered, hperm, earliest?_eq_none_iff, fun t ↦ earliest?_eq_some_iff hordered,
    hobserved, ?_, ?_, ?_⟩
  · omega
  · rw [inferred]
    omega
  · rw [prehistory, hfile, hobserved]
    omega

theorem merged_ofFile (file : File) (observed : List Instant) :
    (ofFile file observed).Merged file observed [] := by
  refine Merged.of_perm rfl (pairwise_events_ofFile file observed) ?_ rfl
  rw [List.append_nil]
  exact Instant.ascending_perm observed

/-- An addition keeps what the record says of the file, and takes in all its plays. -/
theorem Merged.addInferred (h : r.Merged file observed added) (plays : List Instant) :
    (r.addInferred plays).Merged file observed (added ++ plays) := by
  refine Merged.of_perm h.file_eq (pairwise_events_addInferred r plays) ?_ h.observed_eq
  rw [← List.append_assoc]
  exact (Instant.ascending_perm _).trans (h.perm.append_right plays)

theorem Merged.addAll (h : r.Merged file observed added) (lists : List (List Instant)) :
    (r.addAll lists).Merged file observed (added ++ lists.flatten) := by
  induction lists generalizing r added with
  | nil => rwa [List.flatten_nil, List.append_nil]
  | cons plays rest ih =>
    rw [List.flatten_cons, ← List.append_assoc]
    exact ih (h.addInferred plays)

theorem merged_addAll (file : File) (observed : List Instant) (lists : List (List Instant)) :
    ((ofFile file observed).addAll lists).Merged file observed lists.flatten :=
  (merged_ofFile file observed).addAll lists

/-- To add nothing changes nothing. -/
theorem Merged.addInferred_nil (h : r.Merged file observed added) : r.addInferred [] = r := by
  have hevents : Instant.ascending (r.events ++ []) = r.events := by
    rw [List.append_nil]
    exact Instant.ascending_eq_iff.2 ⟨.refl _, h.ordered⟩
  rw [Record.addInferred, hevents]

end

/-! ### Counts and bounds in places of their own -/

/-- The plays of a record, with the number of missing ones and the oldest one kept beside them. -/
structure Kept where
  events : List Instant
  observed : Nat
  /-- The number of missing plays, in a word of 32 bits. -/
  missing : UInt32
  oldest : Option Instant

/-- What a record keeps if it keeps what it says. -/
def kept (r : Record) : Kept := ⟨r.events, r.observed, .ofNat r.prehistory, r.earliest?⟩

namespace Kept

/-- Reads the oldest play off the plays. -/
def refresh (k : Kept) : Kept := { k with oldest := k.events.head? }

def ofFile (file : File) (observed : List Instant) : Kept :=
  refresh {
    events := Instant.ascending observed
    observed := observed.length
    missing := .ofNat (file.declaredPlays - observed.length)
    oldest := none }

/-- Adds plays; an empty list leaves all as it is. -/
def add (k : Kept) (plays : List Instant) : Kept :=
  if plays = [] then k else refresh { k with events := Instant.ascending (k.events ++ plays) }

def addAll (k : Kept) (lists : List (List Instant)) : Kept := lists.foldl add k

variable {file : File} {observed added : List Instant} {r : Record}

theorem add_kept (h : r.Merged file observed added) (plays : List Instant) :
    r.kept.add plays = (r.addInferred plays).kept := by
  unfold add
  split
  · rename_i hempty
    rw [hempty, h.addInferred_nil]
  · rfl

theorem addAll_kept (h : r.Merged file observed added) (lists : List (List Instant)) :
    r.kept.addAll lists = (r.addAll lists).kept := by
  induction lists generalizing r added with
  | nil => rfl
  | cons plays rest ih =>
    rw [addAll, List.foldl_cons, add_kept h]
    exact ih (h.addInferred plays)

/-- What is kept stays what the record says. -/
theorem addAll_eq (file : File) (observed : List Instant) (lists : List (List Instant)) :
    (ofFile file observed).addAll lists = ((Record.ofFile file observed).addAll lists).kept :=
  addAll_kept (merged_ofFile file observed) lists

end Kept

/-- Whatever lists of plays are added to the record of a file, empty ones among them, the record
holds the observed plays and all added ones in order, with the oldest of them first, and counts the
observed, the added and the missing ones. What a record keeps of this beside its plays is never out
of date, and the number of missing plays is not cut off where the library counts plays in 32
bits. -/
theorem additions_merge (file : File) (observed : List Instant) (lists : List (List Instant)) :
    ((ofFile file observed).addAll lists).Merged file observed lists.flatten ∧
      (Kept.ofFile file observed).addAll lists = ((ofFile file observed).addAll lists).kept ∧
      (file.declaredPlays ≤ Text.maxUInt32 →
        (((Kept.ofFile file observed).addAll lists).missing.toNat : Int) =
          max 0 ((file.declaredPlays : Int) - observed.length)) := by
  have hmerged := merged_addAll file observed lists
  refine ⟨hmerged, Kept.addAll_eq file observed lists, fun hdeclared ↦ ?_⟩
  rw [Kept.addAll_eq, kept, ← hmerged.prehistory_eq, UInt32.toNat_ofNat_of_lt']
  have hprehistory := hmerged.prehistory_eq
  rw [Text.maxUInt32] at hdeclared
  simp only [UInt32.size]
  omega

/-- Two of five plays are observed, the later one first, and three are added in two lists with an
empty one between them; the oldest of them is the last one added. -/
theorem additions_merge_empty_list :
    let day (n : Nat) (h : n < 366) : Instant := .midnight ⟨yearStart 2024 + n, by
      have hfirst : firstDay ≤ yearStart 2024 := by decide
      have hlast : yearStart 2024 + 365 ≤ lastDay := by decide
      omega⟩
    let file : File := { declaredPlays := 5 }
    let observed := [day 60 (by decide), day 30 (by decide)]
    let lists := [[day 20 (by decide), day 30 (by decide)], [], [day 10 (by decide)]]
    file.declaredPlays ≤ Text.maxUInt32 ∧
      ((ofFile file observed).addAll lists).Merged file observed lists.flatten ∧
      ((ofFile file observed).addAll lists).earliest? = some (day 10 (by decide)) ∧
      ((Kept.ofFile file observed).addAll lists).missing.toNat = 3 := by
  intro day file observed lists
  have hdeclared : file.declaredPlays ≤ Text.maxUInt32 := by decide
  obtain ⟨hmerged, _, hmissing⟩ := additions_merge file observed lists
  have holdest : day 10 (by decide) ∈ observed ++ lists.flatten ∧
      ∀ u ∈ observed ++ lists.flatten, day 10 (by decide) ≤ u := by decide
  have hearliest := (hmerged.earliest_some (day 10 (by decide))).2
    ⟨hmerged.perm.mem_iff.2 holdest.1, fun u hu ↦ holdest.2 u (hmerged.perm.mem_iff.1 hu)⟩
  exact ⟨hdeclared, hmerged, hearliest, Int.ofNat.inj (hmissing hdeclared)⟩

end Record

end Jukebox
