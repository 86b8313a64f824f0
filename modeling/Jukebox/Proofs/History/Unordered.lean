import Mathlib.Data.List.Perm.Basic
import Mathlib.Data.Option.Basic
import Jukebox.Proofs.Calendar.Layout
import Jukebox.Proofs.Calendar.Timeline
import Jukebox.Proofs.History.Plays

/-!
# Histories are unordered

The first entry of a history decides how all entries are read, as serial dates or as timestamps.
Where no layout is configured, no entry is both: the default layouts and the form for exchange want
a mark behind the first number of a date (`exists_mark_of_timestamp?`), and a serial date has no
such mark (`mark_not_mem_of_serial?`). So an entry that has a play chooses the reader by which it
has been read (`Format.reader_eq_of_play`), and a history has plays exactly if all its entries
choose one reader and record plays (`Format.plays_eq_ok_iff`), which says nothing of their order.
-/

set_option autoImplicit false
set_option relaxedAutoImplicit false

namespace Jukebox

open Calendar

namespace History

open Decimal

variable {f : Format} {file : FileName} {raw : String} {entry : List Char} {t : Instant}

/-! ### Serial dates and timestamps -/

/-- The marks between the numbers of a date. -/
def dateMarks : List Char := ['-', '/']

/-- The default layouts begin with a number and a mark. -/
theorem exists_mark_of_mem_defaultLayouts {layout : String} (h : layout ∈ defaultLayouts) :
    ∃ part mark more, mark ∈ dateMarks ∧
      Layout.ofChars? layout.toList = some (.number part :: .literal mark :: more) := by
  simp only [defaultLayouts, List.mem_cons, List.not_mem_nil, or_false] at h
  rcases h with rfl | rfl | rfl | rfl | rfl | rfl | rfl | rfl | rfl | rfl
  all_goals exact ⟨_, _, _, by decide, rfl⟩

/-- Where no layout is configured, a timestamp has a mark behind its first character. -/
theorem exists_mark_of_timestamp? (hf : f.layout = "") (h : f.timestamp? entry = some t) :
    ∃ mark ∈ dateMarks, mark ∈ entry.tail := by
  rw [Format.timestamp?, if_pos hf] at h
  rcases (Option.orElse_eq_some _ _ _).1 h with hdefault | ⟨_, hexchange⟩
  · obtain ⟨layout, hlayout, hread⟩ := List.exists_of_findSome?_eq_some hdefault
    obtain ⟨part, mark, more, hmark, hitems⟩ := exists_mark_of_mem_defaultLayouts hlayout
    rw [readWith?, hitems] at hread
    obtain ⟨p, hp⟩ := Layout.exists_of_instant? hread
    exact ⟨mark, hmark, Layout.mem_tail_of_read? hp⟩
  · exact ⟨'-', by decide, mem_tail_of_readExchange? hexchange⟩

/-- A serial date has none of the marks behind its first character. -/
theorem mark_not_mem_of_serial? {x : Binary64} (h : serial? entry = some x) {mark : Char}
    (hmark : mark ∈ dateMarks) : mark ∉ entry.tail := by
  unfold serial? at h
  dsimp only at h
  split at h
  · rename_i hnumeric
    rw [List.all_eq_true] at hnumeric
    have hminus := Binary64.minus_not_mem_tail_of_ofChars? h hnumeric
    rw [← List.map_tail] at hminus
    intro hmem
    rcases List.mem_pair.1 hmark with rfl | rfl
    · exact hminus (List.mem_map.2 ⟨'-', hmem, rfl⟩)
    · have hslash := hnumeric '/' (List.mem_map.2 ⟨'/', List.mem_of_mem_tail hmem, rfl⟩)
      cases hslash
  · cases h

/-- No entry is both a serial date and a timestamp. -/
theorem serial?_eq_none_of_timestamp? (hf : f.layout = "") (h : f.timestamp? entry = some t) :
    serial? entry = none := by
  obtain ⟨mark, hmark, hmem⟩ := exists_mark_of_timestamp? hf h
  rw [Option.eq_none_iff_forall_ne_some]
  intro x hx
  exact mark_not_mem_of_serial? hx hmark hmem

/-! ### The reader of a history -/

namespace Format

variable {plays : List Instant} {first : List Char}

/-- An entry with a play chooses the reader by which it has been read. -/
theorem reader_eq_of_play (hf : f.layout = "")
    (h : f.play file (f.reader first) entry = .ok t) : f.reader entry = f.reader first := by
  obtain ⟨u, hread, _⟩ := play_eq_ok_iff.1 h
  unfold Format.reader at hread ⊢
  by_cases hserial : (serial? first).isSome = true
  · rw [if_pos hserial] at hread
    obtain ⟨x, hx, _⟩ := Option.bind_eq_some_iff.1 hread
    rw [if_pos hserial, hx, Option.isSome_some, if_pos rfl]
  · rw [if_neg hserial] at hread
    rw [if_neg hserial, serial?_eq_none_of_timestamp? hf hread, Option.isSome_none,
      if_neg Bool.false_ne_true]

/-- The play that an entry records by itself. -/
def Records (f : Format) (entry : List Char) (t : Instant) : Prop :=
  ∃ u, f.reader entry entry = some u ∧ u.plus (-(f.midnightOffset * 60000000000)) = some t

/-- All entries choose one reader. -/
def ReadAlike (f : Format) (entries : List (List Char)) : Prop :=
  ∀ entry ∈ entries, ∀ other ∈ entries, f.reader entry = f.reader other

theorem ReadAlike.mapM_eq_ok_iff {entries : List (List Char)} {unsorted : List Instant}
    (h : f.ReadAlike entries) (hfirst : first ∈ entries) :
    entries.mapM (f.play file (f.reader first)) = .ok unsorted ↔
      List.Forall₂ f.Records entries unsorted := by
  have hown : entries.mapM (f.play file (f.reader first)) =
      entries.mapM fun entry ↦ f.play file (f.reader entry) entry :=
    Traversal.mapM_congr fun entry hentry ↦ by rw [h first hfirst entry hentry]
  rw [hown, Traversal.mapM_eq_ok_iff]
  simp only [play_eq_ok_iff]
  exact Iff.rfl

/-- A history has plays exactly if all entries choose one reader and each of them records a play,
whatever the order of the entries. -/
theorem plays_eq_ok_iff (hf : f.layout = "") :
    f.plays file raw = .ok plays ↔ f.ReadAlike (f.entries raw) ∧
      ∃ unsorted, List.Forall₂ f.Records (f.entries raw) unsorted ∧
        Instant.ascending unsorted = plays := by
  unfold Format.plays
  split
  · rename_i hnone
    rw [hnone]
    simp [ReadAlike, Instant.ascending, eq_comm]
  · rename_i first rest hentries
    rw [hentries, Traversal.map_eq_ok_iff]
    have hfirst : first ∈ first :: rest := List.mem_cons_self
    constructor
    · rintro ⟨unsorted, hread, hplays⟩
      have halike : f.ReadAlike (first :: rest) := by
        have hchosen : ∀ entry ∈ first :: rest, f.reader entry = f.reader first := by
          intro entry hentry
          obtain ⟨t, ht⟩ := Traversal.exists_mapM_eq_ok_iff.1 ⟨unsorted, hread⟩ entry hentry
          exact reader_eq_of_play hf ht
        intro entry hentry other hother
        exact (hchosen entry hentry).trans (hchosen other hother).symm
      exact ⟨halike, unsorted, (halike.mapM_eq_ok_iff hfirst).1 hread, hplays⟩
    · rintro ⟨halike, unsorted, hrecords, hplays⟩
      exact ⟨unsorted, (halike.mapM_eq_ok_iff hfirst).2 hrecords, hplays⟩

/-- The order of the entries makes no difference, nor does the name of the file. -/
theorem plays_of_perm_entries {raw other : String} {file' : FileName} (hf : f.layout = "")
    (hperm : (f.entries raw).Perm (f.entries other)) (h : f.plays file raw = .ok plays) :
    f.plays file' other = .ok plays := by
  obtain ⟨halike, unsorted, hrecords, rfl⟩ := (plays_eq_ok_iff hf).1 h
  obtain ⟨reordered, hreordered, hsame⟩ := List.perm_comp_forall₂ hperm.symm hrecords
  refine (plays_eq_ok_iff hf).2 ⟨fun entry hentry entry' hentry' ↦ ?_, reordered, hreordered, ?_⟩
  · exact halike entry (hperm.mem_iff.2 hentry) entry' (hperm.mem_iff.2 hentry')
  · exact Instant.ascending_eq_of_perm hsame

end Format

end History

open History

/-- Where no layout is configured, a history is a collection without an order: of two histories with
the same entries in any order, both have plays or none has, and the plays are the same. They are in
order, there is just one for each entry that is not blank, the one which that entry records by
itself, and every entry chooses the same reader. -/
theorem plays_unordered {f : Format} (hf : f.layout = "") {raw other : String}
    (hperm : (f.entries raw).Perm (f.entries other)) (file file' : FileName) :
    ((∃ plays, f.plays file raw = .ok plays) ↔ ∃ plays, f.plays file' other = .ok plays) ∧
      ∀ plays, f.plays file raw = .ok plays →
        f.plays file' other = .ok plays ∧ plays.Pairwise (· ≤ ·) ∧
          plays.length = (f.entries raw).length ∧ f.ReadAlike (f.entries raw) ∧
            ∃ unsorted, List.Forall₂ f.Records (f.entries raw) unsorted ∧ unsorted.Perm plays := by
  have hforth : ∀ plays, f.plays file raw = .ok plays → f.plays file' other = .ok plays :=
    fun plays ↦ Format.plays_of_perm_entries hf hperm
  refine ⟨⟨fun ⟨plays, h⟩ ↦ ⟨plays, hforth plays h⟩, fun ⟨plays, h⟩ ↦ ⟨plays, ?_⟩⟩,
    fun plays h ↦ ?_⟩
  · exact Format.plays_of_perm_entries hf hperm.symm h
  · obtain ⟨halike, unsorted, hrecords, hplays⟩ := (Format.plays_eq_ok_iff hf).1 h
    exact ⟨hforth plays h, Format.pairwise_of_plays_eq_ok h, Format.length_of_plays_eq_ok h, halike,
      unsorted, hrecords, hplays ▸ (Instant.ascending_perm unsorted).symm⟩

/-- Two timestamps in layouts of their own, with blanks and blank entries around them, in either
order, and moved back by an hour. -/
theorem plays_unordered_two_layouts :
    let f : History.Format := ⟨";", "", 60⟩
    let raw := " 2024-06-01T22:15:00Z ;; 03/01/2024"
    let other := "03/01/2024;2024-06-01T22:15:00Z; "
    f.layout = "" ∧ (f.entries raw).Perm (f.entries other) ∧
      ∃ plays, f.plays ⟨1, "a"⟩ raw = .ok plays ∧ f.plays ⟨2, "b"⟩ other = .ok plays ∧
        plays.length = 2 := by
  intro f raw other
  have hentries : f.entries other = (f.entries raw).reverse := by decide +kernel
  have hperm : (f.entries raw).Perm (f.entries other) := hentries ▸ (List.reverse_perm _).symm
  obtain ⟨plays, hplays⟩ := Traversal.exists_eq_ok_of_isOk
    (show (f.plays ⟨1, "a"⟩ raw).isOk = true by decide +kernel)
  obtain ⟨hsame, _, hlength, _⟩ :=
    (plays_unordered (f := f) rfl hperm ⟨1, "a"⟩ ⟨2, "b"⟩).2 plays hplays
  exact ⟨rfl, hperm, plays, hplays, hsame, hlength.trans (by decide +kernel)⟩

end Jukebox
