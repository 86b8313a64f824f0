import Jukebox.Proofs.History.Plays

/-!
# Histories in a configured layout

A configured layout says how timestamps are written, not that there are timestamps: the first entry
decides, and where it spells a serial date, the whole history is one of serial dates. So a history
in a configured layout records the instants that its entries name, unless its first entry is a
serial date by itself (`plays_by_layout_unless_serial`). Dates written in digits alone are such
(`compact_dates_read_as_serial`).
-/

set_option autoImplicit false
set_option relaxedAutoImplicit false

namespace Jukebox

open Calendar

namespace History

/-- A layout makes an instant of an entry, midnight if the entry gives a date and no time of day. -/
def Names (layout : String) (entry : List Char) (t : Instant) : Prop :=
  ∃ items, Layout.ofChars? layout.toList = some items ∧
    (Layout.timestamp? items entry = some t ∨
      Layout.timestamp? items entry = none ∧
        ∃ d, Layout.date? items entry = some d ∧ Instant.midnight d = t)

theorem readWith?_eq_some_iff {layout : String} {entry : List Char} {t : Instant} :
    readWith? layout entry = some t ↔ Names layout entry t := by
  simp only [readWith?, Names, Option.bind_eq_some_iff, Layout.instant?, Option.orElse_eq_some,
    Option.map_eq_some_iff]

/-- An entry spells a serial date, which is an instant. -/
def Serial (entry : List Char) (t : Instant) : Prop :=
  ∃ days, serial? entry = some days ∧ ofSerial? days = some t

namespace Format

variable {f : Format} {file : FileName} {raw : String}

/-- The first entry of a history spells a serial date. -/
def startsSerial (f : Format) (raw : String) : Bool :=
  (f.entries raw).head?.any fun first ↦ (serial? first).isSome

theorem startsSerial_of_entries {first : List Char} {rest : List (List Char)}
    (hentries : f.entries raw = first :: rest) :
    f.startsSerial raw = (serial? first).isSome := by
  rw [startsSerial, hentries, List.head?_cons, Option.any_some]

/-- Serial dates are read without a layout. -/
theorem reader_of_serial {first : List Char} (h : (serial? first).isSome = true) :
    f.reader first = fun entry ↦ (serial? entry).bind ofSerial? := if_pos h

theorem reader_of_not_serial (hlayout : f.layout ≠ "") {first : List Char}
    (h : (serial? first).isSome = false) : f.reader first = readWith? f.layout := by
  funext entry
  rw [reader, if_neg (Bool.eq_false_iff.1 h), timestamp?, if_neg hlayout]

/-- A history in a configured layout whose first entry is no serial date has the instants that its
entries name for plays, and only the midnight offset can go wrong with them. -/
theorem plays_iff_of_not_startsSerial (hlayout : f.layout ≠ "") (h : f.startsSerial raw = false)
    {instants : List Instant} (hnames : List.Forall₂ (Names f.layout) (f.entries raw) instants) :
    (∀ plays, f.plays file raw = .ok plays ↔
      ∃ moved, f.MovedBack instants moved ∧ plays.Perm moved ∧ plays.Pairwise (· ≤ ·)) ∧
    ∀ e, f.plays file raw = .error e ↔ e = .outOfRange file ∧
      ∃ t ∈ instants, t.plus (-(f.midnightOffset * 60000000000)) = none := by
  cases hentries : f.entries raw with
  | nil =>
    rw [hentries, List.forall₂_nil_left_iff] at hnames
    subst hnames
    simp [Format.plays, hentries, MovedBack]
  | cons first rest =>
    rw [startsSerial_of_entries hentries] at h
    refine plays_iff_of_read hentries (hnames.imp fun entry t hname ↦ ?_)
    rw [reader_of_not_serial hlayout h, readWith?_eq_some_iff.2 hname]

/-- A history whose first entry is a serial date has the serial dates for plays. -/
theorem plays_eq_ok_iff_of_startsSerial (h : f.startsSerial raw = true) {plays : List Instant} :
    f.plays file raw = .ok plays ↔
      ∃ moved, List.Forall₂ (fun entry u ↦ ∃ t, Serial entry t ∧
          t.plus (-(f.midnightOffset * 60000000000)) = some u) (f.entries raw) moved ∧
        plays.Perm moved ∧ plays.Pairwise (· ≤ ·) := by
  cases hentries : f.entries raw with
  | nil =>
    rw [startsSerial, hentries] at h
    cases h
  | cons first rest =>
    rw [startsSerial_of_entries hentries] at h
    rw [Format.plays, hentries]
    simp only [Traversal.map_eq_ok_iff, Traversal.mapM_eq_ok_iff, play_eq_ok_iff,
      reader_of_serial h, Option.bind_eq_some_iff, Instant.ascending_eq_iff, Serial]

/-- A history whose first entry is a serial date means the same in every layout. -/
theorem plays_with_layout_of_startsSerial (h : f.startsSerial raw = true) (layout : String) :
    { f with layout }.plays file raw = f.plays file raw := by
  have hentries : { f with layout }.entries raw = f.entries raw := rfl
  cases hfirst : f.entries raw with
  | nil =>
    rw [startsSerial, hfirst] at h
    cases h
  | cons first rest =>
    rw [startsSerial_of_entries hfirst] at h
    rw [Format.plays, Format.plays, hentries, hfirst]
    simp only [reader_of_serial h]
    rfl

end Format

end History

open History

/-- The first entry of a history decides how it is read. If it spells no serial date and all entries
name instants in a configured layout, the plays are these instants moved back by the midnight offset,
in order, unless one of them leaves the calendar; and nothing else can go wrong. If it spells a serial
date, the plays are the serial dates of the entries, whatever the layout and whether or not the
entries name instants in it. -/
theorem plays_by_layout_unless_serial (f : History.Format) (raw : String) (file : FileName) :
    (f.startsSerial raw = false → f.layout ≠ "" →
      ∀ instants, List.Forall₂ (Names f.layout) (f.entries raw) instants →
        (∀ plays, f.plays file raw = .ok plays ↔
          ∃ moved, f.MovedBack instants moved ∧ plays.Perm moved ∧ plays.Pairwise (· ≤ ·)) ∧
        ∀ e, f.plays file raw = .error e ↔ e = .outOfRange file ∧
          ∃ t ∈ instants, t.plus (-(f.midnightOffset * 60000000000)) = none) ∧
    (f.startsSerial raw = true →
      (∀ plays, f.plays file raw = .ok plays ↔
        ∃ moved, List.Forall₂ (fun entry u ↦ ∃ t, Serial entry t ∧
            t.plus (-(f.midnightOffset * 60000000000)) = some u) (f.entries raw) moved ∧
          plays.Perm moved ∧ plays.Pairwise (· ≤ ·)) ∧
      ∀ layout, { f with layout }.plays file raw = f.plays file raw) := by
  refine ⟨fun hserial hlayout instants hnames ↦ ?_, fun hserial ↦ ⟨fun plays ↦ ?_, ?_⟩⟩
  · exact Format.plays_iff_of_not_startsSerial hlayout hserial hnames
  · exact Format.plays_eq_ok_iff_of_startsSerial hserial
  · exact Format.plays_with_layout_of_startsSerial hserial

/-- Two timestamps, the earlier one behind the later one, are moved back by an hour, out of June. Two
serial dates in the same order, neither of which follows the layout, are moved back likewise. -/
theorem plays_by_layout_unless_serial_new_month :
    let f : History.Format := ⟨";", "%d.%m.%Y %H:%M", 60⟩
    let raw := "02.06.2024 11:00; 01.06.2024 00:30;"
    let serials := "45445.5; 45444"
    let may31 : Date := ⟨yearStart 2024 + 151, by decide⟩
    let june1 : Date := ⟨yearStart 2024 + 152, by decide⟩
    let june2 : Date := ⟨yearStart 2024 + 153, by decide⟩
    let instants : List Instant :=
      [⟨june2, 39600, 0, by decide, by decide, by decide⟩,
        ⟨june1, 1800, 0, by decide, by decide, by decide⟩]
    let plays : List Instant :=
      [⟨may31, 84600, 0, by decide, by decide, by decide⟩,
        ⟨june2, 36000, 0, by decide, by decide, by decide⟩]
    let playsOfSerials : List Instant :=
      [⟨may31, 82800, 0, by decide, by decide, by decide⟩,
        ⟨june2, 39600, 0, by decide, by decide, by decide⟩]
    f.layout ≠ "" ∧ List.Forall₂ (Names f.layout) (f.entries raw) instants ∧
      f.startsSerial raw = false ∧ f.plays ⟨1, "a"⟩ raw = .ok plays ∧
      f.startsSerial serials = true ∧ (∀ entry ∈ f.entries serials, ∀ t, ¬ Names f.layout entry t) ∧
      f.plays ⟨1, "a"⟩ serials = .ok playsOfSerials := by
  intro f raw serials may31 june1 june2 instants plays playsOfSerials
  have hentries : f.entries raw = ["02.06.2024 11:00".toList, "01.06.2024 00:30".toList] := by
    decide +kernel
  have hnames : List.Forall₂ (Names f.layout) (f.entries raw) instants := by
    rw [hentries]
    exact .cons (readWith?_eq_some_iff.1 (by decide +kernel))
      (.cons (readWith?_eq_some_iff.1 (by decide +kernel)) .nil)
  have hraw : f.startsSerial raw = false := by decide +kernel
  have hplays := (plays_by_layout_unless_serial f raw ⟨1, "a"⟩).1 hraw (by decide) instants hnames
  have hserials : f.startsSerial serials = true := by decide +kernel
  have hserialPlays := (plays_by_layout_unless_serial f serials ⟨1, "a"⟩).2 hserials
  refine ⟨by decide, hnames, hraw, (hplays.1 plays).2 ⟨plays.reverse, ?_, ?_, ?_⟩, hserials, ?_,
    (hserialPlays.1 playsOfSerials).2 ⟨playsOfSerials.reverse, ?_, ?_, ?_⟩⟩
  · exact .cons (by decide +kernel) (.cons (by decide +kernel) .nil)
  · exact (List.reverse_perm plays).symm
  · decide +kernel
  · have hunnamed : ∀ entry ∈ f.entries serials, readWith? f.layout entry = none := by
      decide +kernel
    intro entry hentry t hname
    rw [← readWith?_eq_some_iff, hunnamed entry hentry] at hname
    cases hname
  · have hentries : f.entries serials = ["45445.5".toList, "45444".toList] := by decide +kernel
    have hjune2 : (serial? "45445.5".toList).bind ofSerial? =
        some ⟨june2, 43200, 0, by decide, by decide, by decide⟩ := by decide +kernel
    have hjune1 : (serial? "45444".toList).bind ofSerial? = some (.midnight june1) := by
      decide +kernel
    rw [hentries]
    exact .cons ⟨_, Option.bind_eq_some_iff.1 hjune2, by decide +kernel⟩
      (.cons ⟨_, Option.bind_eq_some_iff.1 hjune1, by decide +kernel⟩ .nil)
  · exact (List.reverse_perm playsOfSerials).symm
  · decide +kernel

/-- The layout of years, months and days without marks makes 15 January 2024 of its text, but the
text is also a serial date, and the play is that many days after the first one. -/
theorem compact_dates_read_as_serial :
    let f : History.Format := ⟨";", "%Y%m%d", 0⟩
    let day : Date := ⟨yearStart 2024 + 14, by decide⟩
    let other : Date := ⟨yearStart 57315 + 200, by decide⟩
    f.layout ≠ "" ∧ List.Forall₂ (Names f.layout) (f.entries "20240115") [.midnight day] ∧
      f.MovedBack [.midnight day] [.midnight day] ∧ f.startsSerial "20240115" = true ∧
      f.plays ⟨1, "a"⟩ "20240115" = .ok [.midnight other] := by
  intro f day other
  have hentries : f.entries "20240115" = ["20240115".toList] := by decide +kernel
  refine ⟨by decide, ?_, ?_, by decide +kernel, by decide +kernel⟩
  · rw [hentries]
    exact .cons (readWith?_eq_some_iff.1 (by decide +kernel)) .nil
  · exact .cons (by decide +kernel) .nil

end Jukebox
