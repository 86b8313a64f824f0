import Jukebox.Proofs.Library.Members
import Jukebox.Proofs.Traversal

/-!
# Reading a snapshot

A snapshot is read if and only if each of its entries can be (`Readable`), and each file says what
its own entry says (`Makes`), whatever stands around it. Otherwise the error names the first entry
that cannot be read.

Of an entry only the texts count that its members show under their names in lower case. So a
snapshot reads the same, with the same error if there is one, when members are reordered and the
case of their names is changed (`Json.Recast`), as long as the names of each entry differ in lower
case (`agree_of_recast`).
-/

set_option autoImplicit false
set_option relaxedAutoImplicit false

namespace Jukebox

open Text Traversal

/-- The entry of which an error speaks. -/
def SnapshotError.index? : SnapshotError → Option Nat
  | notAnObject index | missingField index _ | invalidField index _ _ => some index
  | unreadable | notJson | notAnArray => none

/-- The same value with the members of objects in another order and their names in another case, at
any depth. -/
inductive Json.Recast : Json → Json → Prop
  | refl (v : Json) : Recast v v
  | array {vs ws : List Json} : List.Forall₂ Recast vs ws → Recast (.array vs) (.array ws)
  | object {members ordered others : List (String × Json)} : members.Perm ordered →
    List.Forall₂ SameLetters (ordered.map Prod.fst) (others.map Prod.fst) →
    List.Forall₂ Recast (ordered.map Prod.snd) (others.map Prod.snd) →
    Recast (.object members) (.object others)

/-- The same file; only the order in which its fields are kept may differ. -/
structure File.Same (f g : File) : Prop where
  rest_eq : { f with fields := g.fields } = g
  perm : f.fields.Perm g.fields
  find?_eq : ∀ name, f.fields.find? name = g.fields.find? name

theorem Json.Recast.exists_array {entries : List Json} {v : Json}
    (h : Json.Recast (.array entries) v) :
    ∃ others, v = .array others ∧ List.Forall₂ Json.Recast entries others := by
  cases h with
  | refl => exact ⟨entries, rfl, List.forall₂_same.2 fun w _ ↦ .refl w⟩
  | array h => exact ⟨_, rfl, h⟩

namespace Snapshot

variable {members others : List (String × Json)} {historyField : String} {index : Nat}

/-! ### Numbers in fields -/

section

variable {α : Type} {read : List Char → Option α} {field text : String} {n : α}
  {e : SnapshotError}

/-- A text that spells a number, perhaps with blanks around it. -/
def Spells (read : List Char → Option α) (text : String) (n : α) : Prop :=
  read (trimChars text.toList) = some n

theorem number_eq_ok_iff : number read index field text = .ok n ↔ Spells read text n := by
  unfold number Spells
  cases read (trimChars text.toList) <;> simp

theorem index?_of_number (h : number read index field text = .error e) : e.index? = some index := by
  unfold number at h
  split at h
  · cases h
  · cases h
    rfl

variable [OfNat α 0]

/-- A text that is empty and stands for 0, or spells a number. -/
def SpellsOrEmpty (read : List Char → Option α) (text : String) (n : α) : Prop :=
  text = "" ∧ n = 0 ∨ text ≠ "" ∧ Spells read text n

theorem optionalNumber_eq_ok_iff {fields : Fields} :
    optionalNumber read index field fields = .ok n ↔
      SpellsOrEmpty read (fields.value field) n := by
  unfold optionalNumber SpellsOrEmpty
  dsimp only
  split
  · rename_i hempty
    simp [hempty, eq_comm]
  · rename_i hne
    simp [hne, number_eq_ok_iff]

theorem index?_of_optionalNumber {fields : Fields}
    (h : optionalNumber read index field fields = .error e) : e.index? = some index := by
  unfold optionalNumber at h
  dsimp only at h
  split at h
  · cases h
  · exact index?_of_number h

/-- The number of an optional field can be read if the text shown there, if any, is empty or spells
a number. -/
theorem exists_spellsOrEmpty_iff :
    (∃ n, SpellsOrEmpty read ((fieldsOf members).value field) n) ↔
      ∀ text, Shows members field text → text = "" ∨ ∃ n, Spells read text n := by
  simp only [← find?_fieldsOf_eq_some_iff, Fields.value]
  cases (fieldsOf members).find? field with
  | none => simp [SpellsOrEmpty]
  | some text =>
    rw [Option.getD_some]
    by_cases hempty : text = ""
    · simp [SpellsOrEmpty, hempty]
    · simp [SpellsOrEmpty, hempty]

end

/-! ### One entry -/

/-- A file says what the members of an object say. -/
structure Makes (historyField : String) (members : List (String × Json)) (f : File) : Prop where
  key : ∃ text, Shows members "Key" text ∧ Spells (unsigned? maxUInt64) text f.key
  imported : SpellsOrEmpty (signed? minInt64 maxInt64) (f.fields.value "Date Imported") f.imported
  declaredPlays :
    SpellsOrEmpty (unsigned? maxUInt32) (f.fields.value "Number Plays") f.declaredPlays
  name : f.name = f.fields.value "Name"
  history : f.history = f.fields.value historyField
  fields : f.fields = fieldsOf members

/-- An entry from which a file can be made: an object whose key is a number, and with an import date
and a number of plays that are missing, empty or numbers. -/
structure Readable (members : List (String × Json)) : Prop where
  key : ∃ text, Shows members "Key" text ∧ ∃ n, Spells (unsigned? maxUInt64) text n
  imported : ∀ text, Shows members "Date Imported" text →
    text = "" ∨ ∃ n, Spells (signed? minInt64 maxInt64) text n
  declaredPlays : ∀ text, Shows members "Number Plays" text →
    text = "" ∨ ∃ n, Spells (unsigned? maxUInt32) text n

theorem file_eq_ok_iff {f : File} :
    file historyField index members = .ok f ↔ Makes historyField members f := by
  unfold file
  dsimp only
  cases hkey : (fieldsOf members).find? "Key" with
  | none =>
    refine ⟨(nomatch ·), fun h ↦ ?_⟩
    obtain ⟨text, hshows, _⟩ := h.key
    rw [← find?_fieldsOf_eq_some_iff, hkey] at hshows
    cases hshows
  | some text =>
    simp only [bind_eq_ok_iff, number_eq_ok_iff, optionalNumber_eq_ok_iff]
    constructor
    · rintro ⟨key, hspells, imported, himported, plays, hplays, hf⟩
      cases hf
      exact ⟨⟨text, find?_fieldsOf_eq_some_iff.1 hkey, hspells⟩, himported, hplays, rfl, rfl, rfl⟩
    · rintro ⟨⟨text', hshows, hspells⟩, himported, hplays, hname, hhistory, hfields⟩
      rw [← find?_fieldsOf_eq_some_iff, hkey] at hshows
      obtain rfl := Option.some.inj hshows
      rw [hfields] at himported hplays hname hhistory
      refine ⟨f.key, hspells, f.imported, himported, f.declaredPlays, hplays, ?_⟩
      rw [← hname, ← hhistory, ← hfields]

theorem exists_makes_iff (historyField : String) :
    (∃ f, Makes historyField members f) ↔ Readable members := by
  constructor
  · rintro ⟨f, ⟨text, hshows, hspells⟩, himported, hplays, -, -, hfields⟩
    rw [hfields] at himported hplays
    exact ⟨⟨text, hshows, f.key, hspells⟩, exists_spellsOrEmpty_iff.1 ⟨_, himported⟩,
      exists_spellsOrEmpty_iff.1 ⟨_, hplays⟩⟩
  · rintro ⟨⟨text, hshows, key, hspells⟩, himported, hplays⟩
    obtain ⟨imported, himported⟩ := exists_spellsOrEmpty_iff.2 himported
    obtain ⟨plays, hplays⟩ := exists_spellsOrEmpty_iff.2 hplays
    exact ⟨{
      key
      name := (fieldsOf members).value "Name"
      imported
      declaredPlays := plays
      history := (fieldsOf members).value historyField
      fields := fieldsOf members }, ⟨text, hshows, hspells⟩, himported, hplays, rfl, rfl, rfl⟩

theorem index?_of_file {e : SnapshotError} (h : file historyField index members = .error e) :
    e.index? = some index := by
  unfold file at h
  dsimp only at h
  split at h
  · cases h
    rfl
  · simp only [bind_eq_error_iff] at h
    obtain h | ⟨key, _, h | ⟨imported, _, h | ⟨plays, _, h⟩⟩⟩ := h
    · exact index?_of_number h
    · exact index?_of_optionalNumber h
    · exact index?_of_optionalNumber h
    · cases h

/-- An entry that is an object from which a file can be made. -/
def IsReadable (v : Json) : Prop := ∃ members, v = .object members ∧ Readable members

theorem entry_eq_ok_iff {v : Json} {f : File} :
    entry historyField v index = .ok f ↔
      ∃ members, v = .object members ∧ Makes historyField members f := by
  cases v with
  | object members => simp [entry, file_eq_ok_iff]
  | _ => simp [entry]

theorem exists_entry_eq_ok_iff {v : Json} :
    (∃ f, entry historyField v index = .ok f) ↔ IsReadable v := by
  simp only [entry_eq_ok_iff, IsReadable, ← exists_makes_iff historyField]
  exact ⟨fun ⟨f, members, hv, hf⟩ ↦ ⟨members, hv, f, hf⟩,
    fun ⟨members, hv, f, hf⟩ ↦ ⟨f, members, hv, hf⟩⟩

theorem index?_of_entry {v : Json} {e : SnapshotError}
    (h : entry historyField v index = .error e) : e.index? = some index := by
  unfold entry at h
  split at h
  · exact index?_of_file h
  · cases h
    rfl

/-! ### All entries -/

theorem ofText_of_array {text : String} {entries : List Json}
    (h : Json.ofText? text = some (.array entries)) :
    ofText historyField text =
      entries.zipIdx.mapM fun p ↦ entry historyField p.1 p.2 := by
  rw [ofText, h]
  rfl

/-- What is made of an entry does not depend on its place. -/
theorem mapM_entry_eq_ok_iff {entries : List Json} {files : List File} :
    (entries.zipIdx.mapM fun p ↦ entry historyField p.1 p.2) = .ok files ↔
      List.Forall₂ (fun v f ↦ ∃ members, v = .object members ∧ Makes historyField members f)
        entries files := by
  rw [mapM_eq_ok_iff]
  simp only [entry_eq_ok_iff]
  conv_rhs => rw [← List.zipIdx_map_fst 0 entries, List.forall₂_map_left_iff]

/-- The members of one object make one file. -/
theorem Makes.unique {f g : File} (hf : Makes historyField members f)
    (hg : Makes historyField members g) : f = g := by
  have hfile : file historyField 0 members = .ok f := file_eq_ok_iff.2 hf
  exact Except.ok.inj (hfile.symm.trans (file_eq_ok_iff.2 hg))

/-! ### Members in another order and names in another case -/

/-- What counts of a member: its name in lower case and its text. -/
def reading (m : String × Json) : String × Option String := (lower m.1, valueText? m.2)

theorem valueText?_of_recast {v w : Json} (h : v.Recast w) : valueText? v = valueText? w := by
  cases h <;> rfl

theorem perm_readings_of_recast (h : Json.Recast (.object members) (.object others)) :
    (members.map reading).Perm (others.map reading) := by
  cases h with
  | refl => exact .refl _
  | object hperm hnames hvalues =>
    refine (hperm.map reading).trans (.of_eq ?_)
    rw [← List.forall₂_eq_eq_eq, List.forall₂_map_left_iff, List.forall₂_map_right_iff]
    rw [List.forall₂_map_left_iff, List.forall₂_map_right_iff] at hnames hvalues
    refine hnames.mp (fun m other hname hvalue ↦ ?_) hvalues
    exact Prod.ext hname.lower_eq (valueText?_of_recast hvalue)

theorem namesDiffer_iff : NamesDiffer members ↔ ((members.map reading).map Prod.fst).Nodup := by
  rw [List.map_map]
  rfl

theorem NamesDiffer.shows_iff_mem_readings (h : NamesDiffer members) {name text : String} :
    Shows members name text ↔ (lower name, some text) ∈ members.map reading := by
  rw [h.shows_iff, List.mem_map]
  simp only [reading, Prod.mk.injEq]

theorem shows_iff_of_recast (h : Json.Recast (.object members) (.object others))
    (hnames : NamesDiffer members) (name text : String) :
    Shows members name text ↔ Shows others name text := by
  have hperm := perm_readings_of_recast h
  have hothers := namesDiffer_iff.2 ((hperm.map Prod.fst).nodup_iff.1 (namesDiffer_iff.1 hnames))
  rw [hnames.shows_iff_mem_readings, hothers.shows_iff_mem_readings, hperm.mem_iff]

/-- Objects that show the same texts make the same file, or fail alike. -/
theorem agree_file (h : ∀ name text, Shows members name text ↔ Shows others name text) :
    Agree File.Same (file historyField index members) (file historyField index others) := by
  have hfind : ∀ name, (fieldsOf members).find? name = (fieldsOf others).find? name := fun name ↦
    Option.ext fun text ↦ by rw [find?_fieldsOf_eq_some_iff, find?_fieldsOf_eq_some_iff, h]
  have hother : file historyField index others =
      (file historyField index members).map fun f ↦ { f with fields := fieldsOf others } := by
    simp only [file, optionalNumber, Fields.value, hfind]
    cases (fieldsOf others).find? "Key" with
    | none => rfl
    | some text =>
      simp only [map_bind]
      rfl
  rw [hother]
  cases hfile : file historyField index members with
  | error e => exact .error e
  | ok f =>
    have hfields := (file_eq_ok_iff.1 hfile).fields
    exact .ok ⟨rfl, hfields ▸ fieldsOf_perm h, fun name ↦ hfields ▸ hfind name⟩

theorem agree_entry {v w : Json} (h : v.Recast w)
    (hnames : ∀ members, v = .object members → NamesDiffer members) :
    Agree File.Same (entry historyField v index) (entry historyField w index) := by
  cases h with
  | refl =>
    cases entry historyField v index with
    | error e => exact .error e
    | ok f => exact .ok ⟨rfl, .refl _, fun _ ↦ rfl⟩
  | array => exact .error _
  | object hperm hnames' hvalues =>
    exact agree_file (shows_iff_of_recast (.object hperm hnames' hvalues) (hnames _ rfl))

theorem agree_entries {entries others : List Json} (h : List.Forall₂ Json.Recast entries others)
    (hnames : ∀ members, .object members ∈ entries → NamesDiffer members) :
    Agree (List.Forall₂ File.Same)
      (entries.zipIdx.mapM fun p ↦ entry historyField p.1 p.2)
      (others.zipIdx.mapM fun p ↦ entry historyField p.1 p.2) := by
  have hall : ∀ v ∈ entries, ∀ members, v = .object members → NamesDiffer members :=
    fun v hv members heq ↦ hnames members (heq ▸ hv)
  have hboth := (List.forall₂_and_left _ _).2 ⟨hall, h⟩
  exact Agree.mapM_zipIdx (hboth.imp fun v w ⟨hv, hvw⟩ _ ↦ agree_entry hvw hv)

/-! ### A snapshot -/

/-- A snapshot is read if and only if each entry is an object with a key that is a number and with
an import date and a number of plays that are missing, without a text, empty or numbers. Each file
then says what its entry says, whatever else the snapshot holds, and finds under a name in any case
the text of the member so named, of several such members that of the last one in the order of the
alphabet. Else the error names the first entry that cannot be read. Where no two names of an entry
agree in lower case, neither files nor error depend on the order of members or on the case of their
names. -/
theorem ofText_reads_entries {text : String} {entries : List Json}
    (h : Json.ofText? text = some (.array entries)) (historyField : String) :
    ((∃ files, ofText historyField text = .ok files) ↔ ∀ v ∈ entries, IsReadable v) ∧
      (∀ files, ofText historyField text = .ok files →
        List.Forall₂ (fun v f ↦ ∃ members, v = .object members ∧ Makes historyField members f ∧
          Finds members f.fields) entries files ∧
        ∀ other others files', Json.ofText? other = some (.array others) →
          ofText historyField other = .ok files' →
          ∀ i j : Nat, entries[i]? = others[j]? → files[i]? = files'[j]?) ∧
      (∀ e, ofText historyField text = .error e →
        ∃ i v, e.index? = some i ∧ entries[i]? = some v ∧ ¬ IsReadable v ∧
          ∀ j < i, ∀ w, entries[j]? = some w → IsReadable w) ∧
      ∀ other v, Json.ofText? other = some v → Json.Recast (.array entries) v →
        (∀ members, .object members ∈ entries → NamesDiffer members) →
          Agree (List.Forall₂ File.Same) (ofText historyField text)
            (ofText historyField other) := by
  rw [ofText_of_array h]
  refine ⟨?_, fun files hfiles ↦ ⟨?_, ?_⟩, fun e herror ↦ ?_, ?_⟩
  · simp only [exists_mapM_eq_ok_iff, exists_entry_eq_ok_iff]
    conv_rhs => rw [← List.zipIdx_map_fst 0 entries, List.forall_mem_map]
  · refine (mapM_entry_eq_ok_iff.1 hfiles).imp fun v f ⟨members, hv, hmakes⟩ ↦ ?_
    exact ⟨members, hv, hmakes, hmakes.fields ▸ finds_fieldsOf members⟩
  · intro other others files' hother hfiles' i j hij
    rw [ofText_of_array hother] at hfiles'
    refine getElem?_eq_of_forall₂ ?_ (mapM_entry_eq_ok_iff.1 hfiles)
      (mapM_entry_eq_ok_iff.1 hfiles') hij
    rintro v f g ⟨members, rfl, hf⟩ ⟨_, ⟨⟩, hg⟩
    exact hf.unique hg
  · obtain ⟨i, v, hv, hentry, hbefore⟩ := mapM_zipIdx_eq_error herror
    refine ⟨i, v, index?_of_entry hentry, hv, fun hreadable ↦ ?_, fun j hj w hw ↦
      exists_entry_eq_ok_iff.1 (hbefore j hj w hw)⟩
    obtain ⟨f, hf⟩ := exists_entry_eq_ok_iff.2 hreadable
    cases hentry.symm.trans hf
  · intro other v hother hrecast hnames
    obtain ⟨others, rfl, hentries⟩ := hrecast.exists_array
    rw [ofText_of_array hother]
    exact agree_entries hentries hnames

/-- The second snapshot has the members in another order and other capitals. Both give one file, in
which the field is found under a name that stands in neither. -/
theorem ofText_reads_entries_recast :
    let text := "[\x7b\"Key\":\" 7\",\"ARTIST\":\"X\",\"Rating\":null\x7d]"
    let other := "[\x7b\"artist\":\"X\",\"RATING\":null,\"KEY\":\" 7\"\x7d]"
    let members := [("Key", Json.string " 7"), ("ARTIST", .string "X"), ("Rating", .null)]
    let others := [("artist", Json.string "X"), ("RATING", .null), ("KEY", .string " 7")]
    Json.ofText? text = some (.array [.object members]) ∧
      Json.ofText? other = some (.array [.object others]) ∧
      Json.Recast (.array [.object members]) (.array [.object others]) ∧
      NamesDiffer members ∧
      (∃ f, ofText "Play History" text = .ok [f] ∧ f.fields.find? "Artist" = some "X") ∧
      Agree (List.Forall₂ File.Same) (ofText "Play History" text)
        (ofText "Play History" other) := by
  intro text other members others
  have htext : Json.ofText? text = some (.array [.object members]) := by
    dsimp only [text, members]
    rfl
  have hother : Json.ofText? other = some (.array [.object others]) := by
    dsimp only [other, others]
    rfl
  have hrecast : Json.Recast (.array [.object members]) (.array [.object others]) := by
    refine .array (.cons (.object (@List.perm_append_comm _ [_] members.tail) ?_ ?_) .nil)
    · exact .cons (by decide) (.cons (by decide) (.cons (by decide) .nil))
    · exact List.forall₂_same.2 fun v _ ↦ .refl v
  have hnames : NamesDiffer members := by decide +kernel
  have hmissing : ∀ field ∈ ["Date Imported", "Number Plays"], ∀ m ∈ members,
      lower m.1 ≠ lower field := by decide +kernel
  have hreadable : Readable members := by
    refine ⟨⟨" 7", hnames.shows_iff.2 ⟨_, List.mem_cons_self, rfl, rfl⟩, 7, by rfl⟩, ?_, ?_⟩
    all_goals
      intro shown hshows
      obtain ⟨m, hm, hname, _⟩ := hnames.shows_iff.1 hshows
      exact absurd hname (hmissing _ (by decide) m hm)
  obtain ⟨hok, hfiles, _, hagree⟩ := ofText_reads_entries htext "Play History"
  refine ⟨htext, hother, hrecast, hnames, ?_, hagree other _ hother hrecast fun ms hms ↦ ?_⟩
  · obtain ⟨files, hread⟩ := hok.2 (List.forall_mem_singleton.2 ⟨members, rfl, hreadable⟩)
    cases (hfiles files hread).1 with
    | cons hfirst hrest =>
      cases hrest
      obtain ⟨_, ⟨⟩, _, hfinds⟩ := hfirst
      exact ⟨_, hread, hfinds.find?_member hnames ("ARTIST", .string "X") (by simp [members])
        "Artist" (by decide)⟩
  · cases List.mem_singleton.1 hms
    exact hnames

end Snapshot

end Jukebox
