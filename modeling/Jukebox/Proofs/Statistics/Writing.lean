import Mathlib.Data.List.Induction
import Jukebox.Proofs.Statistics.Edits
import Jukebox.Proofs.Statistics.Sharing

/-!
# Updates written to files

The updates of several groups can be found for the records as they are, or in turn, each group
seeing what the groups before it have written (`Group.updatesInTurn`). For a file with a key of its
own, writing the former edits the first value of a field (`Group.value_writeAll_updates`) and
writing the latter edits it in turn (`Group.value_writeAll_updatesInTurn`). For a field of a single
group the updates are the same, whatever the keys (`Group.filter_updatesInTurn`).
-/

set_option autoImplicit false
set_option relaxedAutoImplicit false

namespace Jukebox

theorem Fields.value_congr {name other : String} (h : Text.lower name = Text.lower other)
    (fields : Fields) : fields.value name = fields.value other := by
  rw [value, value, find?, find?, h]

/-! ### Writing -/

/-- Whether an update is for a field, whatever its case. -/
def FieldUpdate.isFor (field : String) (u : FieldUpdate) : Bool :=
  Text.lower u.field = Text.lower field

namespace File

/-- Gives the field of an update its new value, if the update is for this file. -/
def write (f : File) (u : FieldUpdate) : File :=
  if u.key = f.key then { f with fields := f.fields.put u.field u.value } else f

def writeAll (f : File) (us : List FieldUpdate) : File := us.foldl write f

variable {f : File} {us : List FieldUpdate} {field : String}

theorem key_write (f : File) (u : FieldUpdate) : (f.write u).key = f.key := by
  unfold write
  split <;> rfl

theorem name_write (f : File) (u : FieldUpdate) : (f.write u).name = f.name := by
  unfold write
  split <;> rfl

theorem value_write (f : File) (u : FieldUpdate) (field : String) :
    (f.write u).fields.value field =
      if u.key = f.key ∧ u.isFor field then u.value else f.fields.value field := by
  unfold write
  by_cases hkey : u.key = f.key
  · simp only [hkey, if_true, true_and, FieldUpdate.isFor, decide_eq_true_eq, Fields.value,
      Fields.find?_put]
    split <;> rfl
  · rw [if_neg hkey, if_neg fun h ↦ hkey h.1]

theorem writeAll_append (f : File) (us vs : List FieldUpdate) :
    f.writeAll (us ++ vs) = (f.writeAll us).writeAll vs := List.foldl_append

@[simp] theorem key_writeAll (f : File) (us : List FieldUpdate) : (f.writeAll us).key = f.key := by
  induction us generalizing f with
  | nil => rfl
  | cons u us ih => exact (ih (f.write u)).trans (key_write f u)

@[simp] theorem name_writeAll (f : File) (us : List FieldUpdate) :
    (f.writeAll us).name = f.name := by
  induction us generalizing f with
  | nil => rfl
  | cons u us ih => exact (ih (f.write u)).trans (name_write f u)

/-- The last update of a field stands. -/
theorem value_writeAll (f : File) (us : List FieldUpdate) (field : String) :
    (f.writeAll us).fields.value field =
      (((us.filter (FieldUpdate.isFor field)).filter (·.key = f.key)).getLast?.map
        FieldUpdate.value).getD (f.fields.value field) := by
  induction us using List.reverseRecOn with
  | nil => rfl
  | append_singleton us u ih =>
    rw [writeAll_append]
    change ((f.writeAll us).write u).fields.value field = _
    rw [value_write, key_writeAll, ih, List.filter_append, List.filter_append]
    by_cases hfor : u.isFor field = true
    · by_cases hkey : u.key = f.key
      · simp [hfor, hkey]
      · simp [hfor, hkey]
    · simp [hfor]

theorem value_writeAll_of_forall (h : ∀ u ∈ us, u.isFor field = false) :
    (f.writeAll us).fields.value field = f.fields.value field := by
  have hnone : us.filter (FieldUpdate.isFor field) = [] :=
    List.filter_eq_nil_iff.2 fun u hu ↦ by rw [h u hu]; exact Bool.false_ne_true
  rw [value_writeAll, hnone]
  rfl

end File

namespace Record

/-- A record of the file with updates written to it. -/
def writeAll (r : Record) (us : List FieldUpdate) : Record := { r with file := r.file.writeAll us }

@[simp] theorem file_writeAll (r : Record) (us : List FieldUpdate) :
    (r.writeAll us).file = r.file.writeAll us := rfl

@[simp] theorem statistics_writeAll (r : Record) (us : List FieldUpdate) :
    (r.writeAll us).statistics = r.statistics := rfl

end Record

/-! ### Groups in turn -/

namespace Group

/-- The updates of groups one after another, each for the records with the updates of the groups
before it written to them. -/
def updatesInTurn (f : Filler) :
    List Group → List Record → Except StatisticError (List FieldUpdate)
  | [], _ => .ok []
  | g :: gs, records => do
    let outcome ← g.apply f records
    let rest ← updatesInTurn f gs (records.map (·.writeAll outcome.updates))
    .ok (outcome.updates ++ rest)

/-- What a group does to a field of a record, if it is the field that the group updates. -/
def edit? (g : Group) (f : Filler) (records : List Record) (r : Record) (field : String) :
    Option Edit :=
  if Text.lower g.updateField = Text.lower field then some ⟨g.append, g.text f records r⟩ else none

/-- What some groups do to a field of a record. -/
def edits (gs : List Group) (f : Filler) (records : List Record) (r : Record) (field : String) :
    List Edit :=
  gs.filterMap fun g ↦ g.edit? f records r field

/-- No group is by a field that a group updates. -/
def GroupingsApart (gs : List Group) : Prop :=
  ∀ g ∈ gs, ∀ name, g.grouping = .field name →
    ∀ g' ∈ gs, Text.lower g'.updateField ≠ Text.lower name

theorem GroupingsApart.mono {gs gs' : List Group} (h : GroupingsApart gs) (hsubset : gs' ⊆ gs) :
    GroupingsApart gs' := fun g hg name hname g' hg' ↦
  h g (hsubset hg) name hname g' (hsubset hg')

instance (grouping : Grouping) (P : String → Prop) [DecidablePred P] :
    Decidable (∀ name, grouping = .field name → P name) :=
  match grouping with
  | .file => isTrue fun _ h ↦ nomatch h
  | .field name =>
    decidable_of_iff (P name) ⟨fun h _ heq ↦ Grouping.field.inj heq ▸ h, fun h ↦ h name rfl⟩

instance : DecidablePred GroupingsApart := fun gs ↦
  inferInstanceAs (Decidable (∀ g ∈ gs, ∀ name, g.grouping = .field name →
    ∀ g' ∈ gs, Text.lower g'.updateField ≠ Text.lower name))

variable {g : Group} {gs : List Group} {f : Filler} {records : List Record} {r : Record}
  {us : List FieldUpdate} {field : String}

theorem newValue_eq_apply (h : Text.lower g.updateField = Text.lower field) (r : Record)
    (text : String) :
    g.newValue r text = Edit.apply ⟨g.append, text⟩ (r.file.fields.value field) := by
  rw [newValue, Fields.value_congr h]
  rfl

theorem mem_updates_iff {u : FieldUpdate} : u ∈ g.updates f records ↔
    ∃ r ∈ records, g.newValue r (g.text f records r) ≠ r.file.fields.value g.updateField ∧
      u = ⟨r.file.key, r.file.name, g.updateField, g.newValue r (g.text f records r)⟩ := by
  simp only [updates, List.mem_filterMap, update?, ite_eq_iff, Option.some.injEq]
  grind

theorem isFor_of_mem_updates {u : FieldUpdate} (hu : u ∈ g.updates f records) :
    u.isFor field = decide (Text.lower g.updateField = Text.lower field) := by
  obtain ⟨_, _, _, rfl⟩ := mem_updates_iff.1 hu
  rfl

theorem filter_updates_of_ne (h : Text.lower g.updateField ≠ Text.lower field) (f : Filler)
    (records : List Record) : (g.updates f records).filter (FieldUpdate.isFor field) = [] := by
  refine List.filter_eq_nil_iff.2 fun u hu ↦ ?_
  rw [isFor_of_mem_updates hu, decide_eq_false h]
  exact Bool.false_ne_true

/-- Writing the updates of a group to a file with the key of a single record makes the edit of that
record, if it changes the record. -/
theorem value_writeAll_updates_of_unique (hr : r ∈ records)
    (hunique : ∀ q ∈ records, q.file.key = r.file.key → q = r) {file : File}
    (hkey : file.key = r.file.key) (field : String) :
    (file.writeAll (g.updates f records)).fields.value field =
      Edit.overwrite (r.file.fields.value field) (g.edit? f records r field).toList
        (file.fields.value field) := by
  rw [edit?]
  split
  · rename_i hfield
    rw [Option.toList_some, Edit.overwrite_cons, ← newValue_eq_apply hfield,
      ← Fields.value_congr hfield r.file.fields, File.value_writeAll]
    cases hlast : (((g.updates f records).filter (FieldUpdate.isFor field)).filter
        (·.key = file.key)).getLast? with
    | none =>
      rw [if_pos]
      · rfl
      · by_contra hvalue
        rw [List.getLast?_eq_none_iff, List.filter_filter, List.filter_eq_nil_iff] at hlast
        refine hlast _ (mem_updates_iff.2 ⟨r, hr, hvalue, rfl⟩) ?_
        simp [FieldUpdate.isFor, hfield, hkey]
    | some u =>
      have hmem := List.mem_of_getLast? hlast
      simp only [List.mem_filter, decide_eq_true_eq] at hmem
      obtain ⟨⟨hu, _⟩, hukey⟩ := hmem
      obtain ⟨q, hq, hvalue, rfl⟩ := mem_updates_iff.1 hu
      obtain rfl := hunique q hq (hukey.trans hkey)
      rw [if_neg hvalue]
      rfl
  · rename_i hfield
    exact File.value_writeAll_of_forall fun u hu ↦
      (isFor_of_mem_updates hu).trans (decide_eq_false hfield)

theorem edits_cons (g : Group) (gs : List Group) (f : Filler) (records : List Record) (r : Record)
    (field : String) : edits (g :: gs) f records r field =
      (g.edit? f records r field).toList ++ edits gs f records r field := by
  rw [edits, List.filterMap_cons]
  cases g.edit? f records r field <;> rfl

/-- Writing the updates that groups find for the same records overwrites the field of a file with
the edits of its first value. -/
theorem value_writeAll_updates (gs : List Group) (f : Filler) (hr : r ∈ records)
    (hunique : ∀ q ∈ records, q.file.key = r.file.key → q = r) {file : File}
    (hkey : file.key = r.file.key) (field : String) :
    (file.writeAll (gs.flatMap fun g ↦ g.updates f records)).fields.value field =
      Edit.overwrite (r.file.fields.value field) (edits gs f records r field)
        (file.fields.value field) := by
  induction gs generalizing file with
  | nil => rfl
  | cons g gs ih =>
    rw [List.flatMap_cons, File.writeAll_append, ih ((File.key_writeAll _ _).trans hkey),
      value_writeAll_updates_of_unique hr hunique hkey, edits_cons, Edit.overwrite_append]

/-! ### What writing leaves alone -/

theorem groupKey_writeAll (h : ∀ u ∈ us, u.isFor field = false) (r : Record) :
    (r.writeAll us).groupKey field = r.groupKey field :=
  congrArg Text.lower (File.value_writeAll_of_forall h)

/-- Statistics are shared as before, if the field by which they are shared is not written. -/
theorem statistics_writeAll {grouping : Grouping}
    (h : ∀ name, grouping = .field name → ∀ u ∈ us, u.isFor name = false) (records : List Record)
    (r : Record) : grouping.statistics (records.map (·.writeAll us)) (r.writeAll us) =
      grouping.statistics records r := by
  cases grouping with
  | file => rfl
  | field name =>
    simp only [Grouping.statistics, List.filter_map, List.map_map, Function.comp_def,
      groupKey_writeAll (h name rfl), Record.statistics_writeAll]

theorem text_writeAll (h : ∀ name, g.grouping = .field name → ∀ u ∈ us, u.isFor name = false)
    (f : Filler) (records : List Record) (r : Record) :
    g.text f (records.map (·.writeAll us)) (r.writeAll us) = g.text f records r := by
  rw [text, statistics_writeAll h, ← text]

theorem edits_writeAll
    (h : ∀ g ∈ gs, ∀ name, g.grouping = .field name → ∀ u ∈ us, u.isFor name = false)
    (f : Filler) (records : List Record) (r : Record) (field : String) :
    edits gs f (records.map (·.writeAll us)) (r.writeAll us) field =
      edits gs f records r field := by
  refine List.filterMap_congr fun g hg ↦ ?_
  rw [edit?, edit?, text_writeAll (h g hg)]

/-- A group finds the same updates, if neither its field nor that by which it is are written. -/
theorem updates_writeAll (h : ∀ name, g.grouping = .field name → ∀ u ∈ us, u.isFor name = false)
    (hfield : ∀ u ∈ us, u.isFor g.updateField = false) (f : Filler) (records : List Record) :
    g.updates f (records.map (·.writeAll us)) = g.updates f records := by
  rw [updates, List.filterMap_map, updates]
  refine List.filterMap_congr fun r _ ↦ ?_
  simp only [Function.comp_def, text_writeAll h, update?, newValue, Record.file_writeAll,
    File.key_writeAll, File.name_writeAll, File.value_writeAll_of_forall hfield]
  rfl

/-! ### Updates in turn -/

namespace GroupingsApart

theorem isFor_updates (h : GroupingsApart gs) (hg : g ∈ gs) {g' : Group} (hg' : g' ∈ gs)
    (f : Filler) (records : List Record) : ∀ name, g'.grouping = .field name →
      ∀ u ∈ g.updates f records, u.isFor name = false :=
  fun name hname _ hu ↦ (isFor_of_mem_updates hu).trans (decide_eq_false (h g' hg' name hname g hg))

theorem tail (h : GroupingsApart (g :: gs)) : GroupingsApart gs :=
  fun g hg name hname g' hg' ↦
    h g (List.mem_cons_of_mem _ hg) name hname g' (List.mem_cons_of_mem _ hg')

end GroupingsApart

theorem exists_of_updatesInTurn_cons (h : updatesInTurn f (g :: gs) records = .ok us) :
    ∃ rest, updatesInTurn f gs (records.map (·.writeAll (g.updates f records))) = .ok rest ∧
      us = g.updates f records ++ rest := by
  obtain ⟨outcome, houtcome, h⟩ := Traversal.bind_eq_ok_iff.1 h
  obtain ⟨rest, hrest, h⟩ := Traversal.bind_eq_ok_iff.1 h
  rw [(apply_eq_ok_iff.1 houtcome).2] at hrest h
  exact ⟨rest, hrest, (Except.ok.inj h).symm⟩

/-- What can be filled for the records as they are can be filled in turn. -/
theorem exists_updatesInTurn_eq_ok (hapart : GroupingsApart gs)
    (hfill : ∀ g ∈ gs, ∀ r ∈ records, ∃ text,
      f.fill g.template (g.grouping.statistics records r) = .ok text) :
    ∃ us, updatesInTurn f gs records = .ok us := by
  induction gs generalizing records with
  | nil => exact ⟨[], rfl⟩
  | cons g gs ih =>
    have happly := apply_eq_ok_iff.2 ⟨hfill g List.mem_cons_self, rfl⟩
    obtain ⟨rest, hrest⟩ := @ih (records.map (·.writeAll (g.updates f records))) hapart.tail (by
      intro g' hg' r' hr'
      obtain ⟨r, hr, rfl⟩ := List.mem_map.1 hr'
      rw [statistics_writeAll (hapart.isFor_updates List.mem_cons_self (List.mem_cons_of_mem _ hg')
        f records)]
      exact hfill g' (List.mem_cons_of_mem _ hg') r hr)
    exact ⟨_, Traversal.bind_eq_ok_iff.2
      ⟨_, happly, Traversal.bind_eq_ok_iff.2 ⟨rest, hrest, rfl⟩⟩⟩

/-- Writing the updates that groups find in turn edits the field of a file in turn. -/
theorem value_writeAll_updatesInTurn (hapart : GroupingsApart gs)
    (h : updatesInTurn f gs records = .ok us) (hr : r ∈ records)
    (hunique : ∀ q ∈ records, q.file.key = r.file.key → q = r) (field : String) :
    (r.file.writeAll us).fields.value field =
      Edit.inTurn (edits gs f records r field) (r.file.fields.value field) := by
  induction gs generalizing records r us with
  | nil =>
    obtain rfl := Except.ok.inj h
    rfl
  | cons g gs ih =>
    obtain ⟨rest, hrest, rfl⟩ := exists_of_updatesInTurn_cons h
    have hapart' : ∀ g' ∈ gs, ∀ name, g'.grouping = .field name →
        ∀ u ∈ g.updates f records, u.isFor name = false := fun g' hg' ↦
      hapart.isFor_updates List.mem_cons_self (List.mem_cons_of_mem _ hg') f records
    have hunique' : ∀ q ∈ records.map (·.writeAll (g.updates f records)),
        q.file.key = (r.writeAll (g.updates f records)).file.key →
          q = r.writeAll (g.updates f records) := by
      intro q' hq' hkey
      obtain ⟨q, hq, rfl⟩ := List.mem_map.1 hq'
      rw [Record.file_writeAll, Record.file_writeAll, File.key_writeAll, File.key_writeAll] at hkey
      rw [hunique q hq hkey]
    have hturn := ih hapart.tail hrest (List.mem_map_of_mem hr) hunique'
    rw [Record.file_writeAll, edits_writeAll hapart',
      value_writeAll_updates_of_unique hr hunique rfl] at hturn
    rw [File.writeAll_append, hturn, edits_cons, Edit.inTurn_append]
    exact congrArg _ (Edit.fromFirst_toList _ _)

/-- For a field that a single group updates, the updates in turn are those for the records as they
are. -/
theorem filter_updatesInTurn (hapart : GroupingsApart gs)
    (h : updatesInTurn f gs records = .ok us)
    (hone : gs.countP (fun g ↦ Text.lower g.updateField = Text.lower field) ≤ 1) :
    us.filter (FieldUpdate.isFor field) =
      (gs.flatMap fun g ↦ g.updates f records).filter (FieldUpdate.isFor field) := by
  induction gs generalizing records us with
  | nil =>
    obtain rfl := Except.ok.inj h
    rfl
  | cons g gs ih =>
    obtain ⟨rest, hrest, rfl⟩ := exists_of_updatesInTurn_cons h
    rw [List.countP_cons] at hone
    rw [List.flatMap_cons, List.filter_append, List.filter_append,
      ih hapart.tail hrest (Nat.le_of_add_right_le hone), List.filter_flatMap, List.filter_flatMap]
    congr 1
    refine List.flatMap_congr fun g' hg' ↦ ?_
    by_cases hfield : Text.lower g'.updateField = Text.lower field
    · -- The first group is not the one of the field, so it leaves the field alone.
      have hpos : 0 < gs.countP fun g ↦ Text.lower g.updateField = Text.lower field :=
        List.countP_pos_iff.2 ⟨g', hg', decide_eq_true hfield⟩
      have hne : ¬ Text.lower g.updateField = Text.lower g'.updateField := by
        intro heq
        rw [if_pos (decide_eq_true (heq.trans hfield))] at hone
        omega
      rw [updates_writeAll (hapart.isFor_updates List.mem_cons_self (List.mem_cons_of_mem _ hg')
        f records) fun u hu ↦ (isFor_of_mem_updates hu).trans (decide_eq_false hne)]
    · rw [filter_updates_of_ne hfield, filter_updates_of_ne hfield]

end Group

end Jukebox
