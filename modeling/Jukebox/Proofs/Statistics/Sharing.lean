import Jukebox.Proofs.Statistics.Group
import Jukebox.Proofs.Statistics.Sum

/-!
# What a group fills in and what it reports

Files that agree in a field are filled from one sum, and the text is made when the first of them
comes up. `Group.texts_eq_mapM` says that this is as good as adding up and filling for each file
anew: the texts already made are those that would be made again. So the outcome of a group is
known file by file (`Group.apply_eq_ok_iff`), and it lists the files that are changed
(`Group.apply_fills_sums_and_reports_changes`).
-/

set_option autoImplicit false
set_option relaxedAutoImplicit false

namespace Jukebox

/-- What is filled in for a record: its own statistics, or the sum over all records that agree with
it in a field. -/
def Grouping.statistics (records : List Record) (r : Record) : Grouping → Statistics
  | .file => r.statistics
  | .field name => Statistics.sum
      ((records.filter fun q ↦ q.groupKey name == r.groupKey name).map Record.statistics)

namespace Group

/-! ### Shared texts -/

/-- Going through records with the texts of the keys met before is filling for each anew, if these
texts are the right ones. -/
theorem fillShared_eq_mapM {f : Filler} {template field : String}
    {found : Assoc String (List Record)} {filled : Assoc String String} {records : List Record}
    (hfilled : ∀ key text, filled.get? key = some text →
      f.fill template (total found key) = .ok text) :
    fillShared f template field found filled records =
      records.mapM fun r ↦ f.fill template (total found (r.groupKey field)) := by
  induction records generalizing filled with
  | nil => rfl
  | cons r rest ih =>
    rw [fillShared, List.mapM_cons]
    cases hkey : filled.get? (r.groupKey field) with
    | some text =>
      simp only [ih hfilled, hfilled _ text hkey]
      rfl
    | none =>
      cases hfill : f.fill template (total found (r.groupKey field)) with
      | error e => rfl
      | ok text =>
        -- The new text is the right one for its key, and no other key is touched.
        have hextended : ∀ key other, (filled.set (r.groupKey field) text).get? key = some other →
            f.fill template (total found key) = .ok other := by
          intro key other hother
          rw [Assoc.get?_set] at hother
          split at hother
          · rename_i heq
            obtain rfl := Option.some.inj hother
            rw [← heq, hfill]
          · exact hfilled key other hother
        change (fillShared f template field found (filled.set (r.groupKey field) text) rest >>=
          fun texts ↦ Except.ok (text :: texts)) = _
        rw [ih hextended]
        rfl

theorem texts_eq_mapM (g : Group) (f : Filler) (records : List Record) :
    g.texts f records =
      records.mapM fun r ↦ f.fill g.template (g.grouping.statistics records r) := by
  unfold texts
  cases g.grouping with
  | file => rfl
  | field name =>
    refine (fillShared_eq_mapM fun key text h ↦ by cases h).trans ?_
    simp only [total_members, Grouping.statistics]

/-! ### Outcomes -/

/-- The text for one record, made anew; empty where it cannot be filled. -/
def text (g : Group) (f : Filler) (records : List Record) (r : Record) : String :=
  (f.fill g.template (g.grouping.statistics records r)).toOption.getD ""

/-- The updates of some records, each by its own text. -/
def updates (g : Group) (f : Filler) (records : List Record) : List FieldUpdate :=
  records.filterMap fun r ↦ g.update? r (g.text f records r)

theorem fill_eq_text {g : Group} {f : Filler} {records : List Record} {r : Record} {text : String}
    (h : f.fill g.template (g.grouping.statistics records r) = .ok text) :
    text = g.text f records r := by
  rw [Group.text, h]
  rfl

theorem texts_eq_ok_iff {g : Group} {f : Filler} {records : List Record} {texts : List String} :
    g.texts f records = .ok texts ↔
      (∀ r ∈ records, ∃ text, f.fill g.template (g.grouping.statistics records r) = .ok text) ∧
        texts = records.map (g.text f records) := by
  rw [texts_eq_mapM]
  exact Traversal.mapM_eq_ok_iff_map fun r text ↦ fill_eq_text

/-- A group has an outcome if every record can be filled, and it reports what the texts change. -/
theorem apply_eq_ok_iff {g : Group} {f : Filler} {records : List Record} {outcome : Outcome} :
    g.apply f records = .ok outcome ↔
      (∀ r ∈ records, ∃ text, f.fill g.template (g.grouping.statistics records r) = .ok text) ∧
        outcome = ⟨g.updateField, g.updates f records,
          records.length - (g.updates f records).length⟩ := by
  have hupdates : ((records.zip (records.map (g.text f records))).filterMap fun p ↦
      g.update? p.1 p.2) = g.updates f records := by
    have hzip : records.zip (records.map (g.text f records)) =
        records.map fun r ↦ (r, g.text f records r) := by
      simpa using @List.zip_map' _ _ _ id (g.text f records) records
    rw [hzip, List.filterMap_map]
    rfl
  unfold apply
  rw [Traversal.bind_eq_ok_iff]
  constructor
  · rintro ⟨texts, htexts, h⟩
    obtain ⟨hall, rfl⟩ := texts_eq_ok_iff.1 htexts
    refine ⟨hall, ?_⟩
    rw [← hupdates]
    exact (Except.ok.inj h).symm
  · rintro ⟨hall, rfl⟩
    refine ⟨_, texts_eq_ok_iff.2 ⟨hall, rfl⟩, ?_⟩
    rw [← hupdates]

/-! ### Reported changes -/

/-- The updates of the records whose field is changed by the texts, in their order, and the number
of the other records. -/
inductive Changes (g : Group) : List Record → List String → List FieldUpdate → Nat → Prop
  | nil : Changes g [] [] [] 0
  | changed {r : Record} {text : String} {records : List Record} {texts : List String}
      {updates : List FieldUpdate} {unchanged : Nat}
      (hvalue : g.newValue r text ≠ r.file.fields.value g.updateField)
      (hrest : Changes g records texts updates unchanged) :
      Changes g (r :: records) (text :: texts)
        (⟨r.file.key, r.file.name, g.updateField, g.newValue r text⟩ :: updates) unchanged
  | unchanged {r : Record} {text : String} {records : List Record} {texts : List String}
      {updates : List FieldUpdate} {unchanged : Nat}
      (hvalue : g.newValue r text = r.file.fields.value g.updateField)
      (hrest : Changes g records texts updates unchanged) :
      Changes g (r :: records) (text :: texts) updates (unchanged + 1)

theorem Changes.length_add {g : Group} {records : List Record} {texts : List String}
    {updates : List FieldUpdate} {unchanged : Nat} (h : g.Changes records texts updates unchanged) :
    updates.length + unchanged = records.length := by
  induction h with
  | nil => rfl
  | changed _ _ ih =>
    rw [List.length_cons, List.length_cons, ← ih]
    omega
  | unchanged _ _ ih =>
    rw [List.length_cons, ← ih]
    omega

theorem exists_changes (g : Group) (text : Record → String) (records : List Record) :
    ∃ unchanged, g.Changes records (records.map text)
      (records.filterMap fun r ↦ g.update? r (text r)) unchanged := by
  induction records with
  | nil => exact ⟨0, .nil⟩
  | cons r records ih =>
    obtain ⟨unchanged, hrest⟩ := ih
    rw [List.map_cons, List.filterMap_cons, update?]
    by_cases hvalue : g.newValue r (text r) = r.file.fields.value g.updateField
    · rw [if_pos hvalue]
      exact ⟨unchanged + 1, .unchanged hvalue hrest⟩
    · rw [if_neg hvalue]
      exact ⟨unchanged, .changed hvalue hrest⟩

/-- The outcome of a group lists the records that its texts change. -/
theorem changes_updates (g : Group) (f : Filler) (records : List Record) :
    g.Changes records (records.map (g.text f records)) (g.updates f records)
      (records.length - (g.updates f records).length) := by
  obtain ⟨unchanged, h⟩ := exists_changes g (g.text f records) records
  rwa [← h.length_add, ← updates, Nat.add_sub_cancel_left]

end Group

/-- A group by a field fills for every file a sum which holds, token by token, what the files with
the same lower-case value of the field hold together, and a group by file what the file holds. It
reports the files whose field the texts change, in order, and counts the others. -/
theorem Group.apply_fills_sums_and_reports_changes {g : Group} {f : Filler} {records : List Record}
    {outcome : Outcome} (h : g.apply f records = .ok outcome) :
    ∃ texts,
      (∀ field, g.grouping = .field field → List.Forall₂ (fun r text ↦ ∃ total : Statistics,
        (∀ token, total.get? token = Statistic.sum? ((records.filter fun q ↦
          Text.lower (q.file.fields.value field) = Text.lower (r.file.fields.value field)).flatMap
            fun q ↦ q.statistics.under token)) ∧
        f.fill g.template total = .ok text) records texts) ∧
      (g.grouping = .file →
        List.Forall₂ (fun r text ↦ f.fill g.template r.statistics = .ok text) records texts) ∧
      outcome.field = g.updateField ∧
      g.Changes records texts outcome.updates outcome.unchanged ∧
      outcome.updates.length + outcome.unchanged = records.length := by
  obtain ⟨hall, rfl⟩ := apply_eq_ok_iff.1 h
  have htexts := texts_eq_ok_iff.2 ⟨hall, rfl⟩
  rw [texts_eq_mapM, Traversal.mapM_eq_ok_iff] at htexts
  have hchanges := changes_updates g f records
  refine ⟨_, fun field hgrouping ↦ ?_, fun hgrouping ↦ ?_, rfl, hchanges, hchanges.length_add⟩
  · refine htexts.imp fun r text htext ↦ ⟨_, fun token ↦ ?_, htext⟩
    rw [hgrouping, Grouping.statistics, Statistics.get?_sum, List.flatMap_map]
    rfl
  · rw [hgrouping] at htexts
    exact htexts

/-- Of three files in append mode two agree in the grouping field but for its case, and the third
does not have it. -/
theorem Group.apply_fills_sums_and_reports_changes_mixed_case :
    let g : Group := ⟨"Custom", .field "Artist", "[Total];[permonth]", true⟩
    let f : Filler := ⟨⟨[⟨"total", .unplayed⟩, ⟨"permonth", .perMonth⟩], _, rfl, by decide⟩, ","⟩
    let records : List Record :=
      [⟨{ key := 1, fields := [("artist", "ABBA")] }, [], 0,
          [("total", .count 3), ("permonth", .series [1, 2])]⟩,
        ⟨{ key := 2, fields := [("custom", "x")] }, [], 0,
          [("total", .count 7), ("permonth", .series [])]⟩,
        ⟨{ key := 3, fields := [("artist", "Abba"), ("custom", "8;1,2")] }, [], 0,
          [("total", .count 5), ("permonth", .count 4)]⟩]
    ∃ outcome, g.apply f records = .ok outcome ∧ ∃ texts,
      (∀ field, g.grouping = .field field → List.Forall₂ (fun r text ↦ ∃ total : Statistics,
        (∀ token, total.get? token = Statistic.sum? ((records.filter fun q ↦
          Text.lower (q.file.fields.value field) = Text.lower (r.file.fields.value field)).flatMap
            fun q ↦ q.statistics.under token)) ∧
        f.fill g.template total = .ok text) records texts) ∧
      (g.grouping = .file →
        List.Forall₂ (fun r text ↦ f.fill g.template r.statistics = .ok text) records texts) ∧
      outcome.field = g.updateField ∧
      g.Changes records texts outcome.updates outcome.unchanged ∧
      outcome.updates.length + outcome.unchanged = records.length := by
  intro g f records
  have hok : (g.apply f records).isOk = true := by decide +kernel
  obtain ⟨outcome, h⟩ := Traversal.exists_eq_ok_of_isOk hok
  exact ⟨outcome, h, apply_fills_sums_and_reports_changes h⟩

end Jukebox
