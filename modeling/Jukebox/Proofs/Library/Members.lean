import Jukebox.Library.Snapshot
import Jukebox.Proofs.Text.LetterCase
import Mathlib.Data.List.Induction
import Mathlib.Data.List.Nodup

/-!
# Which member is found under a name

The members of an object become the fields of a file in three steps: of members with one name the
last one stays, those that stay are put in the order of their names, and each that has a text is
put under its lower-case name. `Shows` says what this comes to: a name shows the text of the
member that stands last, in the order of the alphabet, among those that have a text and agree with
the name in lower case. Fields are looked up accordingly (`find?_fieldsOf_eq_some_iff`).

Where no two names of the object agree in lower case, every member speaks for itself
(`NamesDiffer.shows_iff`). `Finds` gathers what is found under a name, whatever the case in which
the name is written.
-/

set_option autoImplicit false
set_option relaxedAutoImplicit false

namespace Jukebox

open Text

/-- Of a list in some order, the first value found is that of a member which none with a value
precedes. -/
theorem findSome?_eq_some_iff_of_pairwise {α β : Type} {R : α → α → Prop} {f : α → Option β}
    {l : List α} (hasymm : ∀ a b, R a b → ¬ R b a) (h : l.Pairwise R) {b : β} :
    l.findSome? f = some b ↔ ∃ a ∈ l, f a = some b ∧ ∀ x ∈ l, R x a → f x = none := by
  rw [List.findSome?_eq_some_iff]
  constructor
  · rintro ⟨before, a, after, rfl, ha, hbefore⟩
    refine ⟨a, List.mem_append_right _ List.mem_cons_self, ha, fun x hx hxa ↦ ?_⟩
    have hafter := (List.pairwise_cons.1 (List.pairwise_append.1 h).2.1).1
    rcases List.mem_append.1 hx with hx | hx
    · exact hbefore x hx
    · rcases List.mem_cons.1 hx with rfl | hx
      · exact absurd hxa (hasymm _ _ hxa)
      · exact absurd hxa (hasymm _ _ (hafter x hx))
  · rintro ⟨a, ha, hab, hnone⟩
    obtain ⟨before, after, rfl⟩ := List.append_of_mem ha
    refine ⟨before, a, after, rfl, hab, fun x hx ↦ ?_⟩
    exact hnone x (List.mem_append_left _ hx)
      ((List.pairwise_append.1 h).2.2 x hx a List.mem_cons_self)

namespace Snapshot

variable {members : List (String × Json)} {m : String × Json} {name text : String}

/-! ### Members that stand -/

/-- A member stands in an object if no later one has its name. -/
def Stands (members : List (String × Json)) (m : String × Json) : Prop :=
  ∃ before after, members = before ++ m :: after ∧ m.1 ∉ after.map Prod.fst

theorem stands_concat {last : String × Json} :
    Stands (members ++ [last]) m ↔ m = last ∨ Stands members m ∧ m.1 ≠ last.1 := by
  constructor
  · rintro ⟨before, after, hsplit, hafter⟩
    rcases List.eq_nil_or_concat after with rfl | ⟨after, last', rfl⟩
    · exact Or.inl (List.singleton_inj.1 (List.append_inj_right' hsplit rfl)).symm
    · rw [List.concat_eq_append, ← List.cons_append, ← List.append_assoc] at hsplit
      obtain ⟨hmembers, hlast⟩ := List.append_inj' hsplit rfl
      rw [List.concat_eq_append, List.map_append, List.mem_append, not_or] at hafter
      obtain rfl := List.singleton_inj.1 hlast
      exact Or.inr ⟨⟨before, after, hmembers, hafter.1⟩, fun heq ↦ hafter.2 (by simp [heq])⟩
  · rintro (rfl | ⟨⟨before, after, rfl, hafter⟩, hne⟩)
    · exact ⟨members, [], rfl, List.not_mem_nil⟩
    · refine ⟨before, after ++ [last], by simp, ?_⟩
      rw [List.map_append, List.mem_append, not_or]
      exact ⟨hafter, by simpa using hne⟩

/-- The members that stand. -/
def standing (members : List (String × Json)) : List (String × Json) :=
  members.foldl (fun m p ↦ Assoc.set m p.1 p.2) []

theorem standing_concat (members : List (String × Json)) (last : String × Json) :
    standing (members ++ [last]) = Assoc.set (standing members) last.1 last.2 := by
  rw [standing, List.foldl_append]
  rfl

theorem nodup_keys_standing (members : List (String × Json)) :
    (Assoc.keys (standing members)).Nodup :=
  Assoc.keys_nodup_foldl (m := []) (fun _ _ h ↦ Assoc.keys_nodup_set h _ _) .nil members

theorem mem_standing : m ∈ standing members ↔ Stands members m := by
  induction members using List.reverseRecOn with
  | nil => simp [standing, Stands]
  | append_singleton members last ih =>
    rw [standing_concat, stands_concat, Assoc.mem_set (nodup_keys_standing members), ih]

theorem sortMembers_eq (members : List (String × Json)) :
    sortMembers members = (standing members).mergeSort fun a b ↦ !decide (b.1 < a.1) := rfl

theorem mem_sortMembers : m ∈ sortMembers members ↔ Stands members m := by
  rw [sortMembers_eq, List.mem_mergeSort, mem_standing]

/-- Sorted members stand in the order of the alphabet, and no name comes twice. -/
theorem pairwise_sortMembers (members : List (String × Json)) :
    (sortMembers members).Pairwise fun a b ↦ a.1 < b.1 := by
  have hsorted : (sortMembers members).Pairwise fun a b ↦ (!decide (b.1 < a.1)) = true := by
    refine List.pairwise_mergeSort (fun a b c hab hbc ↦ ?_) (fun a b ↦ ?_) (standing members)
    · rw [Bool.not_eq_true', decide_eq_false_iff_not, String.not_lt] at *
      exact String.le_trans hab hbc
    · rw [Bool.or_eq_true, Bool.not_eq_true', Bool.not_eq_true', decide_eq_false_iff_not,
        decide_eq_false_iff_not]
      exact or_iff_not_imp_left.2 fun h ↦ String.lt_asymm (not_not.1 h)
  have hnames : (sortMembers members).Pairwise fun a b ↦ a.1 ≠ b.1 := by
    rw [← List.pairwise_map (f := Prod.fst)]
    exact ((List.mergeSort_perm _ _).map _).nodup_iff.2 (nodup_keys_standing members)
  refine (hsorted.and hnames).imp fun ⟨hle, hne⟩ ↦ ?_
  rw [Bool.not_eq_true', decide_eq_false_iff_not] at hle
  exact Std.lt_of_le_of_ne (Std.not_lt.1 hle) hne

/-! ### Looking up -/

/-- The text of a member under a name. -/
def textUnder? (name : String) (m : String × Json) : Option String :=
  if lower m.1 = lower name then valueText? m.2 else none

/-- An object shows a text under a name: a member that agrees with the name in lower case has this
text, and none that does so and has a text comes after it in the order of the alphabet. -/
def Shows (members : List (String × Json)) (name text : String) : Prop :=
  ∃ m, Stands members m ∧ textUnder? name m = some text ∧
    ∀ other, Stands members other → m.1 < other.1 → textUnder? name other = none

theorem textUnder?_eq_some_iff :
    textUnder? name m = some text ↔
      lower m.1 = lower name ∧ valueText? m.2 = some text := by
  rw [textUnder?]
  split <;> simp_all

/-- Puts the text of a member under its name. -/
def putText (fields : Fields) (m : String × Json) : Fields :=
  match valueText? m.2 with
  | some text => fields.put m.1 text
  | none => fields

theorem fieldsOf_eq (members : List (String × Json)) :
    fieldsOf members = (sortMembers members).foldl putText [] := rfl

theorem find?_putText (fields : Fields) (m : String × Json) (name : String) :
    (putText fields m).find? name = (textUnder? name m).or (fields.find? name) := by
  rw [putText, textUnder?]
  cases valueText? m.2 with
  | none => rw [ite_self, Option.none_or]
  | some text =>
    simp only [Fields.find?_put]
    split <;> rfl

/-- Of the members that are put one after the other, the last one that has a text under a name is
found. -/
theorem find?_foldl_putText (members : List (String × Json)) (fields : Fields) (name : String) :
    (members.foldl putText fields).find? name =
      (members.reverse.findSome? (textUnder? name)).or (fields.find? name) := by
  induction members generalizing fields with
  | nil => rfl
  | cons m rest ih =>
    rw [List.foldl_cons, ih, find?_putText, List.reverse_cons, List.findSome?_append,
      List.findSome?_singleton, Option.or_assoc]

/-- The fields of an object are what it shows. -/
theorem find?_fieldsOf_eq_some_iff :
    (fieldsOf members).find? name = some text ↔ Shows members name text := by
  have hnone : Fields.find? [] name = none := rfl
  have hdescending := List.pairwise_reverse.2 (pairwise_sortMembers members)
  rw [fieldsOf_eq, find?_foldl_putText, hnone, Option.or_none,
    findSome?_eq_some_iff_of_pairwise (fun _ _ ↦ String.lt_asymm) hdescending]
  simp only [List.mem_reverse, mem_sortMembers]
  rfl

/-- The keys are names in lower case, and each comes once. -/
structure Keyed (fields : Fields) : Prop where
  nodup : (Assoc.keys fields).Nodup
  lower : ∀ key ∈ Assoc.keys fields, ∃ name, key = lower name

theorem Keyed.putText {fields : Fields} (h : Keyed fields) (m : String × Json) :
    Keyed (putText fields m) := by
  rw [Snapshot.putText]
  cases valueText? m.2 with
  | none => exact h
  | some text =>
    refine ⟨Assoc.keys_nodup_set h.nodup _ _, fun key hkey ↦ ?_⟩
    rcases (Assoc.mem_keys_set _ _ _ _).1 hkey with rfl | hkey
    · exact ⟨m.1, rfl⟩
    · exact h.lower key hkey

theorem keyed_fieldsOf (members : List (String × Json)) : Keyed (fieldsOf members) :=
  List.foldlRecOn (motive := Keyed) (sortMembers members) putText
    ⟨List.nodup_nil, List.forall_mem_nil _⟩ fun _ h m _ ↦ h.putText m

theorem mem_fieldsOf {key : String} :
    (key, text) ∈ fieldsOf members ↔ ∃ name, key = lower name ∧ Shows members name text := by
  have hkeyed := keyed_fieldsOf members
  constructor
  · intro hmem
    obtain ⟨name, rfl⟩ := hkeyed.lower key (List.mem_map.2 ⟨_, hmem, rfl⟩)
    exact ⟨name, rfl, find?_fieldsOf_eq_some_iff.1 ((Assoc.mem_iff_get? hkeyed.nodup).1 hmem)⟩
  · rintro ⟨name, rfl, hshows⟩
    exact (Assoc.mem_iff_get? hkeyed.nodup).2 (find?_fieldsOf_eq_some_iff.2 hshows)

/-- Objects that show the same texts make the same fields. -/
theorem fieldsOf_perm {others : List (String × Json)}
    (h : ∀ name text, Shows members name text ↔ Shows others name text) :
    (fieldsOf members).Perm (fieldsOf others) := by
  rw [List.perm_ext_iff_of_nodup (keyed_fieldsOf members).nodup.of_map
    (keyed_fieldsOf others).nodup.of_map]
  rintro ⟨key, text⟩
  simp only [mem_fieldsOf, h]

/-! ### Names that differ in lower case -/

/-- No two names of an object agree in lower case. -/
def NamesDiffer (members : List (String × Json)) : Prop :=
  (members.map fun m ↦ lower m.1).Nodup

instance (members : List (String × Json)) : Decidable (NamesDiffer members) :=
  inferInstanceAs (Decidable (List.Nodup _))

theorem NamesDiffer.stands_iff (h : NamesDiffer members) : Stands members m ↔ m ∈ members := by
  refine ⟨?_, fun hm ↦ ?_⟩
  · rintro ⟨before, after, rfl, -⟩
    exact List.mem_append_right _ List.mem_cons_self
  · obtain ⟨before, after, rfl⟩ := List.append_of_mem hm
    refine ⟨before, after, rfl, fun hafter ↦ ?_⟩
    obtain ⟨other, hother, heq⟩ := List.mem_map.1 hafter
    rw [NamesDiffer, List.map_append, List.map_cons] at h
    have hrest := (List.nodup_cons.1 (List.nodup_append.1 h).2.1).1
    exact hrest (List.mem_map.2 ⟨other, hother, congrArg lower heq⟩)

theorem NamesDiffer.shows_iff (h : NamesDiffer members) :
    Shows members name text ↔
      ∃ m ∈ members, lower m.1 = lower name ∧ valueText? m.2 = some text := by
  simp only [Shows, h.stands_iff, textUnder?_eq_some_iff]
  refine ⟨fun ⟨m, hm, htext, _⟩ ↦ ⟨m, hm, htext⟩, fun ⟨m, hm, htext⟩ ↦ ⟨m, hm, htext, ?_⟩⟩
  intro other hother hlt
  rw [textUnder?, if_neg]
  intro hname
  -- The name belongs to one member only, so the later one would be the member itself.
  have hsame := List.inj_on_of_nodup_map h hother hm (hname.trans htext.1.symm)
  rw [hsame] at hlt
  exact String.lt_irrefl _ hlt

/-- What the fields of an object find under a name. -/
structure Finds (members : List (String × Json)) (fields : Fields) : Prop where
  find?_eq_some_iff : ∀ name text, fields.find? name = some text ↔ Shows members name text
  /-- The case of the letters makes no difference. -/
  find?_eq : ∀ name other, SameLetters name other → fields.find? name = fields.find? other
  /-- Where names differ in lower case, a member is found under its name, in any case. -/
  find?_member : NamesDiffer members →
    ∀ m ∈ members, ∀ name, SameLetters m.1 name → fields.find? name = valueText? m.2

theorem finds_fieldsOf (members : List (String × Json)) : Finds members (fieldsOf members) where
  find?_eq_some_iff _ _ := find?_fieldsOf_eq_some_iff
  find?_eq _ _ h := congrArg (fieldsOf members).get? h.lower_eq
  find?_member h m hm name hname := by
    refine Option.ext fun text ↦ ?_
    rw [find?_fieldsOf_eq_some_iff, h.shows_iff]
    constructor
    · rintro ⟨other, hother, heq, htext⟩
      rwa [← List.inj_on_of_nodup_map h hother hm (heq.trans hname.lower_eq.symm)]
    · exact fun htext ↦ ⟨m, hm, hname.lower_eq, htext⟩

end Snapshot

end Jukebox
