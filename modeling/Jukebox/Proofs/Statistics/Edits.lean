import Jukebox.Statistics.Group

/-!
Edits of a field. Taken in turn, each edit changes what the one before it has left; taken from the
first value, each one starts anew and the last one that changes anything stands.
`Edit.fromFirst_eq_inTurn_iff` says when the two come to the same.
-/

set_option autoImplicit false
set_option relaxedAutoImplicit false

namespace Jukebox

/-- A text for a field, to go behind its value or to replace it. -/
structure Edit where
  append : Bool
  text : String

namespace Edit

def apply (e : Edit) (value : String) : String := if e.append then value ++ e.text else e.text

/-- The value after some edits, each of what the one before it has left. -/
def inTurn (es : List Edit) (value : String) : String := es.foldl (fun v e ↦ e.apply v) value

/-- The value after some edits of another value, `first`, have been written over it, those that do
not change `first` left out. -/
def overwrite (first : String) (es : List Edit) (value : String) : String :=
  es.foldl (fun v e ↦ if e.apply first = first then v else e.apply first) value

/-- The value after some edits, each of the first value, of which the last one that changes it
stands. -/
def fromFirst (es : List Edit) (value : String) : String := overwrite value es value

/-- There is an edit that changes the value, and behind it none but empty ones at the end; it
replaces the value, or those before it lead back to it. -/
def LastStands (es : List Edit) (value : String) : Prop :=
  ∃ before e after, es = before ++ e :: after ∧ e.apply value ≠ value ∧
    (∀ e' ∈ after, e'.apply value = value ∧ e'.append = true) ∧
    (e.append = false ∨ inTurn before value = value)

variable {es before after : List Edit} {e : Edit} {value : String}

theorem apply_of_append (h : e.append = true) (v : String) : e.apply v = v ++ e.text := if_pos h

theorem apply_of_replace (h : e.append = false) (v : String) : e.apply v = e.text := by
  rw [apply, h]
  rfl

@[simp] theorem inTurn_cons (e : Edit) (es : List Edit) (value : String) :
    inTurn (e :: es) value = inTurn es (e.apply value) := rfl

theorem inTurn_append (before after : List Edit) (value : String) :
    inTurn (before ++ after) value = inTurn after (inTurn before value) := List.foldl_append

/-- Edits that leave the first value alone leave any value alone, unless one of them replaces it. -/
theorem inTurn_of_unchanged (h : ∀ e ∈ es, e.apply value = value) (v : String) :
    inTurn es v = if es.all Edit.append then v else value := by
  induction es generalizing v with
  | nil => rfl
  | cons e es ih =>
    rw [List.forall_mem_cons] at h
    rw [inTurn_cons, ih h.2, List.all_cons]
    cases happend : e.append with
    | true =>
      have hempty : e.text = "" :=
        String.append_eq_left_iff.1 (apply_of_append happend value ▸ h.1)
      rw [apply_of_append happend, hempty, String.append_empty, Bool.true_and]
    | false =>
      rw [apply_of_replace happend, ← apply_of_replace happend value, h.1, ite_self,
        Bool.false_and, if_neg Bool.false_ne_true]

theorem overwrite_append (first : String) (before after : List Edit) (value : String) :
    overwrite first (before ++ after) value =
      overwrite first after (overwrite first before value) :=
  List.foldl_append

theorem overwrite_cons (first : String) (e : Edit) (es : List Edit) (value : String) :
    overwrite first (e :: es) value =
      overwrite first es (if e.apply first = first then value else e.apply first) := rfl

theorem overwrite_of_unchanged (h : ∀ e ∈ es, e.apply value = value) (v : String) :
    overwrite value es v = v := by
  induction es with
  | nil => rfl
  | cons e es ih =>
    rw [List.forall_mem_cons] at h
    rw [overwrite_cons, if_pos h.1, ih h.2]

/-- A single edit has the first value before it either way. -/
theorem fromFirst_toList (e? : Option Edit) (value : String) :
    fromFirst e?.toList value = inTurn e?.toList value := by
  cases e? with
  | none => rfl
  | some e =>
    rw [Option.toList_some, fromFirst, overwrite_cons, inTurn_cons]
    split
    · rename_i h
      rw [h]
      rfl
    · rfl

/-- The last edit that changes the first value stands. -/
theorem fromFirst_append_cons (he : e.apply value ≠ value)
    (h : ∀ e' ∈ after, e'.apply value = value) :
    fromFirst (before ++ e :: after) value = e.apply value := by
  rw [fromFirst, overwrite_append, overwrite_cons, if_neg he, overwrite_of_unchanged h]

theorem unchanged_or_exists_last (es : List Edit) (value : String) :
    (∀ e ∈ es, e.apply value = value) ∨ ∃ before e after, es = before ++ e :: after ∧
      e.apply value ≠ value ∧ ∀ e' ∈ after, e'.apply value = value := by
  induction es with
  | nil => exact Or.inl (List.forall_mem_nil _)
  | cons e es ih =>
    rcases ih with h | ⟨before, e', after, rfl, he', h⟩
    · by_cases he : e.apply value = value
      · exact Or.inl (List.forall_mem_cons.2 ⟨he, h⟩)
      · exact Or.inr ⟨[], e, es, rfl, he, h⟩
    · exact Or.inr ⟨e :: before, e', after, rfl, he', h⟩

/-- Edits of the first value come to the same as edits in turn exactly when none changes it, or
when the last one that does stands. -/
theorem fromFirst_eq_inTurn_iff : fromFirst es value = inTurn es value ↔
    (∀ e ∈ es, e.apply value = value) ∨ LastStands es value := by
  constructor
  · intro heq
    refine (unchanged_or_exists_last es value).imp_right ?_
    rintro ⟨before, e, after, rfl, he, h⟩
    rw [fromFirst_append_cons he h, inTurn_append, inTurn_cons, inTurn_of_unchanged h] at heq
    split at heq
    · -- The edits behind the last one append nothing, so it makes the same of two values.
      rename_i hall
      rw [List.all_eq_true] at hall
      refine ⟨before, e, after, rfl, he, fun e' he' ↦ ⟨h e' he', hall e' he'⟩, ?_⟩
      cases happend : e.append with
      | false => exact Or.inl rfl
      | true =>
        rw [apply_of_append happend, apply_of_append happend] at heq
        exact Or.inr ((String.append_left_inj e.text).1 heq.symm)
    · -- One of them would put the first value back.
      exact absurd heq he
  · rintro (h | ⟨before, e, after, rfl, he, h, hlast⟩)
    · rw [inTurn_of_unchanged h, fromFirst, overwrite_of_unchanged h, ite_self]
    · have hafter : ∀ e' ∈ after, e'.apply value = value := fun e' he' ↦ (h e' he').1
      have hall : after.all Edit.append = true := List.all_eq_true.2 fun e' he' ↦ (h e' he').2
      rw [fromFirst_append_cons he hafter, inTurn_append, inTurn_cons,
        inTurn_of_unchanged hafter, if_pos hall]
      rcases hlast with hreplace | hback
      · rw [apply_of_replace hreplace, apply_of_replace hreplace]
      · rw [hback]

end Edit

end Jukebox
