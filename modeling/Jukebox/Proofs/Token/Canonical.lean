import Jukebox.Proofs.Text.Lowering
import Jukebox.Proofs.Text.Pieces
import Jukebox.Token.Canonical
import Mathlib.Data.List.DropRight

/-!
Canonical texts of canonical texts. One pass takes out the blanks and lowers every letter, but the
brackets that it drops may hide others behind blanks: `[ [total] ]` becomes `[total]`. A second
pass has brackets left to drop and nothing else, and a third one does nothing (`canonical_thrice`).
-/

set_option autoImplicit false
set_option relaxedAutoImplicit false

namespace Jukebox.Token

open Text

theorem stripBrackets_subset (cs : List Char) : stripBrackets cs ⊆ cs :=
  (((List.rdropWhile_prefix (· == ']') _).sublist).trans (List.dropWhile_sublist _)).subset

theorem trimChars_subset (cs : List Char) : trimChars cs ⊆ cs :=
  (((List.rdropWhile_prefix isBlank _).sublist).trans (List.dropWhile_sublist _)).subset

/-- Text from which brackets have been dropped has none left to drop. -/
theorem stripBrackets_stripBrackets (cs : List Char) :
    stripBrackets (stripBrackets cs) = stripBrackets cs := by
  have hopen : (stripBrackets cs).dropWhile (· == '[') = stripBrackets cs := by
    have hhead : stripBrackets cs <+: cs.dropWhile (· == '[') :=
      List.rdropWhile_prefix (· == ']') _
    rw [List.dropWhile_eq_self_iff]
    intro hpos
    rw [hhead.getElem hpos]
    exact List.dropWhile_get_zero_not _ cs (Nat.lt_of_lt_of_le hpos hhead.length_le)
  calc stripBrackets (stripBrackets cs)
      = ((stripBrackets cs).dropWhile (· == '[')).rdropWhile (· == ']') := rfl
    _ = (stripBrackets cs).rdropWhile (· == ']') := by rw [hopen]
    _ = stripBrackets cs := List.rdropWhile_idempotent (· == ']') (cs.dropWhile (· == '['))

theorem stripBrackets_eq_self_iff {cs : List Char} :
    stripBrackets cs = cs ↔ cs.head? ≠ some '[' ∧ cs.getLast? ≠ some ']' := by
  have hopen : cs.dropWhile (· == '[') = cs ↔ cs.head? ≠ some '[' := by
    rw [List.dropWhile_eq_self_iff]
    cases cs <;> simp
  have hclose : cs.rdropWhile (· == ']') = cs ↔ cs.getLast? ≠ some ']' := by
    rw [List.rdropWhile_eq_self_iff]
    cases cs using List.reverseRecOn <;> simp
  rw [← hopen, ← hclose]
  constructor
  · intro h
    have hsuffix : cs.dropWhile (· == '[') <:+ cs := List.dropWhile_suffix _
    have hprefix : stripBrackets cs <+: cs.dropWhile (· == '[') :=
      List.rdropWhile_prefix (· == ']') _
    have hdrop : cs.dropWhile (· == '[') = cs :=
      hsuffix.eq_of_length_le (by simpa only [h] using hprefix.length_le)
    rw [stripBrackets, hdrop] at h
    exact ⟨hdrop, h⟩
  · rintro ⟨hdrop, hrdrop⟩
    rw [stripBrackets, hdrop]
    exact hrdrop

/-- Neither blank nor changed by lowering. -/
def IsSettled (c : Char) : Prop := isBlank c = false ∧ lowerChar c = [c]

theorem isSettled_of_mem_canonicalChars {cs : List Char} {d : Char}
    (h : d ∈ canonicalChars cs) : IsSettled d := by
  obtain ⟨c, hc, hd⟩ := List.mem_flatMap.1 h
  have hblank : isBlank c = false := by simpa using (List.mem_filter.1 hc).2
  refine ⟨?_, lowerChar_of_mem_lowerChar hd⟩
  by_contra hne
  rw [isBlank_of_mem_lowerChar hd (Bool.not_eq_false _ ▸ hne)] at hblank
  cases hblank

theorem trimChars_of_settled {cs : List Char} (h : ∀ c ∈ cs, IsSettled c) :
    trimChars cs = cs :=
  trimChars_eq_self (fun c hc ↦ (h c (List.mem_of_mem_head? hc)).1)
    fun c hc ↦ (h c (List.mem_of_mem_getLast? hc)).1

theorem flatMap_lowerChar_of_settled {cs : List Char} (h : ∀ c ∈ cs, IsSettled c) :
    cs.flatMap lowerChar = cs := by
  induction cs with
  | nil => rfl
  | cons c rest ih =>
    rw [List.forall_mem_cons] at h
    rw [List.flatMap_cons, h.1.2, ih h.2, List.singleton_append]

/-- A bracket in a canonical text is one of the text. -/
theorem mem_of_bracket_mem_canonicalChars {cs : List Char} {d : Char} (h : d ∈ canonicalChars cs)
    (hd : d = '[' ∨ d = ']') : d ∈ cs := by
  obtain ⟨c, hc, hlower⟩ := List.mem_flatMap.1 h
  obtain rfl := eq_of_mem_lowerChar_of_bracket hlower hd
  exact trimChars_subset cs (stripBrackets_subset _ (List.mem_filter.1 hc).1)

/-- Of settled text, the canonical text is what brackets leave. -/
theorem canonicalChars_of_settled {cs : List Char} (h : ∀ c ∈ cs, IsSettled c) :
    canonicalChars cs = stripBrackets cs := by
  have hstrip : ∀ c ∈ stripBrackets cs, IsSettled c := fun c hc ↦ h c (stripBrackets_subset cs hc)
  have hfilter : (stripBrackets cs).filter (fun c ↦ !isBlank c) = stripBrackets cs := by
    rw [List.filter_eq_self]
    intro c hc
    rw [(hstrip c hc).1, Bool.not_false]
  rw [canonicalChars, trimChars_of_settled h, hfilter, flatMap_lowerChar_of_settled hstrip]

theorem canonicalChars_thrice (cs : List Char) :
    canonicalChars (canonicalChars (canonicalChars cs)) = canonicalChars (canonicalChars cs) := by
  have hsettled : ∀ c ∈ canonicalChars cs, IsSettled c := fun c ↦ isSettled_of_mem_canonicalChars
  have htwice : canonicalChars (canonicalChars cs) = stripBrackets (canonicalChars cs) :=
    canonicalChars_of_settled hsettled
  rw [canonicalChars_of_settled fun c ↦ isSettled_of_mem_canonicalChars, htwice,
    stripBrackets_stripBrackets]

/-- A canonical text may change once more, and then no longer. -/
theorem canonical_thrice (text : String) :
    canonical (canonical (canonical text)) = canonical (canonical text) := by
  rw [canonical, toList_canonical, toList_canonical, canonicalChars_thrice, ← toList_canonical,
    ← canonical]

example : canonical "[ [Total] ]" = "[total]" := by cbv

end Jukebox.Token
