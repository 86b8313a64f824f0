import Jukebox.Proofs.Token.Collection

/-!
Inserting tokens one after another. One insertion puts a token behind the others unless its text
has a token already (`insert_eq_self_iff`), so what is found under a text is the first token with
that text (`find?_insert`). From this follows what any number of insertions leave: the texts that
came, each once (`texts_foldl_insert`), with the first token of each (`find?_foldl_insert`), in
places that do not change (`tokens_prefix_foldl_insert`). The index has these places all along
(`insertions_keep_first_and_index`).
-/

set_option autoImplicit false
set_option relaxedAutoImplicit false

namespace Jukebox.TokenSet

open Token

variable {s : TokenSet}

/-! ### One insertion -/

theorem insert_eq_self_iff {t : NamedToken} : s.insert t = s ↔ t.text ∈ s.texts := by
  constructor
  · intro h
    rw [← h]
    exact mem_texts_insert.2 (Or.inr rfl)
  · intro h
    rw [insert, dif_pos (contains_iff.2 h)]

theorem tokens_prefix_insert (s : TokenSet) (t : NamedToken) :
    s.tokens <+: (s.insert t).tokens := by
  rw [tokens_insert]
  split
  · exact List.prefix_refl _
  · exact List.prefix_append _ _

/-- A token is found under its text unless another one has been before. -/
theorem find?_insert (s : TokenSet) (t : NamedToken) (text : String) :
    (s.insert t).find? text = (s.tokens ++ [t]).find? fun u ↦ u.text == text := by
  rw [find?, tokens_insert]
  split
  · rename_i hmem
    rw [List.find?_append, ← find?]
    by_cases htext : t.text = text
    · obtain ⟨u, hu⟩ := exists_find?_of_mem_texts hmem
      rw [← htext, hu, Option.some_or]
    · have hother : [t].find? (fun u ↦ u.text == text) = none := by simp [htext]
      rw [hother, Option.or_none]
  · rfl

/-! ### Any number of insertions -/

theorem texts_foldl_insert (s : TokenSet) (ts : List NamedToken) :
    (ts.foldl insert s).texts = (s.texts ++ ts.map NamedToken.text).eraseDups := by
  -- Each token meets all texts before it, so the tokens are taken from behind.
  induction ts using List.reverseRecOn with
  | nil =>
    have hself : s.texts.eraseDups = s.texts := Distinct.eraseDups_eq_self s.nodup
    rw [List.map_nil, List.append_nil, hself, List.foldl_nil]
  | append_singleton ts t ih =>
    rw [List.foldl_append, List.foldl_cons, List.foldl_nil, texts_insert, ih, List.map_append,
      ← List.append_assoc, List.map_singleton]
    split <;> rename_i h <;> rw [List.mem_eraseDups] at h
    · rw [Distinct.eraseDups_concat_of_mem h]
    · rw [Distinct.eraseDups_concat_of_not_mem h]

theorem find?_foldl_insert (s : TokenSet) (ts : List NamedToken) (text : String) :
    (ts.foldl insert s).find? text = (s.tokens ++ ts).find? fun t ↦ t.text == text := by
  induction ts using List.reverseRecOn with
  | nil => rw [List.append_nil]; rfl
  | append_singleton ts t ih =>
    rw [List.foldl_append, List.foldl_cons, List.foldl_nil, find?_insert, List.find?_append,
      ← find?, ih, ← List.find?_append, List.append_assoc]

theorem tokens_prefix_foldl_insert (s : TokenSet) (ts : List NamedToken) :
    s.tokens <+: (ts.foldl insert s).tokens := by
  induction ts generalizing s with
  | nil => exact List.prefix_refl _
  | cons t rest ih => exact (tokens_prefix_insert s t).trans (ih (s.insert t))

/-- In a sequence of insertions, what has been inserted stays where it is. -/
theorem tokens_prefix_of_take (s : TokenSet) (ts : List NamedToken) (n : Nat) :
    ((ts.take n).foldl insert s).tokens <+: (ts.foldl insert s).tokens := by
  have hrest : ts.foldl insert s = (ts.drop n).foldl insert ((ts.take n).foldl insert s) := by
    rw [← List.foldl_append, List.take_append_drop]
  rw [hrest]
  exact tokens_prefix_foldl_insert _ _

/-! ### The set and its index -/

/-- Whatever tokens are inserted one after another into a set, be it empty or read from texts, it has
each text once, in the order in which the texts first came, and under each text the first token that
came with it. What has been inserted stays in its place, and a token changes nothing just when its
text is there already. The index has a place for a text just when the token in this place has the
text, and a text finds its own token or, if it has none, that of its canonical text. -/
theorem insertions_keep_first_and_index (s : TokenSet) (ts : List NamedToken) :
    let s' := ts.foldl insert s
    s'.texts = (s.texts ++ ts.map NamedToken.text).eraseDups ∧ s'.texts.Nodup ∧
      (∀ text, s'.find? text = (s.tokens ++ ts).find? fun t ↦ t.text == text) ∧
      (∀ n, ((ts.take n).foldl insert s).tokens <+: s'.tokens) ∧
      (∀ t, s'.insert t = s' ↔ t.text ∈ s'.texts) ∧
      (∀ text i, s'.index.get? text = some i ↔ ∃ t, s'.tokens[i]? = some t ∧ t.text = text) ∧
      ∀ text t, s'.get? text = some t ↔
        t ∈ s'.tokens ∧ (t.text = text ∨ text ∉ s'.texts ∧ t.text = canonical text) := by
  intro s'
  exact ⟨texts_foldl_insert s ts, s'.nodup, find?_foldl_insert s ts, tokens_prefix_of_take s ts,
    fun _ ↦ insert_eq_self_iff, fun _ _ ↦ get?_index_eq_some_iff, fun _ _ ↦ get?_eq_some_iff⟩

/-- The text with brackets has a token of its own, and any other spelling of it finds the first of
the two without. -/
example :
    let s := [⟨"total", .unplayed⟩, ⟨"[total]", .recent⟩, ⟨"total", .perMonth⟩].foldl insert empty
    s.texts = ["total", "[total]"] ∧ s.get? "[total]" = some ⟨"[total]", .recent⟩ ∧
      s.get? "[Total]" = some ⟨"total", .unplayed⟩ := by decide +kernel

end Jukebox.TokenSet
