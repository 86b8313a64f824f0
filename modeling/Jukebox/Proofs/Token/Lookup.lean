import Mathlib.Data.List.Nodup
import Jukebox.Proofs.Token.Canonical
import Jukebox.Proofs.Traversal
import Jukebox.Statistics.Evaluate

/-!
Finding tokens. Going by the index finds the token under a text, or else the one under its canonical
text (`TokenSet.get?_eq`). A token that is what its own text means (`NamedToken.Resolves`) is the
only such token under that text. A set of such tokens finds each of them under its text
(`TokenSet.get?_eq_some_of_resolves`), and the statistics of a record have its value there
(`TokenSet.get?_evaluate`).
-/

set_option autoImplicit false
set_option relaxedAutoImplicit false

namespace Jukebox

open Calendar

/-! ### Tokens and their texts -/

namespace NamedToken

/-- The token is what its own text means. -/
def Resolves (r : Reference) (t : NamedToken) : Prop :=
  ∃ e, Token.Expr.ofText t.text = .ok e ∧ e.resolve t.text r = .ok t.token

theorem ofText_eq_ok {text : String} {r : Reference} {t : NamedToken}
    (h : ofText text r = .ok t) : t.text = Token.canonical text ∧ t.Resolves r := by
  obtain ⟨e, he, h⟩ := Traversal.bind_eq_ok_iff.1 h
  obtain ⟨token, htoken, h⟩ := Traversal.bind_eq_ok_iff.1 h
  obtain rfl := Except.ok.inj h
  exact ⟨rfl, e, he, htoken⟩

/-- A token is what the expression of its text resolves to. -/
theorem Resolves.token_of_text {r : Reference} {t : NamedToken} (h : t.Resolves r)
    {text : String} {e : Token.Expr} {token : Token} (htext : t.text = text)
    (hread : Token.Expr.ofText text = .ok e) (hresolve : e.resolve text r = .ok token) :
    t.token = token := by
  obtain ⟨e', hread', hresolve'⟩ := h
  rw [htext, hread] at hread'
  obtain rfl := Except.ok.inj hread'
  rw [htext, hresolve] at hresolve'
  exact (Except.ok.inj hresolve').symm

/-- One text has one meaning. -/
theorem Resolves.token_eq {r : Reference} {t u : NamedToken} (ht : t.Resolves r)
    (hu : u.Resolves r) (h : u.text = t.text) : u.token = t.token := by
  obtain ⟨e, hread, hresolve⟩ := ht
  exact hu.token_of_text h hread hresolve

end NamedToken

namespace TokenSet

/-! ### Looking up -/

theorem text_of_find?_eq_some {s : TokenSet} {text : String} {t : NamedToken}
    (h : s.find? text = some t) : t.text = text := by
  rw [find?, List.find?_eq_some_iff_append] at h
  exact beq_iff_eq.1 h.1

theorem exists_find?_of_mem_texts {s : TokenSet} {text : String} (h : text ∈ s.texts) :
    ∃ t, s.find? text = some t := by
  obtain ⟨t, ht, rfl⟩ := List.mem_map.1 h
  rw [← Option.isSome_iff_exists, find?, List.find?_isSome]
  exact ⟨t, ht, beq_self_eq_true _⟩

/-- A text has one token at most. -/
theorem find?_eq_some_iff {s : TokenSet} {text : String} {t : NamedToken} :
    s.find? text = some t ↔ t ∈ s.tokens ∧ t.text = text := by
  constructor
  · intro h
    exact ⟨List.mem_of_find?_eq_some h, text_of_find?_eq_some h⟩
  · rintro ⟨hmem, rfl⟩
    obtain ⟨u, hu⟩ := exists_find?_of_mem_texts (List.mem_map_of_mem hmem)
    rw [hu, List.inj_on_of_nodup_map s.nodup (List.mem_of_find?_eq_some hu) hmem
      (text_of_find?_eq_some hu)]

theorem find?_eq_none_iff {s : TokenSet} {text : String} : s.find? text = none ↔ text ∉ s.texts := by
  rw [← not_iff_not, not_not, ← ne_eq, Option.ne_none_iff_exists']
  constructor
  · rintro ⟨t, ht⟩
    obtain ⟨hmem, rfl⟩ := find?_eq_some_iff.1 ht
    exact List.mem_map_of_mem hmem
  · exact exists_find?_of_mem_texts

/-- The index has a place for a text just when the token there has this text. -/
theorem get?_index_eq_some_iff {s : TokenSet} {text : String} {i : Nat} :
    s.index.get? text = some i ↔ ∃ t, s.tokens[i]? = some t ∧ t.text = text := by
  rw [get?_index, texts, List.getElem?_map, Option.map_eq_some_iff]

theorem find?_eq_bind_index (s : TokenSet) (text : String) :
    s.find? text = (s.index.get? text).bind fun i ↦ s.tokens[i]? := by
  ext t
  rw [find?_eq_some_iff, Option.bind_eq_some_iff, List.mem_iff_getElem?]
  constructor
  · rintro ⟨⟨i, hi⟩, htext⟩
    exact ⟨i, get?_index_eq_some_iff.2 ⟨t, hi, htext⟩, hi⟩
  · rintro ⟨i, hplace, hi⟩
    obtain ⟨u, hu, htext⟩ := get?_index_eq_some_iff.1 hplace
    obtain rfl := Option.some.inj (hi.symm.trans hu)
    exact ⟨⟨i, hi⟩, htext⟩

theorem get?_eq (s : TokenSet) (text : String) :
    s.get? text = (s.find? text <|> s.find? (Token.canonical text)) := by
  rw [get?, find?_eq_bind_index, find?_eq_bind_index]
  cases hplace : s.index.get? text with
  | none => rfl
  | some i =>
    -- The place is one of the list, so there is no other attempt.
    obtain ⟨t, ht, _⟩ := get?_index_eq_some_iff.1 hplace
    have hdirect : (some i).bind (fun i ↦ s.tokens[i]?) = some t := ht
    rw [hdirect]
    exact hdirect

/-- A text finds its own token, and the one of its canonical text only if it has none. -/
theorem get?_eq_some_iff {s : TokenSet} {text : String} {t : NamedToken} :
    s.get? text = some t ↔
      t ∈ s.tokens ∧ (t.text = text ∨ text ∉ s.texts ∧ t.text = Token.canonical text) := by
  rw [get?_eq, Option.orElse_eq_some, find?_eq_none_iff, find?_eq_some_iff, find?_eq_some_iff,
    and_left_comm, ← and_or_left]

theorem exists_get?_of_mem_texts {s : TokenSet} {text : String}
    (h : Token.canonical text ∈ s.texts) : ∃ t, s.get? text = some t := by
  obtain ⟨t, ht⟩ := exists_find?_of_mem_texts h
  rw [get?_eq, ht]
  cases s.find? text with
  | none => exact ⟨t, rfl⟩
  | some u => exact ⟨u, rfl⟩

theorem mem_of_get?_eq_some {s : TokenSet} {text : String} {t : NamedToken}
    (h : s.get? text = some t) : t ∈ s.tokens := (get?_eq_some_iff.1 h).1

/-- Under its own text, a token is found as what the text means. -/
theorem get?_eq_some_of_resolves {s : TokenSet} {r : Reference}
    (h : ∀ t ∈ s.tokens, t.Resolves r) {u : NamedToken} (hu : u.Resolves r)
    (hmem : u.text ∈ s.texts) : s.get? u.text = some u := by
  obtain ⟨t, ht⟩ := exists_find?_of_mem_texts hmem
  have htext : t.text = u.text := text_of_find?_eq_some ht
  have htoken := hu.token_eq (h t (List.mem_of_find?_eq_some ht)) htext
  rw [get?_eq, ht]
  exact congrArg some (congrArg₂ NamedToken.mk htext htoken)

/-! ### Adding tokens -/

theorem mem_texts_insert {s : TokenSet} {t : NamedToken} {text : String} :
    text ∈ (s.insert t).texts ↔ text ∈ s.texts ∨ text = t.text := by
  rw [texts_insert]
  split
  · rename_i hmem
    exact ⟨Or.inl, fun h ↦ h.elim id fun heq ↦ heq ▸ hmem⟩
  · rw [List.mem_append, List.mem_singleton]

theorem mem_tokens_insert {s : TokenSet} {t u : NamedToken} (h : u ∈ (s.insert t).tokens) :
    u ∈ s.tokens ∨ u = t := by
  rw [tokens_insert] at h
  split at h
  · exact Or.inl h
  · rwa [List.mem_append, List.mem_singleton] at h

theorem mem_texts_foldl_insert {s : TokenSet} {tokens : List NamedToken} {text : String} :
    text ∈ (tokens.foldl insert s).texts ↔
      text ∈ s.texts ∨ text ∈ tokens.map NamedToken.text := by
  induction tokens generalizing s with
  | nil => exact ⟨Or.inl, fun h ↦ h.resolve_right fun hmem ↦ by cases hmem⟩
  | cons t rest ih =>
    rw [List.foldl_cons, ih, mem_texts_insert, or_assoc]
    exact or_congr_right List.mem_cons.symm

theorem mem_texts_insertAll {s other : TokenSet} {text : String} :
    text ∈ (s.insertAll other).texts ↔ text ∈ s.texts ∨ text ∈ other.texts :=
  mem_texts_foldl_insert

theorem mem_tokens_insertAll {s other : TokenSet} {u : NamedToken}
    (h : u ∈ (s.insertAll other).tokens) : u ∈ s.tokens ∨ u ∈ other.tokens := by
  rw [insertAll] at h
  generalize other.tokens = tokens at h ⊢
  induction tokens generalizing s with
  | nil => exact Or.inl h
  | cons t rest ih =>
    rcases ih h with hs | hrest
    · rcases mem_tokens_insert hs with hs | rfl
      · exact Or.inl hs
      · exact Or.inr List.mem_cons_self
    · exact Or.inr (List.mem_cons_of_mem _ hrest)

/-! ### Statistics -/

theorem get?_foldl_set {f : NamedToken → Statistic} {text : String} {v : Statistic}
    {tokens : List NamedToken} {s : Statistics} (hv : ∀ t ∈ tokens, t.text = text → f t = v)
    (h : s.get? text = some v ∨ ∃ t ∈ tokens, t.text = text) :
    (tokens.foldl (fun s t ↦ Assoc.set s t.text (f t)) s).get? text = some v := by
  induction tokens generalizing s with
  | nil => exact h.elim id fun ⟨t, ht, _⟩ ↦ by cases ht
  | cons t rest ih =>
    rw [List.forall_mem_cons] at hv
    refine ih hv.2 ?_
    rw [Assoc.get?_set]
    by_cases htext : t.text = text
    · rw [if_pos htext, hv.1 htext]
      exact Or.inl rfl
    · rw [if_neg htext]
      refine h.imp id fun ⟨u, hu, hutext⟩ ↦ ⟨u, ?_, hutext⟩
      exact (List.mem_cons.1 hu).resolve_left fun heq ↦ htext (heq ▸ hutext)

/-- The statistics of a record hold the value of each token under the token's text. -/
theorem get?_evaluate {s : TokenSet} (record : Record) (c : Context) {t : NamedToken}
    (ht : t ∈ s.tokens) :
    (s.evaluate record c).get? t.text = some (t.token.evaluate record c) := by
  refine get?_foldl_set (fun u hu htext ↦ ?_) (Or.inr ⟨t, ht, rfl⟩)
  rw [List.inj_on_of_nodup_map s.nodup hu ht htext]

/-- Counting gives each text one statistic. -/
theorem nodup_keys_evaluate (s : TokenSet) (record : Record) (c : Context) :
    (Assoc.keys (s.evaluate record c)).Nodup :=
  Assoc.keys_nodup_foldl (m := []) (fun _ _ h ↦ Assoc.keys_nodup_set h _ _) .nil s.tokens

end TokenSet

end Jukebox
