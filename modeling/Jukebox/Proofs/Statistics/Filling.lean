import Jukebox.Proofs.Token.Lookup
import Jukebox.Proofs.Token.Template
import Jukebox.Statistics.Group

/-!
# Filled templates

Filling goes through the tokens of a template from the left and puts texts in their place, leaving
all between them as it is (`Filler.fill_eq_of_cut`). So what is filled in is not read again, and
filling fails at the first token that is unknown or has no statistic
(`Filler.fill_replaces_tokens`).
-/

set_option autoImplicit false
set_option relaxedAutoImplicit false

namespace Jukebox

/-- What is between and behind the tokens of a template, with texts in place of the tokens. -/
def Token.weave : (cuts : List (List Char × List Char)) → (texts : List (List Char)) →
    (last : List Char) → List Char
  | (before, _) :: cuts, text :: texts, last => before ++ (text ++ weave cuts texts last)
  | _, _, last => last

/-- Under a text that is its own canonical text, only a token with this text is found. -/
theorem TokenSet.text_of_get?_eq_some {tokens : TokenSet} {text : String} {t : NamedToken}
    (htext : Token.canonical text = text) (h : tokens.get? text = some t) : t.text = text :=
  (get?_eq_some_iff.1 h).2.elim id fun hcanonical ↦ hcanonical.2.trans htext

namespace Filler

open Token

variable {f : Filler} {s : Statistics} {inner : List Char}

/-- A token is known, and there is a statistic for it. -/
def Finds (f : Filler) (s : Statistics) (inner : List Char) (v : Statistic) : Prop :=
  ∃ t, f.tokens.get? (canonical (String.ofList inner)) = some t ∧ s.get? t.text = some v

/-! ### One token -/

theorem piece_token_eq_ok_iff {text : List Char} :
    f.piece s (.token inner) = .ok text ↔
      ∃ v, f.Finds s inner v ∧ (v.text f.separator).toList = text := by
  simp only [piece, Finds, canonical, String.toList_ofList]
  cases f.tokens.get? (String.ofList (canonicalChars inner)) with
  | none => simp
  | some t => cases hv : s.get? t.text <;> simp [Statistics.require, hv, Except.map]

/-- The error about a token names it, whether it is unknown or has no statistic. -/
theorem eq_unknownToken_of_piece (hinner : NoBracket inner) {e : StatisticError}
    (h : f.piece s (.token inner) = .error e) :
    e = .unknownToken (canonical (String.ofList inner)) := by
  have hname : canonical (String.ofList (canonicalChars inner)) =
      String.ofList (canonicalChars inner) := by
    rw [canonical, String.toList_ofList, hinner.canonicalChars_canonicalChars]
  simp only [piece] at h
  rw [canonical, String.toList_ofList]
  cases ht : f.tokens.get? (String.ofList (canonicalChars inner)) with
  | none =>
    rw [ht] at h
    exact (Except.error.inj h).symm
  | some t =>
    have htext := TokenSet.text_of_get?_eq_some hname ht
    rw [ht, Traversal.map_eq_error_iff, Statistics.require, htext] at h
    split at h
    · cases h
    · exact (Except.error.inj h).symm

theorem exists_piece_token_iff :
    (∃ text, f.piece s (.token inner) = .ok text) ↔ ∃ v, f.Finds s inner v := by
  simp only [piece_token_eq_ok_iff]
  exact ⟨fun ⟨_, v, hv, _⟩ ↦ ⟨v, hv⟩, fun ⟨v, hv⟩ ↦ ⟨_, v, hv, rfl⟩⟩

theorem piece_token_eq_error_iff (hinner : NoBracket inner) {e : StatisticError} :
    f.piece s (.token inner) = .error e ↔
      (¬ ∃ v, f.Finds s inner v) ∧ e = .unknownToken (canonical (String.ofList inner)) := by
  rw [← exists_piece_token_iff]
  constructor
  · intro h
    refine ⟨?_, eq_unknownToken_of_piece hinner h⟩
    rintro ⟨text, htext⟩
    rw [h] at htext
    cases htext
  · rintro ⟨hnone, rfl⟩
    cases h : f.piece s (.token inner) with
    | ok text => exact absurd ⟨text, h⟩ hnone
    | error e => rw [eq_unknownToken_of_piece hinner h]

/-! ### A whole template -/

/-- The text for some parts of a template. -/
def fillParts (f : Filler) (s : Statistics) (ps : List Piece) : Except StatisticError (List Char) :=
  (ps.mapM (f.piece s)).map List.flatten

theorem fillParts_cons (p : Piece) (ps : List Piece) :
    f.fillParts s (p :: ps) =
      f.piece s p >>= fun text ↦ (f.fillParts s ps).map (text ++ ·) := by
  rw [fillParts, fillParts, List.mapM_cons]
  cases f.piece s p with
  | error e => rfl
  | ok text => cases ps.mapM (f.piece s) <;> rfl

theorem fillParts_literal_append (cs : List Char) (ps : List Piece) :
    f.fillParts s (cs.map .literal ++ ps) = (f.fillParts s ps).map (cs ++ ·) := by
  induction cs with
  | nil =>
    rw [List.map_nil, List.nil_append]
    cases f.fillParts s ps <;> rfl
  | cons c cs ih =>
    rw [List.map_cons, List.cons_append, fillParts_cons, ih]
    cases f.fillParts s ps <;> rfl

theorem fillParts_parts (cuts : List (List Char × List Char)) (last : List Char) :
    f.fillParts s (parts cuts last) =
      (cuts.mapM fun cut ↦ f.piece s (.token cut.2)).map fun texts ↦ weave cuts texts last := by
  induction cuts with
  | nil =>
    have hlast := fillParts_literal_append (f := f) (s := s) last []
    rw [List.append_nil] at hlast
    exact hlast.trans (congrArg Except.ok (List.append_nil last))
  | cons cut cuts ih =>
    have hparts : parts (cut :: cuts) last =
        cut.1.map .literal ++ .token cut.2 :: parts cuts last := by
      rw [parts, parts, List.flatMap_cons, List.append_assoc, List.append_assoc,
        List.singleton_append]
    rw [hparts, fillParts_literal_append, fillParts_cons, ih, List.mapM_cons]
    cases f.piece s (.token cut.2) with
    | error e => rfl
    | ok text => cases cuts.mapM fun cut ↦ f.piece s (.token cut.2) <;> rfl

theorem fill_eq_fillParts (f : Filler) (template : String) (s : Statistics) :
    f.fill template s = (f.fillParts s (pieces template.toList)).map String.ofList := by
  rw [fill, fillParts]
  cases (pieces template.toList).mapM (f.piece s) <;> rfl

/-- Filling a template is finding the texts of its tokens, one after another. -/
theorem fill_eq_of_cut {template : String} {cuts : List (List Char × List Char)} {last : List Char}
    (h : Cut template.toList cuts last) :
    f.fill template s = (cuts.mapM fun cut ↦ f.piece s (.token cut.2)).map fun texts ↦
      String.ofList (weave cuts texts last) := by
  rw [fill_eq_fillParts, h.pieces_eq, fillParts_parts]
  cases cuts.mapM fun cut ↦ f.piece s (.token cut.2) <;> rfl

/-- The texts of tokens are those of their statistics. -/
theorem mapM_piece_eq_ok_iff {cuts : List (List Char × List Char)} {texts : List (List Char)} :
    (cuts.mapM fun cut ↦ f.piece s (.token cut.2)) = .ok texts ↔
      ∃ values, List.Forall₂ (fun cut v ↦ f.Finds s cut.2 v) cuts values ∧
        values.map (fun v ↦ (v.text f.separator).toList) = texts := by
  rw [Traversal.mapM_eq_ok_iff]
  simp only [piece_token_eq_ok_iff]
  constructor
  · intro h
    induction h with
    | nil => exact ⟨[], .nil, rfl⟩
    | cons hfirst _ ih =>
      obtain ⟨v, hv, rfl⟩ := hfirst
      obtain ⟨values, hvalues, rfl⟩ := ih
      exact ⟨v :: values, .cons hv hvalues, rfl⟩
  · rintro ⟨values, hvalues, rfl⟩
    rw [List.forall₂_map_right_iff]
    exact hvalues.imp fun cut v hv ↦ ⟨v, hv, rfl⟩

end Filler

/-- A template is cut at its tokens from the left, in one way. The tokens listed for a template are
these. It can be filled if and only if each of them is known and has a statistic; the text is the
template with the statistics written in place of the tokens, and a template without tokens as it
is. If it cannot be filled, the error names the first token that is unknown or has no statistic. -/
theorem Filler.fill_replaces_tokens (f : Filler) (template : String) (s : Statistics) :
    ∃ cuts last, Token.Cut template.toList cuts last ∧
      (∀ cuts' last', Token.Cut template.toList cuts' last' → cuts' = cuts ∧ last' = last) ∧
      Token.templateTokens template = cuts.map (fun cut ↦ Token.canonical (String.ofList cut.2)) ∧
      ((∃ text, f.fill template s = .ok text) ↔ ∀ cut ∈ cuts, ∃ v, f.Finds s cut.2 v) ∧
      (∀ text, f.fill template s = .ok text ↔
        ∃ values, List.Forall₂ (fun cut v ↦ f.Finds s cut.2 v) cuts values ∧
          text.toList = Token.weave cuts (values.map fun v ↦ (v.text f.separator).toList) last) ∧
      (∀ e, f.fill template s = .error e ↔ ∃ before cut after, cuts = before ++ cut :: after ∧
        (∀ found ∈ before, ∃ v, f.Finds s found.2 v) ∧ (¬ ∃ v, f.Finds s cut.2 v) ∧
          e = .unknownToken (Token.canonical (String.ofList cut.2))) ∧
      (cuts = [] → f.fill template s = .ok template) := by
  obtain ⟨cuts, last, hcut⟩ := Token.exists_cut template.toList
  have hfill := fill_eq_of_cut (f := f) (s := s) hcut
  refine ⟨cuts, last, hcut, fun _ _ h ↦ hcut.unique h, hcut.templateTokens_eq, ?_, fun text ↦ ?_,
    fun e ↦ ?_, fun hnil ↦ ?_⟩
  · rw [hfill]
    simp only [Traversal.map_eq_ok_iff, exists_comm (α := String), exists_and_left, exists_eq',
      and_true, Traversal.exists_mapM_eq_ok_iff, exists_piece_token_iff]
  · rw [hfill, Traversal.map_eq_ok_iff]
    simp only [mapM_piece_eq_ok_iff]
    constructor
    · rintro ⟨_, ⟨values, hvalues, rfl⟩, rfl⟩
      exact ⟨values, hvalues, String.toList_ofList⟩
    · rintro ⟨values, hvalues, htext⟩
      exact ⟨_, ⟨values, hvalues, rfl⟩, by rw [← htext, String.ofList_toList]⟩
  · rw [hfill, Traversal.map_eq_error_iff, Traversal.mapM_eq_error_iff]
    constructor
    · rintro ⟨before, cut, after, rfl, hbefore, hcutError⟩
      have hbracket := hcut.noBracket cut (List.mem_append_right _ List.mem_cons_self)
      obtain ⟨hnone, he⟩ := (piece_token_eq_error_iff hbracket).1 hcutError
      exact ⟨before, cut, after, rfl, fun found h ↦ exists_piece_token_iff.1 (hbefore found h),
        hnone, he⟩
    · rintro ⟨before, cut, after, rfl, hbefore, hnone, he⟩
      have hbracket := hcut.noBracket cut (List.mem_append_right _ List.mem_cons_self)
      exact ⟨before, cut, after, rfl, fun found h ↦ exists_piece_token_iff.2 (hbefore found h),
        (piece_token_eq_error_iff hbracket).2 ⟨hnone, he⟩⟩
  · subst hnil
    cases hcut with
    | done _ => rw [hfill]; exact congrArg Except.ok String.ofList_toList

end Jukebox
