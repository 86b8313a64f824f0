import Jukebox.Proofs.Token.Canonical
import Jukebox.Token.Template

/-!
# Tokens of a template

A template is cut at the leftmost token, and what is behind that token is cut again
(`Token.Cut`): there is one way to do it (`Token.exists_cut`, `Token.Cut.unique`). The parts of a
template, which are read off one character at a time, are those of this cut
(`Token.Cut.pieces_eq`). Two equations about the head of a text are enough to see this: a token
is one part (`Token.pieces_token`), and a character at which no token begins stands for itself,
whatever brackets may follow it (`Token.pieces_cons_of_not_token`).
-/

set_option autoImplicit false
set_option relaxedAutoImplicit false

namespace Jukebox.Token

/-- A text without brackets. -/
def NoBracket (cs : List Char) : Prop := '[' ∉ cs ∧ ']' ∉ cs

/-- A text has a token with the characters `inner` between its brackets, `before` standing in front
of the token and `rest` behind it. -/
def TokenAt (cs before inner rest : List Char) : Prop :=
  cs = before ++ '[' :: (inner ++ ']' :: rest) ∧ NoBracket inner

/-- The leftmost token of a text. -/
def FirstToken (cs before inner rest : List Char) : Prop :=
  TokenAt cs before inner rest ∧
    ∀ before' inner' rest', TokenAt cs before' inner' rest' → before.length ≤ before'.length

/-- A text is cut at its leftmost token, and again behind it, as long as there is one. Every token
comes with what is in front of it; the last argument is what is behind the last token. -/
inductive Cut : List Char → List (List Char × List Char) → List Char → Prop
  | done {cs : List Char} (hnone : ∀ before inner rest, ¬ TokenAt cs before inner rest) :
      Cut cs [] cs
  | token {cs before inner rest last : List Char} {cuts : List (List Char × List Char)}
      (hfirst : FirstToken cs before inner rest) (hrest : Cut rest cuts last) :
      Cut cs ((before, inner) :: cuts) last

variable {c : Char} {cs before inner rest last : List Char} {cuts : List (List Char × List Char)}

/-! ### Parts at the head of a text -/

/-- Behind an opening bracket, characters other than brackets are put aside. -/
theorem piecesFrom_some_append (opened : List Char) (hinner : NoBracket inner) (cs : List Char) :
    piecesFrom (some opened) (inner ++ cs) = piecesFrom (some (opened ++ inner)) cs := by
  induction inner generalizing opened with
  | nil => rw [List.nil_append, List.append_nil]
  | cons c inner ih =>
    obtain ⟨hopen, hclose⟩ := hinner
    rw [List.mem_cons, not_or] at hopen hclose
    rw [List.cons_append, piecesFrom, if_neg (Ne.symm hopen.1), if_neg (Ne.symm hclose.1),
      ih (opened ++ [c]) ⟨hopen.2, hclose.2⟩, List.append_assoc, List.singleton_append]

theorem pieces_open_append (hinner : NoBracket inner) (cs : List Char) :
    pieces ('[' :: (inner ++ cs)) = piecesFrom (some inner) cs :=
  piecesFrom_some_append [] hinner cs

theorem pieces_token (hinner : NoBracket inner) (rest : List Char) :
    pieces ('[' :: (inner ++ ']' :: rest)) = .token inner :: pieces rest :=
  pieces_open_append hinner (']' :: rest)

theorem pieces_cons_of_ne (hc : c ≠ '[') (cs : List Char) :
    pieces (c :: cs) = .literal c :: pieces cs := if_neg hc

theorem pieces_append_of_noBracket (hinner : NoBracket inner) (cs : List Char) :
    pieces (inner ++ cs) = inner.map .literal ++ pieces cs := by
  induction inner with
  | nil => rfl
  | cons c inner ih =>
    obtain ⟨hopen, hclose⟩ := hinner
    rw [List.mem_cons, not_or] at hopen hclose
    rw [List.cons_append, pieces_cons_of_ne (Ne.symm hopen.1), ih ⟨hopen.2, hclose.2⟩]
    rfl

/-- A text is what comes before its first bracket, and that bracket and the rest, if any. -/
theorem exists_run (cs : List Char) :
    ∃ run tail, cs = run ++ tail ∧ NoBracket run ∧
      (tail = [] ∨ (∃ rest, tail = '[' :: rest) ∨ ∃ rest, tail = ']' :: rest) := by
  induction cs with
  | nil => exact ⟨[], [], rfl, ⟨List.not_mem_nil, List.not_mem_nil⟩, Or.inl rfl⟩
  | cons c cs ih =>
    by_cases hopen : c = '['
    · exact ⟨[], c :: cs, rfl, ⟨List.not_mem_nil, List.not_mem_nil⟩,
        Or.inr (Or.inl ⟨cs, hopen ▸ rfl⟩)⟩
    · by_cases hclose : c = ']'
      · exact ⟨[], c :: cs, rfl, ⟨List.not_mem_nil, List.not_mem_nil⟩,
          Or.inr (Or.inr ⟨cs, hclose ▸ rfl⟩)⟩
      · obtain ⟨run, tail, rfl, hrun, htail⟩ := ih
        refine ⟨c :: run, tail, rfl, ⟨?_, ?_⟩, htail⟩
        · exact List.not_mem_cons_of_ne_of_not_mem (Ne.symm hopen) hrun.1
        · exact List.not_mem_cons_of_ne_of_not_mem (Ne.symm hclose) hrun.2

/-- A character at which no token begins stands for itself. -/
theorem pieces_cons_of_not_token (h : ∀ inner rest, ¬ TokenAt (c :: cs) [] inner rest) :
    pieces (c :: cs) = .literal c :: pieces cs := by
  by_cases hc : c = '['
  · subst hc
    obtain ⟨run, tail, rfl, hrun, rfl | ⟨rest, rfl⟩ | ⟨rest, rfl⟩⟩ := exists_run cs
    · rw [pieces_open_append hrun, pieces_append_of_noBracket hrun]
      exact (List.append_nil _).symm
    · rw [pieces_open_append hrun, pieces_append_of_noBracket hrun]
      rfl
    · exact absurd ⟨rfl, hrun⟩ (h run rest)
  · exact pieces_cons_of_ne hc cs

/-! ### Parts up to the leftmost token -/

theorem TokenAt.cons (c : Char) (h : TokenAt cs before inner rest) :
    TokenAt (c :: cs) (c :: before) inner rest := ⟨congrArg (c :: ·) h.1, h.2⟩

theorem TokenAt.of_cons {d : Char} (h : TokenAt (c :: cs) (d :: before) inner rest) :
    d = c ∧ TokenAt cs before inner rest :=
  ⟨(List.cons.inj h.1).1.symm, (List.cons.inj h.1).2, h.2⟩

theorem TokenAt.length_lt (h : TokenAt cs before inner rest) : rest.length < cs.length := by
  rw [h.1]
  simp only [List.length_append, List.length_cons]
  omega

theorem FirstToken.of_cons {d : Char} (h : FirstToken (c :: cs) (d :: before) inner rest) :
    d = c ∧ FirstToken cs before inner rest := by
  refine ⟨h.1.of_cons.1, h.1.of_cons.2, fun before' inner' rest' htoken ↦ ?_⟩
  exact Nat.le_of_succ_le_succ (h.2 _ _ _ (htoken.cons c))

theorem pieces_of_firstToken (h : FirstToken cs before inner rest) :
    pieces cs = before.map .literal ++ .token inner :: pieces rest := by
  induction before generalizing cs with
  | nil =>
    rw [h.1.1]
    exact pieces_token h.1.2 rest
  | cons d before ih =>
    have hne : cs ≠ [] := by
      rw [h.1.1]
      exact List.cons_ne_nil d _
    obtain ⟨c, cs, rfl⟩ := List.exists_cons_of_ne_nil hne
    obtain ⟨rfl, hfirst⟩ := h.of_cons
    have hhead : ∀ inner' rest', ¬ TokenAt (d :: cs) [] inner' rest' :=
      fun inner' rest' htoken ↦ Nat.not_succ_le_zero _ (h.2 _ _ _ htoken)
    rw [pieces_cons_of_not_token hhead, ih hfirst]
    rfl

theorem pieces_of_not_token (h : ∀ before inner rest, ¬ TokenAt cs before inner rest) :
    pieces cs = cs.map .literal := by
  induction cs with
  | nil => rfl
  | cons c cs ih =>
    rw [pieces_cons_of_not_token (h []), ih fun before inner rest htoken ↦ h _ _ _ (htoken.cons c)]
    rfl

/-! ### The cut -/

theorem exists_firstToken_or (cs : List Char) :
    (∃ before inner rest, FirstToken cs before inner rest) ∨
      ∀ before inner rest, ¬ TokenAt cs before inner rest := by
  induction cs with
  | nil => exact Or.inr fun before inner rest htoken ↦ Nat.not_lt_zero _ htoken.length_lt
  | cons c cs ih =>
    by_cases hhead : ∃ inner rest, TokenAt (c :: cs) [] inner rest
    · obtain ⟨inner, rest, htoken⟩ := hhead
      exact Or.inl ⟨[], inner, rest, htoken, fun _ _ _ _ ↦ Nat.zero_le _⟩
    · have hcons : ∀ before inner rest, TokenAt (c :: cs) before inner rest →
          ∃ before', before = c :: before' ∧ TokenAt cs before' inner rest := by
        intro before inner rest htoken
        cases before with
        | nil => exact absurd ⟨inner, rest, htoken⟩ hhead
        | cons d before =>
          obtain ⟨rfl, htail⟩ := htoken.of_cons
          exact ⟨before, rfl, htail⟩
      refine ih.imp ?_ ?_
      · rintro ⟨before, inner, rest, hfirst⟩
        refine ⟨c :: before, inner, rest, hfirst.1.cons c, fun before' inner' rest' htoken ↦ ?_⟩
        obtain ⟨before', rfl, htail⟩ := hcons _ _ _ htoken
        exact Nat.succ_le_succ (hfirst.2 _ _ _ htail)
      · intro hnone before inner rest htoken
        obtain ⟨before', _, htail⟩ := hcons _ _ _ htoken
        exact hnone _ _ _ htail

theorem exists_cut (cs : List Char) : ∃ cuts last, Cut cs cuts last := by
  rcases exists_firstToken_or cs with ⟨before, inner, rest, hfirst⟩ | hnone
  · have hlt : rest.length < cs.length := hfirst.1.length_lt
    obtain ⟨cuts, last, hrest⟩ := exists_cut rest
    exact ⟨(before, inner) :: cuts, last, .token hfirst hrest⟩
  · exact ⟨[], cs, .done hnone⟩
termination_by cs.length

/-- There is one leftmost token. -/
theorem FirstToken.unique {before' inner' rest' : List Char}
    (h : FirstToken cs before inner rest) (h' : FirstToken cs before' inner' rest') :
    before' = before ∧ inner' = inner ∧ rest' = rest := by
  have hlength : before'.length = before.length :=
    Nat.le_antisymm (h'.2 _ _ _ h.1) (h.2 _ _ _ h'.1)
  obtain ⟨rfl, htoken⟩ := List.append_inj (h'.1.1.symm.trans h.1.1) hlength
  have hpieces := congrArg pieces htoken
  rw [pieces_token h'.1.2, pieces_token h.1.2] at hpieces
  obtain rfl := Piece.token.inj (List.cons.inj hpieces).1
  have hrest := List.append_cancel_left (List.cons.inj htoken).2
  exact ⟨rfl, rfl, (List.cons.inj hrest).2⟩

theorem Cut.unique {cuts' : List (List Char × List Char)} {last' : List Char}
    (h : Cut cs cuts last) (h' : Cut cs cuts' last') : cuts' = cuts ∧ last' = last := by
  induction h generalizing cuts' last' with
  | done hnone =>
    cases h' with
    | done _ => exact ⟨rfl, rfl⟩
    | token hfirst' _ => exact absurd hfirst'.1 (hnone _ _ _)
  | token hfirst _ ih =>
    cases h' with
    | done hnone' => exact absurd hfirst.1 (hnone' _ _ _)
    | token hfirst' hrest' =>
      obtain ⟨rfl, rfl, rfl⟩ := hfirst.unique hfirst'
      obtain ⟨rfl, rfl⟩ := ih hrest'
      exact ⟨rfl, rfl⟩

theorem Cut.noBracket (h : Cut cs cuts last) : ∀ cut ∈ cuts, NoBracket cut.2 := by
  induction h with
  | done _ => exact List.forall_mem_nil _
  | token hfirst _ ih => exact List.forall_mem_cons.2 ⟨hfirst.1.2, ih⟩

/-- The canonical text of a text without brackets is its own canonical text. -/
theorem NoBracket.canonicalChars_canonicalChars (h : NoBracket inner) :
    canonicalChars (canonicalChars inner) = canonicalChars inner := by
  rw [canonicalChars_of_settled fun c ↦ isSettled_of_mem_canonicalChars, stripBrackets_eq_self_iff]
  constructor
  · intro hhead
    exact h.1 (mem_of_bracket_mem_canonicalChars (List.mem_of_head? hhead) (Or.inl rfl))
  · intro hlast
    exact h.2 (mem_of_bracket_mem_canonicalChars (List.mem_of_getLast? hlast) (Or.inr rfl))

/-- The parts of a text that has been cut. -/
def parts (cuts : List (List Char × List Char)) (last : List Char) : List Piece :=
  cuts.flatMap (fun cut ↦ cut.1.map .literal ++ [.token cut.2]) ++ last.map .literal

theorem Cut.pieces_eq (h : Cut cs cuts last) : pieces cs = parts cuts last := by
  induction h with
  | done hnone => exact pieces_of_not_token hnone
  | token hfirst _ ih =>
    rw [pieces_of_firstToken hfirst, ih, parts, parts, List.flatMap_cons, List.append_assoc,
      List.append_assoc, List.singleton_append]

/-- The canonical text of a part that is a token. -/
def Piece.tokenText? : Piece → Option String
  | literal _ => none
  | token inner => some (String.ofList (canonicalChars inner))

theorem filterMap_tokenText?_parts (cuts : List (List Char × List Char)) (last : List Char) :
    (parts cuts last).filterMap Piece.tokenText? =
      cuts.map fun cut ↦ String.ofList (canonicalChars cut.2) := by
  have hliteral : ∀ cs : List Char, (cs.map Piece.literal).filterMap Piece.tokenText? = [] := by
    intro cs
    rw [List.filterMap_map, List.filterMap_eq_nil_iff]
    exact fun _ _ ↦ rfl
  rw [parts, List.filterMap_append, hliteral, List.append_nil]
  induction cuts with
  | nil => rfl
  | cons cut cuts ih =>
    rw [List.flatMap_cons, List.filterMap_append, List.filterMap_append, hliteral, ih]
    rfl

/-- The canonical texts of a template are those of the tokens at which it is cut. -/
theorem Cut.templateTokens_eq {template : String} (h : Cut template.toList cuts last) :
    templateTokens template = cuts.map fun cut ↦ canonical (String.ofList cut.2) := by
  have htokens : templateTokens template = (pieces template.toList).filterMap Piece.tokenText? := by
    refine List.filterMap_congr fun piece _ ↦ ?_
    cases piece <;> rfl
  rw [htokens, h.pieces_eq, filterMap_tokenText?_parts]
  simp only [canonical, String.toList_ofList]

end Jukebox.Token
