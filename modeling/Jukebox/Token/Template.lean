import Jukebox.Token.Canonical

/-!
Templates: texts with tokens in brackets. A token runs from an opening bracket to the next
bracket, which must be a closing one; every other character stands for itself. `pieces` cuts a
template, and `render_pieces` says that the cuts lose nothing.
-/

set_option autoImplicit false
set_option relaxedAutoImplicit false

namespace Jukebox.Token

/-- A part of a template. -/
inductive Piece where
  /-- A character that stands for itself. -/
  | literal (c : Char)
  /-- What stands between a pair of brackets. -/
  | token (inner : List Char)
  deriving DecidableEq, Repr

/-- The text of a part. -/
def Piece.chars : Piece → List Char
  | literal c => [c]
  | token inner => '[' :: (inner ++ [']'])

/--
The parts of a template. `opened` is what has been read since an opening bracket that may yet
begin a token.
-/
def piecesFrom (opened : Option (List Char)) : List Char → List Piece
  | [] => match opened with
    | none => []
    | some inner => ('[' :: inner).map .literal
  | c :: cs => match opened with
    | none => if c = '[' then piecesFrom (some []) cs else .literal c :: piecesFrom none cs
    | some inner =>
      if c = '[' then ('[' :: inner).map .literal ++ piecesFrom (some []) cs
      else if c = ']' then .token inner :: piecesFrom none cs
      else piecesFrom (some (inner ++ [c])) cs

/-- The parts of a template. -/
def pieces (cs : List Char) : List Piece := piecesFrom none cs

private theorem flatMap_literal (cs : List Char) :
    (cs.map Piece.literal).flatMap Piece.chars = cs := by
  induction cs with
  | nil => rfl
  | cons c cs ih => simpa [Piece.chars] using ih

private theorem render_piecesFrom (opened : Option (List Char)) (cs : List Char) :
    (piecesFrom opened cs).flatMap Piece.chars = (opened.elim [] ('[' :: ·)) ++ cs := by
  induction cs generalizing opened with
  | nil => cases opened <;> simp [piecesFrom, flatMap_literal, Piece.chars]
  | cons c cs ih =>
    cases opened with
    | none =>
      by_cases h : c = '[' <;> simp [piecesFrom, h, ih, Piece.chars]
    | some inner =>
      by_cases h : c = '['
      · simp [piecesFrom, h, ih, flatMap_literal, Piece.chars]
      · by_cases h' : c = ']' <;> simp [piecesFrom, h, h', ih, Piece.chars]

theorem render_pieces (cs : List Char) : (pieces cs).flatMap Piece.chars = cs :=
  render_piecesFrom none cs

/-- The canonical texts of the tokens of a template, in order. -/
def templateTokens (template : String) : List String :=
  (pieces template.toList).filterMap fun
    | .literal _ => none
    | .token inner => some (String.ofList (canonicalChars inner))

end Jukebox.Token
