import Jukebox.Statistics.Evaluate

/-!
# Definitions of playlists

A playlist has a name, a token that ranks its files and a greatest size. A definition by the
yearly series stands for one playlist per year: the year goes into its name, at every
`[year]` or else behind it, and the playlist is ranked by the plays of that year.
-/

set_option autoImplicit false
set_option relaxedAutoImplicit false

namespace Jukebox

open Text

structure Definition where
  name : String
  /-- The canonical text of the token that ranks the files. -/
  token : String
  /-- The greatest number of files; 0 sets no limit. -/
  max : Nat
  deriving DecidableEq, Repr

namespace Definition

/-- The definition by a token as written. -/
def of (name token : String) (max : Nat) : Definition := ⟨name, Token.canonical token, max⟩

/-! ### Names for a year -/

/-- The length of the year placeholder at the head of a text, if there is one. -/
def placeholder? : List Char → Option Nat
  | '[' :: cs =>
    let inner := skipBlanks cs
    if (inner.take 4).map Char.toLower = "year".toList then
      match skipBlanks (inner.drop 4) with
      | ']' :: rest => some (cs.length + 1 - rest.length)
      | _ => none
    else none
  | _ => none

/-- The text with `year` for each placeholder; `skip` characters still belong to the last one. -/
def replaceYear (year : List Char) : (skip : Nat) → List Char → List Char
  | _, [] => []
  | skip + 1, _ :: cs => replaceYear year skip cs
  | 0, c :: cs =>
    match placeholder? (c :: cs) with
    | some length => year ++ replaceYear year (length - 1) cs
    | none => c :: replaceYear year 0 cs

/-- Whether a text has a placeholder. -/
def hasPlaceholder : List Char → Bool
  | [] => false
  | c :: cs => (placeholder? (c :: cs)).isSome || hasPlaceholder cs

/-- The name of the playlist of a year. -/
def yearName (pattern : String) (year : Int) : String :=
  if hasPlaceholder pattern.toList then
    String.ofList (replaceYear (toString year).toList 0 pattern.toList)
  else s!"{pattern} ({year})"

/-! ### Expansion -/

/-- A year as written in a token, taken as a signed number of 32 bits. -/
def startYear (n : Nat) : Int := (n : Int).bmod (Nat.pow 2 32)

/-- The token for the plays of a year. -/
def yearToken (year : Int) : String :=
  String.ofList ("date=".toList ++ paddedInt 4 year ++ "-01-01,1y".toList)

/-- The playlist of a year. -/
def ofYear (pattern : String) (max : Nat) (year : Int) : Definition :=
  ⟨yearName pattern year, yearToken year, max⟩

/-- The definitions that a configured playlist stands for. -/
def expand (name token : String) (max : Nat) (firstYear currentYear : Int) :
    Except TokenError (List Definition) := do
  match ← Token.Expr.ofText token with
  | .keyword .perYear value =>
    .ok ((yearsBetween (value.elim firstYear startYear) currentYear).map (ofYear name max))
  | _ => .ok [.of name token max]

end Definition

end Jukebox
