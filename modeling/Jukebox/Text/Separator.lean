/-!
Cutting a text at every occurrence of a separator, from the left and without overlap. The empty
separator stands before, between and behind all characters.
-/

set_option autoImplicit false
set_option relaxedAutoImplicit false

namespace Jukebox.Text

/-- Puts a character in front of the first text. -/
private def consFirst (c : Char) : List (List Char) → List (List Char)
  | [] => [[c]]
  | piece :: pieces => (c :: piece) :: pieces

/--
The texts between the separators. `skip` characters still belong to the separator found last.
-/
def splitFrom (separator : List Char) : (skip : Nat) → List Char → List (List Char)
  | _, [] => [[]]
  | skip + 1, _ :: cs => splitFrom separator skip cs
  | 0, c :: cs =>
    if separator.isPrefixOf (c :: cs) then [] :: splitFrom separator (separator.length - 1) cs
    else consFirst c (splitFrom separator 0 cs)

/-- The texts between the separators. -/
def splitText (separator cs : List Char) : List (List Char) :=
  if separator = [] then [] :: (cs.map fun c ↦ [c]) ++ [[]] else splitFrom separator 0 cs

end Jukebox.Text
