import Jukebox.Text.Blank
import Jukebox.Text.Lowercase

/-!
The canonical text of a token: without the blanks and brackets around it, without blanks inside,
in lower case. Two spellings of a token are the same token when their canonical texts agree.
-/

set_option autoImplicit false
set_option relaxedAutoImplicit false

namespace Jukebox.Token

open Jukebox.Text

/-- The text without opening brackets in front and closing brackets behind. -/
def stripBrackets (cs : List Char) : List Char :=
  ((cs.dropWhile (· == '[')).reverse.dropWhile (· == ']')).reverse

/-- The canonical text, as characters. -/
def canonicalChars (cs : List Char) : List Char :=
  ((stripBrackets (trimChars cs)).filter fun c ↦ !isBlank c).flatMap lowerChar

/-- The canonical text of a token. -/
def canonical (text : String) : String := String.ofList (canonicalChars text.toList)

@[simp] theorem toList_canonical (text : String) :
    (canonical text).toList = canonicalChars text.toList := by
  simp [canonical]

end Jukebox.Token
