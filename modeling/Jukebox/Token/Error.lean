import Jukebox.Text.Numeral

/-!
What can be wrong with a token, and the words for it.
-/

set_option autoImplicit false
set_option relaxedAutoImplicit false

namespace Jukebox

namespace Token

open Jukebox.Text

/-- A value that the calendar or a selector does not have. -/
inductive RangeFault where
  | noDate (year month day : Nat)
  | noTime (hour minute : Nat)
  /-- A selector value outside its limits. -/
  | outside (selector : String) (value low high : Nat)
  deriving DecidableEq, Repr

def RangeFault.message : RangeFault → String
  | noDate y m d =>
    "no such date " ++ String.ofList (padded 4 y ++ '-' :: padded 2 m ++ '-' :: padded 2 d)
  | noTime h m => "no such time " ++ String.ofList (padded 2 h ++ ':' :: padded 2 m)
  | outside selector value low high => s!"{selector} {value} outside {low}..={high}"

end Token

/-- Why a text stands for no token. -/
inductive TokenError where
  /-- The canonical text is empty. -/
  | empty
  /-- The canonical text has no known form. -/
  | unknown (text : String)
  /-- A number has the right form and the wrong size. -/
  | outOfRange (text : String) (fault : Token.RangeFault)
  /-- A keyword carries a value that it has no use for. -/
  | unexpectedValue (text : String)
  /-- The range is empty or leaves the calendar. -/
  | invalidWindow (text : String)
  deriving DecidableEq, Repr

def TokenError.message : TokenError → String
  | empty => "Empty token"
  | unknown text => s!"Unknown token: [{text}]"
  | outOfRange text fault => s!"Invalid value in [{text}]: {fault.message}"
  | unexpectedValue text => s!"Token [{text}] does not accept a value"
  | invalidWindow text => s!"Invalid time window in [{text}]"

/-- All that is wrong with a collection of tokens, in one line. -/
def TokenError.summary (errors : List TokenError) : String :=
  "Invalid tokens in configuration: " ++ "; ".intercalate (errors.map message)

end Jukebox
