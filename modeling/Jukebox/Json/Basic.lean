import Jukebox.Decimal.Shortest

/-!
JSON values and how they are written over several lines: two blanks for each level, one member a
line, empty arrays and objects without a break.
-/

set_option autoImplicit false
set_option relaxedAutoImplicit false

namespace Jukebox

open Decimal

/-- A number of a JSON text: a whole number of 64 bits, or one in binary floating point. -/
inductive JsonNumber where
  | integer (n : Int)
  | float (x : Binary64)
  deriving DecidableEq, Repr

/-- The text of a number. -/
def JsonNumber.text : JsonNumber → String
  | integer n => toString n
  | float x => String.ofList (x.chars?.getD "null".toList)

inductive Json where
  | null
  | bool (b : Bool)
  | number (n : JsonNumber)
  | string (s : String)
  | array (elements : List Json)
  /-- Members in the order of the text. -/
  | object (members : List (String × Json))
  deriving Repr

namespace Json

/-- The hexadecimal digit of a number below 16. -/
private def hexDigit (n : Nat) : Char := (Nat.toDigits 16 n).headD '0'

/-- A character as it stands between quotes. -/
def escape (c : Char) : List Char :=
  match c with
  | '"' => ['\\', '"']
  | '\\' => ['\\', '\\']
  | '\n' => ['\\', 'n']
  | '\r' => ['\\', 'r']
  | '\t' => ['\\', 't']
  | '\x08' => ['\\', 'b']
  | '\x0c' => ['\\', 'f']
  | c =>
    if c.toNat < 0x20 then ['\\', 'u', '0', '0', hexDigit (c.toNat / 16), hexDigit (c.toNat % 16)]
    else [c]

/-- A text between quotes. -/
def quote (s : String) : List Char := '"' :: (s.toList.flatMap escape ++ ['"'])

/-- A new line with the blanks of a level. -/
private def newLine (level : Nat) : List Char := '\n' :: List.replicate (2 * level) ' '

mutual

/-- The text of a value that stands on a level. -/
def render (level : Nat) : Json → List Char
  | null => "null".toList
  | bool b => (if b then "true" else "false").toList
  | number n => n.text.toList
  | string s => quote s
  | array [] => "[]".toList
  | array (v :: vs) =>
    '[' :: (newLine (level + 1) ++ render (level + 1) v ++ renderElements (level + 1) vs ++
      newLine level ++ [']'])
  | object [] => ['{', '}']
  | object ((k, v) :: ms) =>
    '{' :: (newLine (level + 1) ++ quote k ++ ':' :: ' ' :: render (level + 1) v ++
      renderMembers (level + 1) ms ++ newLine level ++ ['}'])

/-- The elements after the first one. -/
def renderElements (level : Nat) : List Json → List Char
  | [] => []
  | v :: vs => ',' :: (newLine level ++ render level v ++ renderElements level vs)

/-- The members after the first one. -/
def renderMembers (level : Nat) : List (String × Json) → List Char
  | [] => []
  | (k, v) :: ms =>
    ',' :: (newLine level ++ quote k ++ ':' :: ' ' :: render level v ++ renderMembers level ms)

end

/-- The text of a value over several lines. -/
def text (v : Json) : String := String.ofList (v.render 0)

end Json

end Jukebox
