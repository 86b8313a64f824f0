import Jukebox.Json.Number

/-!
The lexemes of JSON texts: marks, strings, numbers and words. The text is read character by
character by a machine whose state is the lexeme begun (`Lexing`).
-/

set_option autoImplicit false
set_option relaxedAutoImplicit false

namespace Jukebox.Json

inductive Lexeme where
  | openArray
  | closeArray
  | openObject
  | closeObject
  | comma
  | colon
  /-- A string, a number, or one of the three words. -/
  | scalar (v : Json)

/-- The lexeme that has been begun; characters are kept last one first. -/
inductive Lexing where
  | idle
  | word (read : List Char)
  | number (read : List Char)
  | string (read : List Char)
  /-- Behind a backslash. -/
  | escape (read : List Char)
  /-- Inside the four hexadecimal digits of a character, perhaps behind a first surrogate. -/
  | code (read : List Char) (surrogate : Option Nat) (digits value : Nat)
  /-- Behind a first surrogate. -/
  | second (read : List Char) (surrogate : Nat)
  /-- Behind a first surrogate and a backslash. -/
  | secondEscape (read : List Char) (surrogate : Nat)

/-- The lexemes found, last one first, and the one that has been begun. -/
abbrev LexState := List Lexeme × Lexing

private def isNumberChar (c : Char) : Bool :=
  c.isDigit || c == '-' || c == '+' || c == '.' || c == 'e' || c == 'E'

/-- A character between lexemes. -/
def begin? (found : List Lexeme) (c : Char) : Option LexState :=
  match c with
  | ' ' | '\n' | '\r' | '\t' => some (found, .idle)
  | '[' => some (.openArray :: found, .idle)
  | ']' => some (.closeArray :: found, .idle)
  | '{' => some (.openObject :: found, .idle)
  | '}' => some (.closeObject :: found, .idle)
  | ',' => some (.comma :: found, .idle)
  | ':' => some (.colon :: found, .idle)
  | '"' => some (found, .string [])
  | c =>
    if c == '-' || c.isDigit then some (found, .number [c])
    else if c.isAlpha then some (found, .word [c])
    else none

/-- The value of a word. -/
def wordValue? (read : List Char) : Option Json :=
  match String.ofList read.reverse with
  | "null" => some .null
  | "true" => some (.bool true)
  | "false" => some (.bool false)
  | _ => none

/-- What a letter behind a backslash stands for. -/
def unescape? : Char → Option Char
  | '"' => some '"'
  | '\\' => some '\\'
  | '/' => some '/'
  | 'b' => some '\x08'
  | 'f' => some '\x0c'
  | 'n' => some '\n'
  | 'r' => some '\r'
  | 't' => some '\t'
  | _ => none

def hexValue? (c : Char) : Option Nat :=
  if c.isDigit then some (c.toNat - '0'.toNat)
  else if 'a' ≤ c ∧ c ≤ 'f' then some (c.toNat - 'a'.toNat + 10)
  else if 'A' ≤ c ∧ c ≤ 'F' then some (c.toNat - 'A'.toNat + 10)
  else none

/-- A code unit has been read: a character, or one half of a surrogate pair. -/
def codeUnit? (read : List Char) (surrogate : Option Nat) (value : Nat) : Option Lexing :=
  match surrogate with
  | none =>
    if 0xD800 ≤ value ∧ value < 0xDC00 then some (.second read value)
    else if 0xDC00 ≤ value ∧ value < 0xE000 then none
    else some (.string (Char.ofNat value :: read))
  | some first =>
    if 0xDC00 ≤ value ∧ value < 0xE000 then
      some (.string (Char.ofNat (0x10000 + (first - 0xD800) * 0x400 + (value - 0xDC00)) :: read))
    else none

/-- One character more. -/
def lexChar (s : LexState) (c : Char) : Option LexState :=
  let (found, lexing) := s
  match lexing with
  | .idle => begin? found c
  | .word read => do
    if c.isAlpha then some (found, .word (c :: read))
    else begin? (.scalar (← wordValue? read) :: found) c
  | .number read => do
    if isNumberChar c then some (found, .number (c :: read))
    else begin? (.scalar (.number (← JsonNumber.ofChars? read.reverse)) :: found) c
  | .string read =>
    if c = '"' then some (.scalar (.string (String.ofList read.reverse)) :: found, .idle)
    else if c = '\\' then some (found, .escape read)
    else if c.toNat < 0x20 then none
    else some (found, .string (c :: read))
  | .escape read =>
    if c = 'u' then some (found, .code read none 0 0)
    else (unescape? c).map fun d ↦ (found, .string (d :: read))
  | .code read surrogate digits value => do
    let value := 16 * value + (← hexValue? c)
    if digits = 3 then (codeUnit? read surrogate value).map fun l ↦ (found, l)
    else some (found, .code read surrogate (digits + 1) value)
  | .second read surrogate => if c = '\\' then some (found, .secondEscape read surrogate) else none
  | .secondEscape read surrogate =>
    if c = 'u' then some (found, .code read (some surrogate) 0 0) else none

/-- The lexemes of a text; a blank behind the text ends its last lexeme. -/
def lexemes? (cs : List Char) : Option (List Lexeme) := do
  let s ← cs.foldlM lexChar ([], Lexing.idle)
  match ← lexChar s ' ' with
  | (found, .idle) => some found.reverse
  | _ => none

end Jukebox.Json
