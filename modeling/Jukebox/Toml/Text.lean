import Jukebox.Toml.Basic

/-!
Blanks, comments and strings of TOML texts. A string in single quotes is taken as it stands, one in
double quotes may hold escapes; both kinds have a form in triple quotes that runs over several
lines.
-/

set_option autoImplicit false
set_option relaxedAutoImplicit false

namespace Jukebox.Toml

/-! ### Between the expressions -/

def isSpace (c : Char) : Bool := c == ' ' || c == '\t'

/-- The text behind spaces and tabs. -/
def skipSpaces (cs : List Char) : List Char := cs.dropWhile isSpace

/-- A character that may stand in comments and strings. -/
def isPlain (c : Char) : Bool := c == '\t' || (0x20 ≤ c.toNat && c.toNat != 0x7F)

/-- The text behind a line end. -/
def newline? : List Char → Option (List Char)
  | '\n' :: cs => some cs
  | '\r' :: '\n' :: cs => some cs
  | _ => none

/-- The text behind a comment, if one begins here. -/
def skipComment : List Char → List Char
  | '#' :: cs => cs.dropWhile isPlain
  | cs => cs

/-- The text behind the rest of a line, which holds nothing but spaces and a comment. -/
def endLine? (cs : List Char) : Option (List Char) :=
  match skipComment (skipSpaces cs) with
  | [] => some []
  | rest => newline? rest

/-! ### Strings -/

private def hexValue? (c : Char) : Option Nat :=
  if c.isDigit then some (c.toNat - '0'.toNat)
  else if 'a' ≤ c.toLower ∧ c.toLower ≤ 'f' then some (c.toLower.toNat - 'a'.toNat + 10)
  else none

/-- The character with a code in hexadecimal digits, which must be no surrogate. -/
def charOfHex? (digits : List Char) : Option Char := do
  let n ← digits.foldlM (fun n c ↦ (hexValue? c).map fun d ↦ 16 * n + d) 0
  if n.isValidChar then some (Char.ofNat n) else none

/-- What a letter behind a backslash stands for. -/
def unescape? : Char → Option Char
  | 'b' => some '\x08'
  | 't' => some '\t'
  | 'n' => some '\n'
  | 'f' => some '\x0c'
  | 'r' => some '\r'
  | '"' => some '"'
  | '\\' => some '\\'
  | _ => none

/-- Puts a character in front of what has been read. -/
private def push (c : Char) (rest : Option (List Char × List Char)) :
    Option (List Char × List Char) :=
  rest.map fun (text, cs) ↦ (c :: text, cs)

/-- A string in double quotes behind its first quote, and what follows its last one. -/
def readBasic : List Char → Option (List Char × List Char)
  | [] => none
  | '"' :: cs => some ([], cs)
  | '\\' :: 'u' :: a :: b :: c :: d :: cs => do
    let ch ← charOfHex? [a, b, c, d]
    push ch (readBasic cs)
  | '\\' :: 'U' :: a :: b :: c :: d :: e :: f :: g :: h :: cs => do
    let ch ← charOfHex? [a, b, c, d, e, f, g, h]
    push ch (readBasic cs)
  | '\\' :: c :: cs => do
    let ch ← unescape? c
    push ch (readBasic cs)
  | c :: cs => if isPlain c && c != '\\' then push c (readBasic cs) else none

/-- A string in single quotes behind its first quote, and what follows its last one. -/
def readLiteral : List Char → Option (List Char × List Char)
  | [] => none
  | c :: cs =>
    if c = '\'' then some ([], cs) else if isPlain c then push c (readLiteral cs) else none

/-- Nothing but spaces up to the line end. -/
private def atLineEnd (cs : List Char) : Bool := (newline? (skipSpaces cs)).isSome

/--
A string in three double quotes behind its first line end, and what follows its last quote. Up to
two quotes may stand in front of the closing ones. While `joining`, spaces and line ends are left
out: a backslash at the end of a line joins it with what comes next.
-/
def readLongBasic (joining : Bool) : List Char → Option (List Char × List Char)
  | [] => none
  | '"' :: '"' :: '"' :: '"' :: '"' :: cs => some (['"', '"'], cs)
  | '"' :: '"' :: '"' :: '"' :: cs => some (['"'], cs)
  | '"' :: '"' :: '"' :: cs => some ([], cs)
  | '\r' :: '\n' :: cs =>
    if joining then readLongBasic true cs else push '\n' (readLongBasic false cs)
  | '\\' :: 'u' :: a :: b :: c :: d :: cs => do
    let ch ← charOfHex? [a, b, c, d]
    push ch (readLongBasic false cs)
  | '\\' :: 'U' :: a :: b :: c :: d :: e :: f :: g :: h :: cs => do
    let ch ← charOfHex? [a, b, c, d, e, f, g, h]
    push ch (readLongBasic false cs)
  | '\\' :: c :: cs =>
    if atLineEnd (c :: cs) then
      -- the line end itself, if it comes at once, is left out with the blanks behind it
      if c = '\r' then (match cs with
        | '\n' :: rest => readLongBasic true rest
        | _ => none)
      else readLongBasic true cs
    else do
      let ch ← unescape? c
      push ch (readLongBasic false cs)
  | c :: cs =>
    if joining && (isSpace c || c == '\n') then readLongBasic true cs
    else if c == '\n' || (isPlain c && c != '\\') then push c (readLongBasic false cs)
    else none

/-- A string in three single quotes behind its first line end, and what follows its last quote. -/
def readLongLiteral : List Char → Option (List Char × List Char)
  | [] => none
  | '\'' :: '\'' :: '\'' :: '\'' :: '\'' :: cs => some (['\'', '\''], cs)
  | '\'' :: '\'' :: '\'' :: '\'' :: cs => some (['\''], cs)
  | '\'' :: '\'' :: '\'' :: cs => some ([], cs)
  | '\r' :: '\n' :: cs => push '\n' (readLongLiteral cs)
  | c :: cs => if c == '\n' || isPlain c then push c (readLongLiteral cs) else none

/-- A text without a line end at its head. -/
private def skipNewline (cs : List Char) : List Char := (newline? cs).getD cs

/-- A string of any kind, and what follows it. -/
def readString : List Char → Option (List Char × List Char)
  | '"' :: '"' :: '"' :: cs => readLongBasic false (skipNewline cs)
  | '\'' :: '\'' :: '\'' :: cs => readLongLiteral (skipNewline cs)
  | '"' :: cs => readBasic cs
  | '\'' :: cs => readLiteral cs
  | _ => none

/-! ### Keys -/

/-- A character of keys without quotes. -/
def isBare (c : Char) : Bool := c.isAlphanum || c == '_' || c == '-'

/-- A key without dots, and what follows it. -/
def readSimpleKey : List Char → Option (String × List Char)
  | '"' :: cs => (readBasic cs).map fun (text, rest) ↦ (String.ofList text, rest)
  | '\'' :: cs => (readLiteral cs).map fun (text, rest) ↦ (String.ofList text, rest)
  | cs =>
    match cs.takeWhile isBare with
    | [] => none
    | key => some (String.ofList key, cs.dropWhile isBare)

end Jukebox.Toml
