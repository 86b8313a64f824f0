import Jukebox.Toml.Number

/-!
# Reading TOML

A document is read line by line. A line holds a header, a member or nothing; members go into the
table of the last header. Values may nest `maxDepth` deep.

The readers of nested values and of lines run on a number of steps that the length of the text
bounds: each step takes a character at least.
-/

set_option autoImplicit false
set_option relaxedAutoImplicit false

namespace Jukebox.Toml

/-- How deep values may nest, and how many parts a dotted key may have. -/
def maxDepth : Nat := 79

/-- A dotted key of at most `steps` parts, and what follows it. -/
def readKeyParts : (steps : Nat) → List Char → Option (List String × List Char)
  | 0, _ => none
  | steps + 1, cs => do
    let (key, cs) ← readSimpleKey (skipSpaces cs)
    match skipSpaces cs with
    | '.' :: rest =>
      let (keys, rest) ← readKeyParts steps rest
      some (key :: keys, rest)
    | rest => some ([key], rest)

/-- A dotted key, and what follows it and the blanks behind it. -/
def readKey (cs : List Char) : Option (List String × List Char) := readKeyParts maxDepth cs

/-- The text behind blanks, comments and line ends; bare line feeds need no pair. -/
def skipLines : (steps : Nat) → List Char → List Char
  | 0, cs => cs
  | steps + 1, cs =>
    match newline? (skipComment (skipSpaces cs)) with
    | some rest => skipLines steps rest
    | none => skipSpaces cs

/-- What follows the equals sign behind a key, and blanks. -/
private def afterEquals? : List Char → Option (List Char)
  | '=' :: cs => some (skipSpaces cs)
  | _ => none

mutual

/-- A value, and what follows it. -/
def readValue : (steps depth : Nat) → List Char → Option (Toml × List Char)
  | 0, _, _ => none
  | steps + 1, depth, cs =>
    match cs with
    | '[' :: rest =>
      if depth = 0 then none
      else (readElements steps (depth - 1) rest).map fun (vs, rest) ↦ (.array vs, rest)
    | '{' :: rest =>
      if depth = 0 then none
      else match skipSpaces rest with
        | '}' :: rest => some (.table [], rest)
        | rest => (readMembers steps (depth - 1) [] rest).map fun (ms, rest) ↦
          (.table (closeMembers ms), rest)
    | '"' :: _ => (readString cs).map fun (text, rest) ↦ (.string (String.ofList text), rest)
    | '\'' :: _ => (readString cs).map fun (text, rest) ↦ (.string (String.ofList text), rest)
    | cs => readAtom cs

/-- The elements of an array up to its end, and what follows it. -/
def readElements : (steps depth : Nat) → List Char → Option (List Toml × List Char)
  | 0, _, _ => none
  | steps + 1, depth, cs =>
    match skipLines cs.length cs with
    | ']' :: rest => some ([], rest)
    | cs => do
      let (v, cs) ← readValue steps depth cs
      match skipLines cs.length cs with
      | ',' :: rest =>
        let (vs, rest) ← readElements steps depth rest
        some (v :: vs, rest)
      | ']' :: rest => some ([v], rest)
      | _ => none

/-- The members of a table in braces up to its end, at least one, and what follows it. -/
def readMembers : (steps depth : Nat) → Members → List Char → Option (Members × List Char)
  | 0, _, _, _ => none
  | steps + 1, depth, members, cs => do
    let (key, cs) ← readKey cs
    let (v, cs) ← readValue steps depth (← afterEquals? cs)
    let members ← members.insert v key
    match skipSpaces cs with
    | ',' :: rest => readMembers steps depth members rest
    | '}' :: rest => some (members, rest)
    | _ => none

end

/-! ### Documents -/

/-- The tables read so far, and the path of the last header. -/
structure Document where
  root : Members
  path : List String

namespace Document

/-- A member of the table of the last header. -/
private def member (d : Document) (cs : List Char) : Option (Document × List Char) := do
  let (key, cs) ← readKey cs
  let rest ← afterEquals? cs
  let (v, rest) ← readValue (2 * rest.length + 2) maxDepth rest
  let root ← d.root.descend (fun members ↦ members.insert v key) d.path
  some ({ d with root }, rest)

/-- A header: `change` says what it does to the members among which its last part stands. -/
private def header (change : String → Members → Option Members) (close : List Char)
    (d : Document) (cs : List Char) : Option (Document × List Char) := do
  let (path, cs) ← readKey cs
  if close.isPrefixOf cs then
    let key ← path.getLast?
    let root ← d.root.descend (change key) path.dropLast
    some (⟨root, path⟩, cs.drop close.length)
  else none

/-- The lines of a document, one after the other. -/
private def lines : (steps : Nat) → Document → List Char → Option Document
  | 0, _, _ => none
  | steps + 1, d, cs =>
    match skipSpaces cs with
    | [] => some d
    | '[' :: '[' :: rest => do
      let (d, rest) ← header Members.declareNext [']', ']'] d rest
      lines steps d (← endLine? rest)
    | '[' :: rest => do
      let (d, rest) ← header Members.declare [']'] d rest
      lines steps d (← endLine? rest)
    | c :: rest => do
      if c = '#' ∨ c = '\n' ∨ c = '\r' then lines steps d (← endLine? (c :: rest))
      else
        let (d, rest) ← member d (c :: rest)
        lines steps d (← endLine? rest)

/-- The document of a text, which may begin with a byte order mark. -/
def ofChars? (cs : List Char) : Option Document :=
  let cs := match cs with
    | '\uFEFF' :: rest => rest
    | _ => cs
  lines (cs.length + 1) ⟨[], []⟩ cs

end Document

/-- The members of the table that a text spells. -/
def ofText? (s : String) : Option (List (String × Toml)) :=
  (Document.ofChars? s.toList).map fun d ↦ closeMembers d.root

end Jukebox.Toml
