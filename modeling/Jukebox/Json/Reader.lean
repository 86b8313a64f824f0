import Jukebox.Json.Lexeme

/-!
Reading JSON. The lexemes are taken one after the other; `frames` holds the arrays and objects that
are still open, innermost first, and may not grow beyond `maxDepth`.
-/

set_option autoImplicit false
set_option relaxedAutoImplicit false

namespace Jukebox.Json

/-- An array or object that is still open; what it holds is kept last one first. -/
inductive Frame where
  | array (elements : List Json)
  /-- The name is that of the member whose value comes next. -/
  | object (members : List (String × Json)) (name : String)

/-- What may come next. -/
inductive Expected where
  /-- A value. -/
  | value
  /-- A value, or the end of the array just opened. -/
  | firstElement
  /-- A name, or the end of the object just opened. -/
  | firstName
  /-- A name. -/
  | name (members : List (String × Json))
  /-- A colon behind a name. -/
  | colon
  /-- A comma or the end of the innermost frame. -/
  | next
  /-- Nothing: this is the value. -/
  | done (v : Json)

structure Parsing where
  frames : List Frame
  expected : Expected

/-- How many arrays and objects may be open at a time. -/
def maxDepth : Nat := 127

/-- A value is complete. -/
def complete (frames : List Frame) (v : Json) : Parsing :=
  match frames with
  | [] => ⟨[], .done v⟩
  | .array vs :: rest => ⟨.array (v :: vs) :: rest, .next⟩
  | .object ms name :: rest => ⟨.object ((name, v) :: ms) name :: rest, .next⟩

/-- A value begins. -/
def beginValue (frames : List Frame) : Lexeme → Option Parsing
  | .scalar v => some (complete frames v)
  | .openArray =>
    if frames.length < maxDepth then some ⟨.array [] :: frames, .firstElement⟩ else none
  | .openObject => if frames.length < maxDepth then some ⟨frames, .firstName⟩ else none
  | _ => none

/-- The name of a member. -/
def beginMember (frames : List Frame) (members : List (String × Json)) : Lexeme → Option Parsing
  | .scalar (.string name) => some ⟨.object members name :: frames, .colon⟩
  | _ => none

/-- One lexeme more. -/
def parseLexeme (s : Parsing) (l : Lexeme) : Option Parsing :=
  match s.expected with
  | .value => beginValue s.frames l
  | .firstElement =>
    match l, s.frames with
    | .closeArray, _ :: rest => some (complete rest (.array []))
    | l, frames => beginValue frames l
  | .firstName =>
    match l with
    | .closeObject => some (complete s.frames (.object []))
    | l => beginMember s.frames [] l
  | .name members => beginMember s.frames members l
  | .colon =>
    match l with
    | .colon => some { s with expected := .value }
    | _ => none
  | .next =>
    match l, s.frames with
    | .comma, .array _ :: _ => some { s with expected := .value }
    | .comma, .object ms _ :: rest => some ⟨rest, .name ms⟩
    | .closeArray, .array vs :: rest => some (complete rest (.array vs.reverse))
    | .closeObject, .object ms _ :: rest => some (complete rest (.object ms.reverse))
    | _, _ => none
  | .done _ => none

/-- The value that a text spells. -/
def ofText? (s : String) : Option Json := do
  let ls ← lexemes? s.toList
  match (← ls.foldlM parseLexeme ⟨[], .value⟩).expected with
  | .done v => some v
  | _ => none

end Jukebox.Json
