import Jukebox.Json.Reader
import Jukebox.Library.File
import Jukebox.Text.Blank

/-!
# Snapshots of a library

A snapshot is a JSON array with an object for each file. Members that are texts, numbers or truth
values become fields of the file; a few fields have a meaning of their own. Names of fields have
no case; of two that agree in lower case, the one that comes later in the order of the alphabet
stands.
-/

set_option autoImplicit false
set_option relaxedAutoImplicit false

namespace Jukebox

open Text

/-- Why a snapshot cannot be used. -/
inductive SnapshotError where
  /-- There is no such file. -/
  | unreadable
  /-- The text is no JSON. -/
  | notJson
  | notAnArray
  | notAnObject (index : Nat)
  | missingField (index : Nat) (field : String)
  | invalidField (index : Nat) (field value : String)
  deriving DecidableEq, Repr

def SnapshotError.message : SnapshotError → String
  | unreadable => "Failed to read library snapshot"
  | notJson => "Failed to parse library snapshot"
  | notAnArray => "Library snapshot must be a JSON array of file objects"
  | notAnObject index => s!"File #{index} is not a JSON object"
  | missingField index field => s!"File #{index} is missing field '{field}'"
  | invalidField index field value =>
    s!"File #{index} has invalid value '{value}' for field '{field}'"

namespace Snapshot

/-- The text of a member; empty members, arrays and objects have none. -/
def valueText? : Json → Option String
  | .string s => some s
  | .number n => some n.text
  | .bool b => some (if b then "true" else "false")
  | _ => none

/-- Members in the order of their names; of two with one name, the later one stands. -/
def sortMembers (members : List (String × Json)) : List (String × Json) :=
  (members.foldl (fun m (name, v) ↦ Assoc.set m name v) []).mergeSort
    fun a b ↦ !decide (b.1 < a.1)

/-- The fields that the members of an object make. -/
def fieldsOf (members : List (String × Json)) : Fields :=
  (sortMembers members).foldl (fun fields (name, v) ↦
    match valueText? v with
    | some text => fields.put name text
    | none => fields) []

/-- A number in a field; blanks around it do not count. -/
def number {α : Type} (read : List Char → Option α) (index : Nat) (field value : String) :
    Except SnapshotError α :=
  match read (trimChars value.toList) with
  | some n => .ok n
  | none => .error (.invalidField index field value)

/-- A number in a field that may be missing or empty, which means 0. -/
def optionalNumber {α : Type} [OfNat α 0] (read : List Char → Option α) (index : Nat)
    (field : String) (fields : Fields) : Except SnapshotError α :=
  let value := fields.value field
  if value = "" then .ok 0 else number read index field value

/-- The file that the members of an object describe. -/
def file (historyField : String) (index : Nat) (members : List (String × Json)) :
    Except SnapshotError File := do
  let fields := fieldsOf members
  match fields.find? "Key" with
  | none => .error (.missingField index "Key")
  | some value =>
    let key ← number (unsigned? maxUInt64) index "Key" value
    let imported ← optionalNumber (signed? minInt64 maxInt64) index "Date Imported" fields
    let plays ← optionalNumber (unsigned? maxUInt32) index "Number Plays" fields
    .ok {
      key
      name := fields.value "Name"
      imported
      declaredPlays := plays
      history := fields.value historyField
      fields }

/-- The file of one entry. -/
def entry (historyField : String) (v : Json) (index : Nat) : Except SnapshotError File :=
  match v with
  | .object members => file historyField index members
  | _ => .error (.notAnObject index)

/-- The files of a JSON value. -/
def ofJson (historyField : String) : Json → Except SnapshotError (List File)
  | .array entries => entries.zipIdx.mapM fun (v, index) ↦ entry historyField v index
  | _ => .error .notAnArray

/-- The files of a snapshot. -/
def ofText (historyField text : String) : Except SnapshotError (List File) :=
  match Json.ofText? text with
  | some v => ofJson historyField v
  | none => .error .notJson

end Snapshot

end Jukebox
