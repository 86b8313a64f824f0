import Jukebox.Statistics.Evaluate
import Jukebox.Token.Template

/-!
# Statistics written into fields

A group fills a template for every file and writes the text into one field. Either each file is
filled by itself, or files that agree in a field, whatever its case, share the sum of their
statistics. The outcome lists the files whose field changes; in append mode the text goes behind
the field's value.
-/

set_option autoImplicit false
set_option relaxedAutoImplicit false

namespace Jukebox

/-- What statistics of a file are filled in. -/
inductive Grouping where
  /-- Its own. -/
  | file
  /-- Those of all files with the same value of a field, together. -/
  | field (name : String)
  deriving DecidableEq, Repr

/-- The grouping by a named field; no name, or the name of the key, means no grouping. -/
def Grouping.ofField (name : String) : Grouping :=
  let name := Text.trim name
  if name = "" ∨ name.toList.map Char.toLower = "key".toList then .file else .field name

structure Group where
  updateField : String
  grouping : Grouping
  template : String
  /-- Whether the text goes behind the value of the field instead of replacing it. -/
  append : Bool
  deriving DecidableEq, Repr

/-- A field of a file and its new value. -/
structure FieldUpdate where
  key : Nat
  name : String
  field : String
  value : String
  deriving DecidableEq, Repr

/-- What a group changes. -/
structure Outcome where
  field : String
  updates : List FieldUpdate
  unchanged : Nat
  deriving DecidableEq, Repr

/-! ### Filling templates -/

/-- How tokens of templates are found and series written. -/
structure Filler where
  tokens : TokenSet
  separator : String

namespace Filler

/-- The text for one part of a template. -/
def piece (f : Filler) (s : Statistics) : Token.Piece → Except StatisticError (List Char)
  | .literal c => .ok [c]
  | .token inner =>
    let text := String.ofList (Token.canonicalChars inner)
    match f.tokens.get? text with
    | none => .error (.unknownToken text)
    | some t => (s.require t.text).map fun v ↦ (v.text f.separator).toList

/-- A template with the values of its tokens in their place. -/
def fill (f : Filler) (template : String) (s : Statistics) : Except StatisticError String := do
  let texts ← (Token.pieces template.toList).mapM (f.piece s)
  .ok (String.ofList texts.flatten)

end Filler

/-! ### Groups -/

/-- The value of a field by which files are grouped, in lower case. -/
def Record.groupKey (r : Record) (field : String) : String :=
  Text.lower (r.file.fields.value field)

namespace Group

/-- The records under each group key, those of one key in their order. -/
def members (field : String) (records : List Record) : Assoc String (List Record) :=
  records.foldl (fun found r ↦
    let key := r.groupKey field
    Assoc.set found key ((found.get? key).getD [] ++ [r])) []

/-- The sum of the statistics of all records under a group key. -/
def total (members : Assoc String (List Record)) (key : String) : Statistics :=
  Statistics.sum (((members.get? key).getD []).map Record.statistics)

/-- The texts of some records; `filled` holds the texts of the keys met before. -/
def fillShared (f : Filler) (template field : String) (members : Assoc String (List Record)) :
    (filled : Assoc String String) → List Record → Except StatisticError (List String)
  | _, [] => .ok []
  | filled, r :: rest =>
    let key := r.groupKey field
    match filled.get? key with
    | some text => (fillShared f template field members filled rest).map (text :: ·)
    | none => do
      let text ← f.fill template (total members key)
      let texts ← fillShared f template field members (Assoc.set filled key text) rest
      .ok (text :: texts)

/-- The text for each record. -/
def texts (g : Group) (f : Filler) (records : List Record) : Except StatisticError (List String) :=
  match g.grouping with
  | .file => records.mapM fun r ↦ f.fill g.template r.statistics
  | .field name => fillShared f g.template name (members name records) [] records

/-- The new value of the field. -/
def newValue (g : Group) (r : Record) (text : String) : String :=
  if g.append then r.file.fields.value g.updateField ++ text else text

/-- The update of a record, if its field changes. -/
def update? (g : Group) (r : Record) (text : String) : Option FieldUpdate :=
  let value := g.newValue r text
  if value = r.file.fields.value g.updateField then none
  else some ⟨r.file.key, r.file.name, g.updateField, value⟩

/-- What the group changes about some records. -/
def apply (g : Group) (f : Filler) (records : List Record) : Except StatisticError Outcome := do
  let texts ← g.texts f records
  let updates := (records.zip texts).filterMap fun (r, text) ↦ g.update? r text
  .ok ⟨g.updateField, updates, records.length - updates.length⟩

end Group

end Jukebox
