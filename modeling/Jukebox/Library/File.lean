import Jukebox.Assoc
import Jukebox.Calendar.Instant
import Jukebox.Text.Lowercase

/-!
Files of a media library, with the fields that the library keeps about them. Field names are kept
in lower case, so a field is found under any case of its name.
-/

set_option autoImplicit false
set_option relaxedAutoImplicit false

namespace Jukebox

/-- The fields of a file by lower-case name. -/
abbrev Fields := Assoc String String

namespace Fields

/-- The value of a field. -/
def find? (fields : Fields) (name : String) : Option String := fields.get? (Text.lower name)

/-- Gives a field a value. -/
def put (fields : Fields) (name value : String) : Fields := Assoc.set fields (Text.lower name) value

/-- The value of a field, empty if there is none. -/
def value (fields : Fields) (name : String) : String := (fields.find? name).getD ""

theorem find?_put (fields : Fields) (name other value : String) :
    (fields.put name value).find? other =
      if Text.lower name = Text.lower other then some value else fields.find? other :=
  Assoc.get?_set ..

end Fields

/-- A file as the library describes it. -/
structure File where
  key : Nat := 0
  name : String := ""
  /-- When the file was imported, in seconds since 1970; 0 and less when unknown. -/
  imported : Int := 0
  /-- How often the file has been played, according to the library. -/
  declaredPlays : Nat := 0
  /-- The text of the play history. -/
  history : String := ""
  fields : Fields := []
  deriving DecidableEq

/-- The instant of the import, if it is known and in the calendar. -/
def File.importedAt (f : File) : Option Calendar.Instant :=
  if f.imported ≤ 0 then none else Calendar.Instant.ofUnix? f.imported

end Jukebox
