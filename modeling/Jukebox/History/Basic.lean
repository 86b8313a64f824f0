import Jukebox.Calendar.Layout.Reader
import Jukebox.Text.Separator
import Jukebox.History.Serial

/-!
# Play histories

A history is a text of entries between separators; blanks around an entry do not count, and blank
entries are skipped. Either all entries are serial dates or all are timestamps: the first entry
decides. Timestamps follow the configured layout or, when there is none, the first of the default
layouts that reads them. Every play is then moved back by the midnight offset, so that plays late
at night count for the day before.
-/

set_option autoImplicit false
set_option relaxedAutoImplicit false

namespace Jukebox

open Calendar

/-- The file that a history belongs to, as errors name it. -/
structure FileName where
  key : Nat
  name : String
  deriving DecidableEq, Repr

/-- Why a history has no meaning. -/
inductive HistoryError where
  /-- An entry is no date. -/
  | badEntry (file : FileName) (entry : String)
  /-- The midnight offset moves a play out of the calendar. -/
  | outOfRange (file : FileName)
  /-- The midnight offset is longer than durations can be. -/
  | badOffset (minutes : Int)
  deriving DecidableEq, Repr

def HistoryError.message : HistoryError → String
  | badEntry file entry =>
    s!"Failed to parse play history of file {file.key} ({file.name}): invalid entry '{entry}'"
  | outOfRange file =>
    s!"Play history of file {file.key} ({file.name}) is out of range after applying midnight offset"
  | badOffset minutes => s!"Midnight offset of {minutes} minutes is out of range"

namespace History

/-- The layouts of timestamps that are tried in turn. -/
def defaultLayouts : List String :=
  ["%Y-%m-%d %H:%M:%S", "%Y-%m-%dT%H:%M:%S", "%Y-%m-%dT%H:%M:%SZ", "%Y-%m-%d %H:%M", "%Y-%m-%d",
    "%m/%d/%Y %H:%M:%S", "%m/%d/%Y", "%d/%m/%Y", "%Y/%m/%d %H:%M:%S", "%Y/%m/%d"]

/-- The instant that an entry names through a layout. -/
def readWith? (layout : String) (entry : List Char) : Option Instant :=
  (Layout.ofChars? layout.toList).bind fun l ↦ l.instant? entry

/-- How histories are written. -/
structure Format where
  separator : String
  /-- The layout of timestamps; the empty one stands for the default layouts. -/
  layout : String
  /-- Minutes to go back from every play. -/
  midnightOffset : Int
  deriving DecidableEq, Repr

/-- The greatest midnight offset, forwards or backwards: durations have 63 bits of milliseconds. -/
def maxOffset : Int := 153722867280912

namespace Format

/-- The layout as a format keeps it, and an offset within the limits. -/
def of (separator layout : String) (midnightOffset : Int) : Except HistoryError Format :=
  if -maxOffset ≤ midnightOffset ∧ midnightOffset ≤ maxOffset then
    .ok ⟨separator, layout, midnightOffset⟩
  else .error (.badOffset midnightOffset)

/-- The entries of a history that are not blank. -/
def entries (f : Format) (raw : String) : List (List Char) :=
  ((Text.splitText f.separator.toList raw.toList).map Text.trimChars).filter (· ≠ [])

/-- The instant of a timestamp. -/
def timestamp? (f : Format) (entry : List Char) : Option Instant :=
  if f.layout = "" then
    (defaultLayouts.findSome? fun l ↦ readWith? l entry) <|> readExchange? entry
  else readWith? f.layout entry

/-- The reader of all entries of a history, chosen by the first one. -/
def reader (f : Format) (firstEntry : List Char) : List Char → Option Instant :=
  if (serial? firstEntry).isSome then fun entry ↦ (serial? entry).bind ofSerial? else f.timestamp?

/-- The instant of one entry, moved back by the midnight offset. -/
def play (f : Format) (file : FileName) (read : List Char → Option Instant) (entry : List Char) :
    Except HistoryError Instant :=
  match read entry with
  | none => .error (.badEntry file (String.ofList entry))
  | some t =>
    match t.plus (-(f.midnightOffset * 60000000000)) with
    | none => .error (.outOfRange file)
    | some t => .ok t

/-- The plays that a history records, in order. -/
def plays (f : Format) (file : FileName) (raw : String) : Except HistoryError (List Instant) :=
  match f.entries raw with
  | [] => .ok []
  | firstEntry :: rest =>
    ((firstEntry :: rest).mapM (f.play file (f.reader firstEntry))).map Instant.ascending

end Format

end History

end Jukebox
