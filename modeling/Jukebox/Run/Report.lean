import Jukebox.Calendar.InstantText
import Jukebox.Json.Basic
import Jukebox.Playlist.Ranking
import Jukebox.Statistics.Group

/-!
Reports: what a run has found, as a few lines to read and as JSON.
-/

set_option autoImplicit false
set_option relaxedAutoImplicit false

namespace Jukebox

open Calendar

structure Report where
  /-- The instant that the run has taken for the present. -/
  now : Instant
  /-- How many files there were. -/
  files : Nat
  /-- How many plays they have, inferred ones included. -/
  totalEvents : Nat
  /-- How many of the plays have been inferred. -/
  inferredEvents : Nat
  stats : List Outcome
  playlists : List Playlist
  deriving DecidableEq

namespace Report

/-- How many fields change. -/
def fieldUpdates (r : Report) : Nat := (r.stats.map fun o ↦ o.updates.length).foldr (· + ·) 0

/-! ### Text -/

/-- The lines of the text. -/
def lines (r : Report) : List String :=
  let now := r.now.textWith ' '
  [s!"Run Report ({now})",
    s!"  Files: {r.files}",
    s!"  Play events: {r.totalEvents} ({r.inferredEvents} reconstructed)"] ++
  (r.stats.map fun o ↦
    s!"  Field '{o.field}': {o.updates.length} updated, {o.unchanged} unchanged") ++
  r.playlists.map fun p ↦ s!"  Playlist '{p.definition.name}': {p.files.length} files"

/-- A few lines to read. -/
def text (r : Report) : String := String.join (r.lines.map fun line ↦ line ++ "\n")

end Report

/-! ### JSON -/

namespace Json

/-- A whole number. -/
def ofInt (n : Int) : Json := .number (.integer n)

end Json

def FieldUpdate.json (u : FieldUpdate) : Json :=
  .object [("key", .ofInt u.key), ("name", .string u.name), ("field", .string u.field),
    ("value", .string u.value)]

def Outcome.json (o : Outcome) : Json :=
  .object [("field", .string o.field), ("updates", .array (o.updates.map FieldUpdate.json)),
    ("unchanged", .ofInt o.unchanged)]

def Playlist.json (p : Playlist) : Json :=
  .object [("name", .string p.definition.name), ("token", .string p.definition.token),
    ("max", .ofInt p.definition.max),
    ("files", .array (p.files.map fun (key : Nat) ↦ .ofInt key))]

def Report.json (r : Report) : Json :=
  .object [("now", .string r.now.text), ("files", .ofInt r.files),
    ("total_events", .ofInt r.totalEvents), ("reconstructed_events", .ofInt r.inferredEvents),
    ("stats", .array (r.stats.map Outcome.json)),
    ("playlists", .array (r.playlists.map Playlist.json))]

end Jukebox
