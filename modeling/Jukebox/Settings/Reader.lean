import Jukebox.Settings.Problem
import Jukebox.Text.Numeral
import Jukebox.Toml.Reader

/-!
# Settings as TOML

A settings file has the tables `engine` and `logging` and any number of tables `stats` and
`playlists`. Members that are missing have their defaults, members that are not known are skipped;
a member of the wrong type spoils the file.

A record need not be a table: an array gives its values in the order of the fields, and a date
gives none at all.
-/

set_option autoImplicit false
set_option relaxedAutoImplicit false

namespace Jukebox

open Text

namespace Toml

/-- Whether a value can be taken for a record. -/
def isRecord : Toml → Bool
  | table _ | array _ | moment _ => true
  | _ => false

/-- The value of a field of a record; `place` counts the fields from 0. -/
def part? (v : Toml) (name : String) (place : Nat) : Option Toml :=
  match v with
  | table members => Assoc.get? members name
  | array elements => elements[place]?
  | _ => none

/-- A field that must be there. -/
def required? {α : Type} (read : Toml → Option α) (v : Toml) (name : String) (place : Nat) :
    Option α :=
  (v.part? name place).bind read

/-- A field that may be missing. -/
def optional? {α : Type} (read : Toml → Option α) (default : α) (v : Toml) (name : String)
    (place : Nat) : Option α :=
  match v.part? name place with
  | none => some default
  | some w => read w

def asString? : Toml → Option String
  | string s => some s
  | _ => none

def asBool? : Toml → Option Bool
  | bool b => some b
  | _ => none

/-- A whole number within limits. -/
def asInt? (low high : Int) : Toml → Option Int
  | integer n => if low ≤ n ∧ n ≤ high then some n else none
  | _ => none

/-- A whole number from 0 to a limit. -/
def asNat? (limit : Nat) (v : Toml) : Option Nat := (v.asInt? 0 limit).map Int.toNat

def asList? {α : Type} (read : Toml → Option α) : Toml → Option (List α)
  | array elements => elements.mapM read
  | _ => none

end Toml

namespace Settings

def Engine.ofToml? (v : Toml) : Option Engine := do
  guard v.isRecord
  return {
    weekStart := ← v.optional? (Toml.asNat? maxUInt32) 0 "week_start" 0
    midnightOffset := ← v.optional? (Toml.asInt? minInt64 maxInt64) 0 "midnight_offset" 1
    historyField := ← v.optional? Toml.asString? ({} : Engine).historyField "history_field" 2
    historyFormat := ← v.optional? Toml.asString? "" "history_format" 3
    historySeparator := ←
      v.optional? Toml.asString? ({} : Engine).historySeparator "history_separator" 4
    seriesSeparator := ←
      v.optional? Toml.asString? ({} : Engine).seriesSeparator "series_separator" 5
    inferPrehistory := ← v.optional? Toml.asBool? true "infer_prehistory" 6
    yearlyBase := ←
      v.optional? (Toml.asInt? minInt32 maxInt32) ({} : Engine).yearlyBase "yearly_base" 7
    updateStats := ← v.optional? Toml.asBool? true "update_stats" 8
    updatePlaylists := ← v.optional? Toml.asBool? true "update_playlists" 9 }

def Stats.ofToml? (v : Toml) : Option Stats := do
  guard v.isRecord
  return {
    enabled := ← v.optional? Toml.asBool? false "enabled" 0
    append := ← v.optional? Toml.asBool? false "append" 1
    updateField := ← v.optional? Toml.asString? ({} : Stats).updateField "update_field" 2
    groupByField := ← v.optional? Toml.asString? ({} : Stats).groupByField "group_by_field" 3
    template := ← v.optional? Toml.asString? ({} : Stats).template "template" 4 }

def Playlist.ofToml? (v : Toml) : Option Playlist := do
  guard v.isRecord
  return {
    name := ← v.required? Toml.asString? "name" 0
    token := ← v.required? Toml.asString? "token" 1
    max := ← v.optional? (Toml.asNat? maxUInt64) defaultMax "max" 2 }

def Logging.ofToml? (v : Toml) : Option Logging := do
  guard v.isRecord
  return {
    level := ← v.optional? Toml.asString? ({} : Logging).level "level" 0
    format := ← v.optional? Toml.asString? ({} : Logging).format "format" 1 }

/-- The settings that a TOML value holds. -/
def ofToml? (v : Toml) : Option Settings := do
  return {
    engine := ← v.optional? Engine.ofToml? {} "engine" 0
    stats := ← v.optional? (Toml.asList? Stats.ofToml?) [] "stats" 1
    playlists := ← v.optional? (Toml.asList? Playlist.ofToml?) [] "playlists" 2
    logging := ← v.optional? Logging.ofToml? {} "logging" 3 }

/-- The settings in the text of a file. -/
def ofText (text : String) : Except SettingsError Settings :=
  match (Toml.ofText? text).bind fun members ↦ ofToml? (.table members) with
  | some s => .ok s
  | none => .error .malformed

end Settings

end Jukebox
