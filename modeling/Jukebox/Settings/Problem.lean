import Jukebox.History.Basic
import Jukebox.Settings.Basic

/-!
# Settings that make no sense

`Settings.problems` finds everything that is wrong with settings and can be told without a look at
the tokens. Settings without problems may be used.
-/

set_option autoImplicit false
set_option relaxedAutoImplicit false

namespace Jukebox

namespace Settings

/-- What can be wrong with settings. -/
inductive Problem where
  | weekStart (number : Nat)
  | yearlyBase (year : Int)
  | midnightOffset (minutes : Int)
  | noHistorySeparator
  | noSeriesSeparator
  /-- A group, counted from 1, has a blank field. -/
  | noUpdateField (group : Nat)
  /-- A group, counted from 1, has a blank template. -/
  | noTemplate (group : Nat)
  | noPlaylistName
  | noPlaylistToken (playlist : String)
  | logFormat (format : String)
  deriving DecidableEq, Repr

def Problem.message : Problem → String
  | weekStart number => s!"week_start must be 0..6, got {number}"
  | yearlyBase year => s!"yearly_base must be {Token.minYear}..{Token.maxYear}, got {year}"
  | midnightOffset minutes => s!"midnight_offset is out of range: {minutes} minutes"
  | noHistorySeparator => "history_separator must not be empty"
  | noSeriesSeparator => "series_separator must not be empty"
  | noUpdateField group => s!"stats #{group}: update_field must not be empty"
  | noTemplate group => s!"stats #{group}: template must not be empty"
  | noPlaylistName => "playlist name must not be empty"
  | noPlaylistToken playlist => s!"playlist '{playlist}': token must not be empty"
  | logFormat format => s!"logging format must be 'pretty' or 'json', got '{format}'"

/-- The problem, if there is one. -/
def Problem.when (p : Problem) (wrong : Bool) : List Problem := if wrong then [p] else []

def Engine.problems (e : Engine) : List Problem :=
  (Problem.weekStart e.weekStart).when (6 < e.weekStart) ++
  (Problem.yearlyBase e.yearlyBase).when
    (e.yearlyBase < Token.minYear || Token.maxYear < e.yearlyBase) ++
  (Problem.midnightOffset e.midnightOffset).when
    (e.midnightOffset < -History.maxOffset || History.maxOffset < e.midnightOffset) ++
  Problem.noHistorySeparator.when (e.historySeparator = "") ++
  Problem.noSeriesSeparator.when (e.seriesSeparator = "")

/-- The problems of the group that is counted as `number`. -/
def Stats.problems (number : Nat) (s : Stats) : List Problem :=
  (Problem.noUpdateField number).when (Text.isBlankText s.updateField) ++
  (Problem.noTemplate number).when (Text.isBlankText s.template)

def Playlist.problems (p : Playlist) : List Problem :=
  Problem.noPlaylistName.when (Text.isBlankText p.name) ++
  (Problem.noPlaylistToken p.name).when (Token.canonical p.token = "")

def Logging.problems (l : Logging) : List Problem :=
  (Problem.logFormat l.format).when (l.format ≠ "pretty" && l.format ≠ "json")

/-- All problems; groups that are not enabled have none. -/
def problems (s : Settings) : List Problem :=
  s.engine.problems ++ (s.enabledStats.zipIdx 1).flatMap (fun (g, number) ↦ g.problems number) ++
    s.playlists.flatMap Playlist.problems ++ s.logging.problems

end Settings

/-- Why there are no settings to use. -/
inductive SettingsError where
  /-- There is no such file. -/
  | unreadable
  /-- The text is no TOML, or a value has the wrong type. -/
  | malformed
  | invalid (problems : List Settings.Problem)
  deriving DecidableEq, Repr

def SettingsError.message : SettingsError → String
  | unreadable => "Failed to read config file"
  | malformed => "Failed to parse config file"
  | invalid problems =>
    "Invalid configuration: " ++ "; ".intercalate (problems.map Settings.Problem.message)

/-- Accepts settings without problems. -/
def Settings.check (s : Settings) : Except SettingsError Unit :=
  if s.problems = [] then .ok () else .error (.invalid s.problems)

theorem Settings.check_eq_ok_iff {s : Settings} : s.check = .ok () ↔ s.problems = [] := by
  unfold Settings.check
  split <;> simp_all

end Jukebox
