import Jukebox.Playlist.Definition
import Jukebox.Statistics.Group

/-!
# Settings

All that can be set about a run, with what holds where nothing is set. The settings name tokens in
two places, the templates of enabled groups and the playlists (`Settings.tokenTexts`); a configured
playlist may stand for several (`Settings.definitions`).
-/

set_option autoImplicit false
set_option relaxedAutoImplicit false

namespace Jukebox

open Calendar

namespace Settings

/-- How histories are read and what a run does. -/
structure Engine where
  /-- The number of the weekday on which weeks begin, Sunday having number 0. -/
  weekStart : Nat := 0
  /-- Minutes to go back from every play. -/
  midnightOffset : Int := 0
  /-- The field of the library that holds the play history. -/
  historyField : String := "Play History"
  /-- The layout of timestamps; the empty one stands for the default layouts. -/
  historyFormat : String := ""
  historySeparator : String := ";"
  /-- What stands between the numbers of a series. -/
  seriesSeparator : String := ","
  /-- Whether plays that the history does not show are inferred. -/
  inferPrehistory : Bool := true
  /-- The first year of a yearly playlist that names none. -/
  yearlyBase : Int := 2020
  updateStats : Bool := true
  updatePlaylists : Bool := true
  deriving DecidableEq, Repr

/-- The weekday on which weeks begin; numbers that no weekday has stand for Sunday. -/
def Engine.weekStartDay (e : Engine) : Weekday :=
  if e.weekStart ≤ 6 then Weekday.ofNumber e.weekStart else .sunday

/-- A template that is written to a field. -/
structure Stats where
  enabled : Bool := false
  append : Bool := false
  updateField : String := "Play Stats"
  groupByField : String := "key"
  template : String :=
    "[total];[year];[month];[week];[today];[today-1];[year-1];[month-1];[week-1]"
  deriving DecidableEq, Repr

/-- The group that the settings describe. -/
def Stats.group (s : Stats) : Group :=
  ⟨s.updateField, Grouping.ofField s.groupByField, s.template, s.append⟩

/-- The greatest size of a playlist that sets none. -/
def defaultMax : Nat := 100

/-- A playlist, or a series of playlists by year. -/
structure Playlist where
  name : String
  token : String
  max : Nat := defaultMax
  deriving DecidableEq, Repr

structure Logging where
  level : String := "info"
  format : String := "pretty"
  deriving DecidableEq, Repr

end Settings

structure Settings where
  engine : Settings.Engine := {}
  stats : List Settings.Stats := []
  playlists : List Settings.Playlist := []
  logging : Settings.Logging := {}
  deriving DecidableEq, Repr

namespace Settings

/-- The groups that take part in a run, as they are set. -/
def enabledStats (s : Settings) : List Stats := s.stats.filter Stats.enabled

/-- The groups that take part in a run. -/
def groups (s : Settings) : List Group := s.enabledStats.map Stats.group

/-- The canonical texts of all tokens that a run needs, in order. -/
def tokenTexts (s : Settings) : List String :=
  s.enabledStats.flatMap (fun g ↦ Token.templateTokens g.template) ++
    s.playlists.map fun p ↦ Token.canonical p.token

/-- The playlists of a run in a given year. -/
def definitions (s : Settings) (currentYear : Int) : Except TokenError (List Definition) :=
  (s.playlists.mapM fun p ↦
    Definition.expand p.name p.token p.max s.engine.yearlyBase currentYear).map List.flatten

end Settings

end Jukebox
