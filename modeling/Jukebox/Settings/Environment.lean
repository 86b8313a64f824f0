import Jukebox.Settings.Reader

/-!
# Settings from files and the environment

Settings come from a named file or, when none is named, from the first default place whose file
can be used. Variables of the environment override some of them; a variable that cannot be read
as the number it should be has no effect.
-/

set_option autoImplicit false
set_option relaxedAutoImplicit false

namespace Jukebox

open Text

/-- The variables of the environment. -/
abbrev Environment := Assoc String String

/-- A number from a variable, or else the value it had. -/
def Environment.number {α : Type} (env : Environment) (name : String)
    (read : List Char → Option α) (old : α) : α :=
  ((Assoc.get? env name).bind fun s ↦ read s.toList).getD old

namespace Settings

/-- The settings with the variables of an environment in force. -/
def override (s : Settings) (env : Environment) : Settings :=
  { s with
    engine := { s.engine with
      weekStart :=
        env.number "PLAYSTATS_WEEK_START" (unsigned? maxUInt32) s.engine.weekStart
      midnightOffset :=
        env.number "PLAYSTATS_MIDNIGHT_OFFSET" (signed? minInt64 maxInt64) s.engine.midnightOffset
      historyFormat := (Assoc.get? env "PLAYSTATS_HISTORY_FORMAT").getD s.engine.historyFormat }
    logging := {
      level := (Assoc.get? env "PLAYSTATS_LOG_LEVEL").getD s.logging.level
      format := (Assoc.get? env "PLAYSTATS_LOG_FORMAT").getD s.logging.format } }

theorem override_nil (s : Settings) : s.override [] = s := rfl

/-- The settings in a file; `read` gives the texts of the files that can be read. -/
def load (read : String → Option String) (path : String) : Except SettingsError Settings :=
  match read path with
  | some text => ofText text
  | none => .error .unreadable

/-- The places where settings are looked for, in turn. -/
def defaultPaths (configHome : String) : List String :=
  [configHome ++ "/playstats/config.toml", "playstats.toml"]

/-- The settings in the first file that can be used, or the defaults. -/
def loadFirst (read : String → Option String) (paths : List String) : Settings :=
  (paths.findSome? fun path ↦ (load read path).toOption).getD {}

end Settings

end Jukebox
