import Jukebox.Calendar.Layout.Reader
import Jukebox.CommandLine.Arguments
import Jukebox.Run.Basic
import Jukebox.Settings.Environment
import Jukebox.Settings.Sample

/-!
# Replies to command lines

What a command prints and writes, and its exit status: 0 if all went well, 1 if something failed or
the library has no plays, 2 if the command line makes no sense.
-/

set_option autoImplicit false
set_option relaxedAutoImplicit false

namespace Jukebox.CommandLine

open Calendar

/-- What a command depends on besides its arguments. -/
structure World where
  /-- The texts of the files that can be read, by path. -/
  read : String → Option String
  environment : Environment
  /-- The directory for the settings of programs. -/
  configHome : String
  /-- The present. -/
  clock : Instant

structure Reply where
  status : Nat := 0
  /-- The text on standard output. -/
  output : String := ""
  /-- The lines on standard error. -/
  errors : List String := []
  /-- The path and the new text of a file. -/
  written : Option (String × String) := none
  deriving DecidableEq, Repr

namespace Reply

/-- A failure with its cause. -/
def failure (cause : String) : Reply := { status := 1, errors := ["Error: " ++ cause] }

/-- The reply when the file of another reply cannot be written. -/
def notWritten (path : String) : Reply := failure s!"Failed to write {path}"

/-- A text for a file or, as a line, for standard output. -/
def deliver (status : Nat) (text : String) : (target : Option String) → Reply
  | none => { status, output := text ++ "\n" }
  | some path => { status, written := some (path, text) }

end Reply

/-- The version of the program. -/
def version : String := "playstats 0.1.0"

/-- The forms of command lines. -/
def usageLines : List String :=
  ["Usage: playstats [--config FILE] run --library FILE [--now TIME] [--output FILE]",
    "       playstats [--config FILE] check [--now TIME]",
    "       playstats [--config FILE] config [--output FILE]"]

def Stop.reply : Stop → Reply
  | usage => { status := 2, errors := usageLines }
  | help => { output := "\n".intercalate usageLines ++ "\n" }
  | version => { output := CommandLine.version ++ "\n" }

/-! ### The reference time -/

/-- The layouts of a reference time that has a time of day and no offset. -/
def timeLayouts : List String := ["%Y-%m-%dT%H:%M:%S", "%Y-%m-%d %H:%M:%S", "%Y-%m-%d %H:%M"]

/-- The instant through a layout that has a time of day. -/
def timeWith? (cs : List Char) (layout : String) : Option Instant :=
  (Layout.ofChars? layout.toList).bind fun l ↦ l.timestamp? cs

/-- The instant that a reference time names; a date alone means its midnight. -/
def referenceTime? (text : String) : Option Instant :=
  let cs := text.toList
  readExchange? cs <|> timeLayouts.findSome? (timeWith? cs) <|>
    ((Layout.ofChars? "%Y-%m-%d".toList).bind fun l ↦ l.date? cs).map Instant.midnight

/-- The present as the command line has it. -/
def World.now (w : World) : Option String → Except Reply Instant
  | none => .ok w.clock
  | some text =>
    match referenceTime? text with
    | some t => .ok t
    | none => .error (.failure s!"Invalid reference time: {text}")

/-! ### Commands -/

/-- The settings from a named file or from a default place, under the environment. -/
def World.settings (w : World) : Option String → Except Reply Settings
  | none =>
    .ok ((Settings.loadFirst w.read (Settings.defaultPaths w.configHome)).override w.environment)
  | some path =>
    match Settings.load w.read path with
    | .ok s => .ok (s.override w.environment)
    | .error _ => .error (.failure s!"Failed to load config {path}")

/-- The reply to `run`. -/
def World.run (w : World) (s : Settings) (library : String) (now output : Option String) :
    Except Reply Reply := do
  let now ← w.now now
  let plan ← (Plan.of s now).mapError fun _ ↦ .failure "Invalid configuration"
  let report ← (plan.runSnapshot (w.read library)).mapError fun _ ↦
    .failure s!"Run over {library} failed"
  .ok (.deliver (if report.totalEvents = 0 then 1 else 0) report.json.text output)

/-- The reply to `check`. -/
def World.check (w : World) (s : Settings) (now : Option String) : Except Reply Reply := do
  let now ← w.now now
  match Plan.of s now with
  | .ok plan =>
    let found := s!"{plan.tokens.size} tokens, {plan.playlists.length} playlists"
    .ok { output := s!"Configuration OK: {found}\n" }
  | .error (.tokens es) =>
    let lines := es.map fun e ↦ "  " ++ e.message
    .ok { status := 1, errors := "Invalid tokens in configuration:" :: lines }
  | .error e => .ok { status := 1, errors := [e.message] }

/-- The reply to a request. -/
def World.perform (w : World) (r : Request) : Except Reply Reply := do
  let s ← w.settings r.config
  match r.command with
  | .run library now output => w.run s library now output
  | .check now => w.check s now
  | .config output => .ok (.deliver 0 Settings.sample output)

/-- The paths of all files that a request may read. -/
def Request.paths (configHome : String) (r : Request) : List String :=
  r.config.elim (Settings.defaultPaths configHome) (fun path ↦ [path]) ++
    match r.command with
    | .run library _ _ => [library]
    | _ => []

/-- The reply to a command line. -/
def World.reply (w : World) (args : List String) : Reply :=
  match Request.ofArgs args with
  | .error stop => stop.reply
  | .ok r =>
    match w.perform r with
    | .ok reply => reply
    | .error reply => reply

end Jukebox.CommandLine
