import Jukebox.CommandLine.Reply
import Std.Time.Zoned

/-!
The program: it reads the files and variables that a command line asks for, and prints and writes
the reply.
-/

set_option autoImplicit false
set_option relaxedAutoImplicit false

namespace Jukebox.CommandLine

open Calendar

/-- The variables that override settings. -/
private def variableNames : List String :=
  ["PLAYSTATS_WEEK_START", "PLAYSTATS_MIDNIGHT_OFFSET", "PLAYSTATS_HISTORY_FORMAT",
    "PLAYSTATS_LOG_LEVEL", "PLAYSTATS_LOG_FORMAT"]

/-- The present in local time. -/
private def readClock : IO Instant := do
  let t ← Std.Time.PlainDateTime.now
  let date := Date.ofYmd? t.date.year.toInt t.date.month.toNat t.date.day.toNat
  let instant := date.bind fun d ↦ Instant.ofTime? d t.time.hour.toNat t.time.minute.toNat
    t.time.second.toNat t.time.nanosecond.toNat
  match instant with
  | some t => pure t
  | none => throw (IO.userError "the present is out of range")

/-- The directory for the settings of programs. -/
private def readConfigHome : IO String := do
  match ← IO.getEnv "XDG_CONFIG_HOME" with
  | some path => if path.startsWith "/" then return path
  | none => pure ()
  return ((← IO.getEnv "HOME").getD "") ++ "/.config"

/-- The texts of those files that can be read. -/
private def readFiles (paths : List String) : IO (Assoc String String) :=
  paths.filterMapM fun (path : String) ↦ do
    try
      let text ← IO.FS.readFile path
      return some (path, text)
    catch _ => return none

/-- What a command line depends on. -/
private def readWorld (args : List String) : IO World := do
  let configHome ← readConfigHome
  let environment ← variableNames.filterMapM fun name ↦ do
    return (← IO.getEnv name).map fun value ↦ (name, value)
  let files ← match Request.ofArgs args with
    | .ok request => readFiles (request.paths configHome)
    | .error _ => pure []
  return ⟨Assoc.get? files, environment, configHome, ← readClock⟩

/-- Prints a reply and gives its status. -/
private def Reply.print (r : Reply) : IO UInt32 := do
  IO.print r.output
  for line in r.errors do
    IO.eprintln line
  return r.status.toUInt32

/-- Writes the file of a reply and prints the reply. -/
private def Reply.deliverAll (r : Reply) : IO UInt32 := do
  match r.written with
  | none => r.print
  | some (path, text) =>
    let reply ← try
        IO.FS.writeFile path text
        pure r
      catch _ => pure (Reply.notWritten path)
    reply.print

end Jukebox.CommandLine

def main (args : List String) : IO UInt32 := do
  let world ← Jukebox.CommandLine.readWorld args
  (world.reply args).deliverAll
