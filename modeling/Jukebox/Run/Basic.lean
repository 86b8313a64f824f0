import Jukebox.History.Prehistory
import Jukebox.Run.Plan
import Jukebox.Run.Report

/-!
# Runs

A run reads the history of every file, finds the oldest play of all, infers the plays that the
histories do not show, counts statistics, fills the templates of the groups and builds the
playlists. The first thing that goes wrong ends it without a report.
-/

set_option autoImplicit false
set_option relaxedAutoImplicit false

namespace Jukebox

open Calendar

/-- The name of a file in errors about its history. -/
def File.label (f : File) : FileName := ⟨f.key, f.name⟩

/-- The record with all plays that the library counts, those before the history spread out. -/
def Record.completed (r : Record) (floor : Instant) : Record :=
  r.addInferred (History.spread r.file.importedAt r.prehistory floor)

/-- The oldest of all plays; the plays of each file are in order. -/
def oldestPlay? (histories : List (List Instant)) : Option Instant :=
  (histories.filterMap List.head?).foldl (fun oldest t ↦
    match oldest with
    | none => some t
    | some s => if t < s then some t else some s) none

namespace Plan

/-- How the histories are written. -/
def format (p : Plan) : Except HistoryError History.Format :=
  History.Format.of p.settings.historySeparator p.settings.historyFormat p.settings.midnightOffset

/-- A file with its plays and statistics. -/
def record (p : Plan) (c : Context) (file : File) (plays : List Instant) : Record :=
  let r := Record.ofFile file plays
  let r := if p.settings.inferPrehistory && 0 < r.prehistory then r.completed c.floor else r
  { r with statistics := p.tokens.evaluate r c }

/-- The records of some files, and the context in which they have been counted. -/
def evaluate (p : Plan) (files : List File) : Except RunError (List Record × Context) := do
  let format ← p.format.mapError .history
  let histories ←
    (files.mapM fun f ↦ format.plays f.label f.history).mapError .history
  let c := Context.of p.reference (oldestPlay? histories)
  .ok ((files.zip histories).map fun (f, plays) ↦ p.record c f plays, c)

/-- The report about some files. -/
def run (p : Plan) (files : List File) : Except RunError Report := do
  let (records, _) ← p.evaluate files
  let filler : Filler := ⟨p.tokens, p.settings.seriesSeparator⟩
  let groups := if p.settings.updateStats then p.groups else []
  let stats ← (groups.mapM fun (g : Group) ↦ g.apply filler records).mapError .statistic
  let sorted := Record.sortByOldest records
  let definitions := if p.settings.updatePlaylists then p.playlists else []
  let playlists ←
    (definitions.mapM fun (d : Definition) ↦ d.build p.tokens sorted).mapError .statistic
  .ok {
    now := p.reference.now
    files := files.length
    totalEvents := (records.map fun r ↦ r.events.length).foldr (· + ·) 0
    inferredEvents := (records.map Record.inferred).foldr (· + ·) 0
    stats
    playlists }

/-- The report about a snapshot; `text` is missing if the file cannot be read. -/
def runSnapshot (p : Plan) (text : Option String) : Except RunError Report := do
  match text with
  | none => .error (.snapshot .unreadable)
  | some text =>
    let files ← (Snapshot.ofText p.settings.historyField text).mapError .snapshot
    p.run files

end Plan

end Jukebox
