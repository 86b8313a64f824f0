import Jukebox.Library.File
import Jukebox.Statistics.Basic

/-!
A file with its plays: those of the history, called observed, and those that have been inferred
for the time before it. Plays are kept in order, whatever order they come in
(`pairwise_events_ofFile`, `pairwise_events_addInferred`).
-/

set_option autoImplicit false
set_option relaxedAutoImplicit false

namespace Jukebox

open Calendar

structure Record where
  file : File
  /-- All plays, oldest first. -/
  events : List Instant
  /-- How many of the plays come from the history. -/
  observed : Nat
  statistics : Statistics := []

namespace Record

/-- A file and the plays of its history. -/
def ofFile (file : File) (observed : List Instant) : Record :=
  { file, events := Instant.ascending observed, observed := observed.length }

/-- Adds inferred plays. -/
def addInferred (r : Record) (plays : List Instant) : Record :=
  { r with events := Instant.ascending (r.events ++ plays) }

/-- The plays that the library has counted and the history does not show. -/
def prehistory (r : Record) : Nat := r.file.declaredPlays - r.observed

/-- How many plays have been inferred. -/
def inferred (r : Record) : Nat := r.events.length - r.observed

/-- The oldest play. -/
def earliest? (r : Record) : Option Instant := r.events.head?

def hasPlays (r : Record) : Bool := !r.events.isEmpty

theorem pairwise_events_ofFile (file : File) (observed : List Instant) :
    (ofFile file observed).events.Pairwise (· ≤ ·) :=
  Instant.pairwise_ascending observed

theorem pairwise_events_addInferred (r : Record) (plays : List Instant) :
    (r.addInferred plays).events.Pairwise (· ≤ ·) :=
  Instant.pairwise_ascending _

end Record

end Jukebox
