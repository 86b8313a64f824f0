import Jukebox.Calendar.Shift

/-!
Plays that the library has counted and the history does not show. They are spread evenly from when
the file was imported, or from the year 2000 on, up to the oldest play of all files, so that none
of them looks more recent than a play that is on record.
-/

set_option autoImplicit false
set_option relaxedAutoImplicit false

namespace Jukebox.History

open Calendar

/-- The oldest instant from which such plays may start, unless all history is older. -/
def sentinel : Instant := .midnight ⟨yearStart 2000, by decide⟩

/--
Where such plays start: at the import, but not before the sentinel; a year before the floor if
that would not be before it.
-/
def spreadStart (imported : Option Instant) (floor : Instant) : Instant :=
  let start := match imported with
    | none => sentinel
    | some t => t.later sentinel
  if floor ≤ start then (floor.shift (-1) .year).getD sentinel else start

/-- Whole milliseconds between two plays when `count` of them are spread from `start` to `floor`. -/
def spreadStep (start floor : Instant) (count : Nat) : Int :=
  ((floor.since start).tdiv 1000000).tdiv count

/-- `count` plays at even distances before `floor`. -/
def spread (imported : Option Instant) (count : Nat) (floor : Instant) : List Instant :=
  let start := spreadStart imported floor
  let step := spreadStep start floor count
  (List.range count).filterMap fun (i : Nat) ↦ start.plus (step * i * 1000000)

end Jukebox.History
