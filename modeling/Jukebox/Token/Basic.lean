import Jukebox.Token.Window

/-!
Tokens with a meaning: each is a kind of statistic over the plays of a file. Some of them are
tests of a single play (`Token.test?`); the others look at the file as a whole.
-/

set_option autoImplicit false
set_option relaxedAutoImplicit false

namespace Jukebox

open Calendar

inductive Token where
  /-- Plays inside a window. -/
  | range (window : Window)
  /-- Plays in some years. -/
  | years (years : List Int)
  /-- Plays in some months of any year. -/
  | months (months : List Nat)
  /-- Plays on some weekdays. -/
  | weekdays (days : List Weekday)
  /-- Plays of each year, from a given one or from that of the oldest play. -/
  | perYear (start : Option Int)
  /-- Plays of each month. -/
  | perMonth
  /-- Plays on each weekday. -/
  | perWeekday
  /-- Whether the oldest play is at most a month ago. -/
  | recent
  /-- Whether the oldest play is more than a year ago. -/
  | unpopular
  /-- Whether there are no plays. -/
  | unplayed
  /-- Plays counted by the library and missing from the history. -/
  | prehistory
  deriving DecidableEq

namespace Token

/-- The word for the kind of a token. -/
def kind : Token → String
  | range _ => "range"
  | years _ => "year"
  | months _ => "month"
  | weekdays _ => "weekday"
  | perYear _ => "peryear"
  | perMonth => "permonth"
  | perWeekday => "perweekday"
  | recent => "recent"
  | unpopular => "unpopular"
  | unplayed => "unplayed"
  | prehistory => "prehistory"

/-- Whether the statistic is a series of numbers. -/
def isSeries : Token → Bool
  | perYear _ | perMonth | perWeekday => true
  | _ => false

/-- The test that a token puts to each play, if it is of that kind. -/
def test? : Token → Option (Instant → Bool)
  | range w => some w.contains
  | years ys => some fun t ↦ ys.contains t.year
  | months ms => some fun t ↦ ms.contains t.month
  | weekdays ds => some fun t ↦ ds.contains t.weekday
  | _ => none

end Token

end Jukebox
