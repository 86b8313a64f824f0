import Jukebox.Library.Record
import Jukebox.Token.Set

/-!
# Statistics of a file

`Token.evaluate` counts the plays of a record for one token; `TokenSet.evaluate` does so for every
token of a set. The context of a run holds what all files share: the reference, and the floor,
which is the oldest play on record.
-/

set_option autoImplicit false
set_option relaxedAutoImplicit false

namespace Jukebox

open Calendar

/-- What all files of a run share. -/
structure Context where
  reference : Reference
  /-- The oldest play of any history; inferred plays come before it. -/
  floor : Instant

namespace Context

/-- The first year of a series that names none, whatever is on record. -/
def firstSeriesYear : Int := 2000

/-- The context for the oldest play on record, which may be missing. -/
def of (reference : Reference) (earliest : Option Instant) : Context :=
  ⟨reference, earliest.getD reference.now⟩

/-- The year of the oldest play, but not before `firstSeriesYear`. -/
def earliestYear (c : Context) : Int := max c.floor.year firstSeriesYear

def currentYear (c : Context) : Int := c.reference.now.year

/-- A month before the present, or the beginning of the calendar. -/
def monthAgo (c : Context) : Instant := (c.reference.now.shift (-1) .month).getD Instant.first

/-- A year before the present, or the beginning of the calendar. -/
def yearAgo (c : Context) : Instant := (c.reference.now.shift (-1) .year).getD Instant.first

end Context

/-- The years from `start` to `stop`. -/
def yearsBetween (start stop : Int) : List Int :=
  (List.range (stop - start + 1).toNat).map fun (i : Nat) ↦ start + i

/-- How many plays fall on each number below `size`, each play under its `place`. -/
def histogram (size : Nat) (place : Instant → Nat) (plays : List Instant) : List Int :=
  plays.foldl (fun counts t ↦ counts.modify (place t) (· + 1)) (List.replicate size 0)

private def ofBool (b : Bool) : Statistic := .count (if b then 1 else 0)

/-- The statistic of a token for one record. -/
def Token.evaluate (r : Record) (c : Context) : Token → Statistic
  | .unplayed => ofBool (!r.hasPlays)
  | .prehistory => .count r.prehistory
  | .recent => ofBool (r.earliest?.any fun t ↦ decide (c.monthAgo ≤ t))
  | .unpopular => ofBool (r.earliest?.any fun t ↦ decide (t < c.yearAgo))
  | .perYear start =>
    .series ((yearsBetween (start.getD c.earliestYear) c.currentYear).map fun y ↦
      (r.events.countP fun t ↦ t.year == y : Nat))
  | .perMonth => .series (histogram 12 (fun t ↦ t.month - 1) r.events)
  | .perWeekday => .series (histogram 7 (fun t ↦ t.weekday.number) r.events)
  | token => .count (r.events.countP (token.test?.getD fun _ ↦ false) : Nat)

/-- The statistics of all tokens of a set for one record. -/
def TokenSet.evaluate (tokens : TokenSet) (r : Record) (c : Context) : Statistics :=
  tokens.tokens.foldl (fun s t ↦ Assoc.set s t.text (t.token.evaluate r c)) []

end Jukebox
