import Jukebox.Calendar.Instant

/-!
Moving an instant by a number of calendar units. Hours, days and weeks have a fixed length. Months
and years keep the time of day and the day of the month, or take the last day of a month that is
too short. The answer is missing exactly where the calendar ends.
-/

set_option autoImplicit false
set_option relaxedAutoImplicit false

namespace Jukebox.Calendar

/-- A unit of shifts and lengths. -/
inductive Span where
  | hour | day | week | month | year
  deriving DecidableEq, Repr

namespace Span

/-- The letter that stands for a unit. -/
def letter : Span → Char
  | hour => 'h'
  | day => 'd'
  | week => 'w'
  | month => 'm'
  | year => 'y'

def ofLetter? : Char → Option Span
  | 'h' => some hour
  | 'd' => some day
  | 'w' => some week
  | 'm' => some month
  | 'y' => some year
  | _ => none

theorem ofLetter?_eq_some_iff {c : Char} {u : Span} : ofLetter? c = some u ↔ c = u.letter := by
  constructor
  · intro h
    unfold ofLetter? at h
    split at h <;> cases h <;> rfl
  · rintro rfl
    cases u <;> rfl

end Span

/-- The date a number of months later, on the last day of the month if it has no such day. -/
def Date.addMonths (d : Date) (months : Int) : Option Date :=
  let index := 12 * d.year + ((d.month : Int) - 1) + months
  let y := index / 12
  let m := (index % 12).toNat + 1
  ofYmd? y m (min d.dayOfMonth (monthLength y m))

/-- The instant a number of months later, at the same time of day. -/
def Instant.addMonths (t : Instant) (months : Int) : Option Instant :=
  (t.date.addMonths months).map fun d ↦ { t with date := d }

/-- The instant `amount` units later, or earlier when the amount is negative. -/
def Instant.shift (t : Instant) (amount : Int) : Span → Option Instant
  | .hour => t.plus (amount * 3600000000000)
  | .day => t.plus (amount * 86400000000000)
  | .week => t.plus (amount * 604800000000000)
  | .month => t.addMonths amount
  | .year => t.addMonths (12 * amount)

end Jukebox.Calendar
