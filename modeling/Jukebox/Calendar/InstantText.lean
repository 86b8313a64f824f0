import Jukebox.Calendar.Instant
import Jukebox.Text.Numeral

/-!
The text of instants, such as `2024-06-15T09:00:00.500`. A year outside `0..9999` carries a sign
and has four digits at least. The fraction has three, six or nine digits, the fewest that are
exact, and is left out when it is zero. A leap second is second 60.
-/

set_option autoImplicit false
set_option relaxedAutoImplicit false

namespace Jukebox.Calendar

open Jukebox.Text

/-- The year as four digits, or with a sign in front outside `0..9999`. -/
def yearText (y : Int) : List Char :=
  if 0 ≤ y ∧ y ≤ 9999 then padded 4 y.toNat
  else (if y < 0 then '-' else '+') :: padded 4 y.natAbs

/-- The date as year, month and day. -/
def Date.chars (d : Date) : List Char :=
  yearText d.year ++ '-' :: padded 2 d.month ++ '-' :: padded 2 d.dayOfMonth

/-- The fraction of a second, with its point; nothing when it is zero. -/
def fractionText (nanos : Nat) : List Char :=
  if nanos = 0 then []
  else if nanos % 1000000 = 0 then '.' :: padded 3 (nanos / 1000000)
  else if nanos % 1000 = 0 then '.' :: padded 6 (nanos / 1000)
  else '.' :: padded 9 nanos

namespace Instant

/-- The second of the minute; a leap second is second 60. -/
def clockSecond (t : Instant) : Nat := t.second % 60 + t.nano / 1000000000

/-- Hours, minutes, seconds and the fraction. -/
def timeChars (t : Instant) : List Char :=
  padded 2 t.hour ++ ':' :: padded 2 t.minute ++ ':' :: padded 2 t.clockSecond ++
    fractionText (t.nano % 1000000000)

/-- The text of an instant, with `separator` between date and time of day. -/
def textWith (separator : Char) (t : Instant) : String :=
  String.ofList (t.date.chars ++ separator :: t.timeChars)

/-- The text of an instant, with `T` between date and time of day. -/
def text (t : Instant) : String := t.textWith 'T'

/-! ### Reading -/

private def readYear : List Char → Option (Int × List Char)
  | '-' :: cs => (readNumber 4 9 cs).map fun (n, rest) ↦ (-(n : Int), rest)
  | '+' :: cs => (readNumber 4 9 cs).map fun (n, rest) ↦ ((n : Int), rest)
  | cs => (readNumber 4 4 cs).map fun (n, rest) ↦ ((n : Int), rest)

/-- A number of exactly `width` digits after a mark. -/
private def readAfter (mark : Char) (width : Nat) : List Char → Option (Nat × List Char)
  | c :: cs => if c = mark then readNumber width width cs else none
  | [] => none

/-- The fraction of a second in nanoseconds. -/
private def readFraction : List Char → Option Nat
  | [] => some 0
  | '.' :: cs =>
    match spanDigits 9 cs with
    | (d :: ds, []) => some (ofDigits (d :: ds) * Nat.pow 10 (9 - (d :: ds).length))
    | _ => none
  | _ => none

/-- The instant that a text names. -/
def ofText? (s : String) : Option Instant := do
  let (year, cs) ← readYear s.toList
  let (month, cs) ← readAfter '-' 2 cs
  let (day, cs) ← readAfter '-' 2 cs
  let (hour, cs) ← readAfter 'T' 2 cs
  let (minute, cs) ← readAfter ':' 2 cs
  let (second, cs) ← readAfter ':' 2 cs
  let nano ← readFraction cs
  let date ← Date.ofYmd? year month day
  ofTime? date hour minute second nano

end Instant

end Jukebox.Calendar
