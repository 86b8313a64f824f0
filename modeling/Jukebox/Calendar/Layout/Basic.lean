import Jukebox.Calendar.Layout.Parts
import Jukebox.Text.Blank

/-!
# Layouts of timestamps

A layout is a list of items: characters that stand for themselves, blanks, and parts of a date or
time. It is written as a text in which `%` and a letter stand for an item, or for a few of them.
`Layout.ofChars?` reads such a text; a directive that does not exist makes the whole layout
unusable.
-/

set_option autoImplicit false
set_option relaxedAutoImplicit false

namespace Jukebox.Calendar

open Jukebox.Text

/-- One item of a layout. -/
inductive LayoutItem where
  /-- A character that stands for itself. -/
  | literal (c : Char)
  /-- Any number of blanks. -/
  | blanks
  | number (part : NumberPart)
  /-- The name of a month: its first three letters and, if `long`, the others too. -/
  | monthName (long : Bool)
  /-- The name of a weekday: its first three letters and, if `long`, the others too. -/
  | weekdayName (long : Bool)
  /-- `am` or `pm`. -/
  | half
  /-- A point and a fraction of the second, with this many digits or any; may be left out. -/
  | fraction (digits : Option Nat)
  /-- A fraction of the second with this many digits and no point. -/
  | bareFraction (digits : Nat)
  /-- The name of a zone: everything up to the next blank. -/
  | zoneName
  /-- The offset of a zone; if `lenient`, `Z` is allowed and minutes may be left out. -/
  | zone (lenient : Bool)
  /-- Date, time of day and zone in the international order. -/
  | international
  deriving DecidableEq, Repr

abbrev Layout := List LayoutItem

namespace Layout

/-- Items separated by a character. -/
private def separated (mark : Char) : List NumberPart → Layout
  | [] => []
  | [part] => [.number part]
  | part :: rest => .number part :: .literal mark :: separated mark rest

/-- A time of day with seconds. -/
private def clock : Layout := separated ':' [.hour, .minute, .second]

/-- The part that a letter stands for, if it stands for a single number. -/
def numberOf? : Char → Option NumberPart
  | 'C' => some .century
  | 'G' => some .weekYear
  | 'H' => some .hour
  | 'I' => some .hour12
  | 'M' => some .minute
  | 'S' => some .second
  | 'U' => some .weekFromSunday
  | 'V' => some .week
  | 'W' => some .weekFromMonday
  | 'Y' => some .year
  | 'd' => some .day
  | 'e' => some .day
  | 'f' => some .nanosecond
  | 'g' => some .weekYearOfCentury
  | 'j' => some .ordinal
  | 'k' => some .hour
  | 'l' => some .hour12
  | 'm' => some .month
  | 'q' => some .quarter
  | 's' => some .unix
  | 'u' => some .dayFromMonday
  | 'w' => some .daysFromSunday
  | 'y' => some .yearOfCentury
  | _ => none

/-- What a letter stands for, if it stands for anything but a single number. -/
def itemsOf? : Char → Option Layout
  | 'A' => some [.weekdayName true]
  | 'B' => some [.monthName true]
  | 'D' => some (separated '/' [.month, .day, .yearOfCentury])
  | 'F' => some (separated '-' [.year, .month, .day])
  | 'P' => some [.half]
  | 'R' => some (separated ':' [.hour, .minute])
  | 'T' => some clock
  | 'X' => some clock
  | 'Z' => some [.zoneName]
  | 'a' => some [.weekdayName false]
  | 'b' => some [.monthName false]
  | 'h' => some [.monthName false]
  | 'c' => some ([.weekdayName false, .blanks, .monthName false, .blanks, .number .day, .blanks] ++
      clock ++ [.blanks, .number .year])
  | 'n' => some [.blanks]
  | 'p' => some [.half]
  | 'r' => some (separated ':' [.hour12, .minute, .second] ++ [.blanks, .half])
  | 't' => some [.blanks]
  | 'v' => some [.number .day, .literal '-', .monthName false, .literal '-', .number .year]
  | 'x' => some (separated '/' [.month, .day, .yearOfCentury])
  | 'z' => some [.zone false]
  | '+' => some [.international]
  | '%' => some [.literal '%']
  | _ => none

/-- The items of a directive of one letter. -/
def directive? (c : Char) : Option Layout :=
  match numberOf? c with
  | some part => some [.number part]
  | none => itemsOf? c

/-- The layout that a text describes. -/
def ofChars? : List Char → Option Layout
  | [] => some []
  | '%' :: '.' :: 'f' :: rest => (ofChars? rest).map (.fraction none :: ·)
  | '%' :: '.' :: '3' :: 'f' :: rest => (ofChars? rest).map (.fraction (some 3) :: ·)
  | '%' :: '.' :: '6' :: 'f' :: rest => (ofChars? rest).map (.fraction (some 6) :: ·)
  | '%' :: '.' :: '9' :: 'f' :: rest => (ofChars? rest).map (.fraction (some 9) :: ·)
  | '%' :: '3' :: 'f' :: rest => (ofChars? rest).map (.bareFraction 3 :: ·)
  | '%' :: '6' :: 'f' :: rest => (ofChars? rest).map (.bareFraction 6 :: ·)
  | '%' :: '9' :: 'f' :: rest => (ofChars? rest).map (.bareFraction 9 :: ·)
  | '%' :: ':' :: 'z' :: rest => (ofChars? rest).map (.zone false :: ·)
  | '%' :: ':' :: ':' :: 'z' :: rest => (ofChars? rest).map (.zone false :: ·)
  | '%' :: ':' :: ':' :: ':' :: 'z' :: rest => (ofChars? rest).map (.zone false :: ·)
  | '%' :: '#' :: 'z' :: rest => (ofChars? rest).map (.zone true :: ·)
  | '%' :: '-' :: c :: rest => padded c (ofChars? rest)
  | '%' :: '0' :: c :: rest => padded c (ofChars? rest)
  | '%' :: '_' :: c :: rest => padded c (ofChars? rest)
  | '%' :: c :: rest => do some ((← directive? c) ++ (← ofChars? rest))
  | ['%'] => none
  | c :: rest => (ofChars? rest).map ((if isBlank c then .blanks else .literal c) :: ·)
where
  /-- A number whose filling is chosen; reading does not look at the filling. -/
  padded (c : Char) (rest : Option Layout) : Option Layout := do
    some (.number (← numberOf? c) :: (← rest))

end Layout

end Jukebox.Calendar
