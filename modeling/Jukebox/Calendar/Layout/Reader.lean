import Jukebox.Calendar.Layout.Basic
import Jukebox.Text.Numeral

/-!
# Reading timestamps through a layout

Each item takes its part off the head of the text; `Layout.read?` runs through a layout and wants
the whole text. Numbers may have blanks in front and fewer digits than usual, names any case.
`Layout.instant?` falls back to midnight where a layout gives only the date.
-/

set_option autoImplicit false
set_option relaxedAutoImplicit false

namespace Jukebox.Calendar

open Jukebox.Text

/-- The greatest number of digits, where there is one. -/
def NumberPart.width : NumberPart → Option Nat
  | .year | .weekYear => some 4
  | .century | .yearOfCentury | .weekYearOfCentury | .month | .day | .weekFromSunday
  | .weekFromMonday | .week | .hour | .hour12 | .minute | .second => some 2
  | .quarter | .daysFromSunday | .dayFromMonday => some 1
  | .ordinal => some 3
  | .nanosecond => some 9
  | .unix => none

/-- Whether a sign may be written; behind a sign there may be any number of digits. -/
def NumberPart.signed : NumberPart → Bool
  | .year | .weekYear => true
  | _ => false

/-- What is known so far, and the text still to read. -/
abbrev LayoutState := Parts × List Char

/-- The digits at the head of a text, at least one, making a number of 63 bits. -/
def readDigits (width : Option Nat) (cs : List Char) : Option (Nat × List Char) := do
  let (n, rest) ← readNumber 1 (width.getD cs.length) cs
  if (n : Int) ≤ maxInt64 then some (n, rest) else none

/-- A number at the head of a text, behind any blanks. -/
def readPart (part : NumberPart) (cs : List Char) : Option (Int × List Char) :=
  let cs := skipBlanks cs
  match part.signed, cs with
  | true, '-' :: ds => (readDigits none ds).map fun (n, rest) ↦ (-(n : Int), rest)
  | true, '+' :: ds => (readDigits none ds).map fun (n, rest) ↦ ((n : Int), rest)
  | _, ds => (readDigits part.width ds).map fun (n, rest) ↦ ((n : Int), rest)

/-- What follows a lower-case word at the head of a text, letters in either case. -/
def afterWord? : (word cs : List Char) → Option (List Char)
  | [], cs => some cs
  | w :: word, c :: cs => if w = c.toLower then afterWord? word cs else none
  | _ :: _, [] => none

/-- The place of a name in a list and what follows it: three letters, or all of them if `long`. -/
def readName (names : List String) (long : Bool) (cs : List Char) : Option (Nat × List Char) :=
  names.zipIdx.findSome? fun (name, i) ↦ do
    let rest ← afterWord? (name.toList.take 3) cs
    let rest := if long then (afterWord? (name.toList.drop 3) rest).getD rest else rest
    some (i, rest)

/--
A fraction of a second in nanoseconds, in exactly so many digits, or in any number of which the
first nine count.
-/
def readFraction (digits : Option Nat) (cs : List Char) : Option (Nat × List Char) := do
  match digits with
  | some k =>
    let (n, rest) ← readNumber k k cs
    some (n * Nat.pow 10 (9 - k), rest)
  | none =>
    let (n, rest) ← readNumber 1 9 cs
    let k := cs.length - rest.length
    some (n * Nat.pow 10 (9 - k), rest.dropWhile Char.isDigit)

/-- A sign in front of a zone; the minus sign may be the typographic one. -/
def readSign : List Char → Option (Int × List Char)
  | '+' :: cs => some (1, cs)
  | '-' :: cs => some (-1, cs)
  | '\u2212' :: cs => some (-1, cs)
  | _ => none

/-- The offset of a zone in seconds: a sign, two digits, a colon or not, two digits. -/
def readOffset (colon : List Char → Option (List Char)) (minutesOptional : Bool)
    (cs : List Char) : Option (Int × List Char) := do
  let (sign, cs) ← readSign cs
  let (hours, cs) ← readNumber 2 2 cs
  let cs ← colon cs
  if cs = [] ∧ minutesOptional then some (sign * (hours * 3600), [])
  else
    let (minutes, cs) ← readNumber 2 2 cs
    if minutes < 60 then some (sign * (hours * 3600 + minutes * 60), cs) else none

/-- A zone that may be `Z`. -/
def readZone (colon : List Char → Option (List Char)) (minutesOptional : Bool) :
    List Char → Option (Int × List Char)
  | 'Z' :: cs => some (0, cs)
  | 'z' :: cs => some (0, cs)
  | cs => readOffset colon minutesOptional cs

/-- Colons and blanks, any number of them. -/
def skipColons (cs : List Char) : Option (List Char) :=
  some (cs.dropWhile fun c ↦ c == ':' || isBlank c)

/-- What follows a character at the head of a text. -/
def afterChar? (mark : Char) : List Char → Option (List Char)
  | c :: cs => if c = mark then some cs else none
  | [] => none

/-- What follows the mark between date and time of day. -/
def afterDateMark? : List Char → Option (List Char)
  | c :: cs => if c = 'T' ∨ c = 't' ∨ c = ' ' then some cs else none
  | [] => none

/-- One item that is not made of others. -/
def readSimple (item : LayoutItem) (s : LayoutState) : Option LayoutState := do
  let (p, cs) := s
  match item with
  | .literal c => some (p, ← afterChar? c cs)
  | .blanks => some (p, skipBlanks cs)
  | .number part =>
    let (n, rest) ← readPart part cs
    some (← p.set part n, rest)
  | .monthName long =>
    let (i, rest) ← readName monthNames long cs
    some (← p.set .month (i + 1 : Nat), rest)
  | .weekdayName long =>
    let (i, rest) ← readName (Weekday.all.map Weekday.name) long cs
    some (← p.setWeekday (.ofNumber i), rest)
  | .half =>
    match afterWord? ['a', 'm'] cs with
    | some rest => some (← p.setHalf 0, rest)
    | none =>
      let rest ← afterWord? ['p', 'm'] cs
      some (← p.setHalf 1, rest)
  | .fraction digits =>
    match cs with
    | '.' :: ds =>
      let (n, rest) ← readFraction digits ds
      some (← p.set .nanosecond n, rest)
    | _ => some (p, cs)
  | .bareFraction digits =>
    let (n, rest) ← readFraction (some digits) cs
    some (← p.set .nanosecond n, rest)
  | .zoneName => some (p, cs.dropWhile fun c ↦ !isBlank c)
  | .zone lenient =>
    let cs := skipBlanks cs
    let (offset, rest) ← if lenient then readZone skipColons true cs
      else readOffset skipColons false cs
    some (← p.setZone offset, rest)
  | .international => some s

/-- The date of the international order. -/
private def internationalDate : Layout :=
  [.number .year, .blanks, .literal '-', .number .month, .blanks, .literal '-', .number .day]

/-- The time of day of the international order. -/
private def internationalTime : Layout :=
  [.number .hour, .blanks, .literal ':', .number .minute, .blanks, .literal ':', .number .second,
    .fraction none, .blanks]

/-- One item. -/
def LayoutItem.read? (item : LayoutItem) (s : LayoutState) : Option LayoutState :=
  if item = .international then do
    let (p, cs) ← internationalDate.foldlM (fun s i ↦ readSimple i s) s
    let (p, cs) ← internationalTime.foldlM (fun s i ↦ readSimple i s) (p, ← afterDateMark? cs)
    let (offset, rest) ← match afterWord? ['u', 't', 'c'] cs with
      | some rest => some ((0 : Int), rest)
      | none => readZone skipColons false cs
    some (← p.setZone offset, rest)
  else readSimple item s

namespace Layout

/-- Everything that a text says when read through a layout. -/
def read? (layout : Layout) (cs : List Char) : Option Parts := do
  let (p, rest) ← layout.foldlM (fun s i ↦ i.read? s) (({} : Parts), cs)
  if rest = [] then some p else none

/-- The instant that a text names, which must give a time of day. -/
def timestamp? (layout : Layout) (cs : List Char) : Option Instant :=
  (layout.read? cs).bind Parts.instant

/-- The date that a text names. -/
def date? (layout : Layout) (cs : List Char) : Option Date :=
  (layout.read? cs).bind fun p ↦ p.date.toOption

/-- The instant that a text names, midnight when it names a date alone. -/
def instant? (layout : Layout) (cs : List Char) : Option Instant :=
  layout.timestamp? cs <|> (layout.date? cs).map Instant.midnight

end Layout

/--
An instant in the strict form for exchange: four-digit year, two-digit parts, `T` or a blank
between date and time of day, and a zone below 24 hours, which is dropped.
-/
def readExchange? (cs : List Char) : Option Instant := do
  let (year, cs) ← readNumber 4 4 cs
  let (month, cs) ← readNumber 2 2 (← afterChar? '-' cs)
  let (day, cs) ← readNumber 2 2 (← afterChar? '-' cs)
  let (hour, cs) ← readNumber 2 2 (← afterDateMark? cs)
  let (minute, cs) ← readNumber 2 2 (← afterChar? ':' cs)
  let (second, cs) ← readNumber 2 2 (← afterChar? ':' cs)
  let (nano, cs) ← match cs with
    | '.' :: ds => readFraction none ds
    | _ => some (0, cs)
  let (offset, cs) ← readZone (afterChar? ':') false cs
  if cs ≠ [] ∨ 86340 < offset.natAbs then none
  else Instant.ofTime? (← Date.ofYmd? year month day) hour minute second nano

end Jukebox.Calendar
