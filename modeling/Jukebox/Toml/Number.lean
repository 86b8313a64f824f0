import Jukebox.Calendar.Date
import Jukebox.Toml.Text

/-!
Numbers, dates and times of TOML texts. Whole numbers have 64 bits and may be written in another
base; single underscores may stand between digits.
-/

set_option autoImplicit false
set_option relaxedAutoImplicit false

namespace Jukebox.Toml

open Text Decimal

/-! ### Numbers -/

/-- The digits of a number without the underscores, each of which stands between two digits. -/
def plainDigits? (isDigit : Char → Bool) : List Char → Option (List Char)
  | [] => none
  | [c] => if isDigit c then some [c] else none
  | c :: '_' :: cs => if isDigit c then (plainDigits? isDigit cs).map (c :: ·) else none
  | c :: cs => if isDigit c then (plainDigits? isDigit cs).map (c :: ·) else none

/-- The value of a digit in any base up to 16. -/
private def anyDigit (c : Char) : Nat :=
  if c.isDigit then c.toNat - '0'.toNat else c.toLower.toNat - 'a'.toNat + 10

/-- A number in another base. -/
private def based? (base : Nat) (isDigit : Char → Bool) (cs : List Char) : Option Toml := do
  let digits ← plainDigits? isDigit cs
  let n := digits.foldl (fun n c ↦ base * n + anyDigit c) 0
  if (n : Int) ≤ maxInt64 then some (.integer n) else none

private def isHexDigit (c : Char) : Bool := c.isDigit || ('a' ≤ c.toLower && c.toLower ≤ 'f')

/-- Decimal digits without underscores, and with no zero in front of other digits. -/
def wholeDigits? (cs : List Char) : Option (List Char) :=
  match plainDigits? Char.isDigit cs with
  | some ('0' :: _ :: _) => none
  | digits => digits

/-- A sign, and what follows it. -/
def splitSign : List Char → Bool × List Char
  | '-' :: cs => (true, cs)
  | '+' :: cs => (false, cs)
  | cs => (false, cs)

/-- A whole number. -/
def integer? : List Char → Option Toml
  | '0' :: 'x' :: cs => based? 16 isHexDigit cs
  | '0' :: 'o' :: cs => based? 8 (fun c ↦ '0' ≤ c && c ≤ '7') cs
  | '0' :: 'b' :: cs => based? 2 (fun c ↦ c == '0' || c == '1') cs
  | cs => do
    let (negative, digits) := splitSign cs
    let n : Nat := ofDigits (← wholeDigits? digits)
    let n : Int := if negative then -(n : Int) else n
    if minInt64 ≤ n ∧ n ≤ maxInt64 then some (.integer n) else none

/-- The number of a fraction: some digits before the point and behind it, and an exponent. -/
private def fractional? (negative : Bool) (whole fraction : List Char) (exponent : Int) :
    Option Toml :=
  match Binary64.ofDecimal negative (ofDigits (whole ++ fraction)) (exponent - fraction.length) with
  | .infinite false => none
  | x => some (.float x)

/-- An exponent behind its letter. -/
private def exponent? (cs : List Char) : Option Int := do
  let (negative, digits) := splitSign cs
  let n : Nat := ofDigits (← plainDigits? Char.isDigit digits)
  some (if negative then -(n : Int) else n)

private def isExponentMark (c : Char) : Bool := c == 'e' || c == 'E'

/-- A number with a fraction, an exponent or both, or one of the words for special numbers. -/
def float? (cs : List Char) : Option Toml := do
  let (negative, body) := splitSign cs
  if body = "inf".toList then some (.float (.infinite negative))
  else if body = "nan".toList then some (.float .nan)
  else
    let mantissa := body.takeWhile fun c ↦ !isExponentMark c
    let exponent ← match body.dropWhile fun c ↦ !isExponentMark c with
      | [] => some none
      | _ :: ds => (exponent? ds).map some
    let whole ← wholeDigits? (mantissa.takeWhile (· != '.'))
    match mantissa.dropWhile (· != '.'), exponent with
    | [], none => none
    | [], some e => fractional? negative whole [] e
    | _ :: ds, e => fractional? negative whole (← plainDigits? Char.isDigit ds) (e.getD 0)

/-! ### Dates and times -/

/-- Two digits behind a mark. -/
private def pairAfter (mark : Char) : List Char → Option (Nat × List Char)
  | c :: cs => if c = mark then readNumber 2 2 cs else none
  | [] => none

/-- What follows a date. -/
def afterDate? (cs : List Char) : Option (List Char) := do
  let (year, cs) ← readNumber 4 4 cs
  let (month, cs) ← pairAfter '-' cs
  let (day, cs) ← pairAfter '-' cs
  let _ ← Calendar.Date.ofYmd? year month day
  some cs

/-- What follows a time of day. -/
def afterTime? (cs : List Char) : Option (List Char) := do
  let (hour, cs) ← readNumber 2 2 cs
  let (minute, cs) ← pairAfter ':' cs
  let (second, cs) ← pairAfter ':' cs
  if hour < 24 ∧ minute < 60 ∧ second ≤ 60 then
    match cs with
    | '.' :: ds => if (ds.head?.any Char.isDigit) then some (ds.dropWhile Char.isDigit) else none
    | _ => some cs
  else none

/-- What follows a zone; there may be none. -/
def afterZone? : List Char → Option (List Char)
  | 'Z' :: cs => some cs
  | 'z' :: cs => some cs
  | c :: cs =>
    if c = '+' ∨ c = '-' then do
      let (hour, rest) ← readNumber 2 2 cs
      let (minute, rest) ← pairAfter ':' rest
      if hour < 24 ∧ minute < 60 then some rest else none
    else some (c :: cs)
  | [] => some []

/-- What follows a date, a time of day, or both with or without a zone. -/
def afterMoment? (cs : List Char) : Option (List Char) :=
  match afterDate? cs with
  | some (c :: rest) =>
    if c = 'T' ∨ c = 't' ∨ c = ' ' then
      match afterTime? rest with
      | some rest => afterZone? rest
      | none => some (c :: rest)
    else some (c :: rest)
  | some [] => some []
  | none => afterTime? cs

/-- A character of numbers and words. -/
def isWordChar (c : Char) : Bool := c.isAlphanum || c == '_' || c == '-' || c == '+' || c == '.'

/-- A number, a truth value, a date or a time, and what follows it. -/
def readAtom (cs : List Char) : Option (Toml × List Char) :=
  match afterMoment? cs with
  | some rest => some (.moment (String.ofList (cs.take (cs.length - rest.length))), rest)
  | none => do
    let word := cs.takeWhile isWordChar
    let v ←
      if word = "true".toList then some (Toml.bool true)
      else if word = "false".toList then some (.bool false)
      else integer? word <|> float? word
    some (v, cs.dropWhile isWordChar)

end Jukebox.Toml
