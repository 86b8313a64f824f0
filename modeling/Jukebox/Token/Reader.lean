import Jukebox.Text.Numeral
import Jukebox.Token.Canonical
import Jukebox.Token.Error
import Jukebox.Token.Expr

/-!
# Reading tokens

Each form is read from a whole text, cut at its commas:

* a relative range is an anchor, a signed amount or nothing, and a length after a comma;
* a date is `date=` with four, two and two digits, a time of day or nothing, and a length;
* a selector is `year=`, `month=` or `weekday=` and a list, all numbers or all names;
* a keyword is one of its spellings, and a number after `=` or a comma.

`Expr.ofChars?` reads a canonical text and `Expr.ofText` any text.
-/

set_option autoImplicit false
set_option relaxedAutoImplicit false

namespace Jukebox.Token

open Jukebox.Text Jukebox.Calendar

/-! ### Pieces of a text -/

/-- What follows `word` at the head of a text. -/
def after? : (word cs : List Char) → Option (List Char)
  | [], cs => some cs
  | w :: word, c :: cs => if w = c then after? word cs else none
  | _ :: _, [] => none

theorem after?_eq_some_iff {word cs rest : List Char} :
    after? word cs = some rest ↔ cs = word ++ rest := by
  fun_induction after? word cs <;> simp_all [eq_comm]

/-- The text before the first `mark` and, if there is one, the text behind it. -/
def cut (mark : Char) : List Char → List Char × Option (List Char)
  | [] => ([], none)
  | c :: cs => if c = mark then ([], some cs) else (c :: (cut mark cs).1, (cut mark cs).2)

/-- The texts between the commas. -/
def commaList : List Char → List (List Char)
  | [] => [[]]
  | c :: cs =>
    if c = ',' then [] :: commaList cs
    else match commaList cs with
      | [] => [[c]]
      | piece :: pieces => (c :: piece) :: pieces

/-! ### Numbers and amounts -/

/-- A number in digits that fits into 63 bits. -/
def number? (cs : List Char) : Option Nat := do
  let n ← natural? cs
  if (n : Int) ≤ maxInt64 then some n else none

/-- A unit, which may be left out. -/
def unit? : List Char → Option (Option Span)
  | [] => some none
  | [c] => (Span.ofLetter? c).map some
  | _ => none

/-- A number and a unit: the length of a range. -/
def amount? (cs : List Char) : Option Amount := do
  let n ← number? (cs.takeWhile Char.isDigit)
  let unit ← unit? (cs.dropWhile Char.isDigit)
  some ⟨n, unit⟩

/-- A sign, a number and a unit: the shift of a range. -/
def signedAmount? : List Char → Option Amount
  | sign :: cs => do
    let n ← natural? (cs.takeWhile Char.isDigit)
    let value : Int ←
      if sign = '+' then some (n : Int) else if sign = '-' then some (-n) else none
    let unit ← unit? (cs.dropWhile Char.isDigit)
    if minInt64 ≤ value ∧ value ≤ maxInt64 then some ⟨value, unit⟩ else none
  | [] => none

/-- The length behind the comma of a range, if there is a comma. -/
def length? : Option (List Char) → Option (Option Amount)
  | none => some none
  | some cs => (amount? cs).map some

/-! ### The four forms -/

/-- A relative range from one anchor. -/
def relativeFrom? (anchor : Anchor) (cs : List Char) : Option Expr := do
  let rest ← after? anchor.word.toList cs
  let (before, behind) := cut ',' rest
  let shift ← if before = [] then some none else (signedAmount? before).map some
  let length ← length? behind
  some (.relative anchor shift length)

def relative? (cs : List Char) : Option Expr := Anchor.all.findSome? fun a ↦ relativeFrom? a cs

/-- Two digits, a colon and two digits. -/
def clock? (cs : List Char) : Option (Nat × Nat) := do
  let (hour, cs) ← readNumber 2 2 cs
  let cs ← after? [':'] cs
  let (minute, cs) ← readNumber 2 2 cs
  if cs = [] then some (hour, minute) else none

/-- A time of day, which may be left out, with or without a `t` in front. -/
def time? : List Char → Option (Option (Nat × Nat))
  | [] => some none
  | 't' :: cs => (clock? cs).map some
  | cs => (clock? cs).map some

def date? (cs : List Char) : Option Expr := do
  let cs ← after? "date=".toList cs
  let (before, behind) := cut ',' cs
  let (year, cs) ← readNumber 4 4 before
  let cs ← after? ['-'] cs
  let (month, cs) ← readNumber 2 2 cs
  let cs ← after? ['-'] cs
  let (day, cs) ← readNumber 2 2 cs
  let time ← time? cs
  let length ← length? behind
  some (.date year month day time length)

/-- A comma list, each member read by `read`. -/
def list? {α : Type} (read : List Char → Option α) (cs : List Char) : Option (List α) :=
  (commaList cs).mapM read

def years? (cs : List Char) : Option Expr := do
  let cs ← after? "year=".toList cs
  (list? number? cs).map .years

def months? (cs : List Char) : Option Expr := do
  let cs ← after? "month=".toList cs
  (list? number? cs).map .months <|> (list? monthOfName? cs).map .months

def weekdays? (cs : List Char) : Option Expr := do
  let cs ← after? "weekday=".toList cs
  (list? number? cs).map .weekdayNumbers <|> (list? Weekday.ofName? cs).map .weekdayNames

/-- The end of a keyword, before its value. -/
def isValueMark (c : Char) : Bool := c == '=' || c == ','

def keyword? (cs : List Char) : Option Expr := do
  let word ← Keyword.ofChars? (cs.takeWhile fun c ↦ !isValueMark c)
  match cs.dropWhile fun c ↦ !isValueMark c with
  | [] => some (.keyword word none)
  | _ :: digits => (number? digits).map fun n ↦ .keyword word (some n)

/-! ### Tokens -/

/-- The token that a canonical text spells. -/
def Expr.ofChars? (cs : List Char) : Option Expr :=
  relative? cs <|> date? cs <|> years? cs <|> months? cs <|> weekdays? cs <|> keyword? cs

/-- The token that a text spells. -/
def Expr.ofText (text : String) : Except TokenError Expr :=
  let cs := canonicalChars text.toList
  if cs = [] then .error .empty
  else match Expr.ofChars? cs with
    | some e => .ok e
    | none => .error (.unknown (String.ofList cs))

end Jukebox.Token
