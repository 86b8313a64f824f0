import Jukebox.Token.Basic
import Jukebox.Token.Reader

/-!
# The meaning of tokens

A token as written becomes a `Token` for one `Reference`: the present and the weekday on which
weeks begin. A range starts at its anchor or date, shifted as written, and lasts for its length;
it must not be empty or leave the calendar. Selectors must lie within their limits.
-/

set_option autoImplicit false
set_option relaxedAutoImplicit false

namespace Jukebox

open Calendar

/-- The present, and the weekday on which weeks begin. -/
structure Reference where
  now : Instant
  weekStart : Weekday
  deriving DecidableEq

namespace Reference

/-- The first day of the week that holds the present; the calendar may begin in its middle. -/
def weekDate (r : Reference) : Date :=
  (Date.ofDay? (r.now.date.day - r.now.weekday.daysSince r.weekStart)).getD Date.first

/-- Where an anchor stands. -/
def anchor (r : Reference) : Token.Anchor → Instant
  | .now => r.now
  | .today => .midnight r.now.date
  | .week => .midnight r.weekDate
  | .month => .midnight ((Date.ofYmd? r.now.year r.now.month 1).getD r.now.date)
  | .year => .midnight ((Date.ofYmd? r.now.year 1 1).getD r.now.date)

end Reference

namespace Token

/-- The first year that a selector may name. -/
def minYear : Nat := 2000

/-- The last year that a selector may name. -/
def maxYear : Nat := 2100

/-- The members of a list in ascending order, each once. -/
def ascendingSet : List Nat → List Nat
  | [] => []
  | n :: rest =>
    let set := ascendingSet rest
    set.takeWhile (· < n) ++ n :: set.dropWhile (· ≤ n)

/-- All values within limits, or the fault of the first that is not. -/
def checkValues (text selector : String) (low high : Nat) (values : List Nat) :
    Except TokenError Unit :=
  match values.find? fun v ↦ v < low || high < v with
  | some bad => .error (.outOfRange text (.outside selector bad low high))
  | none => .ok ()

/-- The window of a length from a start. -/
def windowFrom (text : String) (start : Instant) (length : Option Amount) (unit : Span) :
    Except TokenError Window :=
  let amount := length.getD ⟨1, none⟩
  match (start.shift amount.value (amount.unit.getD unit)).bind (Window.between? start) with
  | some w => .ok w
  | none => .error (.invalidWindow text)

/-- The start of a relative range. -/
def rangeStart? (r : Reference) (anchor : Anchor) : Option Amount → Option Instant
  | none => some (r.anchor anchor)
  | some a => (r.anchor anchor).shift a.value (a.unit.getD anchor.unit)

/-- The start of a range from a date. -/
def dateStart (text : String) (year month day : Nat) (time : Option (Nat × Nat)) :
    Except TokenError Instant :=
  match Date.ofYmd? year month day with
  | none => .error (.outOfRange text (.noDate year month day))
  | some d =>
    let (hour, minute) := time.getD (0, 0)
    match Instant.ofTime? d hour minute 0 0 with
    | none => .error (.outOfRange text (.noTime hour minute))
    | some t => .ok t

/-- The meaning of a keyword; only the yearly series takes a value. -/
def ofKeyword (text : String) : Keyword → Option Nat → Except TokenError Token
  | .perYear, none => .ok (.perYear none)
  | .perYear, some y => do
    checkValues text "year" minYear maxYear [y]
    .ok (.perYear (some y))
  | _, some _ => .error (.unexpectedValue text)
  | .total, none => .ok (.range .whole)
  | .weekend, none => .ok (.weekdays [.sunday, .saturday])
  | .recent, none => .ok .recent
  | .unpopular, none => .ok .unpopular
  | .unplayed, none => .ok .unplayed
  | .prehistory, none => .ok .prehistory
  | .perMonth, none => .ok .perMonth
  | .perWeekday, none => .ok .perWeekday

/-- The weekdays with given numbers, Sunday first, each once. -/
def weekdaySet (numbers : List Nat) : List Weekday :=
  Weekday.all.filter fun d ↦ numbers.any fun n ↦ Weekday.ofNumber n == d

/-- The meaning of a token for a reference; `text` is the token's name in errors. -/
def Expr.resolve (text : String) (r : Reference) : Expr → Except TokenError Token
  | .relative anchor shift length =>
    match rangeStart? r anchor shift with
    | none => .error (.invalidWindow text)
    | some start => (windowFrom text start length anchor.unit).map .range
  | .date year month day time length => do
    let start ← dateStart text year month day time
    (windowFrom text start length .day).map .range
  | .years values => do
    checkValues text "year" minYear maxYear values
    .ok (.years ((ascendingSet values).map Int.ofNat))
  | .months values => do
    checkValues text "month" 1 12 values
    .ok (.months (ascendingSet values))
  | .weekdayNumbers values => do
    checkValues text "weekday" 1 7 values
    .ok (.weekdays (weekdaySet (values.map fun v ↦ v - 1 + r.weekStart.number)))
  | .weekdayNames days => .ok (.weekdays (weekdaySet (days.map Weekday.number)))
  | .keyword word value => ofKeyword text word value

end Token

/-- A token with its canonical text. -/
structure NamedToken where
  text : String
  token : Token
  deriving DecidableEq

/-- The token that a text stands for. -/
def NamedToken.ofText (text : String) (r : Reference) : Except TokenError NamedToken := do
  let name := Token.canonical text
  let expr ← Token.Expr.ofText name
  let token ← expr.resolve name r
  .ok ⟨name, token⟩

end Jukebox
