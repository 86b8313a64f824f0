import Jukebox.Decimal.Binary64

/-!
# The fewest digits that read back

A number of the binary format stands for the interval of all values that round to it, ends
included when its mantissa is even. `shortest` finds the least number of digits with which some
decimal lies in that interval and, among those, the decimal nearest to the number.

Decimals up to `10 ^ 16` and down to `10 ^ (-5)` are written with a point; others with one digit
before the point and a signed exponent.
-/

set_option autoImplicit false
set_option relaxedAutoImplicit false

namespace Jukebox.Decimal

open Jukebox.Text

/-- A positive rational as numerator and denominator. -/
structure Ratio where
  num : Nat
  den : Nat

/-- The interval of the values that round to a number, scaled to whole numerators. -/
structure Rounding where
  low : Nat
  value : Nat
  high : Nat
  den : Nat
  /-- Whether the ends belong to the interval. -/
  closed : Bool

/-- The values that round to `mantissa * 2 ^ exponent`. -/
def Rounding.of (mantissa : Nat) (exponent : Int) : Rounding :=
  let up := Nat.pow 2 exponent.toNat
  let down := Nat.pow 2 (-exponent).toNat
  let narrow := mantissa = Nat.pow 2 52 ∧ Binary64.minExponent < exponent
  { low := (4 * mantissa - if narrow then 1 else 2) * up
    value := 4 * mantissa * up
    high := (4 * mantissa + 2) * up
    den := 4 * down
    closed := mantissa % 2 = 0 }

/-- Whether `num / den` rounds to the number. -/
def Rounding.holds (r : Rounding) (num den : Nat) : Bool :=
  if r.closed then r.low * den ≤ num * r.den && num * r.den ≤ r.high * den
  else r.low * den < num * r.den && num * r.den < r.high * den

/-- The decimal `n * 10 ^ e` with `n` a neighbour of the value on that grid, if it reads back. -/
def Rounding.onGrid? (r : Rounding) (e : Int) : Option Nat :=
  let up := Nat.pow 10 e.toNat
  let down := Nat.pow 10 (-e).toNat
  let floor := r.value * down / (r.den * up)
  let fits (n : Nat) : Bool := 0 < n && r.holds (n * up) down
  let below := fits floor
  let above := fits (floor + 1)
  if below && above then
    -- twice the value against the sum of both neighbours
    let twice := 2 * r.value * down
    let middle := (2 * floor + 1) * r.den * up
    if twice < middle ∨ (twice = middle ∧ floor % 2 = 0) then some floor else some (floor + 1)
  else if below then some floor
  else if above then some (floor + 1)
  else none

/-- The first grid from exponent `e` downwards that holds a decimal which reads back. -/
def Rounding.search (r : Rounding) : (grids : Nat) → Int → Nat × Int
  | 0, e => (r.value / r.den, e)
  | grids + 1, e => match r.onGrid? e with
    | some n => (n, e)
    | none => r.search grids (e - 1)

/-- Digits and exponent of the shortest decimal of a positive number. -/
def shortest (mantissa : Nat) (exponent : Int) : Nat × Int :=
  let r := Rounding.of mantissa exponent
  let digits := (Nat.toDigits 10 (r.value / r.den)).length
  let top : Int := if r.den ≤ r.value then digits
    else 1 - ((Nat.toDigits 10 (r.den / r.value)).length : Int)
  r.search 20 top

/-- The text of a decimal from its digits and exponent, with a point or with an exponent. -/
def decimalText (digits : List Char) (exponent : Int) : List Char :=
  let point : Int := digits.length + exponent
  if -5 < point ∧ point ≤ 16 then
    if 0 ≤ exponent then digits ++ List.replicate exponent.toNat '0' ++ ['.', '0']
    else if 0 < point then
      digits.take point.toNat ++ '.' :: digits.drop point.toNat
    else '0' :: '.' :: (List.replicate (-point).toNat '0' ++ digits)
  else
    let mark := if point ≤ 0 then ['e', '-'] else ['e', '+']
    let tail := mark ++ Nat.toDigits 10 (point - 1).natAbs
    match digits with
    | [d] => d :: tail
    | d :: rest => d :: '.' :: (rest ++ tail)
    | [] => tail

/-- The text of a number; only a finite one has a text. -/
def Binary64.chars? : Binary64 → Option (List Char)
  | .finite s m e =>
    let body := if m = 0 then ['0', '.', '0'] else
      let (n, k) := shortest m e
      decimalText (Nat.toDigits 10 n) k
    some (if s then '-' :: body else body)
  | _ => none

end Jukebox.Decimal
