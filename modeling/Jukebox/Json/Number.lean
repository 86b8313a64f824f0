import Jukebox.Json.Basic

/-!
# Numbers of JSON texts

A whole number of 64 bits is kept as it is; every other number becomes one in binary floating
point. Its digits are gathered into a significand of 64 bits, and what does not fit is dropped;
the significand is then multiplied or divided by a power of ten, each step rounding. A number
that becomes infinite is refused.
-/

set_option autoImplicit false
set_option relaxedAutoImplicit false

namespace Jukebox.JsonNumber

open Text Decimal

/-- Digits gathered while the number stays below 64 bits, and how many digits are left over. -/
def gather (start : Nat) : List Char → Nat × Nat
  | [] => (start, 0)
  | c :: cs =>
    let n := 10 * start + digitValue c
    if n ≤ maxUInt64 then gather n cs else (start, cs.length + 1)

/-- A power of ten as a number in binary floating point. -/
private def power (k : Nat) : Binary64 := .ofDecimal false 1 k

/-- `x * 10 ^ exponent`, in at most `steps` divisions by `10 ^ 308` and one step more. -/
private def scale (x : Binary64) (exponent : Int) : (steps : Nat) → Option Binary64
  | 0 => some x
  | steps + 1 =>
    if exponent.natAbs ≤ 308 then
      if 0 ≤ exponent then
        match x.mul (power exponent.toNat) with
        | .infinite _ => none
        | y => some y
      else some (x.div (power exponent.natAbs))
    else if x = .finite false 0 0 then some x
    else if 0 ≤ exponent then none
    else scale (x.div (power 308)) (exponent + 308) steps

/-- `significand * 10 ^ exponent`, with a sign; no significand outlasts three divisions. -/
def ofParts (negative : Bool) (significand : Nat) (exponent : Int) : Option JsonNumber :=
  (scale (.ofNat significand) exponent 4).map fun x ↦ .float (if negative then x.neg else x)

/-- The exponent of a number in digits, a sign and at least one digit. -/
private def readExponent : List Char → Option (Bool × Nat)
  | '-' :: cs => (natural? cs).map fun n ↦ (true, n)
  | '+' :: cs => (natural? cs).map fun n ↦ (false, n)
  | cs => (natural? cs).map fun n ↦ (false, n)

/-- A number with an exponent; one beyond 31 bits makes zero of anything, or is refused. -/
private def withExponent (negative : Bool) (significand : Nat) (shift : Int) (cs : List Char) :
    Option JsonNumber := do
  let (down, n) ← readExponent cs
  if maxInt32 < n then
    if significand ≠ 0 ∧ !down then none
    else some (.float (.finite negative 0 0))
  else ofParts negative significand (if down then shift - n else shift + n)

/-- The number behind its whole digits: a fraction, an exponent, both or neither. -/
private def afterWhole (negative : Bool) (whole : List Char) : List Char → Option JsonNumber
  | [] =>
    let (n, left) := gather 0 whole
    if 0 < left then ofParts negative n left
    else if negative then
      if 0 < n ∧ (n : Int) ≤ -minInt64 then some (.integer (-n))
      else some (.float (Binary64.ofNat n).neg)
    else some (.integer n)
  | c :: cs =>
    let (n, left) := gather 0 whole
    if c = '.' then
      let fraction := cs.takeWhile Char.isDigit
      let (n, dropped) := gather n fraction
      let shift : Int := (left : Int) - ((fraction.length - dropped : Nat) : Int)
      if fraction = [] then none
      else match cs.dropWhile Char.isDigit with
        | [] => ofParts negative n shift
        | e :: ds => if e = 'e' ∨ e = 'E' then withExponent negative n shift ds else none
    else if c = 'e' ∨ c = 'E' then withExponent negative n left cs
    else none

/-- The number of a JSON text; no zero stands in front of other digits. -/
def ofChars? (cs : List Char) : Option JsonNumber :=
  let (negative, cs) := match cs with
    | '-' :: rest => (true, rest)
    | _ => (false, cs)
  match cs.takeWhile Char.isDigit with
  | [] => none
  | '0' :: _ :: _ => none
  | whole => afterWhole negative whole (cs.dropWhile Char.isDigit)

end Jukebox.JsonNumber
