/-!
Decimal numerals in ASCII digits: reading whole numbers within a limit, and writing them with
leading zeros.

`ofDigits_append` says how a numeral is read piece by piece.
-/

set_option autoImplicit false
set_option relaxedAutoImplicit false

namespace Jukebox.Text

/-- The value of one ASCII digit. -/
def digitValue (c : Char) : Nat := c.toNat - '0'.toNat

/-- The value of a run of ASCII digits; the empty run has value 0. -/
def ofDigits (cs : List Char) : Nat := cs.foldl (fun n c ↦ 10 * n + digitValue c) 0

@[simp] theorem ofDigits_nil : ofDigits [] = 0 := rfl

theorem ofDigits_append (cs : List Char) (c : Char) :
    ofDigits (cs ++ [c]) = 10 * ofDigits cs + digitValue c := by
  simp [ofDigits]

/-- A number written as one or more ASCII digits. -/
def natural? (cs : List Char) : Option Nat :=
  if cs ≠ [] ∧ cs.all Char.isDigit then some (ofDigits cs) else none

/-- A number of at most `limit`, with an optional plus sign in front. -/
def unsigned? (limit : Nat) (cs : List Char) : Option Nat := do
  let digits := match cs with
    | '+' :: rest => rest
    | _ => cs
  let n ← natural? digits
  if n ≤ limit then some n else none

/-- A number between `low` and `high`, with an optional sign in front. -/
def signed? (low high : Int) (cs : List Char) : Option Int := do
  let n ← match cs with
    | '+' :: rest => (natural? rest).map Int.ofNat
    | '-' :: rest => (natural? rest).map fun n ↦ -(n : Int)
    | _ => (natural? cs).map Int.ofNat
  if low ≤ n ∧ n ≤ high then some n else none

/-- The least signed number of 64 bits. -/
def minInt64 : Int := -9223372036854775808

/-- The greatest signed number of 64 bits. -/
def maxInt64 : Int := 9223372036854775807

/-- The greatest unsigned number of 64 bits. -/
def maxUInt64 : Nat := 18446744073709551615

/-- The least signed number of 32 bits. -/
def minInt32 : Int := -2147483648

/-- The greatest signed number of 32 bits. -/
def maxInt32 : Int := 2147483647

/-- The greatest unsigned number of 32 bits. -/
def maxUInt32 : Nat := 4294967295

/-- The digits at the head of a text, `most` of them at most, and what follows them. -/
def spanDigits : (most : Nat) → List Char → List Char × List Char
  | most + 1, c :: rest =>
    if c.isDigit then (c :: (spanDigits most rest).1, (spanDigits most rest).2) else ([], c :: rest)
  | _, cs => ([], cs)

theorem spanDigits_append (most : Nat) (cs : List Char) :
    (spanDigits most cs).1 ++ (spanDigits most cs).2 = cs := by
  fun_induction spanDigits most cs <;> simp_all

theorem length_spanDigits_le (most : Nat) (cs : List Char) :
    (spanDigits most cs).1.length ≤ most := by
  fun_induction spanDigits most cs <;> simp_all

/-- The number at the head of a text, written in `least` to `most` digits, and what follows it. -/
def readNumber (least most : Nat) (cs : List Char) : Option (Nat × List Char) :=
  let (digits, rest) := spanDigits most cs
  if least ≤ digits.length then some (ofDigits digits, rest) else none

/-- A number as digits, with zeros in front up to `width` characters. -/
def padded (width n : Nat) : List Char :=
  let digits := Nat.toDigits 10 n
  List.replicate (width - digits.length) '0' ++ digits

/-- A signed number as digits, with zeros in front up to `width` characters, sign included. -/
def paddedInt (width : Nat) (n : Int) : List Char :=
  if n < 0 then '-' :: padded (width - 1) n.natAbs else padded width n.natAbs

theorem length_padded {width n : Nat} (h : (Nat.toDigits 10 n).length ≤ width) :
    (padded width n).length = width := by
  simp only [padded, List.length_append, List.length_replicate]
  omega

end Jukebox.Text
