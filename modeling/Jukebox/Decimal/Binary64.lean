import Jukebox.Text.Numeral

/-!
# Numbers of 64 bits in binary floating point

A finite number is a mantissa below `2 ^ 53` times a power of two no less than `2 ^ (-1074)`.
Every operation works on the exact value and rounds it once, to the nearest number of the format
and on a tie to the even mantissa; values from `2 ^ 1024` on become infinite.

`roundQuotient_spec` says that rounding a quotient is off by half a unit at most.
-/

set_option autoImplicit false
set_option relaxedAutoImplicit false

namespace Jukebox.Decimal

open Jukebox.Text

/-- A quotient rounded to the nearest whole number, a tie to the even one. -/
def roundQuotient (num den : Nat) : Nat :=
  let q := num / den
  let r := num % den
  if 2 * r < den then q
  else if den < 2 * r then q + 1
  else if q % 2 = 0 then q else q + 1

theorem roundQuotient_spec {num den : Nat} (h : 0 < den) :
    2 * num ≤ 2 * (den * roundQuotient num den) + den ∧
      2 * (den * roundQuotient num den) ≤ 2 * num + den := by
  have hdiv := Nat.div_add_mod num den
  have hmod := Nat.mod_lt num h
  simp only [roundQuotient]
  split
  · omega
  · split
    · rw [Nat.mul_add, Nat.mul_one]; omega
    · split
      · omega
      · rw [Nat.mul_add, Nat.mul_one]; omega

inductive Binary64 where
  | nan
  | infinite (negative : Bool)
  /-- `mantissa * 2 ^ exponent`, below zero when `negative`. -/
  | finite (negative : Bool) (mantissa : Nat) (exponent : Int)
  deriving DecidableEq, Repr

namespace Binary64

/-- The least exponent. -/
def minExponent : Int := -1074

/-- The greatest exponent. -/
def maxExponent : Int := 971

/-- The exponent at which a positive quotient has a mantissa of 53 bits, or the least one. -/
def exponentOf (num den : Nat) : Int :=
  let guess : Int := (num.log2 : Int) - den.log2
  let top :=
    if den * Nat.pow 2 guess.toNat ≤ num * Nat.pow 2 (-guess).toNat then guess else guess - 1
  max (top - 52) minExponent

/-- The number nearest to a quotient. -/
def ofQuotient (negative : Bool) (num den : Nat) : Binary64 :=
  if num = 0 then finite negative 0 0
  else
    let e := exponentOf num den
    let m := roundQuotient (num * Nat.pow 2 (-e).toNat) (den * Nat.pow 2 e.toNat)
    let (m, e) := if m = Nat.pow 2 53 then (Nat.pow 2 52, e + 1) else (m, e)
    if maxExponent < e then infinite negative else finite negative m e

def ofNat (n : Nat) : Binary64 := ofQuotient false n 1

/-- The number nearest to `digits * 10 ^ exponent`. -/
def ofDecimal (negative : Bool) (digits : Nat) (exponent : Int) : Binary64 :=
  let top := ((Nat.toDigits 10 digits).length : Int) + exponent
  if digits = 0 ∨ top < -330 then finite negative 0 0
  else if 310 < top then infinite negative
  else ofQuotient negative (digits * Nat.pow 10 exponent.toNat) (Nat.pow 10 (-exponent).toNat)

def neg : Binary64 → Binary64
  | nan => nan
  | infinite s => infinite !s
  | finite s m e => finite (!s) m e

def mul : Binary64 → Binary64 → Binary64
  | finite s m e, finite t n f =>
    ofQuotient (s != t) (m * n * Nat.pow 2 (e + f).toNat) (Nat.pow 2 (-(e + f)).toNat)
  | finite s m _, infinite t => if m = 0 then nan else infinite (s != t)
  | infinite s, finite t m _ => if m = 0 then nan else infinite (s != t)
  | infinite s, infinite t => infinite (s != t)
  | nan, _ => nan
  | _, nan => nan

def div : Binary64 → Binary64 → Binary64
  | finite s m e, finite t n f =>
    if n = 0 then if m = 0 then nan else infinite (s != t)
    else ofQuotient (s != t) (m * Nat.pow 2 (e - f).toNat) (n * Nat.pow 2 (f - e).toNat)
  | finite s _ _, infinite t => finite (s != t) 0 0
  | infinite s, finite t _ _ => infinite (s != t)
  | infinite _, infinite _ => nan
  | nan, _ => nan
  | _, nan => nan

/-- The nearest whole number, a half being rounded away from zero. -/
def toInt? : Binary64 → Option Int
  | finite s m e =>
    let n : Nat :=
      if 0 ≤ e then m * Nat.pow 2 e.toNat
      else (2 * m + Nat.pow 2 (-e).toNat) / Nat.pow 2 ((-e).toNat + 1)
    some (if s then -(n : Int) else n)
  | _ => none

/-! ### Reading -/

/-- An exponent: nothing, or `e` and a signed number. -/
private def readExponent : List Char → Option Int
  | [] => some 0
  | c :: cs =>
    if c = 'e' ∨ c = 'E' then
      match cs with
      | '-' :: ds => (natural? ds).map fun n ↦ -(n : Int)
      | '+' :: ds => (natural? ds).map Int.ofNat
      | ds => (natural? ds).map Int.ofNat
    else none

/-- Digits with or without a point, at least one digit in all, and an exponent. -/
private def readDecimal (negative : Bool) (cs : List Char) : Option Binary64 := do
  let whole := cs.takeWhile Char.isDigit
  let (fraction, rest) := match cs.dropWhile Char.isDigit with
    | '.' :: rest => (rest.takeWhile Char.isDigit, rest.dropWhile Char.isDigit)
    | rest => ([], rest)
  if whole = [] ∧ fraction = [] then none
  else
    let exponent ← readExponent rest
    some (ofDecimal negative (ofDigits (whole ++ fraction)) (exponent - fraction.length))

/-- The number that a text without a sign names: decimal digits, or a word in any case. -/
private def readUnsigned (negative : Bool) (cs : List Char) : Option Binary64 :=
  let word := String.ofList (cs.map Char.toLower)
  if word = "nan" then some nan
  else if word = "inf" ∨ word = "infinity" then some (infinite negative)
  else readDecimal negative cs

/-- The number nearest to what a text names. -/
def ofChars? : List Char → Option Binary64
  | '-' :: cs => readUnsigned true cs
  | '+' :: cs => readUnsigned false cs
  | cs => readUnsigned false cs

/-! ### Signs in numbers without letters -/

/-- A digit, a point or a minus sign. -/
def isNumeric (c : Char) : Bool := c.isDigit || c == '.' || c == '-'

/-- Without letters there is no exponent. -/
private theorem eq_nil_of_readExponent {cs : List Char} {e : Int} (h : readExponent cs = some e)
    (hnumeric : ∀ c ∈ cs, isNumeric c = true) : cs = [] := by
  cases cs with
  | nil => rfl
  | cons c rest =>
    have hc := hnumeric c List.mem_cons_self
    have hletter : ¬ (c = 'e' ∨ c = 'E') := by
      rintro (rfl | rfl) <;> cases hc
    have hnone : readExponent (c :: rest) = none := if_neg hletter
    rw [hnone] at h
    cases h

private theorem minus_not_mem_takeWhile (cs : List Char) : '-' ∉ cs.takeWhile Char.isDigit :=
  fun h ↦ Bool.false_ne_true (List.all_eq_true.1 List.all_takeWhile '-' h)

/-- A decimal is digits, with a point in front of the last of them or not, and an exponent. -/
private theorem exists_exponent_of_readDecimal {negative : Bool} {cs : List Char} {x : Binary64}
    (h : readDecimal negative cs = some x) :
    ∃ front rest e, cs = front ++ rest ∧ '-' ∉ front ∧ readExponent rest = some e := by
  have hcs := List.takeWhile_append_dropWhile (p := Char.isDigit) (l := cs)
  unfold readDecimal at h
  dsimp only at h
  split at h
  · rename_i tail hdrop
    split at h
    · cases h
    · obtain ⟨e, he, _⟩ := Option.bind_eq_some_iff.1 h
      refine ⟨cs.takeWhile Char.isDigit ++ '.' :: tail.takeWhile Char.isDigit, _, e, ?_, ?_, he⟩
      · rw [List.append_assoc, List.cons_append, List.takeWhile_append_dropWhile, ← hdrop, hcs]
      · rw [List.mem_append, List.mem_cons]
        rintro (hwhole | hpoint | hpart)
        · exact minus_not_mem_takeWhile cs hwhole
        · cases hpoint
        · exact minus_not_mem_takeWhile tail hpart
  · split at h
    · cases h
    · obtain ⟨e, he, _⟩ := Option.bind_eq_some_iff.1 h
      exact ⟨_, _, e, hcs.symm, minus_not_mem_takeWhile cs, he⟩

private theorem minus_not_mem_of_readDecimal {negative : Bool} {cs : List Char} {x : Binary64}
    (h : readDecimal negative cs = some x) (hnumeric : ∀ c ∈ cs, isNumeric c = true) :
    '-' ∉ cs := by
  obtain ⟨front, rest, e, rfl, hfront, he⟩ := exists_exponent_of_readDecimal h
  rw [eq_nil_of_readExponent he fun c hc ↦ hnumeric c (List.mem_append_right _ hc),
    List.append_nil]
  exact hfront

/-- A number is a word or a decimal, and no word has a minus sign. -/
private theorem minus_not_mem_of_readUnsigned {negative : Bool} {cs : List Char} {x : Binary64}
    (h : readUnsigned negative cs = some x) (hnumeric : ∀ c ∈ cs, isNumeric c = true) :
    '-' ∉ cs := by
  have hword : ∀ {word : String}, String.ofList (cs.map Char.toLower) = word →
      '-' ∉ word.toList → '-' ∉ cs := by
    rintro _ rfl hword hmem
    rw [String.toList_ofList] at hword
    exact hword (List.mem_map_of_mem (f := Char.toLower) hmem)
  unfold readUnsigned at h
  dsimp only at h
  split at h
  · rename_i hnan
    exact hword hnan (by decide)
  · split at h
    · rename_i hinfinite
      rcases hinfinite with hinf | hinfinity
      · exact hword hinf (by decide)
      · exact hword hinfinity (by decide)
    · exact minus_not_mem_of_readDecimal h hnumeric

/-- A number of digits, points and minus signs has at most one minus sign, and that in front. -/
theorem minus_not_mem_tail_of_ofChars? {cs : List Char} {x : Binary64} (h : ofChars? cs = some x)
    (hnumeric : ∀ c ∈ cs, isNumeric c = true) : '-' ∉ cs.tail := by
  have htail : ∀ c ∈ cs.tail, isNumeric c = true :=
    fun c hc ↦ hnumeric c (List.mem_of_mem_tail hc)
  unfold ofChars? at h
  split at h
  · exact minus_not_mem_of_readUnsigned h htail
  · exact minus_not_mem_of_readUnsigned h htail
  · exact fun hmem ↦ minus_not_mem_of_readUnsigned h hnumeric (List.mem_of_mem_tail hmem)

end Binary64

end Jukebox.Decimal
