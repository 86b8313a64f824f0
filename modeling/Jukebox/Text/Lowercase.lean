import Jukebox.Text.CaseTable

/-!
Lower case. `lowerChar` maps one character by itself; `lower` maps a whole text, where a capital
sigma that ends a word becomes the final sigma.

Outside the sigma the two agree: a text without U+03A3 is lowered character by character
(`lowerChars_eq_flatMap`).
-/

set_option autoImplicit false
set_option relaxedAutoImplicit false

namespace Jukebox.Text

/-- The offset of the run that holds a code point, looked up in ascending runs. -/
def offsetIn : List (Nat × Nat × Nat × Int) → Nat → Int
  | [], _ => 0
  | (first, last, step, offset) :: rest, n =>
    if n < first then 0
    else if n ≤ last then if (n - first) % step = 0 then offset else 0
    else offsetIn rest n

/-- The lower case of one character; only `İ` has two characters in lower case. -/
def lowerChar (c : Char) : List Char :=
  if c.toNat < 0x80 then [c.toLower]
  else if c.toNat = 0x130 then ['i', '\u0307']
  else [Char.ofNat (c.toNat + offsetIn lowerRuns c.toNat).toNat]

/-- Membership in ascending ranges. -/
def inRanges : List (Nat × Nat) → Nat → Bool
  | [], _ => false
  | (first, last) :: rest, n => first ≤ n && (n ≤ last || inRanges rest n)

/-- A character that does not take part in finding word ends. -/
def isCaseIgnorable (c : Char) : Bool := inRanges caseIgnorableRanges c.toNat

/-- A character with upper or lower case, not counting the case-ignorable ones. -/
def isCased (c : Char) : Bool := inRanges casedRanges c.toNat

/-- After the case-ignorable characters comes one that has case. -/
def meetsCased (cs : List Char) : Bool :=
  match cs.dropWhile isCaseIgnorable with
  | [] => false
  | c :: _ => isCased c

/--
The lower case of a text. `before` holds the characters already passed, last one first; a sigma is
final when a letter stands before it and none after it.
-/
def lowerFrom (before : List Char) : List Char → List Char
  | [] => []
  | c :: rest =>
    (if c = 'Σ' then
      if meetsCased before && !meetsCased rest then ['ς'] else ['σ']
    else lowerChar c) ++ lowerFrom (c :: before) rest

/-- The lower case of a text given as characters. -/
def lowerChars (cs : List Char) : List Char := lowerFrom [] cs

/-- The lower case of a text. -/
def lower (s : String) : String := String.ofList (lowerChars s.toList)

theorem lowerFrom_eq_flatMap {cs : List Char} (h : 'Σ' ∉ cs) (before : List Char) :
    lowerFrom before cs = cs.flatMap lowerChar := by
  induction cs generalizing before with
  | nil => rfl
  | cons c rest ih =>
    simp only [List.mem_cons, not_or] at h
    simp [lowerFrom, Ne.symm h.1, ih h.2]

theorem lowerChars_eq_flatMap {cs : List Char} (h : 'Σ' ∉ cs) :
    lowerChars cs = cs.flatMap lowerChar :=
  lowerFrom_eq_flatMap h []

end Jukebox.Text
