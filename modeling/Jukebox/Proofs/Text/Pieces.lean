import Mathlib.Data.List.DropRight
import Mathlib.Data.List.Induction
import Mathlib.Data.Nat.Digits.Defs
import Jukebox.Text.Blank
import Jukebox.Text.Numeral
import Jukebox.Text.Separator

/-!
# Pieces of text as written and as read

Numbers filled up with zeros are digits of their value (`ofDigits_padded`), the text of a whole number
tells the number (`eq_of_toList_toString_eq`), and digits are taken off the head of a text as far as
they go (`spanDigits_append_rest`). Texts joined with a character that
is in none of them are the pieces around it (`splitText_intercalate`), and a text without blanks at
its ends is left as it is (`trimChars_eq_self`).
-/

set_option autoImplicit false
set_option relaxedAutoImplicit false

namespace Jukebox.Text

/-! ### Digits -/

theorem isDigit_of_mem_spanDigits {most : Nat} {cs : List Char} :
    ∀ c ∈ (spanDigits most cs).1, c.isDigit = true := by
  fun_induction spanDigits most cs with
  | case1 most c rest hc ih => exact List.forall_mem_cons.2 ⟨hc, ih⟩
  | case2 => exact fun c hmem ↦ by cases hmem
  | case3 => exact fun c hmem ↦ by cases hmem

theorem spanDigits_append_rest {ds : List Char} (hds : ∀ c ∈ ds, c.isDigit = true)
    (rest : List Char) : spanDigits ds.length (ds ++ rest) = (ds, rest) := by
  induction ds with
  | nil => cases rest <;> rfl
  | cons c ds ih =>
    rw [List.forall_mem_cons] at hds
    rw [List.length_cons, List.cons_append, spanDigits, if_pos hds.1, ih hds.2]

theorem digitValue_lt {c : Char} (h : c.isDigit = true) : digitValue c < 10 := by
  have hnine : c.toNat ≤ '9'.toNat := (Char.isDigit_iff_toNat.1 h).2
  simp only [digitValue, Char.reduceToNat] at hnine ⊢
  omega

theorem ofDigits_lt {ds : List Char} (h : ∀ c ∈ ds, c.isDigit = true) :
    ofDigits ds < 10 ^ ds.length := by
  induction ds using List.reverseRecOn with
  | nil => exact Nat.one_pos
  | append_singleton front c ih =>
    have hfront := ih fun d hd ↦ h d (List.mem_append_left _ hd)
    have hlast := digitValue_lt (h c (by simp))
    rw [ofDigits_append, List.length_append, List.length_singleton, Nat.pow_succ]
    omega

/-! ### Numbers as written -/

theorem ofDigits_replicate_append (k : Nat) (ds : List Char) :
    ofDigits (List.replicate k '0' ++ ds) = ofDigits ds := by
  induction k with
  | zero => rfl
  | succ k ih => exact ih

theorem ofDigits_toDigits (n : Nat) : ofDigits (Nat.toDigits 10 n) = n :=
  Nat.ofDigitChars_toDigits (by decide) (by decide)

theorem ofDigits_padded (width n : Nat) : ofDigits (padded width n) = n := by
  rw [padded, ofDigits_replicate_append, ofDigits_toDigits]

theorem padded_ne_nil (width n : Nat) : padded width n ≠ [] :=
  List.append_ne_nil_of_right_ne_nil _ Nat.toDigits_ne_nil

theorem isDigit_of_mem_padded {width n : Nat} {c : Char} (h : c ∈ padded width n) :
    c.isDigit = true := by
  rcases List.mem_append.1 h with h | h
  · rw [List.eq_of_mem_replicate h]
    rfl
  · exact Nat.isDigit_of_mem_toDigits (by decide) (by decide) h

theorem length_padded_of_lt {width n : Nat} (hwidth : 0 < width) (h : n < 10 ^ width) :
    (padded width n).length = width :=
  length_padded ((Nat.length_toDigits_le_iff (by decide) hwidth).2 h)

/-- A whole number is written as the digits of its size, behind a sign if it is negative. -/
theorem toList_toString (n : Int) :
    (toString n).toList =
      if 0 ≤ n then Nat.toDigits 10 n.toNat else '-' :: Nat.toDigits 10 (-n).toNat := by
  rw [Int.toString_eq_repr, Int.repr_eq_if]
  split
  · exact Nat.toList_repr
  · rw [String.toList_append, Nat.toList_repr]
    rfl

theorem toDigits_ne_minus_cons (n : Nat) (cs : List Char) : Nat.toDigits 10 n ≠ '-' :: cs := by
  intro h
  have hmem : '-' ∈ Nat.toDigits 10 n := h ▸ List.mem_cons_self
  have hdigit := Nat.isDigit_of_mem_toDigits (by decide) (by decide) hmem
  cases hdigit

theorem eq_of_toDigits_eq {m n : Nat} (h : Nat.toDigits 10 m = Nat.toDigits 10 n) : m = n := by
  rw [← ofDigits_toDigits m, h, ofDigits_toDigits]

theorem eq_of_toList_toString_eq {m n : Int} (h : (toString m).toList = (toString n).toList) :
    m = n := by
  rw [toList_toString, toList_toString] at h
  by_cases hm : 0 ≤ m <;> by_cases hn : 0 ≤ n
  · rw [if_pos hm, if_pos hn] at h
    have hsize := eq_of_toDigits_eq h
    omega
  · rw [if_pos hm, if_neg hn] at h
    exact absurd h (toDigits_ne_minus_cons _ _)
  · rw [if_neg hm, if_pos hn] at h
    exact absurd h.symm (toDigits_ne_minus_cons _ _)
  · rw [if_neg hm, if_neg hn] at h
    have hsize := eq_of_toDigits_eq (List.cons.inj h).2
    omega

/-! ### Separators -/

theorem splitText_singleton (separator : Char) (cs : List Char) :
    splitText [separator] cs = cs.splitOn separator := by
  rw [splitText, if_neg (List.cons_ne_nil _ _), List.splitOn]
  induction cs with
  | nil => rfl
  | cons c cs ih =>
    obtain ⟨piece, pieces, hpieces⟩ :=
      List.exists_cons_of_ne_nil (List.splitOnP_ne_nil (· == separator) cs)
    have hprefix : [separator].isPrefixOf (c :: cs) = (c == separator) := by
      rw [List.isPrefixOf, List.isPrefixOf_nil_left, Bool.and_true, Bool.beq_comm]
    rw [splitFrom, List.splitOnP_cons_eq_if_modifyHead, hprefix, List.length_singleton, ih, hpieces]
    rfl

/-- Texts joined with a character that is in none of them. -/
theorem splitText_intercalate {separator : Char} {texts : List (List Char)}
    (h : ∀ text ∈ texts, separator ∉ text) (hne : texts ≠ []) :
    splitText [separator] ([separator].intercalate texts) = texts := by
  rw [splitText_singleton, List.splitOn_intercalate separator h hne]

/-! ### Blanks -/

theorem isBlank_eq_false_of_isDigit {c : Char} (h : c.isDigit = true) : isBlank c = false := by
  obtain ⟨hlow, hhigh⟩ := Char.isDigit_iff_toNat.1 h
  simp only [Char.reduceToNat] at hlow hhigh
  simp only [isBlank, Bool.or_eq_false_iff, Bool.and_eq_false_iff, decide_eq_false_iff_not,
    beq_eq_false_iff_ne]
  omega

/-- A text that neither begins nor ends with a blank has none to be cut off. -/
theorem trimChars_eq_self {cs : List Char} (hhead : ∀ c ∈ cs.head?, isBlank c = false)
    (hlast : ∀ c ∈ cs.getLast?, isBlank c = false) : trimChars cs = cs := by
  have hskip : skipBlanks cs = cs := by
    rw [skipBlanks, List.dropWhile_eq_self_iff]
    intro hpos
    rw [hhead _ (by rw [List.head?_eq_getElem?, List.getElem?_eq_getElem hpos]; rfl)]
    exact Bool.false_ne_true
  have hdrop : cs.rdropWhile isBlank = cs := by
    rw [List.rdropWhile_eq_self_iff]
    intro hne
    rw [hlast _ (List.getLast?_eq_some_getLast hne)]
    exact Bool.false_ne_true
  rw [trimChars, hskip]
  exact hdrop

end Jukebox.Text
