import Jukebox.Text.Blank
import Jukebox.Text.Lowercase
import Mathlib.Data.Nat.Bitwise

/-!
Lowering a character settles it: what `lowerChar` gives is lower case already
(`lowerChar_of_mem_lowerChar`), and it is a blank or a bracket only if the character was
(`isBlank_of_mem_lowerChar`, `eq_of_mem_lowerChar_of_bracket`).

This comes from two facts about the table, that no code point in lower case is blank or a member of
a run (`bitsOf_movedOrBlank`) and that none is a bracket (`bitsOf_brackets`). Sets of code points
are compared as the bits of numbers.
-/

set_option autoImplicit false
set_option relaxedAutoImplicit false

namespace Jukebox.Text

/-! ### Code points as bits -/

/-- The number whose bits are the members of a list. -/
def bitsOf (ns : List Nat) : Nat := ns.foldr (fun n bits ↦ 1 <<< n ||| bits) 0

theorem testBit_bitsOf {ns : List Nat} {n : Nat} (h : n ∈ ns) : (bitsOf ns).testBit n = true := by
  induction ns with
  | nil => cases h
  | cons m rest ih =>
    rw [bitsOf, List.foldr_cons, Nat.testBit_or, Bool.or_eq_true]
    rcases List.mem_cons.1 h with rfl | h
    · left
      rw [Nat.one_shiftLeft, Nat.testBit_two_pow_self]
    · exact Or.inr (ih h)

theorem not_mem_of_bitsOf {ms ns : List Nat} (h : bitsOf ms &&& bitsOf ns = 0) {n : Nat}
    (hn : n ∈ ns) : n ∉ ms := by
  intro hm
  have hbit : (bitsOf ms &&& bitsOf ns).testBit n = true := by
    rw [Nat.testBit_and, testBit_bitsOf hm, testBit_bitsOf hn, Bool.and_self]
  rw [h, Nat.zero_testBit] at hbit
  cases hbit

/-! ### The table -/

/-- The code points that a run moves. -/
def runMembers (run : Nat × Nat × Nat × Int) : List Nat :=
  (List.range ((run.2.1 - run.1) / run.2.2.1 + 1)).map fun place ↦ run.1 + place * run.2.2.1

/-- Where a run moves them. -/
def runLowered (run : Nat × Nat × Nat × Int) : List Nat :=
  (runMembers run).map fun (n : Nat) ↦ (n + run.2.2.2).toNat

/-- An offset comes from a run that has the code point as a member. -/
theorem exists_run_of_offsetIn_ne_zero {runs : List (Nat × Nat × Nat × Int)} {n : Nat}
    (h : offsetIn runs n ≠ 0) : ∃ run ∈ runs, n ∈ runMembers run ∧ offsetIn runs n = run.2.2.2 := by
  induction runs with
  | nil => exact absurd rfl h
  | cons run rest ih =>
    obtain ⟨first, last, step, offset⟩ := run
    rw [offsetIn] at h ⊢
    split at h
    · exact absurd rfl h
    · split at h
      · split at h
        · rename_i hfirst hlast hstep
          refine ⟨_, List.mem_cons_self, List.mem_map.2 ⟨(n - first) / step, ?_, ?_⟩, ?_⟩
          · exact List.mem_range.2 (Nat.lt_succ_of_le
              (Nat.div_le_div_right (show n - first ≤ last - first by omega)))
          · have := Nat.div_add_mod' (n - first) step
            show first + (n - first) / step * step = n
            omega
          · rw [if_neg hfirst, if_pos hlast, if_pos hstep]
        · exact absurd rfl h
      · rename_i hfirst hlast
        obtain ⟨run, hrun, hmem, heq⟩ := ih h
        rw [if_neg hfirst, if_neg hlast]
        exact ⟨run, List.mem_cons_of_mem _ hrun, hmem, heq⟩

/-- Code points among which are all blanks, and no letters. -/
def blankCodes : List Nat :=
  List.range 0x21 ++ List.range' 0x2000 0x60 ++ [0x85, 0xA0, 0x1680, 0x3000]

theorem mem_blankCodes {c : Char} (h : isBlank c = true) : c.toNat ∈ blankCodes := by
  simp only [isBlank, Bool.or_eq_true, Bool.and_eq_true, decide_eq_true_eq, beq_iff_eq] at h
  simp only [blankCodes, List.mem_append, List.mem_range, List.mem_range'_1, List.mem_cons]
  omega

/-- The code points that are blank or that lowering moves. -/
def movedOrBlank : List Nat := 0x130 :: lowerRuns.flatMap runMembers ++ blankCodes

/-- The code points to which others are lowered. -/
def loweredCodes : List Nat := 0x69 :: 0x307 :: lowerRuns.flatMap runLowered

theorem bitsOf_movedOrBlank : bitsOf movedOrBlank &&& bitsOf loweredCodes = 0 := by
  decide +kernel

theorem mem_loweredCodes {n : Nat} (h : offsetIn lowerRuns n ≠ 0) :
    (n + offsetIn lowerRuns n).toNat ∈ loweredCodes := by
  obtain ⟨run, hrun, hmem, heq⟩ := exists_run_of_offsetIn_ne_zero h
  apply List.mem_cons_of_mem
  apply List.mem_cons_of_mem
  rw [heq, List.mem_flatMap]
  exact ⟨run, hrun, List.mem_map.2 ⟨n, hmem, rfl⟩⟩

/-! ### Characters -/

/-- What holds of the first 128 code points holds of all characters of ASCII. -/
@[elab_as_elim]
theorem ascii_induction {P : Char → Prop} {c : Char} (hc : c.toNat < 0x80)
    (h : ∀ n < 0x80, P (Char.ofNat n)) : P c := by
  have hcode := h c.toNat hc
  rwa [Char.ofNat_toNat] at hcode

theorem toLower_of_ascii {c : Char} (hc : c.toNat < 0x80) :
    c.toNat ∉ runMembers (0x41, 0x5A, 1, 32) → c.toLower = c :=
  ascii_induction hc (by decide +kernel)

theorem lowerChar_toLower_of_ascii {c : Char} (hc : c.toNat < 0x80) :
    lowerChar c.toLower = [c.toLower] :=
  ascii_induction hc (by decide +kernel)

theorem isBlank_toLower_of_ascii {c : Char} (hc : c.toNat < 0x80) :
    isBlank c.toLower = isBlank c :=
  ascii_induction hc (by decide +kernel)

theorem lowerChar_eq_self {c : Char} (h : c.toNat ∉ movedOrBlank) : lowerChar c = [c] := by
  have hruns : ∀ run ∈ lowerRuns, c.toNat ∉ runMembers run := by
    intro run hrun hmem
    exact h (List.mem_append_left _ (List.mem_cons_of_mem _ (List.mem_flatMap.2 ⟨run, hrun, hmem⟩)))
  rw [lowerChar]
  split
  · rename_i hascii
    rw [toLower_of_ascii hascii (hruns _ List.mem_cons_self)]
  · split
    · rename_i hdotted
      exact absurd (hdotted ▸ List.mem_append_left _ List.mem_cons_self) h
    · have hzero : offsetIn lowerRuns c.toNat = 0 := by
        by_contra hne
        obtain ⟨run, hrun, hmem, _⟩ := exists_run_of_offsetIn_ne_zero hne
        exact hruns run hrun hmem
      rw [hzero, Int.add_zero, Int.toNat_natCast, Char.ofNat_toNat]

theorem toNat_ofNat (n : Nat) : (Char.ofNat n).toNat = n ∨ Char.ofNat n = '\x00' := by
  by_cases h : n.isValidChar
  · left
    rw [Char.ofNat, dif_pos h]
    rfl
  · right
    rw [Char.ofNat, dif_neg h]
    rfl

/-- What others are lowered to is neither blank nor moved once more. -/
theorem settled_of_mem_loweredCodes {d : Char} (h : d.toNat ∈ loweredCodes) :
    lowerChar d = [d] ∧ isBlank d = false := by
  have hmem := not_mem_of_bitsOf bitsOf_movedOrBlank h
  refine ⟨lowerChar_eq_self hmem, ?_⟩
  by_contra hblank
  rw [Bool.not_eq_false] at hblank
  exact hmem (List.mem_append_right _ (mem_blankCodes hblank))

/-- A character is lowered to itself or into the table, unless it is ASCII. -/
theorem lowerChar_eq_or_mem_loweredCodes {c : Char} (hascii : ¬ c.toNat < 0x80) :
    lowerChar c = [c] ∨ ∀ d ∈ lowerChar c, d.toNat ∈ loweredCodes ∨ d = '\x00' := by
  rw [lowerChar, if_neg hascii]
  split
  · right
    intro d hd
    left
    rw [List.mem_cons, List.mem_singleton] at hd
    rcases hd with rfl | rfl
    · exact List.mem_cons_self
    · exact List.mem_cons_of_mem _ List.mem_cons_self
  · by_cases hzero : offsetIn lowerRuns c.toNat = 0
    · left
      rw [hzero, Int.add_zero, Int.toNat_natCast, Char.ofNat_toNat]
    · right
      intro d hd
      rw [List.mem_singleton] at hd
      rw [hd]
      refine (toNat_ofNat (c.toNat + offsetIn lowerRuns c.toNat).toNat).imp (fun hcode ↦ ?_) id
      rw [hcode]
      exact mem_loweredCodes hzero

/-- A character is lowered to itself or to characters that are neither blank nor moved once more,
unless it is ASCII. -/
theorem lowerChar_cases {c : Char} (hascii : ¬ c.toNat < 0x80) :
    lowerChar c = [c] ∨ ∀ d ∈ lowerChar c, lowerChar d = [d] ∧ isBlank d = false := by
  refine (lowerChar_eq_or_mem_loweredCodes hascii).imp id fun hlowered d hd ↦ ?_
  rcases hlowered d hd with hcode | rfl
  · exact settled_of_mem_loweredCodes hcode
  · decide

/-- Lower case is left alone by lowering. -/
theorem lowerChar_of_mem_lowerChar {c d : Char} (h : d ∈ lowerChar c) : lowerChar d = [d] := by
  by_cases hascii : c.toNat < 0x80
  · rw [lowerChar, if_pos hascii, List.mem_singleton] at h
    rw [h, lowerChar_toLower_of_ascii hascii]
  · rcases lowerChar_cases hascii with hself | hsettled
    · rw [hself, List.mem_singleton] at h
      rw [h, hself]
    · exact (hsettled d h).1

/-- Lowering makes no blanks. -/
theorem isBlank_of_mem_lowerChar {c d : Char} (h : d ∈ lowerChar c) (hd : isBlank d = true) :
    isBlank c = true := by
  by_cases hascii : c.toNat < 0x80
  · rw [lowerChar, if_pos hascii, List.mem_singleton] at h
    rw [← isBlank_toLower_of_ascii hascii, ← h, hd]
  · rcases lowerChar_cases hascii with hself | hsettled
    · rw [hself, List.mem_singleton] at h
      rw [← h, hd]
    · rw [(hsettled d h).2] at hd
      cases hd

/-! ### Brackets -/

theorem bitsOf_brackets : bitsOf [0x5B, 0x5D] &&& bitsOf loweredCodes = 0 := by
  decide +kernel

theorem eq_toLower_of_bracket_of_ascii {c : Char} (hc : c.toNat < 0x80) :
    c.toLower = '[' ∨ c.toLower = ']' → c = c.toLower :=
  ascii_induction hc (by decide +kernel)

/-- Lowering makes no brackets. -/
theorem eq_of_mem_lowerChar_of_bracket {c d : Char} (h : d ∈ lowerChar c)
    (hd : d = '[' ∨ d = ']') : c = d := by
  by_cases hascii : c.toNat < 0x80
  · rw [lowerChar, if_pos hascii, List.mem_singleton] at h
    rw [h] at hd ⊢
    exact eq_toLower_of_bracket_of_ascii hascii hd
  · rcases lowerChar_eq_or_mem_loweredCodes hascii with hself | hlowered
    · rw [hself, List.mem_singleton] at h
      exact h.symm
    · rcases hlowered d h with hcode | rfl
      · have hbracket := not_mem_of_bitsOf bitsOf_brackets hcode
        rcases hd with rfl | rfl
        · exact absurd (by decide) hbracket
        · exact absurd (by decide) hbracket
      · exact absurd hd (by decide)

end Jukebox.Text
