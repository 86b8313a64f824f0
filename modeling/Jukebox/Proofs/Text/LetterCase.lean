import Jukebox.Proofs.Text.Lowering

/-!
Texts that differ only in the case of ASCII letters have one lower case
(`SameLetters.lower_eq`). Lowering asks of a character what it is in lower case, whether it is a
capital sigma and what it does at the end of a word, and `Char.toLower` changes no answer; it moves
the capitals of ASCII only.
-/

set_option autoImplicit false
set_option relaxedAutoImplicit false

namespace Jukebox.Text

/-- Texts that are the same but for the case of ASCII letters. -/
def SameLetters (s t : String) : Prop := s.toList.map Char.toLower = t.toList.map Char.toLower

instance (s t : String) : Decidable (SameLetters s t) := inferInstanceAs (Decidable (_ = _))

/-! ### Characters -/

/-- What lowering a text asks of a character. -/
structure LoweredAlike (c d : Char) : Prop where
  lowerChar_eq : lowerChar c = lowerChar d
  sigma_iff : c = 'Σ' ↔ d = 'Σ'
  ignorable_eq : isCaseIgnorable c = isCaseIgnorable d
  cased_eq : isCased c = isCased d

theorem toLower_of_not_ascii {c : Char} (h : ¬ c.toNat < 0x80) : c.toLower = c := by
  refine dif_neg fun hupper ↦ h ?_
  have hle : c.toNat ≤ 'Z'.toNat := UInt32.le_iff_toNat_le.1 hupper.2
  have hZ : 'Z'.toNat = 0x5A := rfl
  omega

instance (c d : Char) : Decidable (LoweredAlike c d) :=
  decidable_of_iff
    (lowerChar c = lowerChar d ∧ (c = 'Σ' ↔ d = 'Σ') ∧ isCaseIgnorable c = isCaseIgnorable d ∧
      isCased c = isCased d)
    ⟨fun ⟨h, hsigma, hignorable, hcased⟩ ↦ ⟨h, hsigma, hignorable, hcased⟩,
      fun ⟨h, hsigma, hignorable, hcased⟩ ↦ ⟨h, hsigma, hignorable, hcased⟩⟩

theorem loweredAlike_toLower (c : Char) : LoweredAlike c.toLower c := by
  by_cases hascii : c.toNat < 0x80
  · exact ascii_induction hascii (by decide +kernel)
  · rw [toLower_of_not_ascii hascii]
    exact ⟨rfl, Iff.rfl, rfl, rfl⟩

/-! ### Texts -/

theorem meetsCased_map_toLower (cs : List Char) :
    meetsCased (cs.map Char.toLower) = meetsCased cs := by
  have hignorable : isCaseIgnorable ∘ Char.toLower = isCaseIgnorable :=
    funext fun c ↦ (loweredAlike_toLower c).ignorable_eq
  rw [meetsCased, meetsCased, List.dropWhile_map, hignorable]
  cases cs.dropWhile isCaseIgnorable with
  | nil => rfl
  | cons c rest => exact (loweredAlike_toLower c).cased_eq

theorem lowerFrom_map_toLower (before cs : List Char) :
    lowerFrom (before.map Char.toLower) (cs.map Char.toLower) = lowerFrom before cs := by
  induction cs generalizing before with
  | nil => rfl
  | cons c rest ih =>
    have halike := loweredAlike_toLower c
    have hrest := ih (c :: before)
    rw [List.map_cons] at hrest
    rw [List.map_cons, lowerFrom, lowerFrom, hrest, meetsCased_map_toLower, meetsCased_map_toLower,
      halike.lowerChar_eq]
    simp only [halike.sigma_iff]

theorem SameLetters.lower_eq {s t : String} (h : SameLetters s t) : lower s = lower t := by
  have hlowered := congrArg (lowerFrom []) h
  rw [← List.map_nil, lowerFrom_map_toLower, lowerFrom_map_toLower] at hlowered
  exact congrArg String.ofList hlowered

end Jukebox.Text
