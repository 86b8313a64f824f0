import Mathlib.Order.Defs.PartialOrder
import Jukebox.Proofs.Playlist.Years
import Jukebox.Proofs.Text.Pieces

/-!
# Names of yearly playlists

The name of the playlist of a year is its pattern with the year in some places: in those of the
placeholders, however many they are, or else between parentheses at the end
(`Definition.exists_pieces_yearName`). The places do not depend on the year, and there is at least
one. So a name tells its year (`withYear_inj`): years of one length stand in the same places of two
equal names, and years of two lengths make names of two lengths.
-/

set_option autoImplicit false
set_option relaxedAutoImplicit false

namespace Jukebox

/-! ### Texts with a year in some places -/

/-- The text that has `year` in each place without a character. -/
def withYear (year : List Char) (pieces : List (Option Char)) : List Char :=
  pieces.flatMap fun piece ↦ piece.elim year fun c ↦ [c]

section

variable {year year' : List Char} {pieces : List (Option Char)}

theorem withYear_append (others : List (Option Char)) :
    withYear year (pieces ++ others) = withYear year pieces ++ withYear year others :=
  List.flatMap_append

theorem withYear_map_some (year cs : List Char) : withYear year (cs.map some) = cs := by
  induction cs with
  | nil => rfl
  | cons c cs ih => exact congrArg (c :: ·) ih

theorem length_withYear (year : List Char) (pieces : List (Option Char)) :
    (withYear year pieces).length =
      pieces.countP Option.isSome + pieces.count none * year.length := by
  induction pieces with
  | nil => simp [withYear]
  | cons piece rest ih =>
    rw [withYear] at ih ⊢
    rw [List.flatMap_cons, List.length_append, ih]
    cases piece with
    | none =>
      rw [List.count_cons_self, Nat.succ_mul, List.countP_cons_of_neg (by simp), Option.elim_none]
      omega
    | some c =>
      rw [List.count_cons_of_ne (by simp), List.countP_cons_of_pos (by simp), Option.elim_some,
        List.length_singleton]
      omega

/-- A text tells the year that it has in the given places, if there are any. -/
theorem withYear_inj (hplace : none ∈ pieces)
    (h : withYear year pieces = withYear year' pieces) : year = year' := by
  have hlength : year.length = year'.length := by
    have hboth := congrArg List.length h
    rw [length_withYear, length_withYear, Nat.add_left_cancel_iff] at hboth
    exact Nat.eq_of_mul_eq_mul_left (List.count_pos_iff.2 hplace) hboth
  -- Up to the first of the places the two texts have the same characters.
  induction pieces with
  | nil => cases hplace
  | cons piece rest ih =>
    cases piece with
    | none => exact (List.append_inj h hlength).1
    | some c =>
      have hrest : none ∈ rest := (List.mem_cons.1 hplace).resolve_left (by simp)
      exact ih hrest (List.append_cancel_left h)

end

/-! ### Names -/

namespace Definition

/-- Replacing placeholders puts the year into places that do not depend on it. -/
theorem exists_pieces_replaceYear (skip : Nat) (cs : List Char) :
    ∃ pieces : List (Option Char), (∀ year, replaceYear year skip cs = withYear year pieces) ∧
      (skip = 0 → hasPlaceholder cs = true → none ∈ pieces) := by
  induction cs generalizing skip with
  | nil => exact ⟨[], fun year ↦ by cases skip <;> rfl, fun _ h ↦ by cases h⟩
  | cons c cs ih =>
    cases skip with
    | succ skip =>
      obtain ⟨pieces, hpieces, _⟩ := ih skip
      exact ⟨pieces, hpieces, fun h ↦ by cases h⟩
    | zero =>
      cases hhere : placeholder? (c :: cs) with
      | some length =>
        obtain ⟨pieces, hpieces, _⟩ := ih (length - 1)
        refine ⟨none :: pieces, fun year ↦ ?_, fun _ _ ↦ List.mem_cons_self⟩
        simp only [replaceYear, hhere, hpieces]
        rfl
      | none =>
        obtain ⟨pieces, hpieces, hmem⟩ := ih 0
        refine ⟨some c :: pieces, fun year ↦ ?_, fun _ h ↦ ?_⟩
        · simp only [replaceYear, hhere, hpieces]
          rfl
        · rw [hasPlaceholder, hhere] at h
          exact List.mem_cons_of_mem _ (hmem rfl h)

/-- The name of a year is the pattern with the year in some places, and at least in one. -/
theorem exists_pieces_yearName (pattern : String) :
    ∃ pieces : List (Option Char), none ∈ pieces ∧
      ∀ year : Int, (yearName pattern year).toList = withYear (toString year).toList pieces := by
  by_cases hplace : hasPlaceholder pattern.toList = true
  · obtain ⟨pieces, hpieces, hmem⟩ := exists_pieces_replaceYear 0 pattern.toList
    refine ⟨pieces, hmem rfl hplace, fun year ↦ ?_⟩
    rw [yearName, if_pos hplace, String.toList_ofList, hpieces]
  · refine ⟨pattern.toList.map some ++ [some ' ', some '(', none, some ')'], by simp,
      fun year ↦ ?_⟩
    rw [yearName, if_neg hplace, withYear_append, withYear_map_some]
    simp [withYear, toString]

theorem yearName_injective (pattern : String) : Function.Injective (yearName pattern) := by
  intro y y' h
  obtain ⟨pieces, hplace, hpieces⟩ := exists_pieces_yearName pattern
  have htext : (toString y).toList = (toString y').toList :=
    withYear_inj hplace ((hpieces y).symm.trans ((congrArg String.toList h).trans (hpieces y')))
  exact Text.eq_of_toList_toString_eq htext

/-- Two different years give two different names, whatever the pattern. So the playlists that a
definition by the yearly series stands for, one for each of its years, have different names. -/
theorem yearly_names_distinct (pattern : String) :
    (∀ y y' : Int, y ≠ y' → yearName pattern y ≠ yearName pattern y') ∧
      ∀ (token : String) (max : Nat) (first current : Int) (value : Option Nat),
        Token.Expr.ofText token = .ok (.keyword .perYear value) →
          ∃ ds, expand pattern token max first current = .ok ds ∧
            (ds.length : Int) = Max.max 0 (current - value.elim first startYear + 1) ∧
            (ds.map name).Nodup := by
  refine ⟨fun y y' ↦ (yearName_injective pattern).ne, fun token max first current value htoken ↦ ?_⟩
  have hyears := pairwise_yearsBetween (value.elim first startYear) current
  refine ⟨_, expand_perYear htoken, ?_, ?_⟩
  · rw [List.length_map, length_yearsBetween]
  · rw [List.map_map]
    exact (hyears.imp ne_of_lt).map (yearName pattern) fun y y' ↦ (yearName_injective pattern).ne

/-- The year replaces both placeholders of a pattern, and the names of the years around year 0 have
one, two and three characters more than the pattern without them. -/
theorem yearly_names_distinct_around_zero :
    Token.Expr.ofText "[ PerYear ]" = .ok (.keyword .perYear none) ∧
      (List.map (yearName "[ YEAR ]-[year]") [-10, -1, 0, 1]) = ["-10--10", "-1--1", "0-0", "1-1"] ∧
      ∃ ds, expand "[ YEAR ]-[year]" "[ PerYear ]" 0 (-10) 1 = .ok ds ∧ ds.length = 12 ∧
        (ds.map name).Nodup := by
  have hread : Token.Expr.ofText "[ PerYear ]" = .ok (.keyword .perYear none) := by decide +kernel
  obtain ⟨ds, hds, hlength, hnodup⟩ :=
    (yearly_names_distinct "[ YEAR ]-[year]").2 "[ PerYear ]" 0 (-10) 1 none hread
  exact ⟨hread, by decide +kernel, ds, hds, Int.ofNat.inj hlength, hnodup⟩

end Definition

end Jukebox
