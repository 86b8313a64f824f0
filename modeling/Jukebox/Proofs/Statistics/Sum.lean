import Jukebox.Statistics.Basic
import Mathlib.Data.List.Perm.Basic

/-!
Sums of statistics, token by token. Adding is commutative and associative, whatever numbers and
series meet (`Statistic.add_comm`, `Statistic.add_assoc`). A sum of several statistics has under
each text the sum of what they have there (`Statistics.get?_sum`), so their order is of no account
(`Statistics.get?_sum_of_perm`).
-/

set_option autoImplicit false
set_option relaxedAutoImplicit false

namespace Jukebox

namespace Statistic

theorem addSeries_nil (as : List Int) : addSeries as [] = as := by
  cases as <;> rfl

theorem addSeries_comm (as bs : List Int) : addSeries as bs = addSeries bs as := by
  induction as generalizing bs with
  | nil => rw [addSeries_nil, addSeries]
  | cons a as ih =>
    cases bs with
    | nil => rfl
    | cons b bs => rw [addSeries, addSeries, Int.add_comm, ih]

theorem addSeries_assoc (as bs cs : List Int) :
    addSeries (addSeries as bs) cs = addSeries as (addSeries bs cs) := by
  induction as generalizing bs cs with
  | nil => rw [addSeries, addSeries]
  | cons a as ih =>
    cases bs with
    | nil => rw [addSeries_nil, addSeries]
    | cons b bs =>
      cases cs with
      | nil => rw [addSeries_nil, addSeries_nil]
      | cons c cs => simp only [addSeries, Int.add_assoc, ih]

theorem add_comm (v w : Statistic) : v.add w = w.add v := by
  cases v <;> cases w
  · exact congrArg count (Int.add_comm _ _)
  · rfl
  · rfl
  · exact congrArg series (addSeries_comm _ _)

/-- Where numbers meet a series, it stands, whichever meet first. -/
theorem add_assoc (u v w : Statistic) : (u.add v).add w = u.add (v.add w) := by
  cases u <;> cases v <;> cases w
  case count.count.count => exact congrArg count (Int.add_assoc _ _ _)
  case series.series.series => exact congrArg series (addSeries_assoc _ _ _)
  all_goals rfl

/-- The sum of some statistics, if there are any. -/
def sum? : List Statistic → Option Statistic
  | [] => none
  | v :: vs => some (vs.foldl add v)

/-- One more statistic in a sum. -/
def addTo : Option Statistic → Statistic → Option Statistic
  | none, v => some v
  | some u, v => some (u.add v)

theorem addTo_right_comm (total : Option Statistic) (v w : Statistic) :
    addTo (addTo total v) w = addTo (addTo total w) v := by
  cases total with
  | none => exact congrArg some (add_comm v w)
  | some u =>
    refine congrArg some ?_
    rw [add_assoc, add_comm v w, ← add_assoc]

theorem foldl_addTo_some (v : Statistic) (vs : List Statistic) :
    vs.foldl addTo (some v) = some (vs.foldl add v) := by
  induction vs generalizing v with
  | nil => rfl
  | cons w vs ih => exact ih (v.add w)

theorem sum?_eq_foldl (vs : List Statistic) : sum? vs = vs.foldl addTo none := by
  cases vs with
  | nil => rfl
  | cons v vs => exact (foldl_addTo_some v vs).symm

theorem sum?_of_perm {vs ws : List Statistic} (h : vs.Perm ws) : sum? vs = sum? ws := by
  rw [sum?_eq_foldl, sum?_eq_foldl]
  exact h.foldl_eq' (fun v _ w _ total ↦ addTo_right_comm total v w) none

end Statistic

namespace Statistics

/-- The statistics under a text. -/
def under (text : String) (s : Statistics) : List Statistic :=
  s.filterMap fun p ↦ if p.1 = text then some p.2 else none

/-- Where each text comes once, there is at most one statistic under it. -/
theorem under_eq_toList_get? {s : Statistics} (h : (Assoc.keys s).Nodup) (text : String) :
    s.under text = (s.get? text).toList := by
  induction s with
  | nil => rfl
  | cons p rest ih =>
    rw [Assoc.keys, List.map_cons, List.nodup_cons] at h
    rw [under, List.filterMap_cons, Assoc.get?]
    by_cases htext : p.1 = text
    · have hunder := ih h.2
      rw [(Assoc.get?_eq_none_iff rest text).2 (htext ▸ h.1)] at hunder
      simp only [if_pos htext]
      exact congrArg (p.2 :: ·) hunder
    · simp only [if_neg htext]
      exact ih h.2

theorem get?_accumulate (s : Statistics) (text other : String) (v : Statistic) :
    (s.accumulate text v).get? other =
      if text = other then Statistic.addTo (s.get? other) v else s.get? other := by
  rw [accumulate, Assoc.get?_set]
  split
  · rename_i heq
    subst heq
    cases s.get? text <;> rfl
  · rfl

theorem get?_foldl_accumulate (s total : Statistics) (text : String) :
    (s.foldl (fun t (p : String × Statistic) ↦ accumulate t p.1 p.2) total).get? text =
      (s.under text).foldl Statistic.addTo (total.get? text) := by
  induction s generalizing total with
  | nil => rfl
  | cons p rest ih =>
    rw [List.foldl_cons, ih, get?_accumulate, under, under, List.filterMap_cons]
    by_cases htext : p.1 = text
    · simp only [if_pos htext, List.foldl_cons]
    · simp only [if_neg htext]

/-- A sum holds under each text the sum of all that its members hold there. -/
theorem get?_sum (all : List Statistics) (text : String) :
    (sum all).get? text = Statistic.sum? (all.flatMap (under text)) := by
  rw [Statistic.sum?_eq_foldl]
  suffices hfold : ∀ total : Statistics,
      (all.foldl (fun total s ↦ s.foldl (fun t (p : String × Statistic) ↦
        accumulate t p.1 p.2) total) total).get? text =
        (all.flatMap (under text)).foldl Statistic.addTo (total.get? text) from hfold []
  induction all with
  | nil => exact fun total ↦ rfl
  | cons s rest ih =>
    intro total
    rw [List.foldl_cons, ih, get?_foldl_accumulate, List.flatMap_cons, List.foldl_append]

theorem get?_sum_of_perm {all others : List Statistics} (h : all.Perm others) (text : String) :
    (sum all).get? text = (sum others).get? text := by
  rw [get?_sum, get?_sum]
  exact Statistic.sum?_of_perm (h.flatMap_right (under text))

end Statistics

end Jukebox
