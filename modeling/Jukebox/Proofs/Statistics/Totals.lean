import Mathlib.Algebra.Ring.Int.Defs
import Mathlib.Data.List.Induction
import Jukebox.Proofs.Statistics.Group
import Jukebox.Proofs.Statistics.Sum

/-!
# What several statistics make together

Numbers make their sum; as soon as a series is among them the numbers are of no account, and the
series are added up place by place, as far as the longest one goes. `Statistic.Makes.addTo` says
that a running total which is right so far is right after one more statistic, whether numbers or
series come first, and `Statistic.makes_sum?` that it is right at the end. Token by token this is
the sum of the statistics of several files (`Statistics.sum_adds_up`), which therefore may be taken
in any order and in parts.
-/

set_option autoImplicit false
set_option relaxedAutoImplicit false

namespace Jukebox

namespace Statistic

def count? : Statistic → Option Int
  | count n => some n
  | series _ => none

def series? : Statistic → Option (List Int)
  | count _ => none
  | series ns => some ns

/-- A series holds at each place the sum of what some series hold there, a series holding 0 behind
its end, and goes as far as the longest of them. -/
structure AddsUp (all : List (List Int)) (total : List Int) : Prop where
  length_le : ∀ ns ∈ all, ns.length ≤ total.length
  exists_length : ∃ ns ∈ all, ns.length = total.length
  entry : ∀ j, total.getD j 0 = (all.map fun ns ↦ ns.getD j 0).sum

/-! ### Series -/

theorem getD_addSeries (as bs : List Int) (j : Nat) :
    (addSeries as bs).getD j 0 = as.getD j 0 + bs.getD j 0 := by
  induction as generalizing bs j with
  | nil => rw [addSeries, List.getD_nil, Int.zero_add]
  | cons a as ih =>
    cases bs with
    | nil => rw [addSeries_nil, List.getD_nil, Int.add_zero]
    | cons b bs =>
      rw [addSeries]
      cases j with
      | zero => rfl
      | succ j => exact ih bs j

theorem addsUp_singleton (ns : List Int) : AddsUp [ns] ns where
  length_le := fun _ hms ↦ Nat.le_of_eq (congrArg List.length (List.mem_singleton.1 hms))
  exists_length := ⟨ns, List.mem_singleton_self ns, rfl⟩
  entry := fun _ ↦ List.sum_singleton.symm

theorem AddsUp.addSeries {all : List (List Int)} {total : List Int} (h : AddsUp all total)
    (ns : List Int) : AddsUp (all ++ [ns]) (addSeries total ns) where
  length_le := by
    intro ms hms
    rw [length_addSeries]
    rcases List.mem_append.1 hms with hms | hms
    · exact Nat.le_trans (h.length_le ms hms) (Nat.le_max_left _ _)
    · rw [List.mem_singleton.1 hms]
      exact Nat.le_max_right _ _
  exists_length := by
    obtain ⟨ms, hms, hlength⟩ := h.exists_length
    rw [length_addSeries]
    rcases Nat.le_total total.length ns.length with hle | hle
    · exact ⟨ns, List.mem_append_right _ (List.mem_singleton_self ns), (Nat.max_eq_right hle).symm⟩
    · exact ⟨ms, List.mem_append_left _ hms, hlength.trans (Nat.max_eq_left hle).symm⟩
  entry := by
    intro j
    rw [getD_addSeries, h.entry, List.map_append, List.sum_append, List.map_singleton,
      List.sum_singleton]

/-! ### Running totals -/

/-- What some statistics make: nothing if there are none, the sum of the numbers if no series is
among them, and else a series that adds up the series. -/
inductive Makes (vs : List Statistic) : Option Statistic → Prop
  | nothing (hnil : vs = []) : Makes vs none
  | count (hne : vs ≠ []) (hseries : vs.filterMap series? = []) :
      Makes vs (some (.count (vs.filterMap count?).sum))
  | series (total : List Int) (htotal : AddsUp (vs.filterMap series?) total) :
      Makes vs (some (.series total))

/-- A running total goes on being right. -/
theorem Makes.addTo {vs : List Statistic} {total : Option Statistic} (h : Makes vs total)
    (v : Statistic) : Makes (vs ++ [v]) (addTo total v) := by
  have hne : vs ++ [v] ≠ [] := List.concat_ne_nil v vs
  cases h with
  | nothing hnil =>
    subst hnil
    cases v with
    | count n =>
      have hmakes : Makes [.count n] (some (.count ([.count n].filterMap count?).sum)) :=
        .count hne rfl
      rwa [show ([.count n].filterMap count?).sum = n from List.sum_singleton] at hmakes
    | series ns => exact .series ns (addsUp_singleton ns)
  | count _ hseries =>
    cases v with
    | count n =>
      have hmakes := Makes.count hne (by rw [List.filterMap_append, hseries]; rfl)
      rwa [List.filterMap_append, List.sum_append,
        show ([.count n].filterMap count?).sum = n from List.sum_singleton] at hmakes
    | series ns =>
      refine .series ns ?_
      rw [List.filterMap_append, hseries]
      exact addsUp_singleton ns
  | series total htotal =>
    cases v with
    | count n =>
      refine .series total ?_
      rw [List.filterMap_append]
      exact (List.append_nil (vs.filterMap series?)).symm ▸ htotal
    | series ns =>
      refine .series _ ?_
      rw [List.filterMap_append]
      exact htotal.addSeries ns

theorem makes_sum? (vs : List Statistic) : Makes vs (sum? vs) := by
  induction vs using List.reverseRecOn with
  | nil => exact .nothing rfl
  | append_singleton vs v ih =>
    rw [sum?_eq_foldl, List.foldl_append, ← sum?_eq_foldl]
    exact ih.addTo v

/-! ### Sums in parts -/

theorem sum?_toList (total : Option Statistic) : sum? total.toList = total := by
  cases total <;> rfl

theorem foldl_add (u v : Statistic) (vs : List Statistic) :
    vs.foldl add (u.add v) = u.add (vs.foldl add v) := by
  have : Std.Associative add := ⟨add_assoc⟩
  exact List.foldl_assoc

/-- A sum can be taken in two parts. -/
theorem sum?_append (vs ws : List Statistic) :
    sum? (vs ++ ws) = sum? ((sum? vs).toList ++ (sum? ws).toList) := by
  cases vs with
  | nil => exact (sum?_toList (sum? ws)).symm
  | cons v vs =>
    cases ws with
    | nil => rw [List.append_nil, sum?, Option.toList_none, List.append_nil, sum?_toList]
    | cons w ws =>
      have hfold : (vs ++ w :: ws).foldl add v = (vs.foldl add v).add (ws.foldl add w) := by
        rw [List.foldl_append, List.foldl_cons, foldl_add]
      exact congrArg some hfold

end Statistic

namespace Statistics

/-! ### Token by token -/

/-- A sum gives each text one statistic. -/
theorem nodup_keys_sum (all : List Statistics) : (Assoc.keys (sum all)).Nodup := by
  refine Assoc.keys_nodup_foldl (m := []) (fun total s htotal ↦ ?_) .nil all
  exact Assoc.keys_nodup_foldl (fun _ _ h ↦ Assoc.keys_nodup_set h _ _) htotal s

/-- Of several files the statistics under a text, of those that have one. -/
def allUnder (text : String) (all : List Statistics) : List Statistic :=
  all.filterMap fun s ↦ s.get? text

theorem exists_has_iff {text : String} {all : List Statistics} :
    (∃ s ∈ all, s.Has text) ↔ allUnder text all ≠ [] := by
  rw [Ne, allUnder, List.filterMap_eq_nil_iff]
  simp only [Has, Option.eq_none_iff_forall_ne_some, not_forall, not_not, exists_prop]

theorem exists_series_iff {text : String} {all : List Statistics} :
    (∃ ns, .series ns ∈ allUnder text all) ↔
      (allUnder text all).filterMap Statistic.series? ≠ [] := by
  rw [Ne, List.filterMap_eq_nil_iff]
  constructor
  · rintro ⟨ns, hns⟩ hnone
    cases hnone _ hns
  · intro hsome
    by_contra hno
    refine hsome fun v hv ↦ ?_
    cases v with
    | count n => rfl
    | series ns => exact absurd ⟨ns, hv⟩ hno

theorem get?_sum_eq_sum? {all : List Statistics} (h : ∀ s ∈ all, (Assoc.keys s).Nodup)
    (text : String) : (sum all).get? text = Statistic.sum? (allUnder text all) := by
  rw [get?_sum]
  congr 1
  induction all with
  | nil => rfl
  | cons s rest ih =>
    rw [List.forall_mem_cons] at h
    rw [List.flatMap_cons, under_eq_toList_get? h.1, ih h.2, allUnder, allUnder,
      List.filterMap_cons]
    cases s.get? text <;> rfl

theorem get?_sum_append (all more : List Statistics) (text : String) :
    (sum (all ++ more)).get? text = (sum [sum all, sum more]).get? text := by
  have hparts : [sum all, sum more].flatMap (under text) =
      ((sum all).get? text).toList ++ ((sum more).get? text).toList := by
    rw [← under_eq_toList_get? (nodup_keys_sum all), ← under_eq_toList_get? (nodup_keys_sum more),
      List.flatMap_cons, List.flatMap_singleton]
  rw [get?_sum, List.flatMap_append, Statistic.sum?_append, ← get?_sum, ← get?_sum, ← hparts,
    ← get?_sum]

end Statistics

/-- A sum of the statistics of several files, each with one statistic for a text at most, has one
under the texts that a file has one for. Where there is a series among them, it is the series that
adds up all of them, numbers being left aside, and else the sum of the numbers. It does not depend
on the order of the files, and it may be taken in two parts. -/
theorem Statistics.sum_adds_up {all : List Statistics} (h : ∀ s ∈ all, (Assoc.keys s).Nodup) :
    (∀ text,
      ((sum all).Has text ↔ ∃ s ∈ all, s.Has text) ∧
      ((∃ ns, .series ns ∈ allUnder text all) → ∃ total,
        (sum all).get? text = some (.series total) ∧
          Statistic.AddsUp ((allUnder text all).filterMap Statistic.series?) total) ∧
      ((∃ s ∈ all, s.Has text) → (¬ ∃ ns, .series ns ∈ allUnder text all) →
        (sum all).get? text = some (.count ((allUnder text all).filterMap Statistic.count?).sum))) ∧
    (∀ others, others.Perm all → ∀ text, (sum others).get? text = (sum all).get? text) ∧
    ∀ more text, (sum (all ++ more)).get? text = (sum [sum all, sum more]).get? text := by
  refine ⟨fun text ↦ ?_, fun others hperm text ↦ get?_sum_of_perm hperm text,
    fun more text ↦ get?_sum_append all more text⟩
  rw [exists_has_iff, exists_series_iff, Has, get?_sum_eq_sum? h]
  have hmakes := Statistic.makes_sum? (allUnder text all)
  generalize Statistic.sum? (allUnder text all) = total at hmakes
  cases hmakes with
  | nothing hnil => simp [hnil]
  | count hne hseries => simp [hne, hseries]
  | series total htotal =>
    obtain ⟨ns, hns, _⟩ := htotal.exists_length
    have hseries := List.ne_nil_of_mem hns
    have hne : allUnder text all ≠ [] := fun hnil ↦ hseries (by rw [hnil]; rfl)
    exact ⟨iff_of_true ⟨_, rfl⟩ hne, fun _ ↦ ⟨total, rfl, htotal⟩,
      fun _ hnone ↦ absurd hseries hnone⟩

/-- Of three files, two have series of different length for one token and the third a number. -/
theorem Statistics.sum_adds_up_mixed :
    let all : List Statistics :=
      [[("total", .count 3), ("permonth", .series [1, 2])],
        [("permonth", .count 7), ("total", .count 5)], [("permonth", .series [4, 0, 6])]]
    (∀ s ∈ all, (Assoc.keys s).Nodup) ∧ (sum all).get? "total" = some (.count 8) ∧
      ∃ total, (sum all).get? "permonth" = some (.series total) ∧
        Statistic.AddsUp [[1, 2], [4, 0, 6]] total := by
  intro all
  have h : ∀ s ∈ all, (Assoc.keys s).Nodup := by decide
  have htotal : allUnder "total" all = [.count 3, .count 5] := by decide
  have hnumbers : ¬ ∃ ns, .series ns ∈ allUnder "total" all := by
    rw [exists_series_iff, htotal, not_not]
    rfl
  have hlaw := (sum_adds_up h).1
  exact ⟨h, (hlaw "total").2.2 (exists_has_iff.2 (by decide)) hnumbers,
    (hlaw "permonth").2.1 ⟨[1, 2], by decide⟩⟩

end Jukebox
