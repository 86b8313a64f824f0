import Mathlib.Algebra.BigOperators.Group.List.Basic
import Mathlib.Algebra.Ring.Int.Defs
import Jukebox.Proofs.Playlist.Years

/-!
# Series

A series counts the plays of each month, weekday or year, and there is a token that counts the
plays of any one of these. `Token.series_split_plays` says that the two agree: every entry of a
series is what the token of that entry counts, however this is spelled, and the entries add up to
the plays that fall on any of them.

The series of months and weekdays keep a row of counters (`histogram_eq`); the sums come from
counting each play under the one key that it has (`sum_map_countP`).
-/

set_option autoImplicit false
set_option relaxedAutoImplicit false

namespace Jukebox

open Calendar

/-! ### Counting by keys -/

theorem natCast_countP_cons {α : Type} (p : α → Bool) (x : α) (xs : List α) :
    ((x :: xs).countP p : Int) = xs.countP p + if p x then 1 else 0 := by
  rw [List.countP_cons]
  split <;> rfl

/-- Counts under distinct keys add up to the number of members with one of the keys. -/
theorem sum_map_countP {α κ : Type} [DecidableEq κ] (key : α → κ) {keys : List κ}
    (hkeys : keys.Nodup) (xs : List α) :
    (keys.map fun k ↦ (xs.countP (fun x ↦ key x == k) : Int)).sum =
      xs.countP fun x ↦ keys.contains (key x) := by
  induction xs with
  | nil =>
    refine List.sum_eq_zero fun n hn ↦ ?_
    obtain ⟨k, _, rfl⟩ := List.mem_map.1 hn
    rfl
  | cons x xs ih =>
    -- Of the keys, one at most is that of the first member.
    have hone : (keys.map fun k ↦ if k = key x then (1 : Int) else 0).sum =
        if keys.contains (key x) then 1 else 0 := by
      rw [List.sum_map_ite_eq keys (fun _ ↦ 1) (fun _ ↦ 0) (key x), hkeys.count]
      split <;> simp_all
    calc (keys.map fun k ↦ ((x :: xs).countP (fun x ↦ key x == k) : Int)).sum
        = (keys.map fun k ↦ (xs.countP (fun x ↦ key x == k) : Int) +
            if k = key x then 1 else 0).sum := by
          congr 1
          refine List.map_congr_left fun k _ ↦ ?_
          rw [natCast_countP_cons]
          simp only [beq_iff_eq, @eq_comm _ k]
      _ = (xs.countP fun x ↦ keys.contains (key x) : Nat) +
            if keys.contains (key x) then 1 else 0 := by rw [List.sum_map_add, ih, hone]
      _ = ((x :: xs).countP fun x ↦ keys.contains (key x) : Nat) :=
          (natCast_countP_cons _ x xs).symm

/-- A row of counters holds the number of plays of each place. -/
theorem histogram_eq (size : Nat) (place : Instant → Nat) (plays : List Instant) :
    histogram size place plays =
      (List.range size).map fun i ↦ (plays.countP (fun t ↦ place t == i) : Int) := by
  suffices hfold : ∀ start : Nat → Int,
      plays.foldl (fun counts t ↦ counts.modify (place t) (· + 1)) ((List.range size).map start) =
        (List.range size).map fun i ↦ start i + (plays.countP (fun t ↦ place t == i) : Int) by
    have hzero : List.replicate size (0 : Int) = (List.range size).map fun _ ↦ 0 := by
      rw [List.map_const', List.length_range]
    rw [histogram, hzero, hfold]
    simp only [Int.zero_add]
  induction plays with
  | nil =>
    intro start
    simp only [List.foldl_nil, List.countP_nil, Int.natCast_zero, Int.add_zero]
  | cons t rest ih =>
    intro start
    have hmodify : ((List.range size).map start).modify (place t) (· + 1) =
        (List.range size).map fun i ↦ start i + if place t = i then 1 else 0 := by
      refine List.ext_getElem? fun i ↦ ?_
      rw [List.getElem?_modify, List.getElem?_map, List.getElem?_map]
      cases hi : (List.range size)[i]? with
      | none => rfl
      | some j =>
        obtain ⟨_, rfl⟩ := List.getElem?_eq_some_iff.1 hi
        by_cases hplace : place t = i <;> simp [hplace]
    rw [List.foldl_cons, hmodify, ih]
    refine List.map_congr_left fun i _ ↦ ?_
    rw [natCast_countP_cons]
    simp only [beq_iff_eq]
    omega

/-! ### Tokens of the entries -/

namespace Record

/-- The statistic that a text stands for. -/
def statisticOf (r : Record) (c : Context) (text : String) : Except TokenError Statistic :=
  (NamedToken.ofText text c.reference).map fun t ↦ t.token.evaluate r c

theorem statisticOf_eq_ok {r : Record} {c : Context} {f : Token.Grammar.Form} {text : String}
    {e : Token.Expr} {token : Token} (h : Token.Grammar.Derives f text.toList e)
    (hresolve : e.resolve text c.reference = .ok token) :
    r.statisticOf c text = .ok (token.evaluate r c) := by
  rw [statisticOf, h.ofText_eq, hresolve]
  rfl

/-- A series splits plays: its entries are what tokens count, by whatever text, and they add up. -/
structure Splits (r : Record) (c : Context) (series : List Int) (size : Int) (token : Nat → Token)
    (texts : Nat → List String) (total : Nat) : Prop where
  length : (series.length : Int) = size
  entry : ∀ i n, series[i]? = some n → (token i).evaluate r c = .count n ∧
    ∀ text ∈ texts i, r.statisticOf c text = .ok (.count n)
  sum : series.sum = (total : Int)

end Record

namespace Token

open Token.Grammar

/-- The spelling of the month with a number counted from 0. -/
def monthTexts (i : Nat) : List String := ["month=" ++ toString (i + 1)]

/-- The spellings of the weekday with a number, by name and by its place in the week. -/
def weekdayTexts (c : Context) (i : Nat) : List String :=
  ["weekday=" ++ (Weekday.ofNumber i).name,
    "weekday=" ++ toString ((Weekday.ofNumber i).daysSince c.reference.weekStart + 1)]

/-- The spellings of a year, as far as it has any: as a date with a length of one year, and as the
value of a selector. -/
def yearTexts (y : Int) : List String :=
  (if 0 ≤ y ∧ y ≤ 9999 then [Definition.yearToken y] else []) ++
    if minYear ≤ y ∧ y ≤ maxYear then ["year=" ++ toString y] else []

variable {r : Record} {c : Context}

/-- Months are counted from 0 where a series keeps its counters. -/
theorem evaluate_month (i : Nat) :
    (months [i + 1]).evaluate r c = .count (r.events.countP fun t ↦ t.month - 1 == i : Nat) := by
  refine congrArg (fun n : Nat ↦ Statistic.count n) (List.countP_congr fun t _ ↦ ?_)
  change [i + 1].contains t.month = true ↔ _
  have hpos : 1 ≤ t.month := t.date.one_le_month
  rw [List.contains_iff_mem, List.mem_singleton, beq_iff_eq]
  omega

theorem statisticOf_month {n : Nat} (hlow : 1 ≤ n) (hhigh : n ≤ 12) :
    r.statisticOf c ("month=" ++ toString n) = .ok ((months [n]).evaluate r c) := by
  have hderives : Derives .selector ("month=" ++ toString n).toList (.months [n]) := by
    rw [String.toList_append]
    exact .months (.one (number_toString (by unfold Text.maxInt64; omega)))
  refine Record.statisticOf_eq_ok hderives ?_
  simp only [Expr.resolve, checkValues_eq_ok_iff.2 (List.forall_mem_singleton.2 ⟨hlow, hhigh⟩)]
  rfl

theorem evaluate_weekday {i : Nat} (hi : i < 7) : (weekdays [.ofNumber i]).evaluate r c =
    .count (r.events.countP fun t ↦ t.weekday.number == i : Nat) := by
  refine congrArg (fun n : Nat ↦ Statistic.count n) (List.countP_congr fun t _ ↦ ?_)
  change [Weekday.ofNumber i].contains t.weekday = true ↔ _
  rw [List.contains_iff_mem, List.mem_singleton, beq_iff_eq, ← Weekday.number_inj,
    Weekday.number_ofNumber, Nat.mod_eq_of_lt hi]

theorem statisticOf_weekdayName (d : Weekday) :
    r.statisticOf c ("weekday=" ++ d.name) = .ok ((weekdays [d]).evaluate r c) := by
  have hderives : Derives .selector ("weekday=" ++ d.name).toList (.weekdayNames [d]) := by
    rw [String.toList_append]
    exact .weekdayNames (.one (Or.inl rfl))
  exact Record.statisticOf_eq_ok hderives (by cases d <;> rfl)

theorem weekdaySet_singleton (n : Nat) : weekdaySet [n] = [Weekday.ofNumber n] := by
  simp only [weekdaySet, List.any_cons, List.any_nil, Bool.or_false]
  cases Weekday.ofNumber n <;> rfl

/-- The place of a weekday in the week, counted from 1, is the number that selects it. -/
theorem statisticOf_weekdayNumber (d : Weekday) :
    r.statisticOf c ("weekday=" ++ toString (d.daysSince c.reference.weekStart + 1)) =
      .ok ((weekdays [d]).evaluate r c) := by
  have hlt : d.daysSince c.reference.weekStart < 7 := Nat.mod_lt _ (by decide)
  have hplace : ∀ n ∈ [d.daysSince c.reference.weekStart + 1], 1 ≤ n ∧ n ≤ 7 :=
    List.forall_mem_singleton.2 ⟨Nat.le_add_left 1 _, hlt⟩
  have hderives : Derives .selector
      ("weekday=" ++ toString (d.daysSince c.reference.weekStart + 1)).toList
      (.weekdayNumbers [d.daysSince c.reference.weekStart + 1]) := by
    rw [String.toList_append]
    exact .weekdayNumbers (.one (number_toString (by unfold Text.maxInt64; omega)))
  have hday : Weekday.ofNumber (d.daysSince c.reference.weekStart + 1 - 1 +
      c.reference.weekStart.number) = d := by
    rw [← Weekday.number_inj, Weekday.number_ofNumber, Weekday.daysSince]
    have hd := d.number_lt
    have hstart := c.reference.weekStart.number_lt
    omega
  refine Record.statisticOf_eq_ok hderives ?_
  rw [resolve_weekdayNumbers _ hplace, List.map_singleton, weekdaySet_singleton, hday]

theorem evaluate_year (y : Int) :
    (years [y]).evaluate r c = .count (r.events.countP fun t ↦ t.year == y : Nat) := by
  change Statistic.count (r.events.countP fun t ↦ [y].contains t.year : Nat) = _
  simp only [List.contains_cons, List.contains_nil, Bool.or_false]

theorem statisticOf_year {y : Int} {text : String} (h : text ∈ yearTexts y) :
    r.statisticOf c text = .ok ((years [y]).evaluate r c) := by
  rcases List.mem_append.1 h with h | h
  · rw [List.mem_ite_nil_right, List.mem_singleton] at h
    obtain ⟨⟨hfirst, hlast⟩, rfl⟩ := h
    obtain ⟨w, hw, hyear⟩ := Definition.ofText_yearToken hfirst hlast c.reference
    have hcount : (range w).evaluate r c = (years [y]).evaluate r c := by
      rw [evaluate_year]
      exact congrArg (fun n : Nat ↦ Statistic.count n)
        (List.countP_congr fun t _ ↦ (hyear t).trans beq_iff_eq.symm)
    rw [Record.statisticOf, hw, ← hcount]
    rfl
  · rw [List.mem_ite_nil_right, List.mem_singleton] at h
    obtain ⟨⟨hlow, hhigh⟩, rfl⟩ := h
    obtain ⟨n, rfl⟩ := Int.eq_ofNat_of_zero_le (show 0 ≤ y by omega)
    rw [Int.ofNat_le] at hlow hhigh
    have hderives : Derives .selector ("year=" ++ toString n).toList (.years [n]) := by
      rw [String.toList_append]
      exact .years (.one (number_toString (by unfold Text.maxInt64 maxYear at *; omega)))
    refine Record.statisticOf_eq_ok hderives ?_
    simp only [Expr.resolve, checkValues_eq_ok_iff.2 (List.forall_mem_singleton.2 ⟨hlow, hhigh⟩)]
    rfl

end Token

/-! ### Series -/

namespace Record

variable {r : Record} {c : Context}

/-- A series that counts the plays of each of some distinct keys splits the plays that have one of
them. -/
theorem Splits.of_keys {κ : Type} [DecidableEq κ] (key : Instant → κ) {keys : List κ}
    (hkeys : keys.Nodup) {token : Nat → Token} {texts : Nat → List String} {total : Nat}
    (hentry : ∀ i k, keys[i]? = some k →
      (token i).evaluate r c = .count (r.events.countP fun t ↦ key t == k : Nat) ∧
        ∀ text ∈ texts i, r.statisticOf c text = .ok ((token i).evaluate r c))
    (htotal : (r.events.countP fun t ↦ keys.contains (key t)) = total) :
    r.Splits c (keys.map fun k ↦ (r.events.countP (fun t ↦ key t == k) : Int)) keys.length token
      texts total where
  length := by rw [List.length_map]
  entry i n hn := by
    rw [List.getElem?_map, Option.map_eq_some_iff] at hn
    obtain ⟨k, hk, rfl⟩ := hn
    obtain ⟨hcount, htexts⟩ := hentry i k hk
    exact ⟨hcount, fun text htext ↦ by rw [htexts text htext, hcount]⟩
  sum := by rw [sum_map_countP key hkeys, htotal]

/-- A row of counters with a place for every play splits all plays. -/
theorem Splits.of_histogram {size : Nat} {place : Instant → Nat} (hplace : ∀ t, place t < size)
    {token : Nat → Token} {texts : Nat → List String}
    (hentry : ∀ i < size,
      (token i).evaluate r c = .count (r.events.countP fun t ↦ place t == i : Nat) ∧
        ∀ text ∈ texts i, r.statisticOf c text = .ok ((token i).evaluate r c)) :
    r.Splits c (histogram size place r.events) size token texts r.events.length := by
  have hplaces : ((List.range size).length : Int) = size := by rw [List.length_range]
  rw [histogram_eq, ← hplaces]
  refine Splits.of_keys place List.nodup_range (fun i k hk ↦ ?_) ?_
  · obtain ⟨hi, rfl⟩ := List.getElem?_eq_some_iff.1 hk
    rw [List.length_range] at hi
    rw [List.getElem_range]
    exact hentry i hi
  · rw [List.countP_eq_length]
    intro t _
    rw [List.contains_iff_mem, List.mem_range]
    exact hplace t

end Record

/-- Whatever the plays and the context, the series of months, of weekdays and of years split the
plays: all of them for months and weekdays, those from the first year to the present one for
years. An entry is the count of its month, its weekday from Sunday on or its year; the spelling of
a weekday by its place in the week takes into account the day on which weeks begin. -/
theorem Token.series_split_plays (r : Record) (c : Context) (start : Option Int) :
    let first := start.getD c.earliestYear
    ∃ months weekdays years : List Int,
      Token.perMonth.evaluate r c = .series months ∧
      Token.perWeekday.evaluate r c = .series weekdays ∧
      (Token.perYear start).evaluate r c = .series years ∧
      r.Splits c months 12 (fun i ↦ .months [i + 1]) Token.monthTexts r.events.length ∧
      r.Splits c weekdays 7 (fun i ↦ .weekdays [.ofNumber i]) (Token.weekdayTexts c)
        r.events.length ∧
      r.Splits c years (max 0 (c.currentYear - first + 1)) (fun i ↦ .years [first + i])
        (fun i ↦ Token.yearTexts (first + i))
        (r.events.countP fun t ↦ first ≤ t.year ∧ t.year ≤ c.currentYear) := by
  intro first
  refine ⟨_, _, _, rfl, rfl, rfl, ?_, ?_, ?_⟩
  · refine Record.Splits.of_histogram (fun t ↦ ?_) fun i hi ↦
      ⟨evaluate_month i, fun text htext ↦ ?_⟩
    · have hlast : t.month ≤ 12 := t.date.month_le
      omega
    · rw [List.mem_singleton.1 htext]
      exact statisticOf_month (Nat.le_add_left 1 i) hi
  · refine Record.Splits.of_histogram (fun t ↦ t.weekday.number_lt) fun i hi ↦
      ⟨evaluate_weekday hi, fun text htext ↦ ?_⟩
    rcases List.mem_pair.1 htext with rfl | rfl
    · exact statisticOf_weekdayName (.ofNumber i)
    · exact statisticOf_weekdayNumber (.ofNumber i)
  · rw [← length_yearsBetween]
    refine Record.Splits.of_keys _ ((pairwise_yearsBetween _ _).imp fun h ↦ Int.ne_of_lt h)
      (fun i k hk ↦ ?_) (List.countP_congr fun t _ ↦ ?_)
    · rw [← eq_of_getElem?_yearsBetween hk]
      exact ⟨evaluate_year k, fun text ↦ statisticOf_year⟩
    · rw [List.contains_iff_mem, mem_yearsBetween_iff, decide_eq_true_eq]

end Jukebox
