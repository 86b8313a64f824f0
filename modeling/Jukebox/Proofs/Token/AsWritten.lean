import Jukebox.Proofs.Token.Collection
import Jukebox.Proofs.Token.Spelling

/-!
# Tokens are as written

A token of a text has the numbers of the text. `Token.IsAsWritten` says of each kind of token what
this means: windows are not empty, years and months are the set of those that are written, all within
their limits, weekdays are some of the seven, and a series of years starts in the year that is
written. Every token that a text stands for is of that kind (`isAsWritten_of_resolve`), because the
values of a selector are compared with its limits, all of them, before anything is made of them
(`Limited.resolve_eq_error`).

For the same reason numbers of 64 bits may be put into words of 32 bits once they have been compared:
they fit, and a place in the week is not below 1 when 1 is taken from it (`resolveInWords?_eq`).
-/

set_option autoImplicit false
set_option relaxedAutoImplicit false

namespace Jukebox

open Calendar

namespace Token

/-! ### Sets of numbers -/

section

variable {m n : Nat} {set : List Nat}

theorem takeWhile_lt_eq_filter (hset : set.Pairwise (· < ·)) :
    set.takeWhile (· < n) = set.filter (· < n) := by
  induction set with
  | nil => rfl
  | cons a rest ih =>
    obtain ⟨hfirst, hrest⟩ := List.pairwise_cons.1 hset
    by_cases ha : a < n
    · simp only [List.takeWhile_cons, List.filter_cons, ha, decide_true, if_true, ih hrest]
    · have hnone : rest.filter (· < n) = [] := List.filter_eq_nil_iff.2 fun b hb ↦ by
        have hlt := hfirst b hb
        rw [decide_eq_true_iff]
        omega
      simp only [List.takeWhile_cons, List.filter_cons, ha, decide_false, Bool.false_eq_true,
        if_false, hnone]

theorem dropWhile_le_eq_filter (hset : set.Pairwise (· < ·)) :
    set.dropWhile (· ≤ n) = set.filter (n < ·) := by
  induction set with
  | nil => rfl
  | cons a rest ih =>
    obtain ⟨hfirst, hrest⟩ := List.pairwise_cons.1 hset
    by_cases ha : a ≤ n
    · simp only [List.dropWhile_cons, List.filter_cons, ha, Nat.not_lt.2 ha, decide_true,
        decide_false, Bool.false_eq_true, if_true, if_false, ih hrest]
    · have hall : rest.filter (n < ·) = rest := List.filter_eq_self.2 fun b hb ↦ by
        have hlt := hfirst b hb
        rw [decide_eq_true_iff]
        omega
      simp only [List.dropWhile_cons, List.filter_cons, ha, Nat.not_le.1 ha, decide_true,
        decide_false, Bool.false_eq_true, if_true, if_false, hall]

theorem pairwise_ascendingSet (ns : List Nat) : (ascendingSet ns).Pairwise (· < ·) := by
  induction ns with
  | nil => exact .nil
  | cons n rest ih =>
    rw [ascendingSet, takeWhile_lt_eq_filter ih, dropWhile_le_eq_filter ih, List.pairwise_append,
      List.pairwise_cons]
    refine ⟨ih.filter _, ⟨fun b hb ↦ ?_, ih.filter _⟩, fun a ha b hb ↦ ?_⟩
    · exact of_decide_eq_true (List.mem_filter.1 hb).2
    · have hlow : a < n := of_decide_eq_true (List.mem_filter.1 ha).2
      rcases List.mem_cons.1 hb with rfl | hb
      · exact hlow
      · exact Nat.lt_trans hlow (of_decide_eq_true (List.mem_filter.1 hb).2)

theorem mem_ascendingSet {ns : List Nat} : m ∈ ascendingSet ns ↔ m ∈ ns := by
  induction ns with
  | nil => exact Iff.rfl
  | cons n rest ih =>
    have hset := pairwise_ascendingSet rest
    rw [ascendingSet, takeWhile_lt_eq_filter hset, dropWhile_le_eq_filter hset, List.mem_append,
      List.mem_cons, List.mem_filter, List.mem_filter, decide_eq_true_iff, decide_eq_true_iff, ih,
      List.mem_cons]
    constructor
    · rintro (⟨hmem, _⟩ | rfl | ⟨hmem, _⟩)
      · exact Or.inr hmem
      · exact Or.inl rfl
      · exact Or.inr hmem
    · rintro (rfl | hmem)
      · exact Or.inr (Or.inl rfl)
      · rcases Nat.lt_trichotomy m n with hlt | heq | hgt
        · exact Or.inl ⟨hmem, hlt⟩
        · exact Or.inr (Or.inl heq)
        · exact Or.inr (Or.inr ⟨hmem, hgt⟩)

end

/-! ### What is written -/

/-- The list holds exactly the members, in ascending order and each once, and there is one. -/
structure IsSetOf {α : Type} [LT α] (list : List α) (member : α → Prop) : Prop where
  ne_nil : list ≠ []
  ordered : list.Pairwise (· < ·)
  mem_iff : ∀ a, a ∈ list ↔ member a

/-- A token is well formed, and its numbers are those that are written. -/
def IsAsWritten (e : Expr) : Token → Prop
  | .range w => w.start < w.stop
  | .years ys => ∃ values, e = .years values ∧ IsSetOf ys (fun y ↦ ∃ n ∈ values, (n : Int) = y) ∧
      ∀ y ∈ ys, 2000 ≤ y ∧ y ≤ 2100
  | .months ms => ∃ values, e = .months values ∧ IsSetOf ms (fun m ↦ m ∈ values) ∧
      ∀ m ∈ ms, 1 ≤ m ∧ m ≤ 12
  | .weekdays ds => ds ≠ [] ∧ ∀ d ∈ ds, d.number ≤ 6
  | .perYear start => ∃ value, e = .keyword .perYear value ∧ start = value.map Int.ofNat ∧
      ∀ y ∈ start, 2000 ≤ y ∧ y ≤ 2100
  | .perMonth => e = .keyword .perMonth none
  | .perWeekday => e = .keyword .perWeekday none
  | .recent => e = .keyword .recent none
  | .unpopular => e = .keyword .unpopular none
  | .unplayed => e = .keyword .unplayed none
  | .prehistory => e = .keyword .prehistory none

/-- The values of a token as written that have limits, with the word for them in errors. -/
inductive Limited : Expr → (selector : String) → (low high : Nat) → List Nat → Prop
  | years (values : List Nat) : Limited (.years values) "year" 2000 2100 values
  | months (values : List Nat) : Limited (.months values) "month" 1 12 values
  | weekdays (values : List Nat) : Limited (.weekdayNumbers values) "weekday" 1 7 values
  | perYear (n : Nat) : Limited (.keyword .perYear (some n)) "year" 2000 2100 [n]

/-- The text has at least one item. -/
theorem Grammar.Items.ne_nil {α : Type} {Item : List Char → α → Prop} {cs : List Char} {as : List α}
    (h : Items Item cs as) : as ≠ [] := by
  cases h with
  | one => exact List.cons_ne_nil _ _
  | cons => exact List.cons_ne_nil _ _

section

variable {text selector : String} {low high : Nat} {values : List Nat} {r : Reference} {e : Expr}
  {token : Token}

theorem isSetOf_ascendingSet (hne : values ≠ []) :
    IsSetOf (ascendingSet values) fun m ↦ m ∈ values := by
  obtain ⟨n, hn⟩ := List.exists_mem_of_ne_nil values hne
  exact ⟨List.ne_nil_of_mem (mem_ascendingSet.2 hn), pairwise_ascendingSet values,
    fun m ↦ mem_ascendingSet⟩

theorem isSetOf_map_ascendingSet (hne : values ≠ []) :
    IsSetOf ((ascendingSet values).map Int.ofNat) fun y ↦ ∃ n ∈ values, (n : Int) = y := by
  obtain ⟨hset, hordered, hmem⟩ := isSetOf_ascendingSet hne
  refine ⟨fun hnil ↦ hset (List.map_eq_nil_iff.1 hnil), ?_, fun y ↦ ?_⟩
  · exact List.pairwise_map.2 (hordered.imp Int.ofNat_lt.2)
  · simp only [List.mem_map, hmem]
    rfl

theorem start_lt_stop_of_windowFrom {start : Instant} {length : Option Amount} {unit : Span}
    {w : Window} (h : windowFrom text start length unit = .ok w) : w.start < w.stop := by
  unfold windowFrom at h
  dsimp only at h
  split at h
  · rename_i found hfound
    obtain rfl := Except.ok.inj h
    obtain ⟨stop, _, hbetween⟩ := Option.bind_eq_some_iff.1 hfound
    obtain ⟨hlt, rfl⟩ := Window.between?_eq_some_iff.1 hbetween
    exact hlt
  · cases h

theorem weekdaySet_ne_nil {numbers : List Nat} (hne : numbers ≠ []) : weekdaySet numbers ≠ [] := by
  obtain ⟨n, hn⟩ := List.exists_mem_of_ne_nil numbers hne
  exact List.ne_nil_of_mem (mem_weekdaySet_iff.2 ⟨n, hn, rfl⟩)

theorem isAsWritten_weekdays {numbers : List Nat} (hne : numbers ≠ []) :
    IsAsWritten e (.weekdays (weekdaySet numbers)) :=
  ⟨weekdaySet_ne_nil hne, fun d _ ↦ Nat.le_of_lt_succ d.number_lt⟩

theorem isAsWritten_of_ofKeyword {word : Keyword} {value : Option Nat}
    (h : ofKeyword text word value = .ok token) : IsAsWritten (.keyword word value) token := by
  cases value with
  | none =>
    cases word with
    | total =>
      obtain rfl := Except.ok.inj h
      show Instant.first < Instant.last
      decide
    | weekend =>
      obtain rfl := Except.ok.inj h
      exact ⟨List.cons_ne_nil _ _, fun d _ ↦ Nat.le_of_lt_succ d.number_lt⟩
    | perYear =>
      obtain rfl := Except.ok.inj h
      exact ⟨none, rfl, rfl, fun y hy ↦ by cases hy⟩
    | recent | unpopular | unplayed | prehistory | perMonth | perWeekday =>
      obtain rfl := Except.ok.inj h
      rfl
  | some n =>
    cases word with
    | perYear =>
      obtain ⟨_, hcheck, h⟩ := Traversal.bind_eq_ok_iff.1 h
      obtain rfl := Except.ok.inj h
      have hlimits := checkValues_eq_ok_iff.1 hcheck n (List.mem_singleton.2 rfl)
      refine ⟨some n, rfl, rfl, fun y hy ↦ ?_⟩
      obtain rfl := Option.some.inj hy
      rw [minYear, maxYear] at hlimits
      omega
    | total | weekend | recent | unpopular | unplayed | prehistory | perMonth | perWeekday => cases h

/-- What a text of the grammar means is as written. -/
theorem isAsWritten_of_resolve {f : Grammar.Form} {cs : List Char}
    (hderives : Grammar.Derives f cs e) (h : e.resolve text r = .ok token) :
    IsAsWritten e token := by
  cases hderives with
  | relative a hshift hlength =>
    unfold Expr.resolve at h
    dsimp only at h
    split at h
    · cases h
    · obtain ⟨w, hw, rfl⟩ := Traversal.map_eq_ok_iff.1 h
      exact start_lt_stop_of_windowFrom hw
  | date hyear hmonth hday htime hlength =>
    obtain ⟨_, _, h⟩ := Traversal.bind_eq_ok_iff.1 h
    obtain ⟨w, hw, rfl⟩ := Traversal.map_eq_ok_iff.1 h
    exact start_lt_stop_of_windowFrom hw
  | years hitems =>
    obtain ⟨_, hcheck, h⟩ := Traversal.bind_eq_ok_iff.1 h
    obtain rfl := Except.ok.inj h
    have hset := isSetOf_map_ascendingSet hitems.ne_nil
    refine ⟨_, rfl, hset, fun y hy ↦ ?_⟩
    obtain ⟨n, hn, rfl⟩ := (hset.mem_iff y).1 hy
    have hlimits := checkValues_eq_ok_iff.1 hcheck n hn
    rw [minYear, maxYear] at hlimits
    omega
  | months hitems =>
    obtain ⟨_, hcheck, h⟩ := Traversal.bind_eq_ok_iff.1 h
    obtain rfl := Except.ok.inj h
    have hset := isSetOf_ascendingSet hitems.ne_nil
    exact ⟨_, rfl, hset, fun m hm ↦ checkValues_eq_ok_iff.1 hcheck m ((hset.mem_iff m).1 hm)⟩
  | monthNames hitems =>
    obtain ⟨_, hcheck, h⟩ := Traversal.bind_eq_ok_iff.1 h
    obtain rfl := Except.ok.inj h
    have hset := isSetOf_ascendingSet hitems.ne_nil
    exact ⟨_, rfl, hset, fun m hm ↦ checkValues_eq_ok_iff.1 hcheck m ((hset.mem_iff m).1 hm)⟩
  | weekdayNumbers hitems =>
    obtain ⟨_, _, h⟩ := Traversal.bind_eq_ok_iff.1 h
    obtain rfl := Except.ok.inj h
    exact isAsWritten_weekdays fun hnil ↦ hitems.ne_nil (List.map_eq_nil_iff.1 hnil)
  | weekdayNames hitems =>
    obtain rfl := Except.ok.inj h
    exact isAsWritten_weekdays fun hnil ↦ hitems.ne_nil (List.map_eq_nil_iff.1 hnil)
  | keyword => exact isAsWritten_of_ofKeyword h
  | keywordValue => exact isAsWritten_of_ofKeyword h

/-! ### Values outside their limits -/

/-- The first value outside the limits is the one in the error. -/
theorem checkValues_eq_error (text selector : String) (hout : ∃ v ∈ values, v < low ∨ high < v) :
    ∃ before bad after, values = before ++ bad :: after ∧ (∀ v ∈ before, low ≤ v ∧ v ≤ high) ∧
      (bad < low ∨ high < bad) ∧
      checkValues text selector low high values =
        .error (.outOfRange text (.outside selector bad low high)) := by
  have hfound : (values.find? fun v ↦ v < low || high < v).isSome = true := by
    rw [List.find?_isSome]
    obtain ⟨v, hv, hbad⟩ := hout
    exact ⟨v, hv, by simpa using hbad⟩
  obtain ⟨bad, hbad⟩ := Option.isSome_iff_exists.1 hfound
  obtain ⟨htest, before, after, hsplit, hbefore⟩ := List.find?_eq_some_iff_append.1 hbad
  refine ⟨before, bad, after, hsplit, fun v hv ↦ ?_, by simpa using htest, ?_⟩
  · have hin := hbefore v hv
    simp only [Bool.not_or, Bool.and_eq_true, Bool.not_eq_true', decide_eq_false_iff_not] at hin
    omega
  · rw [checkValues, hbad]

/-- A selector with a value outside its limits stands for an error about the first such value. -/
theorem Limited.resolve_eq_error (h : Limited e selector low high values)
    (hout : ∃ v ∈ values, v < low ∨ high < v) (text : String) (r : Reference) :
    ∃ before bad after, values = before ++ bad :: after ∧ (∀ v ∈ before, low ≤ v ∧ v ≤ high) ∧
      (bad < low ∨ high < bad) ∧
      e.resolve text r = .error (.outOfRange text (.outside selector bad low high)) := by
  obtain ⟨before, bad, after, hsplit, hbefore, hbad, hcheck⟩ :=
    checkValues_eq_error text selector hout
  refine ⟨before, bad, after, hsplit, hbefore, hbad, ?_⟩
  cases h with
  | years | months | weekdays | perYear => exact Traversal.bind_eq_error_iff.2 (Or.inl hcheck)

end

/-! ### Numbers in words of 32 bits -/

/-- A number as a word of 32 bits with a sign, if it fits. -/
def int32? (n : Nat) : Option Int := if (n : Int) ≤ Text.maxInt32 then some n else none

/-- A number as a word of 32 bits without a sign, if it fits. -/
def uint32? (n : Nat) : Option Nat := if n ≤ Text.maxUInt32 then some n else none

/-- One less, unless that is below 0. -/
def less1? (n : Nat) : Option Nat := if 1 ≤ n then some (n - 1) else none

/-- The number of the weekday in a place of the week, each step in a word without a sign. -/
def weekdayNumber? (weekStart : Weekday) (place : Nat) : Option Nat := do
  let word ← uint32? place
  let passed ← less1? word
  let number ← uint32? (passed + weekStart.number)
  some (number % 7)

/-- The token with the values of a selector in words, once they have been compared with their
limits; nothing if one of them does not fit into its word. -/
def inWords? {α : Type} (check : Except TokenError Unit) (word? : Nat → Option α)
    (values : List Nat) (make : List α → Token) : Option (Except TokenError Token) :=
  match check with
  | .error e => some (.error e)
  | .ok () => (values.mapM word?).map fun words ↦ .ok (make words)

/-- The meaning of a token whose numbers go into words of 32 bits; nothing if one does not fit, or if
a place in the week falls below 0. -/
def Expr.resolveInWords? (text : String) (r : Reference) : Expr → Option (Except TokenError Token)
  | .years values =>
    inWords? (checkValues text "year" minYear maxYear values) int32? values fun ys ↦
      .years ((ascendingSet (ys.map Int.toNat)).map Int.ofNat)
  | .months values =>
    inWords? (checkValues text "month" 1 12 values) uint32? values fun ms ↦
      .months (ascendingSet ms)
  | .weekdayNumbers values =>
    inWords? (checkValues text "weekday" 1 7 values) (weekdayNumber? r.weekStart) values fun ns ↦
      .weekdays (weekdaySet ns)
  | .keyword .perYear (some y) =>
    inWords? (checkValues text "year" minYear maxYear [y]) int32? [y] fun ys ↦ .perYear ys.head?
  | e => some (e.resolve text r)

section

variable {text selector : String} {low high : Nat} {values : List Nat}

/-- Where words hold all that is within the limits, nothing is lost in them. -/
theorem inWords?_eq {α : Type} {word? : Nat → Option α} {f : Nat → α}
    (hword : ∀ v, low ≤ v → v ≤ high → word? v = some (f v)) (make : List α → Token) :
    inWords? (checkValues text selector low high values) word? values make =
      some (checkValues text selector low high values >>= fun _ ↦ .ok (make (values.map f))) := by
  cases hcheck : checkValues text selector low high values with
  | error e => rfl
  | ok =>
    have hall : values.mapM word? = some (values.map f) := by
      have hlimits := checkValues_eq_ok_iff.1 hcheck
      clear hcheck
      induction values with
      | nil => rfl
      | cons v rest ih =>
        rw [List.forall_mem_cons] at hlimits
        rw [List.mapM_cons, hword v hlimits.1.1 hlimits.1.2, ih hlimits.2]
        rfl
    simp only [inWords?, hall]
    rfl

theorem int32?_of_le {v : Nat} (h : v ≤ maxYear) : int32? v = some (v : Int) :=
  if_pos (by rw [maxYear] at h; rw [Text.maxInt32]; omega)

theorem uint32?_of_le {v : Nat} (h : v ≤ 100) : uint32? v = some v :=
  if_pos (by rw [Text.maxUInt32]; omega)

theorem weekdayNumber?_of_place (weekStart : Weekday) {place : Nat} (hplace : 1 ≤ place ∧ place ≤ 7) :
    weekdayNumber? weekStart place = some ((place - 1 + weekStart.number) % 7) := by
  have hstart := weekStart.number_lt
  have hword : uint32? place = some place := uint32?_of_le (by omega)
  have hpassed : less1? place = some (place - 1) := if_pos hplace.1
  have hsum : uint32? (place - 1 + weekStart.number) = some (place - 1 + weekStart.number) :=
    uint32?_of_le (by omega)
  simp only [weekdayNumber?, hword, hpassed, hsum, Option.bind_eq_bind, Option.bind_some]

theorem ofNumber_mod (n : Nat) : Weekday.ofNumber (n % 7) = Weekday.ofNumber n := by
  rw [← Weekday.number_inj, Weekday.number_ofNumber, Weekday.number_ofNumber, Nat.mod_mod]

theorem weekdaySet_map_mod (numbers : List Nat) :
    weekdaySet (numbers.map (· % 7)) = weekdaySet numbers := by
  simp only [weekdaySet, List.any_map, Function.comp_def, ofNumber_mod]

/-- Every number that is put into a word fits, and no place in the week falls below 0. -/
theorem resolveInWords?_eq (text : String) (r : Reference) (e : Expr) :
    e.resolveInWords? text r = some (e.resolve text r) := by
  cases e with
  | relative | date | weekdayNames => rfl
  | years values =>
    have hback : (values.map Int.ofNat).map Int.toNat = values := by
      rw [List.map_map]
      exact List.map_id values
    rw [Expr.resolveInWords?, inWords?_eq (f := Int.ofNat) fun v _ ↦ int32?_of_le, hback]
    rfl
  | months values =>
    have hword : ∀ v, 1 ≤ v → v ≤ 12 → uint32? v = some (id v) := fun v _ hv ↦
      uint32?_of_le (Nat.le_trans hv (by decide))
    rw [Expr.resolveInWords?, inWords?_eq hword, List.map_id]
    rfl
  | weekdayNumbers values =>
    have hnumbers : values.map (fun v ↦ (v - 1 + r.weekStart.number) % 7) =
        (values.map fun v ↦ v - 1 + r.weekStart.number).map (· % 7) := by
      rw [List.map_map]
      rfl
    rw [Expr.resolveInWords?, inWords?_eq fun v hlow hhigh ↦
      weekdayNumber?_of_place r.weekStart ⟨hlow, hhigh⟩, hnumbers, weekdaySet_map_mod]
    rfl
  | keyword word value =>
    cases word with
    | perYear =>
      cases value with
      | none => rfl
      | some y =>
        rw [Expr.resolveInWords?, inWords?_eq (f := Int.ofNat) fun v _ ↦ int32?_of_le]
        rfl
    | total | weekend | recent | unpopular | unplayed | prehistory | perMonth | perWeekday => rfl

end

end Token

/-! ### Texts -/

open Token

/-- The token that a text stands for, its numbers in words of 32 bits; nothing if one of them does
not fit. -/
def NamedToken.ofTextInWords? (text : String) (r : Reference) :
    Option (Except TokenError NamedToken) :=
  match Expr.ofText (canonical text) with
  | .error e => some (.error e)
  | .ok e => (e.resolveInWords? (canonical text) r).map (Except.map (NamedToken.mk (canonical text)))

section

variable {text : String} {e : Expr}

theorem NamedToken.ofText_eq_map (h : Expr.ofText (canonical text) = .ok e) (r : Reference) :
    NamedToken.ofText text r =
      (e.resolve (canonical text) r).map (NamedToken.mk (canonical text)) := by
  simp only [NamedToken.ofText, h]
  change (e.resolve (canonical text) r >>= fun token ↦
    Except.ok (NamedToken.mk (canonical text) token)) = _
  cases e.resolve (canonical text) r <;> rfl

/-- In words of 32 bits a text stands for the same token. -/
theorem NamedToken.ofTextInWords?_eq (text : String) (r : Reference) :
    NamedToken.ofTextInWords? text r = some (NamedToken.ofText text r) := by
  unfold NamedToken.ofTextInWords?
  cases hread : Expr.ofText (canonical text) with
  | error e => simp only [NamedToken.ofText, hread]; rfl
  | ok e =>
    dsimp only
    rw [NamedToken.ofText_eq_map hread, resolveInWords?_eq, Option.map_some]

theorem Token.Grammar.Derives.exprOfText_canonical {f : Grammar.Form}
    (h : Grammar.Derives f (canonical (canonical text)).toList e) :
    Expr.ofText (canonical text) = .ok e := by
  rw [← Expr.ofText_congr (canonical_thrice text), h.exprOfText_eq]

end

/-- A token that a text stands for is well formed, and its numbers are those of the text. No number
that goes into a word of 32 bits on the way is cut off, and no place in the week falls below 0. A
selector with values outside its limits stands for an error about the first of them, and a keyword
with a value that is not the yearly series for an error about having one. -/
theorem ofText_as_written (text : String) (r : Reference) :
    (∀ named, NamedToken.ofText text r = .ok named → named.text = canonical text ∧
      ∃ f e, Grammar.Derives f (canonical (canonical text)).toList e ∧
        IsAsWritten e named.token) ∧
    NamedToken.ofTextInWords? text r = some (NamedToken.ofText text r) ∧
    ∀ f e, Grammar.Derives f (canonical (canonical text)).toList e →
      (∀ selector low high values, Limited e selector low high values →
        (∃ v ∈ values, v < low ∨ high < v) →
          ∃ before bad after, values = before ++ bad :: after ∧
            (∀ v ∈ before, low ≤ v ∧ v ≤ high) ∧ (bad < low ∨ high < bad) ∧
            NamedToken.ofText text r =
              .error (.outOfRange (canonical text) (.outside selector bad low high))) ∧
      ∀ word n, e = .keyword word (some n) → word ≠ .perYear →
        NamedToken.ofText text r = .error (.unexpectedValue (canonical text)) := by
  have hname : ∀ {f e}, Grammar.Derives f (canonical (canonical text)).toList e → ∀ {cause},
      e.resolve (canonical text) r = .error cause → NamedToken.ofText text r = .error cause := by
    intro f e hderives cause hcause
    rw [NamedToken.ofText_eq_map hderives.exprOfText_canonical, hcause]
    rfl
  refine ⟨fun named h ↦ ?_, NamedToken.ofTextInWords?_eq text r, fun f e hderives ↦ ⟨?_, ?_⟩⟩
  · obtain ⟨e, hread, h⟩ := Traversal.bind_eq_ok_iff.1 h
    obtain ⟨token, hresolve, h⟩ := Traversal.bind_eq_ok_iff.1 h
    obtain rfl := Except.ok.inj h
    obtain ⟨f, hderives⟩ := Grammar.exists_derives_of_exprOfText hread
    exact ⟨rfl, f, e, hderives, isAsWritten_of_resolve hderives hresolve⟩
  · intro selector low high values hlimited hout
    obtain ⟨before, bad, after, hsplit, hbefore, hbad, herror⟩ :=
      hlimited.resolve_eq_error hout (canonical text) r
    exact ⟨before, bad, after, hsplit, hbefore, hbad, hname hderives herror⟩
  · rintro word n rfl hword
    refine hname hderives ?_
    cases word with
    | perYear => exact absurd rfl hword
    | total | weekend | recent | unpopular | unplayed | prehistory | perMonth | perWeekday => rfl

/-- The years of `[Year = 2024, 2001,2024]` are those written. Of the months 3, 13 and 0 the second
one is the first outside the limits, and `recent` has no use for a value. -/
theorem ofText_as_written_three_texts :
    let r : Reference := ⟨.first, .monday⟩
    (∃ token, NamedToken.ofText "[Year = 2024, 2001,2024]" r = .ok ⟨"year=2024,2001,2024", token⟩ ∧
      IsAsWritten (.years [2024, 2001, 2024]) token) ∧
    NamedToken.ofText "[Month = 3,13,0]" r =
      .error (.outOfRange "month=3,13,0" (.outside "month" 13 1 12)) ∧
    NamedToken.ofText "Recent=1" r = .error (.unexpectedValue "recent=1") := by
  intro r
  refine ⟨?_, ?_, ?_⟩
  · have hread : Expr.ofText (canonical "[Year = 2024, 2001,2024]") =
        .ok (.years [2024, 2001, 2024]) := by decide +kernel
    obtain ⟨⟨name, token⟩, hok⟩ := Traversal.exists_eq_ok_of_isOk
      (show (NamedToken.ofText "[Year = 2024, 2001,2024]" r).isOk = true by decide +kernel)
    obtain ⟨rfl, f, e, hderives, hwritten⟩ :=
      (ofText_as_written "[Year = 2024, 2001,2024]" r).1 _ hok
    obtain rfl := Except.ok.inj (hread.symm.trans hderives.exprOfText_canonical)
    have hname : canonical "[Year = 2024, 2001,2024]" = "year=2024,2001,2024" := by decide +kernel
    exact ⟨token, hname ▸ hok, hwritten⟩
  · have hread : Expr.ofText (canonical "[Month = 3,13,0]") = .ok (.months [3, 13, 0]) := by
      decide +kernel
    obtain ⟨f, hderives⟩ := Grammar.exists_derives_of_exprOfText hread
    obtain ⟨before, bad, after, hsplit, hbefore, hbad, herror⟩ :=
      ((ofText_as_written "[Month = 3,13,0]" r).2.2 f _ hderives).1 _ _ _ _ (.months _)
        ⟨13, by decide, by decide⟩
    have hname : canonical "[Month = 3,13,0]" = "month=3,13,0" := by decide +kernel
    obtain rfl : bad = 13 := by
      match before, hsplit with
      | [], hsplit =>
        obtain ⟨rfl, _⟩ := List.cons.inj hsplit
        omega
      | [_], hsplit => exact (List.cons.inj (List.cons.inj hsplit).2).1.symm
      | _ :: b :: _, hsplit =>
        obtain rfl := (List.cons.inj (List.cons.inj hsplit).2).1
        have hin := hbefore 13 (by simp)
        omega
    rwa [hname] at herror
  · have hread : Expr.ofText (canonical "Recent=1") = .ok (.keyword .recent (some 1)) := by
      decide +kernel
    obtain ⟨f, hderives⟩ := Grammar.exists_derives_of_exprOfText hread
    have hname : canonical "Recent=1" = "recent=1" := by decide +kernel
    exact hname ▸ ((ofText_as_written "Recent=1" r).2.2 f _ hderives).2 _ _ rfl (by decide)

end Jukebox
