import Jukebox.Proofs.Text.Pieces
import Jukebox.Proofs.Token.Grammar
import Mathlib.Data.List.Induction
import Mathlib.Data.Option.Basic

/-!
Reading the pieces of tokens. Each reader takes exactly the texts that the grammar has for its
piece: numerals (`natural?_eq_some_iff`), shifts and lengths (`signedAmount?_eq_some_iff`,
`length?_eq_some_iff`), comma lists (`list?_eq_some_iff`), names and times of day. What stands
before the comma of a length has no comma itself, so the first comma is the right place to cut
(`cut_eq_iff`).
-/

set_option autoImplicit false
set_option relaxedAutoImplicit false

namespace Jukebox.Token.Grammar

open Text Calendar

/-! ### Numerals -/

theorem Numeral.ne_nil {ds : List Char} {n : Nat} (h : Numeral ds n) : ds ≠ [] := by
  cases h <;> simp

theorem Numeral.all_isDigit {ds : List Char} {n : Nat} (h : Numeral ds n) :
    ∀ c ∈ ds, c.isDigit = true := by
  induction h with
  | digit hc => simpa using hc
  | snoc _ hc ih =>
    intro c hmem
    rcases List.mem_append.1 hmem with hmem | hmem
    · exact ih c hmem
    · rwa [List.mem_singleton.1 hmem]

theorem Numeral.ofDigits_eq {ds : List Char} {n : Nat} (h : Numeral ds n) : ofDigits ds = n := by
  induction h with
  | digit => simp [ofDigits]
  | snoc _ _ ih => rw [ofDigits_append, ih]

theorem numeral_ofDigits {ds : List Char} (hne : ds ≠ []) (h : ∀ c ∈ ds, c.isDigit = true) :
    Numeral ds (ofDigits ds) := by
  induction ds using List.reverseRecOn with
  | nil => exact absurd rfl hne
  | append_singleton front c ih =>
    rw [ofDigits_append]
    have hc : c.isDigit = true := h c (by simp)
    by_cases hfront : front = []
    · subst hfront
      simpa using Numeral.digit hc
    · exact (ih hfront fun d hd ↦ h d (List.mem_append_left _ hd)).snoc hc

theorem natural?_eq_some_iff {ds : List Char} {n : Nat} : natural? ds = some n ↔ Numeral ds n := by
  rw [natural?, Option.ite_none_right_eq_some, Option.some_inj, List.all_eq_true]
  constructor
  · rintro ⟨⟨hne, hdigits⟩, rfl⟩
    exact numeral_ofDigits hne hdigits
  · exact fun h ↦ ⟨⟨h.ne_nil, h.all_isDigit⟩, h.ofDigits_eq⟩

theorem number?_eq_some_iff {ds : List Char} {n : Nat} : number? ds = some n ↔ Number ds n := by
  simp only [number?, bind, Option.bind_eq_some_iff, natural?_eq_some_iff,
    Option.ite_none_right_eq_some, Option.some_inj, Number]
  constructor
  · rintro ⟨_, hn, hmax, rfl⟩
    exact ⟨hn, hmax⟩
  · exact fun h ↦ ⟨n, h.1, h.2, rfl⟩

/-! ### Numerals with something behind them -/

theorem unit?_eq_some_iff {us : List Char} {unit : Option Span} :
    unit? us = some unit ↔ Units us unit := by
  constructor
  · intro h
    unfold unit? at h
    split at h
    · obtain rfl := Option.some.inj h
      exact .none
    · obtain ⟨u, hu, rfl⟩ := Option.map_eq_some_iff.1 h
      rw [Span.ofLetter?_eq_some_iff.1 hu]
      exact .letter u
    · cases h
  · rintro (_ | u)
    · rfl
    · rw [unit?, Span.ofLetter?_eq_some_iff.2 rfl, Option.map_some]

theorem Units.head?_not_isDigit {us : List Char} {unit : Option Span} (h : Units us unit) :
    ∀ c, us.head? = some c → c.isDigit = false := by
  rintro c hc
  cases h with
  | none => cases hc
  | letter u =>
    obtain rfl := Option.some.inj hc
    cases u <;> decide

theorem Units.comma_not_mem {us : List Char} {unit : Option Span} (h : Units us unit) :
    ',' ∉ us := by
  rcases h with _ | u
  · exact List.not_mem_nil
  · cases u <;> decide

theorem Numeral.comma_not_mem {ds : List Char} {n : Nat} (h : Numeral ds n) : ',' ∉ ds :=
  fun hmem ↦ absurd (h.all_isDigit ',' hmem) (by decide)

/-- The digits at the head of a text are read as a number and the rest as its unit, exactly for a
numeral with a unit behind it. -/
theorem digits_and_units_iff {cs : List Char} {n : Nat} {unit : Option Span} :
    natural? (cs.takeWhile Char.isDigit) = some n ∧ unit? (cs.dropWhile Char.isDigit) = some unit ↔
      ∃ ds us, cs = ds ++ us ∧ Numeral ds n ∧ Units us unit := by
  rw [natural?_eq_some_iff, unit?_eq_some_iff]
  constructor
  · rintro ⟨hn, hunit⟩
    exact ⟨_, _, List.takeWhile_append_dropWhile.symm, hn, hunit⟩
  · rintro ⟨ds, us, rfl, hn, hunit⟩
    obtain ⟨htake, hdrop⟩ := takeWhile_dropWhile_append hn.all_isDigit hunit.head?_not_isDigit
    rw [htake, hdrop]
    exact ⟨hn, hunit⟩

/-! ### Shifts and lengths -/

theorem amount?_eq_some_iff {cs : List Char} {a : Amount} :
    amount? cs = some a ↔ Length (',' :: cs) (some a) := by
  simp only [amount?, number?, bind, Option.bind_eq_some_iff, Option.ite_none_right_eq_some,
    Option.some_inj]
  constructor
  · rintro ⟨n, ⟨_, hn, hmax, rfl⟩, unit, hunit, rfl⟩
    obtain ⟨ds, us, rfl, hn, hunit⟩ := digits_and_units_iff.1 ⟨hn, hunit⟩
    exact .some ⟨hn, hmax⟩ hunit
  · rintro (_ | ⟨hn, hunit⟩)
    obtain ⟨hread, hrest⟩ := digits_and_units_iff.2 ⟨_, _, rfl, hn.1, hunit⟩
    exact ⟨_, ⟨_, hread, hn.2, rfl⟩, _, hrest, rfl⟩

theorem length?_eq_some_iff {behind : Option (List Char)} {length : Option Amount} :
    length? behind = some length ↔ Length (behind.elim [] (',' :: ·)) length := by
  cases behind with
  | none =>
    constructor
    · intro h
      obtain rfl := Option.some.inj h
      exact .none
    · rintro (_ | _)
      rfl
  | some cs =>
    rw [length?, Option.map_eq_some_iff, Option.elim_some]
    constructor
    · rintro ⟨a, ha, rfl⟩
      exact amount?_eq_some_iff.1 ha
    · intro h
      cases length with
      | none => cases h
      | some a => exact ⟨a, amount?_eq_some_iff.2 h, rfl⟩

theorem sign_eq_some_iff {sign : Char} {n : Nat} {value : Int} :
    (if sign = '+' then some (n : Int) else if sign = '-' then some (-(n : Int)) else none) =
      some value ↔ Sign sign n value := by
  constructor
  · intro h
    split at h
    · rename_i hsign
      obtain rfl := Option.some.inj h
      rw [hsign]
      exact .plus n
    · split at h
      · rename_i hsign
        obtain rfl := Option.some.inj h
        rw [hsign]
        exact .minus n
      · cases h
  · rintro (_ | _) <;> rfl

theorem signedAmount?_cons (sign : Char) (cs : List Char) : signedAmount? (sign :: cs) =
    (natural? (cs.takeWhile Char.isDigit)).bind fun n ↦
      (if sign = '+' then some (n : Int) else if sign = '-' then some (-(n : Int)) else none).bind
        fun value ↦ (unit? (cs.dropWhile Char.isDigit)).bind fun unit ↦
          if minInt64 ≤ value ∧ value ≤ maxInt64 then some ⟨value, unit⟩ else none := by
  rw [signedAmount?]
  refine congrArg (Option.bind _) (funext fun n ↦ ?_)
  split
  · rfl
  · split <;> rfl

theorem signedAmount?_eq_some_iff {cs : List Char} {a : Amount} :
    signedAmount? cs = some a ↔ Shift cs (some a) := by
  cases cs with
  | nil => exact iff_of_false (fun h ↦ by cases h) fun h ↦ by cases h
  | cons sign cs =>
    simp only [signedAmount?_cons, Option.bind_eq_some_iff, Option.ite_none_right_eq_some,
      sign_eq_some_iff, Option.some_inj]
    constructor
    · rintro ⟨n, hn, value, hsign, unit, hunit, hvalue, rfl⟩
      obtain ⟨ds, us, rfl, hn, hunit⟩ := digits_and_units_iff.1 ⟨hn, hunit⟩
      exact .some hsign hn hvalue hunit
    · rintro (_ | ⟨hsign, hn, hvalue, hunit⟩)
      obtain ⟨hread, hrest⟩ := digits_and_units_iff.2 ⟨_, _, rfl, hn, hunit⟩
      exact ⟨_, hread, _, hsign, _, hrest, hvalue, rfl⟩

theorem shift?_eq_some_iff {cs : List Char} {shift : Option Amount} :
    (if cs = [] then some none else (signedAmount? cs).map some) = some shift ↔
      Shift cs shift := by
  split
  · rename_i hnil
    rw [hnil]
    constructor
    · intro h
      obtain rfl := Option.some.inj h
      exact .none
    · rintro (_ | _)
      rfl
  · rename_i hne
    rw [Option.map_eq_some_iff]
    constructor
    · rintro ⟨a, ha, rfl⟩
      exact signedAmount?_eq_some_iff.1 ha
    · intro h
      cases shift with
      | none => cases h; exact absurd rfl hne
      | some a => exact ⟨a, signedAmount?_eq_some_iff.2 h, rfl⟩

theorem Shift.comma_not_mem {cs : List Char} {shift : Option Amount} (h : Shift cs shift) :
    ',' ∉ cs := by
  cases h with
  | none => exact List.not_mem_nil
  | some hsign hn _ hunit =>
    cases hsign <;> simp [hn.comma_not_mem, hunit.comma_not_mem]

theorem Length.exists_behind {cs : List Char} {length : Option Amount} (h : Length cs length) :
    ∃ behind : Option (List Char), cs = behind.elim [] (',' :: ·) := by
  cases h with
  | none => exact ⟨Option.none, rfl⟩
  | some => exact ⟨Option.some _, rfl⟩

/-! ### Texts around a mark -/

theorem cut_eq_iff {mark : Char} {cs before : List Char} {behind : Option (List Char)} :
    cut mark cs = (before, behind) ↔
      mark ∉ before ∧ cs = before ++ behind.elim [] (mark :: ·) := by
  induction cs generalizing before with
  | nil =>
    rw [cut, Prod.mk.injEq]
    constructor
    · rintro ⟨rfl, rfl⟩
      exact ⟨List.not_mem_nil, rfl⟩
    · rintro ⟨_, h⟩
      obtain ⟨rfl, hbehind⟩ := List.append_eq_nil_iff.1 h.symm
      cases behind with
      | none => exact ⟨rfl, rfl⟩
      | some rest => cases hbehind
  | cons c cs ih =>
    rw [cut]
    split
    · rename_i hc
      subst hc
      rw [Prod.mk.injEq]
      constructor
      · rintro ⟨rfl, rfl⟩
        exact ⟨List.not_mem_nil, rfl⟩
      · rintro ⟨hmem, h⟩
        cases before with
        | nil =>
          cases behind with
          | none => cases h
          | some rest =>
            obtain ⟨-, rfl⟩ := List.cons.inj h
            exact ⟨rfl, rfl⟩
        | cons d ds =>
          obtain ⟨rfl, -⟩ := List.cons.inj h
          exact absurd List.mem_cons_self hmem
    · rename_i hc
      cases before with
      | nil =>
        rw [Prod.mk.injEq]
        constructor
        · rintro ⟨h, _⟩
          cases h
        · rintro ⟨_, h⟩
          cases behind with
          | none => cases h
          | some rest => exact absurd (List.cons.inj h).1 hc
      | cons d ds =>
        have hrest : (cut mark cs).1 = ds ∧ (cut mark cs).2 = behind ↔
            mark ∉ ds ∧ cs = ds ++ behind.elim [] (mark :: ·) := Prod.ext_iff.symm.trans (@ih ds)
        rw [Prod.mk.injEq, List.cons.injEq, and_assoc, hrest, List.mem_cons, not_or,
          List.cons_append, List.cons.injEq]
        constructor
        · rintro ⟨rfl, hmem, rfl⟩
          exact ⟨⟨Ne.symm hc, hmem⟩, rfl, rfl⟩
        · rintro ⟨⟨_, hmem⟩, rfl, rfl⟩
          exact ⟨rfl, hmem, rfl⟩

/-! ### Comma lists -/

theorem commaList_of_not_mem {cs : List Char} (h : ',' ∉ cs) : commaList cs = [cs] := by
  induction cs with
  | nil => rfl
  | cons c cs ih =>
    rw [List.mem_cons, not_or] at h
    rw [commaList, if_neg (Ne.symm h.1), ih h.2]

theorem commaList_append {cs : List Char} (h : ',' ∉ cs) (rest : List Char) :
    commaList (cs ++ ',' :: rest) = cs :: commaList rest := by
  induction cs with
  | nil => rw [List.nil_append, commaList, if_pos rfl]
  | cons c cs ih =>
    rw [List.mem_cons, not_or] at h
    rw [List.cons_append, commaList, if_neg (Ne.symm h.1), ih h.2]

theorem list?_of_not_mem {α : Type} {read : List Char → Option α} {cs : List Char}
    (h : ',' ∉ cs) : list? read cs = (read cs).map fun a ↦ [a] := by
  rw [list?, commaList_of_not_mem h]
  cases hread : read cs <;> simp [hread]

theorem list?_append {α : Type} {read : List Char → Option α} {cs : List Char} (h : ',' ∉ cs)
    (rest : List Char) : list? read (cs ++ ',' :: rest) =
      (read cs).bind fun a ↦ (list? read rest).map fun as ↦ a :: as := by
  rw [list?, commaList_append h, List.mapM_cons]
  cases hread : read cs <;> simp [list?, Option.map_eq_bind]

/-- A comma list is read exactly where it is one of items that are read. -/
theorem list?_eq_some_iff {α : Type} {read : List Char → Option α} {Item : List Char → α → Prop}
    (hread : ∀ cs a, read cs = some a ↔ Item cs a) (hcomma : ∀ cs a, Item cs a → ',' ∉ cs)
    {cs : List Char} {as : List α} : list? read cs = some as ↔ Items Item cs as := by
  constructor
  · intro h
    -- The text behind the first comma is shorter.
    induction hlength : cs.length using Nat.strongRecOn generalizing cs as with
    | ind length ih =>
      by_cases hmem : ',' ∈ cs
      · obtain ⟨piece, rest, rfl, hpiece⟩ := List.eq_append_cons_of_mem hmem
        rw [list?_append hpiece, Option.bind_eq_some_iff] at h
        obtain ⟨a, ha, h⟩ := h
        obtain ⟨as, has, rfl⟩ := Option.map_eq_some_iff.1 h
        refine .cons ((hread _ _).1 ha) (ih rest.length ?_ has rfl)
        rw [← hlength, List.length_append, List.length_cons]
        omega
      · rw [list?_of_not_mem hmem, Option.map_eq_some_iff] at h
        obtain ⟨a, ha, rfl⟩ := h
        exact .one ((hread _ _).1 ha)
  · intro h
    induction h with
    | one h => rw [list?_of_not_mem (hcomma _ _ h), (hread _ _).2 h, Option.map_some]
    | cons h _ ih =>
      rw [list?_append (hcomma _ _ h), (hread _ _).2 h, Option.bind_some, ih, Option.map_some]

theorem Number.comma_not_mem {ds : List Char} {n : Nat} (h : Number ds n) : ',' ∉ ds :=
  h.1.comma_not_mem

theorem numbers?_eq_some_iff {cs : List Char} {ns : List Nat} :
    list? number? cs = some ns ↔ Items Number cs ns :=
  list?_eq_some_iff (fun _ _ ↦ number?_eq_some_iff) fun _ _ ↦ Number.comma_not_mem

/-! ### Names -/

theorem isNameOf_iff {name : String} {cs : List Char} :
    isNameOf name cs = true ↔ Abbreviates cs name := by
  rw [isNameOf, Bool.or_eq_true, decide_eq_true_eq, decide_eq_true_eq, Abbreviates]

theorem weekdayOfName?_eq_some_iff {cs : List Char} {d : Weekday} :
    Weekday.ofName? cs = some d ↔ WeekdayName cs d := by
  constructor
  · intro h
    have hname := List.find?_some h
    exact isNameOf_iff.1 hname
  · rintro (rfl | rfl) <;> cases d <;> rfl

/-- No name of a month is that of an earlier one, nor are the abbreviations. -/
theorem monthNames_found : ∀ p ∈ monthNames.zipIdx,
    (monthNames.findIdx? fun name ↦ isNameOf name p.1.toList) = some p.2 ∧
      (monthNames.findIdx? fun name ↦ isNameOf name (p.1.toList.take 3)) = some p.2 := by
  decide

theorem monthOfName?_eq_some_iff {cs : List Char} {n : Nat} :
    monthOfName? cs = some n ↔ MonthName cs n := by
  rw [monthOfName?, Option.map_eq_some_iff]
  constructor
  · rintro ⟨place, hplace, rfl⟩
    obtain ⟨hlt, hname, _⟩ := List.findIdx?_eq_some_iff_getElem.1 hplace
    exact ⟨place, monthNames[place], List.getElem?_eq_getElem hlt, isNameOf_iff.1 hname, rfl⟩
  · rintro ⟨place, name, hname, hcs, rfl⟩
    have hfound := monthNames_found (name, place) (List.mk_mem_zipIdx_iff_getElem?.2 hname)
    refine ⟨place, ?_, rfl⟩
    rcases hcs with rfl | rfl
    · exact hfound.1
    · exact hfound.2

theorem WeekdayName.comma_not_mem {cs : List Char} {d : Weekday} (h : WeekdayName cs d) :
    ',' ∉ cs := by
  rcases h with rfl | rfl <;> cases d <;> decide

theorem MonthName.comma_not_mem {cs : List Char} {n : Nat} (h : MonthName cs n) :
    ',' ∉ cs := by
  obtain ⟨place, name, hname, hcs, rfl⟩ := h
  have hcomma : ',' ∉ name.toList :=
    (by decide : ∀ name ∈ monthNames, ',' ∉ name.toList) name (List.mem_of_getElem? hname)
  rcases hcs with rfl | rfl
  · exact hcomma
  · exact fun hmem ↦ hcomma (List.mem_of_mem_take hmem)

theorem weekdayNames?_eq_some_iff {cs : List Char} {days : List Weekday} :
    list? Weekday.ofName? cs = some days ↔ Items WeekdayName cs days :=
  list?_eq_some_iff (fun _ _ ↦ weekdayOfName?_eq_some_iff) fun _ _ ↦ WeekdayName.comma_not_mem

theorem monthNames?_eq_some_iff {cs : List Char} {ns : List Nat} :
    list? monthOfName? cs = some ns ↔ Items MonthName cs ns :=
  list?_eq_some_iff (fun _ _ ↦ monthOfName?_eq_some_iff) fun _ _ ↦ MonthName.comma_not_mem

/-! ### Dates and times -/

/-- A number in a fixed count of digits is read from the head of a text. -/
theorem readNumber_eq_some_iff {count : Nat} (hcount : 0 < count) {cs rest : List Char} {n : Nat} :
    readNumber count count cs = some (n, rest) ↔ ∃ ds, cs = ds ++ rest ∧ Digits count ds n := by
  rw [readNumber, Option.ite_none_right_eq_some, Option.some_inj, Prod.mk.injEq]
  constructor
  · rintro ⟨hleast, rfl, rfl⟩
    refine ⟨_, (spanDigits_append count cs).symm, numeral_ofDigits ?_ isDigit_of_mem_spanDigits,
      Nat.le_antisymm (length_spanDigits_le count cs) hleast⟩
    exact List.ne_nil_of_length_pos (Nat.lt_of_lt_of_le hcount hleast)
  · rintro ⟨ds, rfl, hn, rfl⟩
    rw [spanDigits_append_rest hn.all_isDigit]
    exact ⟨Nat.le_refl _, hn.ofDigits_eq, rfl⟩

theorem clock?_eq_some_iff {cs : List Char} {time : Nat × Nat} :
    clock? cs = some time ↔ Clock cs time := by
  simp only [clock?, bind, Option.bind_eq_some_iff, Prod.exists, after?_eq_some_iff,
    readNumber_eq_some_iff (by decide : 0 < 2), Option.ite_none_right_eq_some, Option.some_inj]
  constructor
  · rintro ⟨hour, _, ⟨hs, rfl, hhour⟩, _, rfl, minute, _, ⟨ms, rfl, hminute⟩, rfl, rfl⟩
    rw [List.append_nil]
    exact .mk hhour hminute
  · rintro ⟨hhour, hminute⟩
    exact ⟨_, _, ⟨_, rfl, hhour⟩, _, rfl, _, _, ⟨_, (List.append_nil _).symm, hminute⟩, rfl, rfl⟩

theorem Clock.head?_isDigit {cs : List Char} {time : Nat × Nat} (h : Clock cs time) :
    ∃ c rest, cs = c :: rest ∧ c.isDigit = true := by
  obtain ⟨⟨hhour, _⟩, _⟩ := h
  obtain ⟨c, hs, rfl⟩ := List.exists_cons_of_ne_nil hhour.ne_nil
  exact ⟨c, _, rfl, hhour.all_isDigit c List.mem_cons_self⟩

theorem time?_eq_some_iff {cs : List Char} {time : Option (Nat × Nat)} :
    time? cs = some time ↔ Time cs time := by
  constructor
  · intro h
    unfold time? at h
    split at h
    · obtain rfl := Option.some.inj h
      exact .none
    · obtain ⟨t, ht, rfl⟩ := Option.map_eq_some_iff.1 h
      exact .marked (clock?_eq_some_iff.1 ht)
    · obtain ⟨t, ht, rfl⟩ := Option.map_eq_some_iff.1 h
      exact .plain (clock?_eq_some_iff.1 ht)
  · rintro (_ | h | h)
    · rfl
    · have hread := clock?_eq_some_iff.2 h
      obtain ⟨c, rest, rfl, hc⟩ := h.head?_isDigit
      rw [time?]
      · rw [hread, Option.map_some]
      · exact List.cons_ne_nil c rest
      · rintro cs heq
        obtain ⟨rfl, -⟩ := List.cons.inj heq
        exact absurd hc (by decide)
    · rw [time?, clock?_eq_some_iff.2 h, Option.map_some]

theorem Time.comma_not_mem {cs : List Char} {time : Option (Nat × Nat)} (h : Time cs time) :
    ',' ∉ cs := by
  cases h with
  | none => exact List.not_mem_nil
  | plain h =>
    obtain ⟨hhour, hminute⟩ := h
    simp [hhour.1.comma_not_mem, hminute.1.comma_not_mem]
  | marked h =>
    obtain ⟨hhour, hminute⟩ := h
    simp [hhour.1.comma_not_mem, hminute.1.comma_not_mem]

end Jukebox.Token.Grammar
