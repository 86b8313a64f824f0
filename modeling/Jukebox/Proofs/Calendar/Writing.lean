import Jukebox.Calendar.InstantText
import Jukebox.Proofs.Calendar.Layout
import Jukebox.Proofs.Calendar.Months

/-!
# Instants as layouts write them

A layout of numbers, marks and blanks reads back what it writes of an instant. Every number has as
many digits as its part has at most, so reading stops where writing did (`readPart_padded`) and
finds the number of the instant (`Parts.set_shown`). What is found of an instant never contradicts
it (`Parts.TrueOf.put`), so a whole layout is read to its end (`Layout.read?_text`).

The parts are then put together again. A date alone gives its midnight
(`Layout.instant?_of_read?_date`); hour and minute give the beginning of the minute, and the second
gives the instant itself, leap seconds included (`Instant.ofTime?_minute`,
`Instant.ofTime?_second`).
-/

set_option autoImplicit false
set_option relaxedAutoImplicit false

namespace Jukebox.Calendar

open Text

variable {t : Instant} {part : NumberPart} {layout : Layout} {p : Parts} {rest : List Char}

/-! ### The numbers of an instant -/

namespace Instant

theorem hour_lt (t : Instant) : t.hour < 24 := by
  have hsecond := t.second_lt
  rw [hour]
  omega

theorem minute_lt (t : Instant) : t.minute < 60 := Nat.mod_lt _ (by decide)

theorem clockSecond_le (t : Instant) : t.clockSecond ≤ 60 := by
  have hnano := t.nano_lt
  have hleap := t.leap_second
  rw [clockSecond]
  omega

/-- A year of the first ten thousand, which four digits tell. -/
def HasFourDigitYear (t : Instant) : Prop := 0 ≤ t.year ∧ t.year ≤ 9999

theorem HasFourDigitYear.yearText_eq (h : t.HasFourDigitYear) :
    yearText t.year = padded 4 t.year.toNat := if_pos h

/-- The number that a calendar and a clock show for a part. -/
def shown (t : Instant) : NumberPart → Nat
  | .year => t.year.toNat
  | .month => t.month
  | .day => t.date.dayOfMonth
  | .hour => t.hour
  | .minute => t.minute
  | .second => t.clockSecond
  | _ => 0

end Instant

/-! ### Digits that are read back -/

theorem skipBlanks_append {ds : List Char} (hne : ds ≠ []) (hds : ∀ c ∈ ds, isBlank c = false) :
    skipBlanks (ds ++ rest) = ds ++ rest := by
  obtain ⟨c, ds, rfl⟩ := List.exists_cons_of_ne_nil hne
  rw [skipBlanks, List.cons_append, List.dropWhile_cons_of_neg]
  rw [hds c List.mem_cons_self]
  exact Bool.false_ne_true

theorem NumberPart.width_le {width : Nat} (h : part.width = some width) : width ≤ 9 := by
  cases part <;> cases h <;> decide

/-- As many digits as a part has at most are read whatever follows them. -/
theorem readPart_append {ds : List Char} (hdigits : ∀ c ∈ ds, c.isDigit = true) (hne : ds ≠ [])
    (hwidth : part.width = some ds.length) (rest : List Char) :
    readPart part (ds ++ rest) = some ((ofDigits ds : Int), rest) := by
  have hskip : skipBlanks (ds ++ rest) = ds ++ rest :=
    skipBlanks_append hne fun c hc ↦ isBlank_eq_false_of_isDigit (hdigits c hc)
  have hlimit : (ofDigits ds : Int) ≤ maxInt64 := by
    have hlt := ofDigits_lt hdigits
    have hpow := Nat.pow_le_pow_right (by decide : 0 < 10) (NumberPart.width_le hwidth)
    rw [maxInt64]
    omega
  have hread : readDigits part.width (ds ++ rest) = some (ofDigits ds, rest) := by
    simp only [readDigits, readNumber, hwidth, Option.getD_some, spanDigits_append_rest hdigits,
      if_pos (Nat.one_le_iff_ne_zero.2 (mt List.length_eq_zero_iff.1 hne)), Option.bind_eq_bind,
      Option.bind_some, if_pos hlimit]
  -- The digits begin with no sign.
  have hsign : ∀ sign tail, sign.isDigit = false → ds ++ rest ≠ sign :: tail := by
    intro sign tail hsign heq
    obtain ⟨c, ds, rfl⟩ := List.exists_cons_of_ne_nil hne
    obtain ⟨rfl, _⟩ := List.cons.inj heq
    rw [hdigits c List.mem_cons_self] at hsign
    cases hsign
  unfold readPart
  rw [hskip]
  dsimp only
  split
  · rename_i heq
    exact absurd heq (hsign _ _ rfl)
  · rename_i heq
    exact absurd heq (hsign _ _ rfl)
  · rw [hread, Option.map_some]

theorem readPart_padded {width n : Nat} (hpos : 0 < width) (hlt : n < 10 ^ width)
    (hwidth : part.width = some width) (rest : List Char) :
    readPart part (padded width n ++ rest) = some ((n : Int), rest) := by
  have hlength := length_padded_of_lt hpos hlt
  rw [readPart_append (fun c ↦ isDigit_of_mem_padded) (padded_ne_nil width n)
    (hwidth.trans (congrArg some hlength.symm)) rest, ofDigits_padded]

/-- A mark behind a number of two digits is not found in a text that begins with more digits. -/
theorem Layout.read?_eq_none_of_digits {mark : Char} {more : Layout} {ds : List Char}
    (hdigits : ∀ c ∈ ds, c.isDigit = true) (hlength : 2 < ds.length) (hwidth : part.width = some 2)
    (hmark : mark.isDigit = false) (rest : List Char) :
    Layout.read? (.number part :: .literal mark :: more) (ds ++ rest) = none := by
  obtain ⟨a, b, c, ds, rfl⟩ : ∃ a b c tail, ds = a :: b :: c :: tail := by
    match ds, hlength with
    | a :: b :: c :: tail, _ => exact ⟨a, b, c, tail, rfl⟩
  rw [Option.eq_none_iff_forall_ne_some]
  intro p h
  obtain ⟨n, tail, hpart⟩ := exists_readPart_of_read? h
  have hread := readPart_append (fun d hd ↦ hdigits d (List.mem_append_left (c :: ds) hd))
    (List.cons_ne_nil a [b]) hwidth (c :: ds ++ rest)
  obtain rfl : c = mark := by
    have hrest := congrArg Prod.snd (Option.some.inj (hread.symm.trans hpart))
    exact (List.cons.inj hrest).1
  rw [hdigits c (by simp)] at hmark
  cases hmark

/-- A number out of range at the head of a text is not read. -/
theorem Layout.read?_eq_none_of_set {n : Int} {cs : List Char} {more : Layout}
    (hread : readPart part cs = some (n, rest)) (hset : ({} : Parts).set part n = none) :
    Layout.read? (.number part :: more) cs = none := by
  have hitem : (LayoutItem.number part).read? ({}, cs) = none := by
    simp only [LayoutItem.read?, readSimple, hread, hset, Option.bind_eq_bind, Option.bind_some,
      Option.bind_none, reduceCtorEq, if_false]
  rw [Layout.read?, List.foldlM_cons, hitem]
  rfl

/-! ### Layouts -/

/-- What an item of a layout writes. -/
def LayoutItem.text (t : Instant) : LayoutItem → List Char
  | .literal c => [c]
  | .blanks => [' ']
  | .number .year => yearText t.year
  | .number part => padded 2 (t.shown part)
  | _ => []

/-- What a layout writes. -/
def Layout.text (t : Instant) (layout : Layout) : List Char := layout.flatMap (LayoutItem.text t)

namespace Parts

/-- What the parts say of date and time of day is so at an instant. -/
structure TrueOf (p : Parts) (t : Instant) : Prop where
  year : p.year.getD t.year = t.year
  month : p.month.getD t.month = t.month
  day : p.day.getD t.date.dayOfMonth = t.date.dayOfMonth
  half : p.half.getD (t.hour / 12) = t.hour / 12
  hourOfHalf : p.hourOfHalf.getD (t.hour % 12) = t.hour % 12
  minute : p.minute.getD t.minute = t.minute
  second : p.second.getD t.clockSecond = t.clockSecond

/-- The parts with one more part of an instant. -/
def put (t : Instant) (p : Parts) : NumberPart → Parts
  | .year => { p with year := some t.year }
  | .month => { p with month := some t.month }
  | .day => { p with day := some t.date.dayOfMonth }
  | .hour => { p with half := some (t.hour / 12), hourOfHalf := some (t.hour % 12) }
  | .minute => { p with minute := some t.minute }
  | .second => { p with second := some t.clockSecond }
  | _ => p

theorem TrueOf.put (h : p.TrueOf t) (part : NumberPart) : (p.put t part).TrueOf t := by
  obtain ⟨hyear, hmonth, hday, hhalf, hhour, hminute, hsecond⟩ := h
  cases part <;> constructor <;> first | rfl | assumption

theorem trueOf_empty (t : Instant) : ({} : Parts).TrueOf t := by
  constructor <;> rfl

theorem agree_of_getD {α : Type} [DecidableEq α] {old : Option α} {value : α}
    (h : old.getD value = value) : agree old value = some (some value) := by
  cases old with
  | none => rfl
  | some v =>
    rw [Option.getD_some] at h
    rw [agree, if_pos h, h]

theorem within_eq {low high n : Nat} (hlow : low ≤ n) (hhigh : n ≤ high) :
    within low high (n : Int) = some n := by
  rw [within, if_pos (by omega), Int.toNat_natCast]

/-- The number of an instant is put in. -/
theorem set_shown (hyear : t.HasFourDigitYear) (hp : p.TrueOf t) (hpart : part.isShown = true) :
    p.set part (t.shown part : Int) = some (p.put t part) := by
  cases part with
  | year =>
    have hcast : (t.year.toNat : Int) = t.year := Int.toNat_of_nonneg hyear.1
    have hrange : ¬ (t.year < -2147483648 ∨ 2147483647 < t.year) := by
      have := hyear.2
      omega
    simp only [set, Instant.shown, hcast, if_neg hrange, agree_of_getD hp.year, Option.map_some]
    rfl
  | month =>
    have hwithin : within 1 12 (t.shown .month : Int) = some t.month :=
      within_eq t.date.one_le_month t.date.month_le
    simp only [set, hwithin, agree_of_getD hp.month, Option.bind_eq_bind, Option.bind_some]
    rfl
  | day =>
    have hwithin : within 1 31 (t.shown .day : Int) = some t.date.dayOfMonth :=
      within_eq t.date.parts_eq.1 t.date.dayOfMonth_le
    simp only [set, hwithin, agree_of_getD hp.day, Option.bind_eq_bind, Option.bind_some]
    rfl
  | hour =>
    have hwithin : within 0 23 (t.shown .hour : Int) = some t.hour :=
      within_eq (Nat.zero_le _) (Nat.le_of_lt_succ t.hour_lt)
    simp only [set, hwithin, setHalf, agree_of_getD hp.half, Option.bind_eq_bind, Option.bind_some,
      Option.map_some]
    change Option.map _ (agree p.hourOfHalf (t.hour % 12)) = _
    rw [agree_of_getD hp.hourOfHalf]
    rfl
  | minute =>
    have hwithin : within 0 59 (t.shown .minute : Int) = some t.minute :=
      within_eq (Nat.zero_le _) (Nat.le_of_lt_succ t.minute_lt)
    simp only [set, hwithin, agree_of_getD hp.minute, Option.bind_eq_bind, Option.bind_some]
    rfl
  | second =>
    have hwithin : within 0 60 (t.shown .second : Int) = some t.clockSecond :=
      within_eq (Nat.zero_le _) t.clockSecond_le
    simp only [set, hwithin, agree_of_getD hp.second, Option.bind_eq_bind, Option.bind_some]
    rfl
  | _ => cases hpart

end Parts

/-! ### Layouts that are read back -/

/-- A number is written in as many digits as its part has at most. -/
theorem LayoutItem.exists_width_of_isShown (hyear : t.HasFourDigitYear)
    (hpart : part.isShown = true) :
    ∃ width, 0 < width ∧ part.width = some width ∧ t.shown part < 10 ^ width ∧
      (LayoutItem.number part).text t = padded width (t.shown part) := by
  have hmonth : t.month ≤ 12 := t.date.month_le
  have hday := t.date.dayOfMonth_le
  have hhour := t.hour_lt
  have hminute := t.minute_lt
  have hsecond := t.clockSecond_le
  cases part with
  | year =>
    have hlt : t.year.toNat < 10 ^ 4 := by
      have := hyear.2
      omega
    exact ⟨4, by decide, rfl, hlt, hyear.yearText_eq⟩
  | month => exact ⟨2, by decide, rfl, show t.month < 100 by omega, rfl⟩
  | day => exact ⟨2, by decide, rfl, show t.date.dayOfMonth < 100 by omega, rfl⟩
  | hour => exact ⟨2, by decide, rfl, show t.hour < 100 by omega, rfl⟩
  | minute => exact ⟨2, by decide, rfl, show t.minute < 100 by omega, rfl⟩
  | second => exact ⟨2, by decide, rfl, show t.clockSecond < 100 by omega, rfl⟩
  | _ => cases hpart

/-- A number is written in digits. -/
theorem LayoutItem.text_number (hyear : t.HasFourDigitYear) (part : NumberPart) :
    (number part).text t ≠ [] ∧ ∀ c ∈ (number part).text t, c.isDigit = true := by
  have hpadded : ∃ width, (number part).text t = padded width (t.shown part) := by
    cases part with
    | year => exact ⟨4, hyear.yearText_eq⟩
    | _ => exact ⟨2, rfl⟩
  obtain ⟨width, htext⟩ := hpadded
  rw [htext]
  exact ⟨padded_ne_nil width _, fun c ↦ isDigit_of_mem_padded⟩

theorem LayoutItem.read?_number_text (hyear : t.HasFourDigitYear) (hp : p.TrueOf t)
    (hpart : part.isShown = true) (rest : List Char) :
    (number part).read? (p, (number part).text t ++ rest) = some (p.put t part, rest) := by
  obtain ⟨width, hpos, hwidth, hlt, htext⟩ := exists_width_of_isShown hyear hpart
  have hread := readPart_padded hpos hlt hwidth rest
  rw [← htext] at hread
  simp only [LayoutItem.read?, readSimple, hread, Parts.set_shown hyear hp hpart,
    Option.bind_eq_bind, Option.bind_some, reduceCtorEq, if_false]

namespace Layout

/-- The parts with everything that a layout tells of an instant. -/
def told (t : Instant) : Layout → Parts → Parts
  | [], p => p
  | .number part :: rest, p => told t rest (p.put t part)
  | _ :: rest, p => told t rest p

/-- A layout takes what it has written off the text, number by number. -/
theorem foldlM_text (hyear : t.HasFourDigitYear) (hplain : layout.isPlain = true)
    (hp : p.TrueOf t) (rest : List Char) :
    layout.foldlM (fun s i ↦ i.read? s) (p, layout.text t ++ rest) =
      some (layout.told t p, rest) := by
  induction layout using isPlain.induct generalizing p with
  | case1 => rfl
  | case2 c more ih =>
    have hitem : (LayoutItem.literal c).read? (p, c :: (text t more ++ rest)) =
        some (p, text t more ++ rest) := by
      simp only [LayoutItem.read?, readSimple, afterChar?, Option.bind_eq_bind, Option.bind_some,
        reduceCtorEq, if_false, if_true]
    change List.foldlM _ (p, c :: (text t more ++ rest)) (.literal c :: more) = _
    rw [List.foldlM_cons, hitem]
    exact ih hplain hp
  | case3 part more ih =>
    obtain ⟨hpart, hmore⟩ := Bool.and_eq_true_iff.1 hplain
    rw [text, List.flatMap_cons, List.append_assoc, List.foldlM_cons,
      LayoutItem.read?_number_text hyear hp hpart]
    exact ih hmore (hp.put part)
  | case4 part more ih =>
    -- Blanks are skipped as far as they go; the number behind them ends them.
    obtain ⟨hne, hdigits⟩ := LayoutItem.text_number hyear part
    have hskip : skipBlanks (' ' :: (text t (.number part :: more) ++ rest)) =
        text t (.number part :: more) ++ rest := by
      rw [text, List.flatMap_cons, List.append_assoc]
      exact skipBlanks_append hne fun c hc ↦ isBlank_eq_false_of_isDigit (hdigits c hc)
    have hitem : LayoutItem.blanks.read? (p, ' ' :: (text t (.number part :: more) ++ rest)) =
        some (p, text t (.number part :: more) ++ rest) := by
      simp only [LayoutItem.read?, readSimple, hskip, Option.bind_eq_bind, Option.bind_some,
        reduceCtorEq, if_false]
    change List.foldlM _ (p, ' ' :: (text t (.number part :: more) ++ rest))
      (.blanks :: .number part :: more) = _
    rw [List.foldlM_cons, hitem]
    exact ih hplain hp
  | case5 layout hnil hliteral hnumber hblanks =>
    rw [isPlain.eq_5 layout hnil hliteral hnumber hblanks] at hplain
    cases hplain

/-- A plain layout reads back what it has written of an instant. -/
theorem read?_text (hyear : t.HasFourDigitYear) (hplain : layout.isPlain = true) :
    layout.read? (layout.text t) = some (layout.told t {}) := by
  have hfold := foldlM_text hyear hplain (Parts.trueOf_empty t) []
  rw [List.append_nil] at hfold
  rw [read?, hfold]
  rfl

/-- Between the numbers that a plain layout writes there are its marks. -/
theorem filter_isMark_text (hyear : t.HasFourDigitYear) (hplain : layout.isPlain = true) :
    (layout.text t).filter isMark = layout.marks :=
  filter_isMark_of_read? hplain (read?_text hyear hplain)

/-- A layout writes digits, blanks, and the characters that stand for themselves in it. -/
theorem mem_text (hyear : t.HasFourDigitYear) {c : Char} (h : c ∈ layout.text t) :
    c.isDigit = true ∨ c = ' ' ∨ .literal c ∈ layout := by
  obtain ⟨item, hitem, hc⟩ := List.mem_flatMap.1 h
  cases item with
  | literal d =>
    obtain rfl := List.mem_singleton.1 hc
    exact .inr (.inr hitem)
  | blanks => exact .inr (.inl (List.mem_singleton.1 hc))
  | number part => exact .inl ((LayoutItem.text_number hyear part).2 c hc)
  | _ => cases hc

/-- The layout begins and ends with something that is not blank. -/
def isTight (layout : Layout) : Bool := layout.head?.any isInk && layout.getLast?.any isInk
where
  isInk : LayoutItem → Bool
    | .literal c => !isBlank c
    | .number _ => true
    | _ => false

theorem text_of_isInk (hyear : t.HasFourDigitYear) {item : LayoutItem}
    (h : isTight.isInk item = true) : item.text t ≠ [] ∧ ∀ c ∈ item.text t, isBlank c = false := by
  cases item with
  | literal c =>
    refine ⟨List.cons_ne_nil c [], List.forall_mem_singleton.2 ?_⟩
    simpa [isTight.isInk] using h
  | number part =>
    obtain ⟨hne, hdigits⟩ := LayoutItem.text_number hyear part
    exact ⟨hne, fun c hc ↦ isBlank_eq_false_of_isDigit (hdigits c hc)⟩
  | _ => cases h

/-- What a tight layout writes begins and ends with ink. -/
theorem exists_text_of_isTight (hyear : t.HasFourDigitYear) (h : layout.isTight = true) :
    ∃ first last more front, layout.text t = first ++ more ∧ layout.text t = front ++ last ∧
      (first ≠ [] ∧ ∀ c ∈ first, isBlank c = false) ∧
      last ≠ [] ∧ ∀ c ∈ last, isBlank c = false := by
  simp only [isTight, Bool.and_eq_true, Option.any_eq_true, List.head?_eq_some_iff,
    List.getLast?_eq_some_iff] at h
  obtain ⟨⟨first, ⟨more, hfirst⟩, hfirstInk⟩, last, ⟨front, hlast⟩, hlastInk⟩ := h
  refine ⟨first.text t, last.text t, text t more, text t front, ?_, ?_,
    text_of_isInk hyear hfirstInk, text_of_isInk hyear hlastInk⟩
  · rw [hfirst, text, List.flatMap_cons, text]
  · rw [hlast, text, List.flatMap_append, List.flatMap_singleton, text]

theorem text_ne_nil (hyear : t.HasFourDigitYear) (h : layout.isTight = true) :
    layout.text t ≠ [] := by
  obtain ⟨first, _, more, _, htext, _, ⟨hne, _⟩, _⟩ := exists_text_of_isTight hyear h
  exact htext ▸ List.append_ne_nil_of_left_ne_nil hne more

/-- What a tight layout writes has no blanks at its ends. -/
theorem trimChars_text (hyear : t.HasFourDigitYear) (h : layout.isTight = true) :
    trimChars (layout.text t) = layout.text t := by
  obtain ⟨first, last, more, front, hfirst, hlast, ⟨hfirstNe, hfirstBlank⟩, hlastNe, hlastBlank⟩ :=
    exists_text_of_isTight hyear h
  refine trimChars_eq_self (fun c hc ↦ hfirstBlank c ?_) fun c hc ↦ hlastBlank c ?_
  · rw [hfirst, List.head?_append_of_ne_nil _ hfirstNe] at hc
    exact List.mem_of_mem_head? hc
  · rw [hlast, List.getLast?_append_of_ne_nil _ hlastNe] at hc
    exact List.mem_of_mem_getLast? hc

end Layout

/-! ### Parts that are put together -/

/-- The parts of a date, and maybe of a time of day. -/
def Parts.onDate (d : Date) (half hourOfHalf minute second : Option Nat) : Parts :=
  { year := some d.year, month := some d.month, day := some d.dayOfMonth,
    half, hourOfHalf, minute, second }

/-- Year, month and day determine the date, and nothing else is said of it. -/
theorem Parts.date_onDate (d : Date) (half hourOfHalf minute second : Option Nat) :
    (onDate d half hourOfHalf minute second).date = .ok d := by
  have hweek : (onDate d half hourOfHalf minute second).agreesByWeek d = true := by
    simp only [agreesByWeek, onDate, Option.getD_none, beq_self_eq_true, Bool.and_true]
    rfl
  have hordinal : (onDate d half hourOfHalf minute second).agreesByOrdinal d = true := by
    simp only [agreesByOrdinal, onDate, Option.getD_none, beq_self_eq_true, Bool.and_true]
  have hcandidate : (onDate d half hourOfHalf minute second).candidate = .ok (d, true) := by
    unfold candidate
    simp only [onDate, wholeYear, bind, Except.bind]
    rw [Date.ofYmd?_parts]
    change Except.ok (d, (onDate d half hourOfHalf minute second).agreesByWeek d &&
      (onDate d half hourOfHalf minute second).agreesByOrdinal d) = _
    rw [hweek, hordinal, Bool.and_true]
  unfold Parts.date
  rw [hcandidate]
  change (if (true && d.quarter == d.quarter) = true then Except.ok d else _) = _
  rw [beq_self_eq_true, Bool.and_true, if_pos rfl]

/-- A time of day is that of the clock. -/
theorem Parts.instant_onDate (d : Date) (half hourOfHalf minute : Nat) (second : Option Nat) :
    (onDate d (some half) (some hourOfHalf) (some minute) second).instant =
      Instant.ofTime? d (half * 12 + hourOfHalf) minute (second.getD 0) 0 := by
  have hclock : (onDate d (some half) (some hourOfHalf) (some minute) second).clock =
      .ok ⟨half * 12 + hourOfHalf, minute, second.getD 0, 0⟩ := by
    simp only [clock, onDate, Option.isSome_none, Bool.and_false, Option.getD_none]
    rfl
  rw [instant, date_onDate, hclock]
  exact Option.bind_fun_some _

namespace Layout

variable {cs : List Char}

theorem instant?_of_read?_date (h : layout.read? cs = some (.onDate t.date none none none none)) :
    layout.instant? cs = some (.midnight t.date) := by
  have hdate := Parts.date_onDate t.date none none none none
  have hinstant : (Parts.onDate t.date none none none none).instant = none := by
    rw [Parts.instant, hdate]
    rfl
  rw [instant?, timestamp?, date?, h, Option.bind_some, Option.bind_some, hinstant, hdate]
  rfl

theorem instant?_of_read?_time {hour minute : Nat} {second : Option Nat} {u : Instant}
    (h : layout.read? cs =
      some (.onDate t.date (some (hour / 12)) (some (hour % 12)) (some minute) second))
    (hu : Instant.ofTime? t.date hour minute (second.getD 0) 0 = some u) :
    layout.instant? cs = some u := by
  have hhour : hour / 12 * 12 + hour % 12 = hour := Nat.div_add_mod' hour 12
  have htimestamp : layout.timestamp? cs = some u := by
    rw [timestamp?, h, Option.bind_some, Parts.instant_onDate, hhour, hu]
  rw [instant?, htimestamp]
  rfl

end Layout

namespace Instant

/-- The beginning of the minute. -/
def startOfMinute (t : Instant) : Instant where
  date := t.date
  second := t.second / 60 * 60
  nano := 0
  second_lt := Nat.lt_of_le_of_lt (Nat.div_mul_le_self _ _) t.second_lt
  nano_lt := (midnight t.date).nano_lt
  leap_second := by omega

/-- Hour and minute tell the beginning of the minute. -/
theorem ofTime?_minute (t : Instant) :
    ofTime? t.date t.hour t.minute 0 0 = some t.startOfMinute := by
  have hhour := t.hour_lt
  have hminute := t.minute_lt
  rw [ofTime?, dif_pos (by omega)]
  refine congrArg some (rank_inj.1 ?_)
  simp only [rank, startOfMinute, hour, minute]
  omega

/-- Hour, minute and second tell an instant at a whole second, leap second or not. -/
theorem ofTime?_second (t : Instant) (hwhole : t.nano % 1000000000 = 0) :
    ofTime? t.date t.hour t.minute t.clockSecond 0 = some t := by
  have hhour := t.hour_lt
  have hminute := t.minute_lt
  have hnano := t.nano_lt
  by_cases hleap : 1000000000 ≤ t.nano
  · have hlast := t.leap_second hleap
    have hsecond : t.clockSecond = 60 := by
      rw [clockSecond]
      omega
    rw [ofTime?, dif_neg (by omega), dif_pos (by omega)]
    cases t
    simp only [hour, minute, Option.some_inj, mk.injEq, true_and] at *
    omega
  · have hsecond : t.clockSecond = t.second % 60 := by
      rw [clockSecond]
      omega
    rw [ofTime?, dif_pos (by omega)]
    cases t
    simp only [hour, minute, clockSecond, Option.some_inj, mk.injEq, true_and] at *
    omega

end Instant

end Jukebox.Calendar
