import Jukebox.Proofs.Calendar.Shift
import Jukebox.Proofs.Token.Collection
import Jukebox.Proofs.Token.Spelling

/-!
# Ranges and their lengths

A relative range begins at its anchor, moved by the shift as written, a dated one at its date and
time, and both last for their length. An amount that is left out, or has no unit, is filled in
(`Amount.measure`); a shift that is left out is a shift by 0 units (`rangeStart?_eq`).

A shift leads to a later instant exactly if its amount is positive. So a range exists exactly if its
length is positive and both its ends are in the calendar, and is never empty for another reason
(`windowFrom_of_lead`, `windowFrom_eq_error`). `RangeOutcome` says what a text then stands for, and
`range_outcome` that every text of a range stands for that, unless its date or time of day does not
exist.
-/

set_option autoImplicit false
set_option relaxedAutoImplicit false

namespace Jukebox

open Calendar

namespace Token

/-! ### Amounts -/

/-- The number and the unit that an amount stands for: `absent` units where nothing is written, and
the unit given where none is named. -/
def Amount.measure (absent : Int) (unit : Span) (amount : Option Amount) : Int × Span :=
  ((amount.map Amount.value).getD absent, (amount.bind Amount.unit).getD unit)

/-- The instant that an amount leads to. -/
def Amount.lead (t : Instant) (amount : Int × Span) : Option Instant := t.shift amount.1 amount.2

variable {text : String} {start stop : Instant} {length : Option Amount} {unit : Span}

/-- A shift that is left out shifts by nothing. -/
theorem rangeStart?_eq (r : Reference) (a : Anchor) (shift : Option Amount) :
    rangeStart? r a shift = Amount.lead (r.anchor a) (Amount.measure 0 a.unit shift) := by
  cases shift with
  | none => exact (Instant.shift_zero _ _).symm
  | some _ => rfl

theorem windowFrom_eq (text : String) (start : Instant) (length : Option Amount) (unit : Span) :
    windowFrom text start length unit =
      match (Amount.lead start (Amount.measure 1 unit length)).bind (Window.between? start) with
      | some w => .ok w
      | none => .error (.invalidWindow text) := by
  cases length <;> rfl

/-- A positive length that stays inside the calendar is a window. -/
theorem windowFrom_of_lead (text : String) (hpos : 1 ≤ (Amount.measure 1 unit length).1)
    (hstop : Amount.lead start (Amount.measure 1 unit length) = some stop) :
    start < stop ∧ windowFrom text start length unit = .ok ⟨start, stop⟩ := by
  have hlt : start < stop := (Instant.lt_shift_iff hstop).2 hpos
  rw [windowFrom_eq, hstop, Option.bind_some, Window.between?_eq_some_iff.2 ⟨hlt, rfl⟩]
  exact ⟨hlt, rfl⟩

theorem windowFrom_eq_error
    (h : ¬ (1 ≤ (Amount.measure 1 unit length).1 ∧
      ∃ stop, Amount.lead start (Amount.measure 1 unit length) = some stop)) :
    windowFrom text start length unit = .error (.invalidWindow text) := by
  rw [windowFrom_eq]
  cases hstop : Amount.lead start (Amount.measure 1 unit length) with
  | none => rfl
  | some stop =>
    have hnot : ¬ start < stop := fun hlt ↦ h ⟨(Instant.lt_shift_iff hstop).1 hlt, stop, hstop⟩
    rw [Option.bind_some, Window.between?, if_neg hnot]

/-! ### Outcomes -/

/-- What becomes of a range: a window over its length, or the error about a range that is empty or
leaves the calendar. -/
structure RangeOutcome (name : String) (start? : Option Instant) (length : Int × Span)
    (outcome : Except TokenError NamedToken) : Prop where
  /-- The length is positive and both ends are in the calendar. -/
  exists_iff : (∃ named, outcome = .ok named) ↔
    1 ≤ length.1 ∧ ∃ start, start? = some start ∧ ∃ stop, Amount.lead start length = some stop
  /-- The window has just the two ends, and is not empty. -/
  window : ∀ named, outcome = .ok named → ∃ start stop, start? = some start ∧
    Amount.lead start length = some stop ∧ start < stop ∧ named = ⟨name, .range ⟨start, stop⟩⟩
  error : ∀ e, outcome = .error e → e = .invalidWindow name

/-- A start that leads nowhere, or is missing, leaves the error about windows. -/
theorem RangeOutcome.of_error {name : String} {start? : Option Instant} {length : Int × Span}
    (h : ¬ (1 ≤ length.1 ∧ ∃ start, start? = some start ∧
      ∃ stop, Amount.lead start length = some stop)) :
    RangeOutcome name start? length (.error (.invalidWindow name)) := by
  refine ⟨iff_of_false ?_ h, fun named hok ↦ ?_, fun e herror ↦ (Except.error.inj herror).symm⟩
  · rintro ⟨named, hok⟩
    cases hok
  · cases hok

/-- The window from a start to the end of its length is what a range makes of both. -/
theorem rangeOutcome_windowFrom (name : String) (start : Instant) (length : Option Amount)
    (unit : Span) :
    RangeOutcome name (some start) (Amount.measure 1 unit length)
      (((windowFrom name start length unit).map Token.range).map (NamedToken.mk name)) := by
  by_cases h : 1 ≤ (Amount.measure 1 unit length).1 ∧
      ∃ stop, Amount.lead start (Amount.measure 1 unit length) = some stop
  · obtain ⟨hpos, stop, hstop⟩ := h
    obtain ⟨hlt, hwindow⟩ := windowFrom_of_lead name hpos hstop
    rw [hwindow]
    refine ⟨iff_of_true ⟨_, rfl⟩ ⟨hpos, start, rfl, stop, hstop⟩, fun named hok ↦ ?_,
      fun e herror ↦ ?_⟩
    · exact ⟨start, stop, rfl, hstop, hlt, (Except.ok.inj hok).symm⟩
    · cases herror
  · rw [windowFrom_eq_error h]
    refine RangeOutcome.of_error ?_
    rintro ⟨hpos, _, ⟨⟩, hstop⟩
    exact h ⟨hpos, hstop⟩

theorem rangeOutcome_relative (name : String) (r : Reference) (a : Anchor)
    (shift length : Option Amount) :
    RangeOutcome name (Amount.lead (r.anchor a) (Amount.measure 0 a.unit shift))
      (Amount.measure 1 a.unit length)
      (((Expr.relative a shift length).resolve name r).map (NamedToken.mk name)) := by
  rw [Expr.resolve, rangeStart?_eq]
  cases hstart : Amount.lead (r.anchor a) (Amount.measure 0 a.unit shift) with
  | none =>
    refine RangeOutcome.of_error ?_
    rintro ⟨_, _, hs, _⟩
    cases hs
  | some start => exact rangeOutcome_windowFrom name start length a.unit

/-! ### Dates as written -/

/-- The year has the month, and this has the day. -/
def IsDate (y : Int) (m d : Nat) : Prop := 1 ≤ m ∧ m ≤ 12 ∧ 1 ≤ d ∧ d ≤ monthLength y m

/-- The day has the hour, and this has the minute. -/
def IsTime (time : Nat × Nat) : Prop := time.1 < 24 ∧ time.2 < 60

/-- The beginning of a minute of a date. -/
def IsStart (y : Int) (m d : Nat) (time : Nat × Nat) (t : Instant) : Prop :=
  (t.date.year = y ∧ t.date.month = m ∧ t.date.dayOfMonth = d) ∧
    t.second = time.1 * 3600 + time.2 * 60 ∧ t.nano = 0

variable {y m d : Nat} {time : Option (Nat × Nat)}

theorem isDate_of_ofYmd? {date : Date} (h : Date.ofYmd? y m d = some date) : IsDate y m d := by
  obtain ⟨hyear, rfl, rfl⟩ := Date.ofYmd?_eq_some_iff.1 h
  have hparts := date.parts_eq
  rw [hyear] at hparts
  exact ⟨date.one_le_month, date.month_le, by simp only [Date.dayOfMonth]; omega, hparts.2.1⟩

theorem dateStart_of_not_isDate (hdate : ¬ IsDate y m d) :
    dateStart text y m d time = .error (.outOfRange text (.noDate y m d)) := by
  rw [dateStart]
  cases hymd : Date.ofYmd? y m d with
  | none => rfl
  | some date => exact absurd (isDate_of_ofYmd? hymd) hdate

/-- Years of four digits are inside the calendar. -/
theorem exists_date (hy : y < 10000) (hdate : IsDate y m d) :
    ∃ date : Date, Date.ofYmd? y m d = some date :=
  exists_ofYmd? (by rw [firstYear]; omega) (by rw [lastYear]; omega) hdate.2.2.1 hdate.2.2.2

theorem dateStart_of_not_isTime (hy : y < 10000) (hdate : IsDate y m d)
    (htime : ¬ IsTime (time.getD (0, 0))) :
    dateStart text y m d time =
      .error (.outOfRange text (.noTime (time.getD (0, 0)).1 (time.getD (0, 0)).2)) := by
  obtain ⟨date, hymd⟩ := exists_date hy hdate
  have hnone : Instant.ofTime? date (time.getD (0, 0)).1 (time.getD (0, 0)).2 0 0 = none := by
    rw [IsTime] at htime
    rw [Instant.ofTime?, dif_neg (by omega), dif_neg (by omega)]
  rw [dateStart, hymd]
  dsimp only
  rw [hnone]

theorem exists_dateStart (text : String) (hy : y < 10000) (hdate : IsDate y m d)
    (htime : IsTime (time.getD (0, 0))) :
    ∃ start, IsStart y m d (time.getD (0, 0)) start ∧ dateStart text y m d time = .ok start := by
  obtain ⟨date, hymd⟩ := exists_date hy hdate
  have hin : (time.getD (0, 0)).1 < 24 ∧ (time.getD (0, 0)).2 < 60 ∧ 0 < 60 ∧ 0 < 1000000000 :=
    ⟨htime.1, htime.2, by omega, by omega⟩
  rw [dateStart, hymd]
  dsimp only
  rw [Instant.ofTime?, dif_pos hin]
  exact ⟨_, ⟨Date.ofYmd?_eq_some_iff.1 hymd, Nat.add_zero _, rfl⟩, rfl⟩

/-! ### Texts -/

namespace Grammar

theorem Numeral.lt_pow {ds : List Char} {n : Nat} (h : Numeral ds n) : n < 10 ^ ds.length := by
  have hdigit : ∀ {c : Char}, c.isDigit = true → Text.digitValue c < 10 := by
    intro c hc
    have hlast : c.toNat ≤ '9'.toNat :=
      UInt32.le_iff_toNat_le.1 (of_decide_eq_true (Bool.and_eq_true_iff.1 hc).2)
    have hfirst : '0'.toNat = 48 := by decide
    have hnine : '9'.toNat = 57 := by decide
    rw [Text.digitValue]
    omega
  induction h with
  | digit hc => exact hdigit hc
  | snoc _ hc ih =>
    have hlast := hdigit hc
    rw [List.length_append, List.length_singleton, Nat.pow_succ]
    omega

theorem year_lt_of_exprOfText {length : Option Amount}
    (h : Expr.ofText text = .ok (.date y m d time length)) : y < 10000 := by
  obtain ⟨_, hderives⟩ := exists_derives_of_exprOfText h
  generalize (canonical text).toList = cs at hderives
  cases hderives with
  | date hyear _ _ _ _ =>
    have hlt := hyear.1.lt_pow
    rwa [hyear.2] at hlt

end Grammar

end Token

/-- A text stands for what its token means, under its canonical text. -/
theorem NamedToken.ofText_of_exprOfText {text : String} {e : Token.Expr}
    (h : Token.Expr.ofText text = .ok e) (r : Reference) :
    NamedToken.ofText text r =
      (e.resolve (Token.canonical text) r).map (NamedToken.mk (Token.canonical text)) := by
  obtain ⟨f, hderives⟩ := Token.Grammar.exists_derives_of_exprOfText h
  rw [← hderives.ofText_eq r]
  exact ofText_congr hderives.canonical_eq.symm r

open Token

/-- The text of a relative range stands for the window that begins where its shift leads from its
anchor and ends where its length leads from there, if the length is positive and both ends are in
the calendar, and for an error about its window otherwise. So does the text of a dated range with
the beginning of its minute, and where the date or the time of day does not exist, it stands for an
error about that. The reference may be inside a leap second. -/
theorem range_outcome (text : String) (r : Reference) :
    (∀ a shift length, Expr.ofText text = .ok (.relative a shift length) →
      RangeOutcome (canonical text) (Amount.lead (r.anchor a) (Amount.measure 0 a.unit shift))
        (Amount.measure 1 a.unit length) (NamedToken.ofText text r)) ∧
    ∀ (y m d : Nat) time length, Expr.ofText text = .ok (.date y m d time length) →
      (¬ IsDate y m d → NamedToken.ofText text r =
        .error (.outOfRange (canonical text) (.noDate y m d))) ∧
      (IsDate y m d → ¬ IsTime (time.getD (0, 0)) → NamedToken.ofText text r =
        .error (.outOfRange (canonical text)
          (.noTime (time.getD (0, 0)).1 (time.getD (0, 0)).2))) ∧
      (IsDate y m d → IsTime (time.getD (0, 0)) →
        ∃ start, IsStart y m d (time.getD (0, 0)) start ∧
          RangeOutcome (canonical text) (some start) (Amount.measure 1 .day length)
            (NamedToken.ofText text r)) := by
  refine ⟨fun a shift length h ↦ ?_, fun y m d time length h ↦ ?_⟩
  · rw [NamedToken.ofText_of_exprOfText h]
    exact rangeOutcome_relative _ r a shift length
  · have hyear := Grammar.year_lt_of_exprOfText h
    have hresolve : ∀ {outcome}, dateStart (canonical text) y m d time = outcome →
        NamedToken.ofText text r =
          ((outcome >>= fun start ↦ (windowFrom (canonical text) start length .day).map
            Token.range).map (NamedToken.mk (canonical text))) := by
      rintro _ rfl
      exact NamedToken.ofText_of_exprOfText h r
    refine ⟨fun hdate ↦ ?_, fun hdate htime ↦ ?_, fun hdate htime ↦ ?_⟩
    · rw [hresolve (dateStart_of_not_isDate hdate)]
      rfl
    · rw [hresolve (dateStart_of_not_isTime hyear hdate htime)]
      rfl
    · obtain ⟨start, hstart, hok⟩ :=
        exists_dateStart (canonical text) hyear hdate htime
      refine ⟨start, hstart, ?_⟩
      rw [hresolve hok]
      exact rangeOutcome_windowFrom _ start length .day

/-- Half a second into the last leap second of 2016, the text `[Now, 3m]` stands for a window, whose
start is inside the leap second. -/
theorem range_outcome_leap_second :
    let t : Instant := ⟨⟨yearStart 2017 - 1, by decide⟩, 86399, 1500000000, by decide, by decide,
      by decide⟩
    let r : Reference := ⟨t, .monday⟩
    t.isLeap = true ∧ Expr.ofText "[Now, 3m]" = .ok (.relative .now none (some ⟨3, some .month⟩)) ∧
      ∃ stop, t.shift 3 .month = some stop ∧ t < stop ∧
        NamedToken.ofText "[Now, 3m]" r = .ok ⟨"now,3m", .range ⟨t, stop⟩⟩ := by
  intro t r
  have hread : Expr.ofText "[Now, 3m]" = .ok (.relative .now none (some ⟨3, some .month⟩)) := by
    decide +kernel
  have hname : canonical "[Now, 3m]" = "now,3m" := by decide +kernel
  have houtcome := (range_outcome "[Now, 3m]" r).1 _ _ _ hread
  rw [hname] at houtcome
  have hstart : Amount.lead t (Amount.measure 0 .hour none) = some t := Instant.shift_zero t .hour
  obtain ⟨stop, hstop⟩ := Option.isSome_iff_exists.1
    (show (t.shift 3 .month).isSome = true by decide)
  obtain ⟨named, hok⟩ := houtcome.exists_iff.2 ⟨by decide, t, hstart, stop, hstop⟩
  obtain ⟨start, stop', hstart', hstop', hlt, rfl⟩ := houtcome.window named hok
  obtain rfl : t = start := Option.some.inj (hstart.symm.trans hstart')
  exact ⟨by decide, hread, stop', hstop', hlt, hok⟩

end Jukebox
