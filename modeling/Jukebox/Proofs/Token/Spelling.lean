import Jukebox.Proofs.Token.Canonical
import Jukebox.Proofs.Token.Lookup
import Jukebox.Proofs.Token.Reading

/-!
Texts of the grammar are their own canonical texts. They are made of small letters, digits and a
few marks (`Grammar.Derives.all_isPlain`), and such text has nothing to drop and nothing to lower
(`canonicalChars_of_plain`). So a text of the grammar names the token that it spells
(`Grammar.Derives.ofText_eq`).
-/

set_option autoImplicit false
set_option relaxedAutoImplicit false

namespace Jukebox.Token

open Text Calendar

/-! ### Plain text -/

/-- A small letter, a digit or one of the marks of tokens. -/
def isPlain (c : Char) : Bool :=
  c.isLower || c.isDigit || ['+', '-', ',', '=', ':'].contains c

theorem isPlain_of_isDigit {c : Char} (h : c.isDigit = true) : isPlain c = true := by
  rw [isPlain, h, Bool.or_true, Bool.true_or]

theorem plain_ascii : ∀ n < 0x80, isPlain (Char.ofNat n) = true →
    (isBlank (Char.ofNat n) = false ∧ lowerChar (Char.ofNat n) = [Char.ofNat n]) ∧
      Char.ofNat n ≠ '[' ∧ Char.ofNat n ≠ ']' := by
  decide +kernel

theorem toNat_lt_of_isPlain {c : Char} (h : isPlain c = true) : c.toNat < 0x80 := by
  simp only [isPlain, Bool.or_eq_true, List.contains_iff_mem, List.mem_cons, List.not_mem_nil,
    or_false] at h
  rcases h with (hlower | hdigit) | rfl | rfl | rfl | rfl | rfl
  · have hlast : c.val ≤ 'z'.val := of_decide_eq_true (Bool.and_eq_true_iff.1 hlower).2
    exact Nat.lt_of_le_of_lt (UInt32.le_iff_toNat_le.1 hlast) (by decide)
  · have hlast : c.val ≤ '9'.val := of_decide_eq_true (Bool.and_eq_true_iff.1 hdigit).2
    exact Nat.lt_of_le_of_lt (UInt32.le_iff_toNat_le.1 hlast) (by decide)
  all_goals decide

/-- Plain characters are settled, and none is a bracket. -/
theorem isSettled_of_isPlain {c : Char} (h : isPlain c = true) :
    IsSettled c ∧ c ≠ '[' ∧ c ≠ ']' := by
  have hascii := plain_ascii c.toNat (toNat_lt_of_isPlain h)
  rw [Char.ofNat_toNat] at hascii
  exact hascii h

theorem stripBrackets_of_plain {cs : List Char} (h : cs.all isPlain = true) :
    stripBrackets cs = cs := by
  rw [List.all_eq_true] at h
  refine stripBrackets_eq_self_iff.2 ⟨fun hopen ↦ ?_, fun hclose ↦ ?_⟩
  · exact (isSettled_of_isPlain (h _ (List.mem_of_mem_head? hopen))).2.1 rfl
  · exact (isSettled_of_isPlain (h _ (List.mem_of_getLast? hclose))).2.2 rfl

/-- Plain text is its own canonical text. -/
theorem canonicalChars_of_plain {cs : List Char} (h : cs.all isPlain = true) :
    canonicalChars cs = cs := by
  rw [canonicalChars_of_settled, stripBrackets_of_plain h]
  exact fun c hc ↦ (isSettled_of_isPlain (List.all_eq_true.1 h c hc)).1

/-! ### Values of selectors -/

theorem checkValues_eq_ok_iff {text selector : String} {low high : Nat} {values : List Nat} :
    checkValues text selector low high values = .ok () ↔ ∀ v ∈ values, low ≤ v ∧ v ≤ high := by
  rw [checkValues]
  cases hfind : values.find? fun v ↦ v < low || high < v with
  | none =>
    rw [List.find?_eq_none] at hfind
    refine iff_of_true rfl fun v hv ↦ ?_
    have hin := hfind v hv
    simp only [Bool.or_eq_true, decide_eq_true_eq] at hin
    omega
  | some bad =>
    have hbad := List.find?_some hfind
    simp only [Bool.or_eq_true, decide_eq_true_eq] at hbad
    refine iff_of_false (fun h ↦ by cases h) fun hall ↦ ?_
    have hin := hall bad (List.mem_of_find?_eq_some hfind)
    omega

theorem mem_weekdaySet_iff {numbers : List Nat} {d : Weekday} :
    d ∈ weekdaySet numbers ↔ ∃ n ∈ numbers, Weekday.ofNumber n = d := by
  simp only [weekdaySet, List.mem_filter, Weekday.mem_all, true_and, List.any_eq_true, beq_iff_eq]

theorem resolve_weekdayNumbers {text : String} {places : List Nat} (r : Reference)
    (hplaces : ∀ n ∈ places, 1 ≤ n ∧ n ≤ 7) :
    (Expr.weekdayNumbers places).resolve text r =
      .ok (.weekdays (weekdaySet (places.map fun n ↦ n - 1 + r.weekStart.number))) := by
  simp only [Expr.resolve, checkValues_eq_ok_iff.2 hplaces]
  rfl

/-! ### The grammar -/

namespace Grammar

theorem Numeral.all_isPlain {ds : List Char} {n : Nat} (h : Numeral ds n) : ds.all isPlain = true :=
  List.all_eq_true.2 fun c hc ↦ isPlain_of_isDigit (h.all_isDigit c hc)

theorem Units.all_isPlain {us : List Char} {unit : Option Span} (h : Units us unit) :
    us.all isPlain = true := by
  cases h with
  | none => rfl
  | letter u => cases u <;> decide

theorem Shift.all_isPlain {ss : List Char} {shift : Option Amount} (h : Shift ss shift) :
    ss.all isPlain = true := by
  cases h with
  | none => rfl
  | some hsign hn hvalue hunit =>
    have hmark : ∀ {sign n value}, Sign sign n value → isPlain sign = true := by
      rintro _ _ _ (_ | _) <;> decide
    rw [List.all_cons, List.all_append, hmark hsign, hn.all_isPlain, hunit.all_isPlain]
    rfl

theorem Length.all_isPlain {ls : List Char} {length : Option Amount} (h : Length ls length) :
    ls.all isPlain = true := by
  cases h with
  | none => rfl
  | some hn hunit =>
    rw [List.all_cons, List.all_append, hn.1.all_isPlain, hunit.all_isPlain]
    rfl

theorem Clock.all_isPlain {cs : List Char} {time : Nat × Nat} (h : Clock cs time) :
    cs.all isPlain = true := by
  cases h with
  | mk hhour hminute =>
    rw [List.all_append, List.all_cons, hhour.1.all_isPlain, hminute.1.all_isPlain]
    rfl

theorem Time.all_isPlain {ts : List Char} {time : Option (Nat × Nat)} (h : Time ts time) :
    ts.all isPlain = true := by
  cases h with
  | none => rfl
  | plain h => exact h.all_isPlain
  | marked h =>
    rw [List.all_cons, h.all_isPlain]
    rfl

theorem Items.all_isPlain {α : Type} {Item : List Char → α → Prop}
    (hitem : ∀ cs a, Item cs a → cs.all isPlain = true) {cs : List Char} {as : List α}
    (h : Items Item cs as) : cs.all isPlain = true := by
  induction h with
  | one h => exact hitem _ _ h
  | cons h _ ih =>
    rw [List.all_append, List.all_cons, hitem _ _ h, ih]
    rfl

theorem Abbreviates.all_isPlain {cs : List Char} {name : String}
    (hname : name.toList.all isPlain = true) (h : Abbreviates cs name) :
    cs.all isPlain = true := by
  rcases h with rfl | rfl
  · exact hname
  · exact List.all_eq_true.2 fun c hc ↦ List.all_eq_true.1 hname c (List.mem_of_mem_take hc)

theorem WeekdayName.all_isPlain {cs : List Char} {d : Weekday} (h : WeekdayName cs d) :
    cs.all isPlain = true :=
  Abbreviates.all_isPlain (by cases d <;> decide) h

theorem MonthName.all_isPlain {cs : List Char} {n : Nat} (h : MonthName cs n) :
    cs.all isPlain = true := by
  obtain ⟨place, name, hname, hcs, _⟩ := h
  have hall : ∀ name ∈ monthNames, name.toList.all isPlain = true := by decide
  exact hcs.all_isPlain (hall name (List.mem_of_getElem? hname))

theorem plain_of_mem_spellings {spelling : String} {word : Keyword}
    (h : (spelling, word) ∈ Keyword.spellings) : spelling.toList.all isPlain = true := by
  have hall : ∀ p ∈ Keyword.spellings, p.1.toList.all isPlain = true := by decide
  exact hall _ h

/-- Texts of the grammar are plain. -/
theorem Derives.all_isPlain {f : Form} {cs : List Char} {e : Expr} (h : Derives f cs e) :
    cs.all isPlain = true := by
  cases h with
  | relative a hshift hlength =>
    have hword : a.word.toList.all isPlain = true := by cases a <;> decide
    rw [List.all_append, List.all_append, hword, hshift.all_isPlain, hlength.all_isPlain]
    rfl
  | date hyear hmonth hday htime hlength =>
    simp only [List.all_append, List.all_cons, hyear.1.all_isPlain, hmonth.1.all_isPlain,
      hday.1.all_isPlain, htime.all_isPlain, hlength.all_isPlain]
    rfl
  | years h =>
    rw [List.all_append, h.all_isPlain fun ds n hn ↦ hn.1.all_isPlain]
    rfl
  | months h =>
    rw [List.all_append, h.all_isPlain fun ds n hn ↦ hn.1.all_isPlain]
    rfl
  | monthNames h =>
    rw [List.all_append, h.all_isPlain fun ds n ↦ MonthName.all_isPlain]
    rfl
  | weekdayNumbers h =>
    rw [List.all_append, h.all_isPlain fun ds n hn ↦ hn.1.all_isPlain]
    rfl
  | weekdayNames h =>
    rw [List.all_append, h.all_isPlain fun ds d ↦ WeekdayName.all_isPlain]
    rfl
  | keyword h => exact plain_of_mem_spellings h
  | keywordValue h hmark hn =>
    have hplain : ∀ mark, mark = '=' ∨ mark = ',' → isPlain mark = true := by
      rintro _ (rfl | rfl) <;> decide
    rw [List.all_append, List.all_cons, plain_of_mem_spellings h, hplain _ hmark, hn.1.all_isPlain]
    rfl

theorem Derives.canonical_eq {f : Form} {text : String} {e : Expr} (h : Derives f text.toList e) :
    canonical text = text := by
  rw [canonical, canonicalChars_of_plain h.all_isPlain, String.ofList_toList]

theorem Derives.exprOfText_eq {f : Form} {text : String} {e : Expr} (h : Derives f text.toList e) :
    Expr.ofText text = .ok e := by
  have hne : text.toList ≠ [] := fun hnil ↦ not_derives_nil f e (hnil ▸ h)
  simp only [Expr.ofText, canonicalChars_of_plain h.all_isPlain, if_neg hne,
    ofChars?_eq_some_iff.2 ⟨f, h⟩]

/-- What a text spells is derived from its canonical text. -/
theorem exists_derives_of_exprOfText {text : String} {e : Expr} (h : Expr.ofText text = .ok e) :
    ∃ f, Derives f (canonical text).toList e := by
  rcases ofText_cases text with ⟨_, herror⟩ | ⟨_, _, herror⟩ | ⟨f, e', hderives, hok⟩
  · rw [h] at herror
    cases herror
  · rw [h] at herror
    cases herror
  · rw [h] at hok
    obtain rfl := Except.ok.inj hok
    exact ⟨f, by rwa [toList_canonical]⟩

/-- A text of the grammar names the token that it spells. -/
theorem Derives.ofText_eq {f : Form} {text : String} {e : Expr} (h : Derives f text.toList e)
    (r : Reference) : NamedToken.ofText text r = (e.resolve text r).map (NamedToken.mk text) := by
  simp only [NamedToken.ofText, h.canonical_eq, h.exprOfText_eq]
  change (e.resolve text r >>= fun token ↦ Except.ok (NamedToken.mk text token)) = _
  cases e.resolve text r <;> rfl

/-! ### Numbers as written -/

/-- A padded number is a numeral for the number. -/
theorem numeral_padded (width n : Nat) : Numeral (padded width n) n := by
  have hnumeral := numeral_ofDigits (padded_ne_nil width n) fun c ↦ isDigit_of_mem_padded
  rwa [ofDigits_padded] at hnumeral

theorem digits_padded {width n : Nat} (hwidth : 0 < width) (h : n < 10 ^ width) :
    Digits width (padded width n) n := ⟨numeral_padded width n, length_padded_of_lt hwidth h⟩

theorem number_toString {n : Nat} (h : (n : Int) ≤ maxInt64) : Number (toString n).toList n := by
  have htext : (toString n).toList = padded 0 n := by
    rw [padded, Nat.zero_sub, List.replicate_zero, List.nil_append]
    exact Nat.toList_repr
  exact ⟨htext ▸ numeral_padded 0 n, h⟩

end Grammar

end Jukebox.Token
