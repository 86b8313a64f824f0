import Jukebox.Token.Reader

/-!
# The grammar of tokens

`Derives form cs e` says that the text `cs` spells the token `e` in one of four forms: a relative
range, a date, a selector or a keyword. The rules do not say how a text is read.

Every form announces itself: the letters before the first sign, comma or equals sign, and that
mark, leave one form only (`Form.ofOpening_of_derives`). So no text has two forms
(`Derives.form_unique`).
-/

set_option autoImplicit false
set_option relaxedAutoImplicit false

namespace Jukebox.Token.Grammar

open Text Calendar

/-! ### Pieces -/

/-- A numeral in ASCII digits, and its value. -/
inductive Numeral : List Char → Nat → Prop
  | digit {c : Char} (hc : c.isDigit = true) : Numeral [c] (digitValue c)
  | snoc {ds : List Char} {n : Nat} {c : Char} (hds : Numeral ds n) (hc : c.isDigit = true) :
      Numeral (ds ++ [c]) (10 * n + digitValue c)

/-- A numeral of a fixed number of digits. -/
def Digits (count : Nat) (ds : List Char) (n : Nat) : Prop := Numeral ds n ∧ ds.length = count

/-- A numeral whose value fits into 64 bits with a sign. -/
def Number (ds : List Char) (n : Nat) : Prop := Numeral ds n ∧ (n : Int) ≤ maxInt64

/-- The letter of a unit, or nothing. -/
inductive Units : List Char → Option Span → Prop
  | none : Units [] none
  | letter (u : Span) : Units [u.letter] (some u)

/-- A sign, and the value that it gives to a number. -/
inductive Sign : Char → Nat → Int → Prop
  | plus (n : Nat) : Sign '+' n n
  | minus (n : Nat) : Sign '-' n (-n)

/-- A signed number that fits into 64 bits, with its unit, or nothing. -/
inductive Shift : List Char → Option Amount → Prop
  | none : Shift [] none
  | some {sign : Char} {ds us : List Char} {n : Nat} {value : Int} {unit : Option Span}
      (hsign : Sign sign n value) (hn : Numeral ds n)
      (hvalue : minInt64 ≤ value ∧ value ≤ maxInt64) (hunit : Units us unit) :
      Shift (sign :: (ds ++ us)) (some ⟨value, unit⟩)

/-- A comma and a number with its unit, or nothing. -/
inductive Length : List Char → Option Amount → Prop
  | none : Length [] none
  | some {ds us : List Char} {n : Nat} {unit : Option Span} (hn : Number ds n)
      (hunit : Units us unit) : Length (',' :: (ds ++ us)) (some ⟨n, unit⟩)

/-- Hour and minute with a colon between them. -/
inductive Clock : List Char → Nat × Nat → Prop
  | mk {hs ms : List Char} {hour minute : Nat} (hhour : Digits 2 hs hour)
      (hminute : Digits 2 ms minute) : Clock (hs ++ ':' :: ms) (hour, minute)

/-- A time of day, with or without a `t` in front, or nothing. -/
inductive Time : List Char → Option (Nat × Nat) → Prop
  | none : Time [] none
  | plain {cs : List Char} {time : Nat × Nat} (h : Clock cs time) : Time cs (some time)
  | marked {cs : List Char} {time : Nat × Nat} (h : Clock cs time) : Time ('t' :: cs) (some time)

/-- One or more items with commas between them. -/
inductive Items {α : Type} (Item : List Char → α → Prop) : List Char → List α → Prop
  | one {cs : List Char} {a : α} (h : Item cs a) : Items Item cs [a]
  | cons {cs rest : List Char} {a : α} {as : List α} (h : Item cs a) (hrest : Items Item rest as) :
      Items Item (cs ++ ',' :: rest) (a :: as)

/-- A name in full or its first three letters. -/
def Abbreviates (cs : List Char) (name : String) : Prop :=
  cs = name.toList ∨ cs = name.toList.take 3

/-- A month by name, with its number. -/
def MonthName (cs : List Char) (n : Nat) : Prop :=
  ∃ place name, monthNames[place]? = some name ∧ Abbreviates cs name ∧ n = place + 1

/-- A weekday by name. -/
def WeekdayName (cs : List Char) (d : Weekday) : Prop := Abbreviates cs d.name

/-! ### Forms -/

/-- The four forms of a token. -/
inductive Form where
  | relative | date | selector | keyword
  deriving DecidableEq, Repr

def Form.all : List Form := [relative, date, selector, keyword]

theorem Form.mem_all (f : Form) : f ∈ all := by cases f <;> decide

/-- The texts of each form, and the tokens that they spell. -/
inductive Derives : Form → List Char → Expr → Prop
  | relative (a : Anchor) {ss ls : List Char} {shift length : Option Amount}
      (hshift : Shift ss shift) (hlength : Length ls length) :
      Derives .relative (a.word.toList ++ (ss ++ ls)) (.relative a shift length)
  | date {ys ms ds ts ls : List Char} {year month day : Nat} {time : Option (Nat × Nat)}
      {length : Option Amount} (hyear : Digits 4 ys year) (hmonth : Digits 2 ms month)
      (hday : Digits 2 ds day) (htime : Time ts time) (hlength : Length ls length) :
      Derives .date ("date=".toList ++ (ys ++ '-' :: (ms ++ '-' :: (ds ++ (ts ++ ls)))))
        (.date year month day time length)
  | years {cs : List Char} {values : List Nat} (h : Items Number cs values) :
      Derives .selector ("year=".toList ++ cs) (.years values)
  | months {cs : List Char} {values : List Nat} (h : Items Number cs values) :
      Derives .selector ("month=".toList ++ cs) (.months values)
  | monthNames {cs : List Char} {values : List Nat} (h : Items MonthName cs values) :
      Derives .selector ("month=".toList ++ cs) (.months values)
  | weekdayNumbers {cs : List Char} {values : List Nat} (h : Items Number cs values) :
      Derives .selector ("weekday=".toList ++ cs) (.weekdayNumbers values)
  | weekdayNames {cs : List Char} {days : List Weekday} (h : Items WeekdayName cs days) :
      Derives .selector ("weekday=".toList ++ cs) (.weekdayNames days)
  | keyword {spelling : String} {word : Keyword} (h : (spelling, word) ∈ Keyword.spellings) :
      Derives .keyword spelling.toList (.keyword word none)
  | keywordValue {spelling : String} {word : Keyword} {mark : Char} {ds : List Char} {n : Nat}
      (h : (spelling, word) ∈ Keyword.spellings) (hmark : mark = '=' ∨ mark = ',')
      (hn : Number ds n) : Derives .keyword (spelling.toList ++ mark :: ds) (.keyword word (some n))

/-! ### How a text opens -/

/-- The characters that end the first word of a text. -/
def isMark (c : Char) : Bool := c = '+' || c = '-' || c = ',' || c = '='

/-- The first word of a text, and the mark behind it. -/
def opening (cs : List Char) : List Char × Option Char :=
  (cs.takeWhile fun c ↦ !isMark c, (cs.dropWhile fun c ↦ !isMark c).head?)

/-- A word of characters of one kind ends where a character of another kind follows. -/
theorem takeWhile_dropWhile_append {p : Char → Bool} {word rest : List Char}
    (hword : ∀ c ∈ word, p c = true) (hrest : ∀ c, rest.head? = some c → p c = false) :
    (word ++ rest).takeWhile p = word ∧ (word ++ rest).dropWhile p = rest := by
  rw [List.takeWhile_append_of_pos hword, List.dropWhile_append_of_pos hword]
  cases rest with
  | nil => exact ⟨List.append_nil word, rfl⟩
  | cons c cs => simp [hrest c rfl]

theorem opening_append {word rest : List Char} (hword : word.all fun c ↦ !isMark c)
    (hrest : ∀ c, rest.head? = some c → isMark c = true) :
    opening (word ++ rest) = (word, rest.head?) := by
  obtain ⟨htake, hdrop⟩ := takeWhile_dropWhile_append (List.all_eq_true.1 hword) fun c hc ↦ by
    rw [hrest c hc, Bool.not_true]
  rw [opening, htake, hdrop]

/-- The one form that a text with the given first word and mark can have. -/
def Form.ofOpening (word : List Char) (mark : Option Char) : Option Form :=
  if word = "date".toList then some .date
  else if word ∈ ["year".toList, "month".toList, "weekday".toList] ∧ mark = some '=' then
    some .selector
  else if word ∈ Anchor.all.map fun a ↦ a.word.toList then some .relative
  else if word ∈ Keyword.spellings.map fun p ↦ p.1.toList then some .keyword
  else none

/-- Behind its anchor, a relative range goes on with a sign or a comma, or not at all. -/
theorem head?_shift_append_length {ss ls : List Char} {shift length : Option Amount}
    (hshift : Shift ss shift) (hlength : Length ls length) {c : Char}
    (h : (ss ++ ls).head? = some c) : isMark c = true ∧ c ≠ '=' := by
  cases hshift with
  | none =>
    cases hlength with
    | none => cases h
    | some =>
      obtain rfl := Option.some.inj h
      decide
  | some hsign =>
    obtain rfl := Option.some.inj h
    cases hsign <;> decide

theorem opening_relative (a : Anchor) {ss ls : List Char} {shift length : Option Amount}
    (hshift : Shift ss shift) (hlength : Length ls length) :
    opening (a.word.toList ++ (ss ++ ls)) = (a.word.toList, (ss ++ ls).head?) :=
  opening_append (by cases a <;> decide) fun _ hc ↦ (head?_shift_append_length hshift hlength hc).1

theorem Form.ofOpening_anchor (a : Anchor) {mark : Option Char} (h : mark ≠ some '=') :
    ofOpening a.word.toList mark = some .relative := by
  unfold ofOpening
  rw [if_neg (by cases a <;> decide), if_neg (fun hselector ↦ h hselector.2),
    if_pos (by cases a <;> decide)]

theorem Form.ofOpening_spelling {spelling : String} {word : Keyword}
    (h : (spelling, word) ∈ Keyword.spellings) (mark : Option Char) :
    ofOpening spelling.toList mark = some .keyword := by
  have hword : ∀ p ∈ Keyword.spellings, p.1.toList ≠ "date".toList ∧
      p.1.toList ∉ ["year".toList, "month".toList, "weekday".toList] ∧
      p.1.toList ∉ Anchor.all.map fun a ↦ a.word.toList := by
    decide
  obtain ⟨hdate, hselector, hanchor⟩ := hword _ h
  unfold ofOpening
  rw [if_neg hdate, if_neg (fun hboth ↦ hselector hboth.1), if_neg hanchor,
    if_pos (List.mem_map.2 ⟨_, h, rfl⟩)]

theorem all_spelling_not_isMark {spelling : String} {word : Keyword}
    (h : (spelling, word) ∈ Keyword.spellings) : spelling.toList.all fun c ↦ !isMark c :=
  (by decide : ∀ p ∈ Keyword.spellings, p.1.toList.all fun c ↦ !isMark c) _ h

/-- The opening of a text tells its form. -/
theorem Form.ofOpening_of_derives {f : Form} {cs : List Char} {e : Expr} (h : Derives f cs e) :
    ofOpening (opening cs).1 (opening cs).2 = some f := by
  cases h with
  | relative a hshift hlength =>
    rw [opening_relative a hshift hlength]
    exact ofOpening_anchor a fun heq ↦ (head?_shift_append_length hshift hlength heq).2 rfl
  | date => rfl
  | years => rfl
  | months => rfl
  | monthNames => rfl
  | weekdayNumbers => rfl
  | weekdayNames => rfl
  | keyword hspelling =>
    rw [← List.append_nil (String.toList _),
      opening_append (all_spelling_not_isMark hspelling) fun c hc ↦ by cases hc]
    exact ofOpening_spelling hspelling none
  | keywordValue hspelling hmark =>
    rw [opening_append (all_spelling_not_isMark hspelling) fun c hc ↦ ?_]
    · exact ofOpening_spelling hspelling _
    · obtain rfl := Option.some.inj hc
      rcases hmark with rfl | rfl <;> decide

/-- No text has two forms. -/
theorem Derives.form_unique {f g : Form} {cs : List Char} {e e' : Expr} (hf : Derives f cs e)
    (hg : Derives g cs e') : f = g :=
  Option.some.inj ((Form.ofOpening_of_derives hf).symm.trans (Form.ofOpening_of_derives hg))

end Jukebox.Token.Grammar
