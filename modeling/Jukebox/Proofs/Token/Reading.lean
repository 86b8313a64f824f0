import Jukebox.Proofs.Token.Pieces

/-!
# Reading follows the grammar

Every form of token is read exactly as the grammar derives it (`Form.read_eq_some_iff`). As no
text has two forms, a text spells one token at most, and the order in which the forms are tried is
of no account (`ofText_follows_grammar`).
-/

set_option autoImplicit false
set_option relaxedAutoImplicit false

namespace Jukebox.Token.Grammar

open Text Calendar

/-! ### The four forms -/

theorem relativeFrom?_eq_bind (a : Anchor) (cs : List Char) : relativeFrom? a cs =
    (after? a.word.toList cs).bind fun rest ↦
      (if (cut ',' rest).1 = [] then some none
        else (signedAmount? (cut ',' rest).1).map some).bind fun shift ↦
          (length? (cut ',' rest).2).bind fun length ↦ some (.relative a shift length) := by
  rw [relativeFrom?]
  refine congrArg (Option.bind _) (funext fun rest ↦ ?_)
  obtain ⟨before, behind⟩ := cut ',' rest
  dsimp only
  split <;> rfl

theorem relativeFrom?_eq_some_iff {a : Anchor} {cs : List Char} {e : Expr} :
    relativeFrom? a cs = some e ↔ ∃ ss ls shift length, cs = a.word.toList ++ (ss ++ ls) ∧
      Shift ss shift ∧ Length ls length ∧ e = .relative a shift length := by
  simp only [relativeFrom?_eq_bind, Option.bind_eq_some_iff, after?_eq_some_iff,
    shift?_eq_some_iff, length?_eq_some_iff, Option.some_inj]
  constructor
  · rintro ⟨rest, rfl, shift, hshift, length, hlength, rfl⟩
    refine ⟨_, _, shift, length, ?_, hshift, hlength, rfl⟩
    rw [← (cut_eq_iff.1 (Prod.eta (cut ',' rest)).symm).2]
  · rintro ⟨ss, ls, shift, length, rfl, hshift, hlength, rfl⟩
    obtain ⟨behind, rfl⟩ := hlength.exists_behind
    have hcut : cut ',' (ss ++ behind.elim [] (',' :: ·)) = (ss, behind) :=
      cut_eq_iff.2 ⟨hshift.comma_not_mem, rfl⟩
    refine ⟨_, rfl, shift, ?_, length, ?_, rfl⟩
    · rwa [hcut]
    · rwa [hcut]

/-- A search gives what one member gives, if no member gives anything else. -/
theorem findSome?_eq_some {α β : Type} {f : α → Option β} {xs : List α} {x : α} {b : β}
    (hx : x ∈ xs) (h : f x = some b) (hunique : ∀ y ∈ xs, ∀ b', f y = some b' → b' = b) :
    xs.findSome? f = some b := by
  have hsome : (xs.findSome? f).isSome :=
    List.findSome?_isSome_iff.2 ⟨x, hx, by rw [h, Option.isSome_some]⟩
  obtain ⟨b', hb'⟩ := Option.isSome_iff_exists.1 hsome
  obtain ⟨y, hy, hfound⟩ := List.exists_of_findSome?_eq_some hb'
  rw [hb', hunique y hy b' hfound]

theorem anchor_eq_of_word_eq {a b : Anchor} (h : a.word.toList = b.word.toList) : a = b := by
  revert h
  cases a <;> cases b <;> decide

theorem relative?_eq_some_iff {cs : List Char} {e : Expr} :
    relative? cs = some e ↔ Derives .relative cs e := by
  constructor
  · intro h
    obtain ⟨a, _, ha⟩ := List.exists_of_findSome?_eq_some h
    obtain ⟨ss, ls, shift, length, rfl, hshift, hlength, rfl⟩ := relativeFrom?_eq_some_iff.1 ha
    exact .relative a hshift hlength
  · rintro (⟨a, hshift, hlength⟩)
    have hread := (relativeFrom?_eq_some_iff (a := a)).2 ⟨_, _, _, _, rfl, hshift, hlength, rfl⟩
    have ha : a ∈ Anchor.all := by cases a <;> decide
    refine findSome?_eq_some ha hread fun b _ e' hb ↦ ?_
    obtain ⟨ss, ls, shift, length, hcs, hshift', hlength', _⟩ := relativeFrom?_eq_some_iff.1 hb
    -- Both anchors are the first word of the text.
    have hopening := opening_relative b hshift' hlength'
    rw [← hcs, opening_relative a hshift hlength] at hopening
    obtain rfl := anchor_eq_of_word_eq (Prod.mk.inj hopening).1
    exact Option.some.inj (hb.symm.trans hread)

theorem date?_eq_some_iff {cs : List Char} {e : Expr} :
    date? cs = some e ↔ Derives .date cs e := by
  simp only [date?, bind, Option.bind_eq_some_iff, Prod.exists, after?_eq_some_iff,
    readNumber_eq_some_iff (by decide : 0 < 2), readNumber_eq_some_iff (by decide : 0 < 4),
    time?_eq_some_iff, length?_eq_some_iff, Option.some_inj]
  constructor
  · rintro ⟨rest, rfl, year, _, ⟨ys, hys, hyear⟩, _, rfl, month, _, ⟨ms, rfl, hmonth⟩, _, rfl, day,
      ts, ⟨ds, rfl, hday⟩, time, htime, length, hlength, rfl⟩
    have hcut := (cut_eq_iff.1 (Prod.eta (cut ',' rest)).symm).2
    rw [hys] at hcut
    rw [hcut]
    simpa using Derives.date hyear hmonth hday htime hlength
  · intro h
    cases h with
    | @date ys ms ds ts _ _ _ _ _ _ hyear hmonth hday htime hlength =>
      obtain ⟨behind, rfl⟩ := hlength.exists_behind
      have hcut : cut ',' (ys ++ '-' :: (ms ++ '-' :: (ds ++ (ts ++ behind.elim [] (',' :: ·))))) =
          (ys ++ '-' :: (ms ++ '-' :: (ds ++ ts)), behind) := by
        refine cut_eq_iff.2 ⟨?_, by simp⟩
        simp [hyear.1.comma_not_mem, hmonth.1.comma_not_mem, hday.1.comma_not_mem,
          htime.comma_not_mem]
      refine ⟨_, rfl, _, _, ⟨ys, ?_, hyear⟩, _, rfl, _, _, ⟨ms, rfl, hmonth⟩, _, rfl, _, _,
        ⟨ds, rfl, hday⟩, _, htime, _, ?_, rfl⟩
      · rw [hcut]
        rfl
      · rwa [hcut]

/-- Where every item begins with a character of one kind, so does a list of them. -/
theorem Items.any_head? {α : Type} {Item : List Char → α → Prop} {p : Char → Bool}
    (h : ∀ cs a, Item cs a → cs.head?.any p = true) {cs : List Char} {as : List α}
    (hitems : Items Item cs as) : cs.head?.any p = true := by
  cases hitems with
  | one hitem => exact h _ _ hitem
  | @cons cs rest _ _ hitem _ =>
    have hhead := h _ _ hitem
    cases cs with
    | nil => cases hhead
    | cons c cs => exact hhead

theorem Number.any_head? {ds : List Char} {n : Nat} (h : Number ds n) :
    ds.head?.any Char.isDigit = true := by
  obtain ⟨c, rest, rfl⟩ := List.exists_cons_of_ne_nil h.1.ne_nil
  exact h.1.all_isDigit c List.mem_cons_self

theorem Abbreviates.head?_eq {cs : List Char} {name : String} (h : Abbreviates cs name) :
    cs.head? = name.toList.head? := by
  rcases h with rfl | rfl
  · rfl
  · rw [List.head?_take, if_neg (by decide)]

theorem WeekdayName.any_head? {cs : List Char} {d : Weekday} (h : WeekdayName cs d) :
    cs.head?.any (fun c ↦ !c.isDigit) = true := by
  rw [Abbreviates.head?_eq h]
  cases d <;> rfl

theorem MonthName.any_head? {cs : List Char} {n : Nat} (h : MonthName cs n) :
    cs.head?.any (fun c ↦ !c.isDigit) = true := by
  obtain ⟨place, name, hname, hcs, rfl⟩ := h
  have hall : ∀ name ∈ monthNames, name.toList.head?.any (fun c ↦ !c.isDigit) = true := by decide
  rw [hcs.head?_eq]
  exact hall name (List.mem_of_getElem? hname)

/-- No list of numbers is a list of names. -/
theorem numbers?_eq_none {α : Type} {Item : List Char → α → Prop}
    (h : ∀ cs a, Item cs a → cs.head?.any (fun c ↦ !c.isDigit) = true) {cs : List Char}
    {as : List α} (hitems : Items Item cs as) : list? number? cs = none := by
  rw [Option.eq_none_iff_forall_ne_some]
  intro ns hns
  have hdigit := (numbers?_eq_some_iff.1 hns).any_head? fun _ _ ↦ Number.any_head?
  have hname := hitems.any_head? h
  cases hhead : cs.head? with
  | none =>
    rw [hhead] at hdigit
    cases hdigit
  | some c =>
    rw [hhead, Option.any_some] at hdigit hname
    rw [hdigit] at hname
    cases hname

/-- A list that is read as numbers, or else as names, is one or the other. -/
theorem numbers_or_names_iff {α : Type} {read : List Char → Option α}
    {Item : List Char → α → Prop} (hread : ∀ {cs as}, list? read cs = some as ↔ Items Item cs as)
    (hname : ∀ cs a, Item cs a → cs.head?.any (fun c ↦ !c.isDigit) = true) {cs : List Char}
    {ofNumbers : List Nat → Expr} {ofNames : List α → Expr} {e : Expr} :
    ((list? number? cs).map ofNumbers <|> (list? read cs).map ofNames) = some e ↔
      (∃ ns, Items Number cs ns ∧ ofNumbers ns = e) ∨ ∃ as, Items Item cs as ∧ ofNames as = e := by
  simp only [← numbers?_eq_some_iff, ← hread, ← Option.map_eq_some_iff]
  rw [Option.orElse_eq_some]
  refine or_congr_right ⟨And.right, fun h ↦ ⟨?_, h⟩⟩
  obtain ⟨as, has, _⟩ := Option.map_eq_some_iff.1 h
  rw [numbers?_eq_none hname (hread.1 has), Option.map_none]

theorem years?_eq_some_iff {cs : List Char} {e : Expr} : years? cs = some e ↔
    ∃ rest, cs = "year=".toList ++ rest ∧ ∃ ns, Items Number rest ns ∧ .years ns = e := by
  simp only [years?, bind, Option.bind_eq_some_iff, after?_eq_some_iff, Option.map_eq_some_iff,
    numbers?_eq_some_iff]

theorem months?_eq_some_iff {cs : List Char} {e : Expr} : months? cs = some e ↔
    ∃ rest, cs = "month=".toList ++ rest ∧ ((∃ ns, Items Number rest ns ∧ .months ns = e) ∨
      ∃ ns, Items MonthName rest ns ∧ .months ns = e) := by
  simp only [months?, bind, Option.bind_eq_some_iff, after?_eq_some_iff,
    numbers_or_names_iff monthNames?_eq_some_iff fun _ _ ↦ MonthName.any_head?]

theorem weekdays?_eq_some_iff {cs : List Char} {e : Expr} : weekdays? cs = some e ↔
    ∃ rest, cs = "weekday=".toList ++ rest ∧
      ((∃ ns, Items Number rest ns ∧ .weekdayNumbers ns = e) ∨
        ∃ days, Items WeekdayName rest days ∧ .weekdayNames days = e) := by
  simp only [weekdays?, bind, Option.bind_eq_some_iff, after?_eq_some_iff,
    numbers_or_names_iff weekdayNames?_eq_some_iff fun _ _ ↦ WeekdayName.any_head?]

/-- The selectors, one of the four forms. -/
def selector? (cs : List Char) : Option Expr := years? cs <|> months? cs <|> weekdays? cs

theorem selector?_eq_some_iff {cs : List Char} {e : Expr} :
    selector? cs = some e ↔ Derives .selector cs e := by
  rw [selector?, Option.orElse_eq_some, Option.orElse_eq_some, years?_eq_some_iff,
    months?_eq_some_iff, weekdays?_eq_some_iff]
  constructor
  · rintro (⟨rest, rfl, ns, h, rfl⟩ | ⟨_, ⟨rest, rfl, h⟩ | ⟨_, rest, rfl, h⟩⟩)
    · exact .years h
    · rcases h with ⟨ns, h, rfl⟩ | ⟨ns, h, rfl⟩
      · exact .months h
      · exact .monthNames h
    · rcases h with ⟨ns, h, rfl⟩ | ⟨days, h, rfl⟩
      · exact .weekdayNumbers h
      · exact .weekdayNames h
  · intro h
    -- No word before an equals sign is the beginning of another one.
    cases h with
    | years h => exact Or.inl ⟨_, rfl, _, h, rfl⟩
    | months h => exact Or.inr ⟨rfl, Or.inl ⟨_, rfl, Or.inl ⟨_, h, rfl⟩⟩⟩
    | monthNames h => exact Or.inr ⟨rfl, Or.inl ⟨_, rfl, Or.inr ⟨_, h, rfl⟩⟩⟩
    | weekdayNumbers h => exact Or.inr ⟨rfl, Or.inr ⟨rfl, _, rfl, Or.inl ⟨_, h, rfl⟩⟩⟩
    | weekdayNames h => exact Or.inr ⟨rfl, Or.inr ⟨rfl, _, rfl, Or.inr ⟨_, h, rfl⟩⟩⟩

theorem keywordOfChars?_eq_some_iff {cs : List Char} {word : Keyword} :
    Keyword.ofChars? cs = some word ↔
      ∃ spelling, (spelling, word) ∈ Keyword.spellings ∧ cs = spelling.toList := by
  rw [Keyword.ofChars?, Option.map_eq_some_iff]
  constructor
  · rintro ⟨p, hp, rfl⟩
    have htext := List.find?_some hp
    exact ⟨p.1, List.mem_of_find?_eq_some hp, (of_decide_eq_true htext).symm⟩
  · rintro ⟨spelling, hmem, rfl⟩
    have hall : ∀ p ∈ Keyword.spellings,
        (Keyword.spellings.find? fun q ↦ q.1.toList = p.1.toList) = some p := by
      decide
    exact ⟨_, hall _ hmem, rfl⟩

theorem isValueMark_iff {c : Char} : isValueMark c = true ↔ c = '=' ∨ c = ',' := by
  rw [isValueMark, Bool.or_eq_true, beq_iff_eq, beq_iff_eq]

/-- A keyword is the text before the first value mark. -/
theorem keyword?_append {spelling : String} {word : Keyword}
    (hmem : (spelling, word) ∈ Keyword.spellings) {rest : List Char} :
    (∀ c, rest.head? = some c → isValueMark c = true) →
      keyword? (spelling.toList ++ rest) = match rest with
        | [] => some (.keyword word none)
        | _ :: digits => (number? digits).map fun n ↦ .keyword word (some n) := by
  intro hrest
  have hspelling : ∀ p ∈ Keyword.spellings, (p.1.toList.all fun c ↦ !isValueMark c) = true := by
    decide
  have hunmarked := List.all_eq_true.1 (hspelling _ hmem)
  obtain ⟨htake, hdrop⟩ := takeWhile_dropWhile_append hunmarked fun c hc ↦ by
    rw [hrest c hc, Bool.not_true]
  rw [keyword?, htake, hdrop, keywordOfChars?_eq_some_iff.2 ⟨spelling, hmem, rfl⟩]
  rfl

theorem keyword?_eq_some_iff {cs : List Char} {e : Expr} :
    keyword? cs = some e ↔ Derives .keyword cs e := by
  constructor
  · intro h
    obtain ⟨word, hword, h⟩ := Option.bind_eq_some_iff.1 h
    obtain ⟨spelling, hmem, hspelling⟩ := keywordOfChars?_eq_some_iff.1 hword
    have hcs := List.takeWhile_append_dropWhile (p := fun c ↦ !isValueMark c) (l := cs)
    rw [hspelling] at hcs
    split at h
    · rename_i hrest
      obtain rfl := Option.some.inj h
      rw [← hcs, hrest, List.append_nil]
      exact .keyword hmem
    · rename_i mark digits hrest
      obtain ⟨n, hn, rfl⟩ := Option.map_eq_some_iff.1 h
      have hmark := List.head?_dropWhile_not (fun c ↦ !isValueMark c) cs
      rw [hrest, List.head?_cons] at hmark
      rw [← hcs, hrest]
      exact .keywordValue hmem (isValueMark_iff.1 (by simpa using hmark)) (number?_eq_some_iff.1 hn)
  · intro h
    cases h with
    | @keyword spelling _ hmem =>
      rw [← List.append_nil spelling.toList, keyword?_append hmem fun c hc ↦ by cases hc]
    | keywordValue hmem hmark hn =>
      rw [keyword?_append hmem]
      · simp only [number?_eq_some_iff.2 hn, Option.map_some]
      · intro c hc
        obtain rfl := Option.some.inj hc
        exact isValueMark_iff.2 hmark

/-! ### Tokens -/

/-- The reader of each form. -/
def Form.read : Form → List Char → Option Expr
  | relative => relative?
  | date => date?
  | selector => selector?
  | keyword => keyword?

theorem Form.read_eq_some_iff {f : Form} {cs : List Char} {e : Expr} :
    f.read cs = some e ↔ Derives f cs e := by
  cases f with
  | relative => exact relative?_eq_some_iff
  | date => exact date?_eq_some_iff
  | selector => exact selector?_eq_some_iff
  | keyword => exact keyword?_eq_some_iff

/-- A text spells one token at most. -/
theorem Derives.unique {f g : Form} {cs : List Char} {e e' : Expr} (hf : Derives f cs e)
    (hg : Derives g cs e') : f = g ∧ e = e' := by
  obtain rfl := hf.form_unique hg
  have hread := Form.read_eq_some_iff.2 hf
  rw [Form.read_eq_some_iff.2 hg] at hread
  exact ⟨rfl, (Option.some.inj hread).symm⟩

/-- Whatever the order of the forms, the first reader that takes a text gives its token. -/
theorem findSome?_read_eq_some_iff {forms : List Form} (hforms : ∀ f, f ∈ forms) {cs : List Char}
    {e : Expr} : (forms.findSome? fun f ↦ f.read cs) = some e ↔ ∃ f, Derives f cs e := by
  constructor
  · intro h
    obtain ⟨f, _, hf⟩ := List.exists_of_findSome?_eq_some h
    exact ⟨f, Form.read_eq_some_iff.1 hf⟩
  · rintro ⟨f, hf⟩
    refine findSome?_eq_some (hforms f) (Form.read_eq_some_iff.2 hf) fun g _ e' hg ↦ ?_
    exact ((Form.read_eq_some_iff.1 hg).unique hf).2

theorem ofChars?_eq_findSome? (cs : List Char) :
    Expr.ofChars? cs = Form.all.findSome? fun f ↦ f.read cs := by
  unfold Expr.ofChars?
  simp only [Form.all, List.findSome?_cons, List.findSome?_nil, Form.read, selector?]
  cases relative? cs
  · cases date? cs
    · cases years? cs <;> cases months? cs <;> cases weekdays? cs <;> cases keyword? cs <;> rfl
    · rfl
  · rfl

theorem ofChars?_eq_some_iff {cs : List Char} {e : Expr} :
    Expr.ofChars? cs = some e ↔ ∃ f, Derives f cs e := by
  rw [ofChars?_eq_findSome?]
  exact findSome?_read_eq_some_iff Form.mem_all

theorem ofChars?_eq_none_iff {cs : List Char} :
    Expr.ofChars? cs = none ↔ ∀ f e, ¬ Derives f cs e := by
  simp only [Option.eq_none_iff_forall_ne_some, ne_eq, ofChars?_eq_some_iff, not_exists]
  exact forall_comm

theorem not_derives_nil (f : Form) (e : Expr) : ¬ Derives f [] e :=
  ofChars?_eq_none_iff.1 rfl f e

/-- The three ways in which a text is read. -/
theorem ofText_cases (text : String) :
    canonicalChars text.toList = [] ∧ Expr.ofText text = .error .empty ∨
    (canonicalChars text.toList ≠ [] ∧ (∀ f e, ¬ Derives f (canonicalChars text.toList) e) ∧
      Expr.ofText text = .error (.unknown (canonical text))) ∨
    ∃ f e, Derives f (canonicalChars text.toList) e ∧ Expr.ofText text = .ok e := by
  by_cases hnil : canonicalChars text.toList = []
  · exact Or.inl ⟨hnil, if_pos hnil⟩
  · right
    rw [Expr.ofText, if_neg hnil, canonical]
    cases he : Expr.ofChars? (canonicalChars text.toList) with
    | none => exact Or.inl ⟨hnil, ofChars?_eq_none_iff.1 he, rfl⟩
    | some e =>
      obtain ⟨f, hf⟩ := ofChars?_eq_some_iff.1 he
      exact Or.inr ⟨f, e, hf, rfl⟩

/-- A text that is canonically empty is the empty one; any other spells the token that the grammar
derives from its canonical text, or is unknown when there is none. No text has two forms or two
tokens, so the forms may be tried in any order. -/
theorem ofText_follows_grammar (text : String) :
    (Expr.ofText text = .error .empty ↔ canonical text = "") ∧
    (∀ e, Expr.ofText text = .ok e ↔ ∃ f, Derives f (canonical text).toList e) ∧
    (Expr.ofText text = .error (.unknown (canonical text)) ↔
      canonical text ≠ "" ∧ ∀ f e, ¬ Derives f (canonical text).toList e) ∧
    (∀ f e, f.read (canonical text).toList = some e ↔ Derives f (canonical text).toList e) ∧
    (∀ f g e e', Derives f (canonical text).toList e → Derives g (canonical text).toList e' →
      f = g ∧ e = e') ∧
    ∀ forms : List Form, forms.Perm Form.all →
      (forms.findSome? fun f ↦ f.read (canonical text).toList) =
        Expr.ofChars? (canonical text).toList := by
  have hempty : canonical text = "" ↔ canonicalChars text.toList = [] := by
    rw [← toList_canonical, String.toList_eq_nil_iff]
  rw [ne_eq, hempty, toList_canonical]
  refine ⟨?_, fun e ↦ ?_, ?_, fun f e ↦ Form.read_eq_some_iff, fun f g e e' ↦ Derives.unique,
    fun forms hperm ↦ ?_⟩
  · rcases ofText_cases text with ⟨hnil, hread⟩ | ⟨hne, _, hread⟩ | ⟨f, e, hf, hread⟩
    · exact iff_of_true hread hnil
    · rw [hread]
      exact iff_of_false (fun h ↦ by cases h) hne
    · rw [hread]
      exact iff_of_false (fun h ↦ by cases h) fun hnil ↦ not_derives_nil f e (hnil ▸ hf)
  · rcases ofText_cases text with ⟨hnil, hread⟩ | ⟨_, hnone, hread⟩ | ⟨f, e', hf, hread⟩
    · rw [hread, hnil]
      exact iff_of_false (fun h ↦ by cases h) fun ⟨f, hf⟩ ↦ not_derives_nil f e hf
    · rw [hread]
      exact iff_of_false (fun h ↦ by cases h) fun ⟨f, hf⟩ ↦ hnone f e hf
    · rw [hread, Except.ok.injEq]
      exact ⟨fun heq ↦ ⟨f, heq ▸ hf⟩, fun ⟨g, hg⟩ ↦ (hf.unique hg).2⟩
  · rcases ofText_cases text with ⟨hnil, hread⟩ | ⟨hne, hnone, hread⟩ | ⟨f, e, hf, hread⟩
    · rw [hread]
      exact iff_of_false (fun h ↦ by cases h) fun h ↦ h.1 hnil
    · exact iff_of_true hread ⟨hne, hnone⟩
    · rw [hread]
      exact iff_of_false (fun h ↦ by cases h) fun h ↦ h.2 f e hf
  · ext e
    rw [ofChars?_eq_some_iff]
    exact findSome?_read_eq_some_iff fun f ↦ hperm.mem_iff.2 f.mem_all

end Jukebox.Token.Grammar
