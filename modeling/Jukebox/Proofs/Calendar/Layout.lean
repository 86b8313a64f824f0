import Jukebox.Calendar.Layout.Reader
import Jukebox.Proofs.Text.Pieces

/-!
What a layout reads off the head of a text. A number takes at least one character, and only digits,
blanks and signs (`exists_of_readPart`); a character that stands for itself takes just that one
(`eq_of_read?_literal`). So a layout that begins with a number and a mark reads only texts with the
mark behind the first character (`Layout.mem_tail_of_read?`), and so does the form for exchange
(`mem_tail_of_readExchange?`). A layout of numbers, blanks and marks reads only texts that have just
its marks between the numbers (`Layout.filter_isMark_of_read?`).
-/

set_option autoImplicit false
set_option relaxedAutoImplicit false

namespace Jukebox.Calendar

open Text

variable {part : NumberPart} {mark : Char} {cs rest : List Char} {s s' : LayoutState}

/-! ### Numbers -/

/-- A character that a number does not have: no digit, blank or sign. -/
def isMark (c : Char) : Bool := !c.isDigit && !isBlank c && c != '-' && c != '+'

theorem isMark_of_isDigit {c : Char} (h : c.isDigit = true) : isMark c = false := by
  rw [isMark, h]
  rfl

theorem isMark_of_isBlank {c : Char} (h : isBlank c = true) : isMark c = false := by
  rw [isMark, h, Bool.not_true, Bool.and_false]
  rfl

theorem exists_of_readNumber {least most n : Nat} (h : readNumber least most cs = some (n, rest)) :
    ∃ ds, cs = ds ++ rest ∧ least ≤ ds.length ∧ ∀ c ∈ ds, isMark c = false := by
  unfold readNumber at h
  dsimp only at h
  split at h
  · rename_i hleast
    obtain ⟨_, rfl⟩ := Prod.mk.inj (Option.some.inj h)
    exact ⟨_, (spanDigits_append most cs).symm, hleast,
      fun c hc ↦ isMark_of_isDigit (isDigit_of_mem_spanDigits c hc)⟩
  · cases h

theorem exists_of_readDigits {width : Option Nat} {n : Nat}
    (h : readDigits width cs = some (n, rest)) :
    ∃ ds, cs = ds ++ rest ∧ ds ≠ [] ∧ ∀ c ∈ ds, isMark c = false := by
  unfold readDigits at h
  obtain ⟨⟨m, tail⟩, hread, h⟩ := Option.bind_eq_some_iff.1 h
  dsimp only at h
  split at h
  · obtain ⟨_, rfl⟩ := Prod.mk.inj (Option.some.inj h)
    obtain ⟨ds, rfl, hlength, hds⟩ := exists_of_readNumber hread
    exact ⟨ds, rfl, List.length_pos_iff.1 hlength, hds⟩
  · cases h

/-- What is made of the digits does not change the text behind them. -/
theorem exists_of_map_readDigits {width : Option Nat} {f : Nat × List Char → Int × List Char}
    {n : Int} (hf : ∀ p, (f p).2 = p.2) (h : (readDigits width cs).map f = some (n, rest)) :
    ∃ m, readDigits width cs = some (m, rest) := by
  obtain ⟨⟨m, tail⟩, hread, heq⟩ := Option.map_eq_some_iff.1 h
  have hrest : tail = rest := (hf (m, tail)).symm.trans (congrArg Prod.snd heq)
  exact ⟨m, hrest ▸ hread⟩

/-- A number is digits, maybe behind blanks and a sign. -/
theorem exists_digits_of_readPart {n : Int} (h : readPart part cs = some (n, rest)) :
    ∃ front ds width m, cs = front ++ ds ∧ (∀ c ∈ front, isMark c = false) ∧
      readDigits width ds = some (m, rest) := by
  have hblanks : cs.takeWhile isBlank ++ skipBlanks cs = cs := List.takeWhile_append_dropWhile
  have hfront : ∀ c ∈ cs.takeWhile isBlank, isMark c = false :=
    fun c hc ↦ isMark_of_isBlank (List.all_eq_true.1 List.all_takeWhile c hc)
  have hsign : ∀ {sign ds}, isMark sign = false → skipBlanks cs = sign :: ds →
      cs = cs.takeWhile isBlank ++ [sign] ++ ds ∧
        ∀ c ∈ cs.takeWhile isBlank ++ [sign], isMark c = false := by
    intro sign ds hmark hcs
    rw [List.append_assoc, List.singleton_append, ← hcs, hblanks]
    exact ⟨rfl, List.forall_mem_append.2 ⟨hfront, List.forall_mem_singleton.2 hmark⟩⟩
  unfold readPart at h
  dsimp only at h
  split at h
  · rename_i hcs
    obtain ⟨m, hdigits⟩ := exists_of_map_readDigits (fun _ ↦ rfl) h
    obtain ⟨heq, hmarks⟩ := hsign (by decide) hcs
    exact ⟨_, _, none, m, heq, hmarks, hdigits⟩
  · rename_i hcs
    obtain ⟨m, hdigits⟩ := exists_of_map_readDigits (fun _ ↦ rfl) h
    obtain ⟨heq, hmarks⟩ := hsign (by decide) hcs
    exact ⟨_, _, none, m, heq, hmarks, hdigits⟩
  · obtain ⟨m, hdigits⟩ := exists_of_map_readDigits (fun _ ↦ rfl) h
    exact ⟨_, _, part.width, m, hblanks.symm, hfront, hdigits⟩

/-- A number takes something off the text, and no mark. -/
theorem exists_of_readPart {n : Int} (h : readPart part cs = some (n, rest)) :
    ∃ front, cs = front ++ rest ∧ front ≠ [] ∧ ∀ c ∈ front, isMark c = false := by
  obtain ⟨front, ds, width, m, rfl, hfront, hdigits⟩ := exists_digits_of_readPart h
  obtain ⟨digits, rfl, hne, hmarks⟩ := exists_of_readDigits hdigits
  exact ⟨front ++ digits, (List.append_assoc ..).symm,
    List.append_ne_nil_of_right_ne_nil front hne, List.forall_mem_append.2 ⟨hfront, hmarks⟩⟩

/-! ### Items -/

theorem afterChar?_eq_some_iff : afterChar? mark cs = some rest ↔ cs = mark :: rest := by
  cases cs with
  | nil => exact iff_of_false (fun h ↦ by cases h) (fun h ↦ by cases h)
  | cons c cs =>
    rw [afterChar?, List.cons.injEq]
    split <;> simp_all

theorem exists_of_read?_number (h : (LayoutItem.number part).read? s = some s') :
    ∃ n, readPart part s.2 = some (n, s'.2) := by
  obtain ⟨⟨n, rest⟩, hread, h⟩ := Option.bind_eq_some_iff.1 h
  obtain ⟨p, _, h⟩ := Option.bind_eq_some_iff.1 h
  obtain rfl := Option.some.inj h
  exact ⟨n, hread⟩

theorem eq_of_read?_literal (h : (LayoutItem.literal mark).read? s = some s') :
    s.2 = mark :: s'.2 := by
  obtain ⟨rest, hafter, h⟩ := Option.bind_eq_some_iff.1 h
  obtain rfl := Option.some.inj h
  exact afterChar?_eq_some_iff.1 hafter

/-- Blanks that are skipped are no marks. -/
theorem filter_isMark_skipBlanks (cs : List Char) :
    (skipBlanks cs).filter isMark = cs.filter isMark := by
  have hfront : (cs.takeWhile isBlank).filter isMark = [] := List.filter_eq_nil_iff.2 fun c hc ↦
    Bool.eq_false_iff.1 (isMark_of_isBlank (List.all_eq_true.1 List.all_takeWhile c hc))
  calc (skipBlanks cs).filter isMark
      = (cs.takeWhile isBlank).filter isMark ++ (skipBlanks cs).filter isMark := by
        rw [hfront, List.nil_append]
    _ = cs.filter isMark := by
        rw [← List.filter_append, skipBlanks, List.takeWhile_append_dropWhile]

/-! ### Layouts -/

/-- Where a layout goes on with a mark behind its first number, so does the text. -/
theorem Layout.exists_readPart_of_read? {more : Layout} {p : Parts}
    (h : Layout.read? (.number part :: .literal mark :: more) cs = some p) :
    ∃ n rest, readPart part cs = some (n, mark :: rest) := by
  obtain ⟨_, hfold, _⟩ := Option.bind_eq_some_iff.1 h
  rw [List.foldlM_cons] at hfold
  obtain ⟨s, hnumber, hfold⟩ := Option.bind_eq_some_iff.1 hfold
  rw [List.foldlM_cons] at hfold
  obtain ⟨s', hliteral, _⟩ := Option.bind_eq_some_iff.1 hfold
  obtain ⟨n, hpart⟩ := exists_of_read?_number hnumber
  exact ⟨n, s'.2, eq_of_read?_literal hliteral ▸ hpart⟩

theorem Layout.mem_tail_of_read? {more : Layout} {p : Parts}
    (h : Layout.read? (.number part :: .literal mark :: more) cs = some p) : mark ∈ cs.tail := by
  obtain ⟨n, rest, hpart⟩ := exists_readPart_of_read? h
  obtain ⟨front, rfl, hne, _⟩ := exists_of_readPart hpart
  rw [List.tail_append_of_ne_nil hne]
  exact List.mem_append_right _ List.mem_cons_self

/-- The parts that a calendar or a clock shows as numbers. -/
def NumberPart.isShown : NumberPart → Bool
  | .year | .month | .day | .hour | .minute | .second => true
  | _ => false

/-- Numbers of calendars and clocks, characters that stand for themselves, and blanks in front of
numbers. -/
def Layout.isPlain : Layout → Bool
  | [] => true
  | .literal _ :: rest => isPlain rest
  | .number part :: rest => part.isShown && isPlain rest
  | .blanks :: .number part :: rest => isPlain (.number part :: rest)
  | _ => false

/-- The character that stands for itself. -/
def LayoutItem.literal? : LayoutItem → Option Char
  | .literal c => some c
  | _ => none

/-- The marks that stand for themselves in a layout. -/
def Layout.marks (layout : Layout) : List Char :=
  (layout.filterMap LayoutItem.literal?).filter isMark

theorem Layout.marks_literal (c : Char) (more : Layout) :
    marks (.literal c :: more) = [c].filter isMark ++ more.marks := List.filter_append [c] _

theorem Layout.marks_number (part : NumberPart) (more : Layout) :
    marks (.number part :: more) = more.marks := rfl

theorem Layout.marks_blanks (more : Layout) : marks (.blanks :: more) = more.marks := rfl

theorem Layout.filter_isMark_of_foldlM {layout : Layout} (hplain : layout.isPlain = true)
    (h : layout.foldlM (fun s i ↦ i.read? s) s = some s') :
    s.2.filter isMark = layout.marks ++ s'.2.filter isMark := by
  induction layout using isPlain.induct generalizing s with
  | case1 =>
    obtain rfl := Option.some.inj h
    rfl
  | case2 c more ih =>
    rw [List.foldlM_cons] at h
    obtain ⟨u, hitem, hmore⟩ := Option.bind_eq_some_iff.1 h
    rw [eq_of_read?_literal hitem, ← List.singleton_append, List.filter_append, ih hplain hmore,
      marks_literal, List.append_assoc]
  | case3 part more ih =>
    rw [List.foldlM_cons] at h
    obtain ⟨u, hitem, hmore⟩ := Option.bind_eq_some_iff.1 h
    obtain ⟨n, hpart⟩ := exists_of_read?_number hitem
    obtain ⟨front, hcs, _, hfront⟩ := exists_of_readPart hpart
    have hnil : front.filter isMark = [] :=
      List.filter_eq_nil_iff.2 fun c hc ↦ Bool.eq_false_iff.1 (hfront c hc)
    rw [hcs, List.filter_append, hnil, List.nil_append, ih (Bool.and_eq_true_iff.1 hplain).2 hmore,
      marks_number]
  | case4 part more ih =>
    rw [List.foldlM_cons] at h
    obtain ⟨u, hitem, hmore⟩ := Option.bind_eq_some_iff.1 h
    obtain rfl := Option.some.inj hitem
    rw [← filter_isMark_skipBlanks, marks_blanks, ← ih hplain hmore]
  | case5 layout hnil hliteral hnumber hblanks =>
    rw [isPlain.eq_5 layout hnil hliteral hnumber hblanks] at hplain
    cases hplain

/-- Between the numbers of a text that a plain layout reads there are just the marks of the
layout. -/
theorem Layout.filter_isMark_of_read? {layout : Layout} {p : Parts} (hplain : layout.isPlain = true)
    (h : layout.read? cs = some p) : cs.filter isMark = layout.marks := by
  obtain ⟨⟨q, rest⟩, hfold, hrest⟩ := Option.bind_eq_some_iff.1 h
  rw [Option.ite_none_right_eq_some] at hrest
  obtain ⟨rfl, _⟩ := hrest
  rw [filter_isMark_of_foldlM hplain hfold, List.filter_nil, List.append_nil]

theorem Layout.instant?_eq_none {layout : Layout} (h : layout.read? cs = none) :
    layout.instant? cs = none := by
  rw [instant?, timestamp?, date?, h]
  rfl

theorem Layout.exists_of_instant? {layout : Layout} {t : Instant}
    (h : layout.instant? cs = some t) : ∃ p, layout.read? cs = some p := by
  cases hread : layout.read? cs with
  | some p => exact ⟨p, rfl⟩
  | none =>
    rw [instant?_eq_none hread] at h
    cases h

theorem mem_tail_of_readExchange? {t : Instant} (h : readExchange? cs = some t) :
    '-' ∈ cs.tail := by
  obtain ⟨⟨year, rest⟩, hyear, h⟩ := Option.bind_eq_some_iff.1 h
  obtain ⟨tail, hmark, _⟩ := Option.bind_eq_some_iff.1 h
  obtain ⟨ds, rfl, hlength, _⟩ := exists_of_readNumber hyear
  rw [afterChar?_eq_some_iff.1 hmark,
    List.tail_append_of_ne_nil (List.length_pos_iff.1 (by omega))]
  exact List.mem_append_right _ List.mem_cons_self

end Jukebox.Calendar
