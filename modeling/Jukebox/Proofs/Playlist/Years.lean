import Jukebox.Playlist.Definition
import Jukebox.Proofs.Calendar.Period
import Jukebox.Proofs.Token.Spelling

/-!
# Years and their tokens

The years of a series, and those of a yearly playlist, follow each other without a gap
(`mem_yearsBetween_iff`). The playlist of a year is ranked by a date token with the year in four
digits and a length of one year. Such a text can be read exactly for the years from 0 to 9999
(`Definition.derives_yearToken`, `Definition.year_bounds_of_derives`), and then it stands for a
window that holds the instants of the year and no others (`Definition.ofText_yearToken`).
-/

set_option autoImplicit false
set_option relaxedAutoImplicit false

namespace Jukebox

open Text Calendar

/-! ### Years in a row -/

theorem mem_yearsBetween_iff {start stop y : Int} :
    y ∈ yearsBetween start stop ↔ start ≤ y ∧ y ≤ stop := by
  simp only [yearsBetween, List.mem_map, List.mem_range]
  constructor
  · rintro ⟨i, hi, rfl⟩
    omega
  · rintro ⟨hstart, hstop⟩
    exact ⟨(y - start).toNat, by omega, by omega⟩

theorem pairwise_yearsBetween (start stop : Int) : (yearsBetween start stop).Pairwise (· < ·) := by
  rw [yearsBetween, List.pairwise_map]
  exact List.pairwise_lt_range.imp fun h ↦ by omega

theorem length_yearsBetween (start stop : Int) :
    ((yearsBetween start stop).length : Int) = max 0 (stop - start + 1) := by
  rw [yearsBetween, List.length_map, List.length_range]
  omega

theorem eq_of_getElem?_yearsBetween {start stop y : Int} {i : Nat}
    (h : (yearsBetween start stop)[i]? = some y) : y = start + i := by
  obtain ⟨_, rfl⟩ := List.getElem?_eq_some_iff.1 h
  simp only [yearsBetween, List.getElem_map, List.getElem_range]

theorem Definition.startYear_of_le {n : Nat} (h : (n : Int) ≤ maxInt32) :
    Definition.startYear n = n := by
  have hpow : Nat.pow 2 32 = 4294967296 := by simp only [Nat.pow_eq, Nat.reducePow]
  rw [maxInt32] at h
  unfold Definition.startYear
  rw [hpow]
  exact Int.bmod_eq_of_le (by omega) (by omega)

/-- A definition by the yearly series stands for one definition per year. -/
theorem Definition.expand_perYear {name token : String} {max : Nat} {first current : Int}
    {value : Option Nat} (h : Token.Expr.ofText token = .ok (.keyword .perYear value)) :
    Definition.expand name token max first current =
      .ok ((yearsBetween (value.elim first Definition.startYear) current).map
        (Definition.ofYear name max)) := by
  simp only [Definition.expand, h]
  rfl

/-! ### The text -/

namespace Definition

open Token Token.Grammar

variable {y : Int}

theorem toList_yearToken (y : Int) :
    (yearToken y).toList = "date=".toList ++ (paddedInt 4 y ++ "-01-01,1y".toList) :=
  String.toList_ofList.trans (List.append_assoc _ _ _)

/-- From year 0 to 9999, the text is a date token of the grammar. -/
theorem derives_yearToken (hfirst : 0 ≤ y) (hlast : y ≤ 9999) :
    Derives .date (yearToken y).toList (.date y.toNat 1 1 none (some ⟨1, some .year⟩)) := by
  obtain ⟨n, rfl⟩ := Int.eq_ofNat_of_zero_le hfirst
  have hyear : Digits 4 (padded 4 n) n := digits_padded (by decide) (by omega)
  have hone : Digits 2 (padded 2 1) 1 := digits_padded (by decide) (by decide)
  have hlength : Length (',' :: (['1'] ++ ['y'])) (some ⟨1, some .year⟩) :=
    .some ⟨.digit rfl, by decide⟩ (.letter .year)
  rw [toList_yearToken, paddedInt, if_neg (by omega), Int.natAbs_natCast, Int.toNat_natCast]
  exact .date hyear hone hone .none hlength

/-- The text is its own canonical text, whatever the year. -/
theorem canonical_yearToken (y : Int) : canonical (yearToken y) = yearToken y := by
  have hyear : (paddedInt 4 y).all isPlain = true := by
    have hdigits : ∀ width, (padded width y.natAbs).all isPlain = true := fun width ↦
      (numeral_padded width y.natAbs).all_isPlain
    rw [paddedInt]
    split
    · rw [List.all_cons, hdigits]
      rfl
    · exact hdigits 4
  have hplain : (yearToken y).toList.all isPlain = true := by
    rw [toList_yearToken, List.all_append, List.all_append, hyear]
    rfl
  rw [canonical, canonicalChars_of_plain hplain, String.ofList_toList]

/-- Digits in front of a hyphen are told by the hyphen. -/
theorem takeWhile_isDigit_append {ds rest : List Char} (h : ∀ c ∈ ds, c.isDigit = true) :
    (ds ++ '-' :: rest).takeWhile Char.isDigit = ds :=
  (takeWhile_dropWhile_append h fun c hc ↦ by cases hc; rfl).1

/-- Of the text of any other year, the grammar makes nothing. -/
theorem year_bounds_of_derives {f : Form} {e : Expr} (h : Derives f (yearToken y).toList e) :
    0 ≤ y ∧ y ≤ 9999 := by
  rw [toList_yearToken] at h
  obtain rfl : f = .date := by
    change Derives f ("date".toList ++ '=' :: (paddedInt 4 y ++ "-01-01,1y".toList)) e at h
    have hform := Form.ofOpening_of_derives h
    rw [opening_append (by decide) (by rintro c ⟨⟩; rfl)] at hform
    exact (Option.some.inj hform).symm
  generalize htext : "date=".toList ++ (paddedInt 4 y ++ "-01-01,1y".toList) = cs at h
  cases h with
  | date hyear hmonth hday htime hlength =>
    -- The year is what comes before the first hyphen.
    have hys := congrArg (List.takeWhile Char.isDigit) (List.append_cancel_left htext)
    rw [takeWhile_isDigit_append hyear.1.all_isDigit] at hys
    have hfour := hyear.2
    rw [← hys, paddedInt] at hfour
    split at hfour
    · cases hfour
    · rename_i hnonneg
      have hdigits : ((padded 4 y.natAbs ++ "-01-01,1y".toList).takeWhile Char.isDigit) =
          padded 4 y.natAbs := takeWhile_isDigit_append fun c ↦ isDigit_of_mem_padded
      rw [hdigits, padded, List.length_append] at hfour
      have hlt : y.natAbs < 10 ^ 4 := (Nat.length_toDigits_le_iff (by decide) (by decide)).1
        (hfour ▸ Nat.le_add_left _ _)
      omega

/-! ### The window -/

/-- A date and a length of one year stand for the time until the same date of the next year. -/
theorem resolve_newYear {text : String} {n : Nat} {d e : Date} {r : Reference}
    (hd : Date.ofYmd? n 1 1 = some d) (hday : d.day = yearStart n)
    (he : e.day = yearStart (n + 1)) :
    (Expr.date n 1 1 none (some ⟨1, some .year⟩)).resolve text r =
      .ok (.range ⟨.midnight d, .midnight e⟩) := by
  have hshift : (Instant.midnight d).shift 1 Period.year.span =
      (Date.ofDay? (Period.year.firstDay r.weekStart (n + 1))).map .midnight :=
    Period.shift_midnight hday 1
  have hstop : (Instant.midnight d).shift 1 .year = some (.midnight e) := by
    rw [Period.firstDay, ← he, Date.ofDay?_day] at hshift
    exact hshift
  have hlt : Instant.midnight d < .midnight e := by
    rw [Instant.lt_midnight_iff]
    change d.day < e.day
    rw [hday, he]
    exact yearStart_lt_succ n
  have hstart : dateStart text n 1 1 none = .ok (.midnight d) := by
    simp only [dateStart, hd]
    rfl
  have hwindow : windowFrom text (.midnight d) (some ⟨1, some .year⟩) .day =
      .ok ⟨.midnight d, .midnight e⟩ := by
    simp only [windowFrom, Option.getD_some, hstop, Option.bind_some,
      Window.between?_eq_some_iff.2 ⟨hlt, rfl⟩]
  simp only [Expr.resolve, hstart, bind, Except.bind, hwindow]
  rfl

/-- Whatever the reference, the text names the window of the year. -/
theorem ofText_yearToken (hfirst : 0 ≤ y) (hlast : y ≤ 9999) (r : Reference) :
    ∃ w, NamedToken.ofText (yearToken y) r = .ok ⟨yearToken y, .range w⟩ ∧
      ∀ t, w.contains t = true ↔ t.year = y := by
  have hderives := derives_yearToken hfirst hlast
  obtain ⟨n, rfl⟩ := Int.eq_ofNat_of_zero_le hfirst
  obtain ⟨d, hd, hday⟩ := exists_newYear (y := n) (by unfold firstYear; omega)
    (by unfold lastYear; omega)
  obtain ⟨e, _, he⟩ := exists_newYear (y := n + 1) (by unfold firstYear; omega)
    (by unfold lastYear; omega)
  refine ⟨⟨.midnight d, .midnight e⟩, ?_, fun t ↦ ?_⟩
  · rw [hderives.ofText_eq, Int.toNat_natCast, resolve_newYear hd hday he]
    rfl
  · -- Years are numbered as periods, whichever day weeks begin on.
    have hforth : (n : Int) ≤ t.year ↔ yearStart n ≤ t.date.day :=
      (@Period.firstDay_le_iff .year r.weekStart t.date n).symm
    have hback : t.year < n + 1 ↔ t.date.day < yearStart (n + 1) :=
      (@Period.lt_firstDay_iff .year r.weekStart t.date (n + 1)).symm
    rw [Window.contains_iff, Instant.midnight_le_iff, Instant.lt_midnight_iff, hday, he, ← hforth,
      ← hback]
    omega

end Definition

end Jukebox
