import Jukebox.Proofs.Token.AnchorWindow

/-!
# Places in the week

A weekday may be selected by its place in the week, the day on which weeks begin being number 1.
The selector turns places into weekdays once, when the token is resolved, and the anchor of the
week turns weekdays back into days. `weekday_eq_ofNumber_iff` says that the two undo each other
wherever weeks begin: a date has the weekday of a place exactly if it is that many days into its
week. `weekPlaces_count_from_week` says it of the texts of such tokens.
-/

set_option autoImplicit false
set_option relaxedAutoImplicit false

namespace Jukebox

open Calendar Token

/-! ### Weeks -/

namespace Calendar.Period

variable {weekStart : Weekday}

/-- Weeks begin on the weekday on which they are said to begin. -/
theorem weekday_of_week_firstDay {d : Date} {i : Int} (hd : d.day = week.firstDay weekStart i) :
    d.weekday = weekStart := by
  have hstart := weekStart.number_lt
  rw [← Weekday.number_inj, Date.weekday, Weekday.number_ofNumber, hd, firstDay]
  omega

/-- A date has the weekday of a place exactly if it is as many days into its week. -/
theorem weekday_eq_ofNumber_iff {d : Date} {place : Nat} (hplace : 1 ≤ place ∧ place ≤ 7) :
    Weekday.ofNumber (place - 1 + weekStart.number) = d.weekday ↔
      d.day = week.firstDay weekStart (week.index weekStart d) + ((place : Int) - 1) := by
  have hstart := weekStart.number_lt
  rw [← Weekday.number_inj, Date.weekday, Weekday.number_ofNumber, Weekday.number_ofNumber,
    firstDay, index]
  omega

end Calendar.Period

/-- The week of a reference begins on a day with the right weekday, at most six days ago. -/
theorem Reference.exists_weekDay {r : Reference} (hnow : firstDay + 7 ≤ r.now.date.day) :
    ∃ d, r.anchor .week = .midnight d ∧
      d.day = Period.week.firstDay r.weekStart (Period.week.index r.weekStart r.now.date) ∧
      d.weekday = r.weekStart ∧ Instant.midnight d ≤ r.now ∧ r.now.date.day - d.day < 7 := by
  obtain ⟨d, hanchor, hd⟩ := anchor_eq_midnight .week hnow
  have hbegun : d.day ≤ r.now.date.day := hd ▸ Period.firstDay_le_iff.2 le_rfl
  have hlast : r.now.date.day < d.day + 7 := by
    have hnext : r.now.date.day <
        Period.week.firstDay r.weekStart (Period.week.current r + 1) :=
      Period.lt_firstDay_iff.2 (Int.lt_succ _)
    simp only [Period.firstDay] at hd hnext
    omega
  exact ⟨d, hanchor, hd, Period.weekday_of_week_firstDay hd, Instant.midnight_le_iff.2 hbegun,
    by omega⟩

/-! ### Selectors -/

namespace Token

variable {places : List Nat}

/-- The text that selects weekdays by their places. -/
def weekPlacesText (places : List Nat) : String :=
  "weekday=" ++ ",".intercalate (places.map toString)

theorem Grammar.items_intercalate (hne : places ≠ [])
    (h : ∀ n ∈ places, (n : Int) ≤ Text.maxInt64) :
    Items Number (",".intercalate (places.map toString)).toList places := by
  induction places with
  | nil => exact absurd rfl hne
  | cons n rest ih =>
    rw [List.forall_mem_cons] at h
    cases rest with
    | nil =>
      rw [List.map_singleton, String.intercalate_singleton]
      exact .one (number_toString h.1)
    | cons m rest =>
      rw [List.map_cons, List.map_cons, String.intercalate_cons_cons, String.toList_append,
        String.toList_append, ← List.map_cons, List.append_assoc]
      exact .cons (number_toString h.1) (ih (List.cons_ne_nil m rest) h.2)

theorem exprOfText_weekPlacesText (hne : places ≠ []) (hplaces : ∀ n ∈ places, 1 ≤ n ∧ n ≤ 7) :
    Expr.ofText (weekPlacesText places) = .ok (.weekdayNumbers places) := by
  have hvalues : ∀ n ∈ places, (n : Int) ≤ Text.maxInt64 := by
    intro n hn
    have hplace := hplaces n hn
    unfold Text.maxInt64
    omega
  have hderives :
      Grammar.Derives .selector (weekPlacesText places).toList (.weekdayNumbers places) := by
    rw [weekPlacesText, String.toList_append]
    exact .weekdayNumbers (Grammar.items_intercalate hne hvalues)
  exact hderives.exprOfText_eq

end Token

/-- Places in the week are counted from the beginning of the week in which an instant lies: however
the token is written, its test takes exactly the instants on a date so many days after the anchor of
their own week. That anchor is a midnight on the weekday on which weeks begin, not after the instant
and less than seven days before its midnight. -/
theorem weekPlaces_count_from_week (r : Reference) {places : List Nat} (hne : places ≠ [])
    (hplaces : ∀ n ∈ places, 1 ≤ n ∧ n ≤ 7) :
    ∃ token test, token.test? = some test ∧
      Expr.ofText (weekPlacesText places) = .ok (.weekdayNumbers places) ∧
      (∀ text, Expr.ofText text = .ok (.weekdayNumbers places) →
        NamedToken.ofText text r = .ok ⟨canonical text, token⟩) ∧
      ∀ t : Instant, firstDay + 7 ≤ t.date.day →
        ∃ d : Date, Reference.anchor ⟨t, r.weekStart⟩ .week = .midnight d ∧
          d.weekday = r.weekStart ∧ Instant.midnight d ≤ t ∧ t.date.day - d.day < 7 ∧
          (test t = true ↔ ∃ n ∈ places, t.date.day = d.day + ((n : Int) - 1)) := by
  refine ⟨.weekdays (weekdaySet (places.map fun n ↦ n - 1 + r.weekStart.number)), _, rfl,
    exprOfText_weekPlacesText hne hplaces, fun text htext ↦ ?_, fun t ht ↦ ?_⟩
  · rw [NamedToken.ofText_of_exprOfText htext, resolve_weekdayNumbers r hplaces]
    rfl
  · obtain ⟨d, hanchor, hd, hweekday, hle, hlt⟩ :=
      Reference.exists_weekDay (r := ⟨t, r.weekStart⟩) ht
    refine ⟨d, hanchor, hweekday, hle, hlt, ?_⟩
    rw [List.contains_iff_mem, mem_weekdaySet_iff, hd]
    constructor
    · rintro ⟨_, hnumber, hday⟩
      obtain ⟨n, hn, rfl⟩ := List.mem_map.1 hnumber
      exact ⟨n, hn, (Period.weekday_eq_ofNumber_iff (hplaces n hn)).1 hday⟩
    · rintro ⟨n, hn, hday⟩
      exact ⟨_, List.mem_map_of_mem hn, (Period.weekday_eq_ofNumber_iff (hplaces n hn)).2 hday⟩

/-- With weeks that begin on Wednesday, 2 January 2024 is in place 7 of a week that began in the
year before, and the day before it is in no place of the token. -/
theorem weekPlaces_count_from_week_new_year :
    let r : Reference := ⟨.last, .wednesday⟩
    [1, 7] ≠ [] ∧ (∀ n ∈ [1, 7], 1 ≤ n ∧ n ≤ 7) ∧
      ∃ token test, token.test? = some test ∧
        NamedToken.ofText "[Weekday = 1, 7]" r = .ok ⟨"weekday=1,7", token⟩ ∧
        test (.midnight ⟨yearStart 2024 + 1, by decide⟩) = true ∧
        test (.midnight ⟨yearStart 2024, by decide⟩) = false := by
  intro r
  have hplaces : ∀ n ∈ [1, 7], 1 ≤ n ∧ n ≤ 7 := by decide
  obtain ⟨token, test, htest, _, hnamed, hdays⟩ :=
    weekPlaces_count_from_week r (List.cons_ne_nil 1 [7]) hplaces
  have hread : Expr.ofText "[Weekday = 1, 7]" = .ok (.weekdayNumbers [1, 7]) := by decide +kernel
  have hname : canonical "[Weekday = 1, 7]" = "weekday=1,7" := by decide +kernel
  have hweek : ∀ t : Instant, firstDay + 7 ≤ t.date.day →
      (Reference.anchor ⟨t, .wednesday⟩ .week).date.day = yearStart 2024 - 5 →
        (test t = true ↔ t.date.day = yearStart 2024 - 5 ∨ t.date.day = yearStart 2024 + 1) := by
    intro t ht hbegun
    obtain ⟨d, hanchor, _, _, _, htaken⟩ := hdays t ht
    rw [hanchor] at hbegun
    change d.day = _ at hbegun
    rw [htaken, hbegun]
    simp only [List.mem_cons, List.not_mem_nil, or_false, exists_eq_or_imp, exists_eq_left]
    omega
  refine ⟨List.cons_ne_nil 1 [7], hplaces, token, test, htest, ?_, ?_, ?_⟩
  · rw [hnamed _ hread, hname]
  · exact (hweek _ (by decide) (by decide)).2 (Or.inr rfl)
  · rw [← Bool.not_eq_true, hweek _ (by decide) (by decide)]
    decide

end Jukebox
