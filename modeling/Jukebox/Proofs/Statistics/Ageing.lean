import Jukebox.Proofs.Calendar.MonthsAgo
import Jukebox.Statistics.Evaluate

/-!
# Recent, unpopular and unplayed files

A file is recent up to a month after its oldest play, unpopular from a year after it on, and
unplayed without any play. What was more than a year ago was more than a month ago, so a file is one
of these at most (`recent_unpopular_unplayed_exclusive`), also where looking back leaves the
calendar.

As time passes, a file stays unpopular and does not become recent again, except where looking back
turns back: on the last days of a month, which the month or year before does not have
(`ageing_one_way_unless_turned_back`).
-/

set_option autoImplicit false
set_option relaxedAutoImplicit false

namespace Jukebox

open Calendar

/-! ### Answers -/

/-- A statistic that answers a question: 1 if it holds and 0 if it does not. -/
def Statistic.Answers (s : Statistic) (p : Prop) : Prop :=
  p ∧ s = .count 1 ∨ ¬ p ∧ s = .count 0

theorem Statistic.Answers.of_ite {p q : Prop} [Decidable p] (h : p ↔ q) :
    (Statistic.count (if p then 1 else 0)).Answers q := by
  by_cases hp : p
  · rw [if_pos hp]
    exact Or.inl ⟨h.1 hp, rfl⟩
  · rw [if_neg hp]
    exact Or.inr ⟨fun hq ↦ hp (h.2 hq), rfl⟩

theorem Statistic.Answers.eq_one_iff {s : Statistic} {p : Prop} (h : s.Answers p) :
    s = .count 1 ↔ p := by
  rcases h with ⟨hp, rfl⟩ | ⟨hp, rfl⟩
  · exact iff_of_true rfl hp
  · exact iff_of_false (by decide) hp

theorem Statistic.Answers.number_eq_one {s : Statistic} {p : Prop} (h : s.Answers p) (hp : p) :
    s.number = 1 := by
  rw [h.eq_one_iff.2 hp, number]

theorem Statistic.Answers.number_eq_zero {s : Statistic} {p : Prop} (h : s.Answers p)
    (hp : ¬ p) : s.number = 0 := by
  rcases h with ⟨hyes, _⟩ | ⟨_, rfl⟩
  · exact absurd hyes hp
  · rfl

/-- Of three questions that exclude each other, one at most has the answer 1. -/
theorem Statistic.Answers.number_add_le {s t u : Statistic} {p q w : Prop} (hs : s.Answers p)
    (ht : t.Answers q) (hu : u.Answers w) (hpq : p → ¬ q) (hpw : p → ¬ w) (hqw : q → ¬ w) :
    s.number + t.number + u.number ≤ 1 := by
  by_cases hp : p
  · rw [hs.number_eq_one hp, ht.number_eq_zero (hpq hp), hu.number_eq_zero (hpw hp)]
    decide
  · by_cases hq : q
    · rw [hs.number_eq_zero hp, ht.number_eq_one hq, hu.number_eq_zero (hqw hq)]
      decide
    · rw [hs.number_eq_zero hp, ht.number_eq_zero hq]
      by_cases hw : w
      · rw [hu.number_eq_one hw]
        decide
      · rw [hu.number_eq_zero hw]
        decide

/-! ### The age of a file -/

namespace Record

variable {r : Record} {now later : Instant}

/-- The oldest play was not more than a month ago. -/
def IsRecent (r : Record) (now : Instant) : Prop := ∃ t ∈ r.earliest?, ¬ t < now.monthsAgo 1

/-- The oldest play was more than a year ago. -/
def IsUnpopular (r : Record) (now : Instant) : Prop := ∃ t ∈ r.earliest?, t < now.monthsAgo 12

theorem evaluate_recent (r : Record) (c : Context) :
    (Token.recent.evaluate r c).Answers (r.IsRecent c.reference.now) := by
  refine Statistic.Answers.of_ite
    (p := (r.earliest?.any fun t ↦ decide (c.monthAgo ≤ t)) = true) ?_
  simp only [Option.any_eq_true, decide_eq_true_eq, IsRecent, Option.mem_def, Instant.le_iff,
    Instant.lt_iff, Int.not_lt]
  exact Iff.rfl

theorem evaluate_unpopular (r : Record) (c : Context) :
    (Token.unpopular.evaluate r c).Answers (r.IsUnpopular c.reference.now) := by
  refine Statistic.Answers.of_ite
    (p := (r.earliest?.any fun t ↦ decide (t < c.yearAgo)) = true) ?_
  simp only [Option.any_eq_true, decide_eq_true_eq, IsUnpopular, Option.mem_def]
  exact Iff.rfl

theorem evaluate_unplayed (r : Record) (c : Context) :
    Token.unplayed.evaluate r c = .count (if r.events = [] then 1 else 0) := by
  unfold Token.evaluate Record.hasPlays
  cases r.events with
  | nil => rfl
  | cons t rest => rfl

theorem exists_mem_earliest?_iff {t : Instant} (ht : t ∈ r.earliest?) {p : Instant → Prop} :
    (∃ u ∈ r.earliest?, p u) ↔ p t := by
  rw [Option.mem_def.1 ht]
  simp only [Option.mem_some, exists_eq_left']

theorem not_isUnpopular_of_isRecent (h : r.IsRecent now) : ¬ r.IsUnpopular now := by
  obtain ⟨t, ht, hmonth⟩ := h
  rw [IsUnpopular, exists_mem_earliest?_iff ht]
  exact fun hyear ↦ hmonth (Instant.lt_monthsAgo_of_le (by decide) (by decide) hyear)

/-- A file of some age has a play. -/
theorem events_ne_nil {t : Instant} (ht : t ∈ r.earliest?) : r.events ≠ [] := by
  intro hnil
  rw [earliest?, hnil] at ht
  cases ht

/-- A file stays recent backwards in time, unless looking back has turned back over its oldest
play. -/
theorem isRecent_iff_of_later (hle : now ≤ later) (h : r.IsRecent later) :
    r.IsRecent now ↔ ¬ ∃ t ∈ r.earliest?, Instant.TurnsBack 1 now later t := by
  obtain ⟨t, ht, hlater⟩ := h
  rw [IsRecent, exists_mem_earliest?_iff ht, exists_mem_earliest?_iff ht,
    Instant.turnsBack_iff (by decide) hle, and_iff_left hlater]

/-- A file stays unpopular, unless looking back turns back over its oldest play. -/
theorem isUnpopular_iff_of_earlier (hle : now ≤ later) (h : r.IsUnpopular now) :
    r.IsUnpopular later ↔ ¬ ∃ t ∈ r.earliest?, Instant.TurnsBack 12 now later t := by
  obtain ⟨t, ht, hnow⟩ := h
  rw [IsUnpopular, exists_mem_earliest?_iff ht, exists_mem_earliest?_iff ht,
    Instant.turnsBack_iff (by decide) hle, and_iff_right hnow, not_not]

end Record

/-- Whatever its plays and the present are, of the questions whether a file is recent, unpopular or
unplayed the statistics answer one with 1 at most and the others with 0. -/
theorem recent_unpopular_unplayed_exclusive (r : Record) (c : Context) :
    (Token.recent.evaluate r c).Answers (r.IsRecent c.reference.now) ∧
      (Token.unpopular.evaluate r c).Answers (r.IsUnpopular c.reference.now) ∧
      (Token.unplayed.evaluate r c).Answers (r.events = []) ∧
      (Token.recent.evaluate r c).number + (Token.unpopular.evaluate r c).number +
        (Token.unplayed.evaluate r c).number ≤ 1 := by
  have hrecent := r.evaluate_recent c
  have hunpopular := r.evaluate_unpopular c
  have hunplayed : (Token.unplayed.evaluate r c).Answers (r.events = []) :=
    r.evaluate_unplayed c ▸ Statistic.Answers.of_ite Iff.rfl
  refine ⟨hrecent, hunpopular, hunplayed,
    hrecent.number_add_le hunpopular hunplayed Record.not_isUnpopular_of_isRecent ?_ ?_⟩
  · rintro ⟨t, ht, _⟩
    exact Record.events_ne_nil ht
  · rintro ⟨t, ht, _⟩
    exact Record.events_ne_nil ht

/-- As time passes, a file that is recent later has been recent before, and one that is unpopular
stays so, except exactly where looking back a month or a year turns back over its oldest play. For a
year this takes 28 and 29 February as the two days. -/
theorem ageing_one_way_unless_turned_back (r : Record) {c later : Context}
    (h : c.reference.now ≤ later.reference.now) :
    (Token.recent.evaluate r later = .count 1 →
      (Token.recent.evaluate r c = .count 1 ↔ ¬ ∃ t ∈ r.earliest?,
        Instant.TurnsBack 1 c.reference.now later.reference.now t)) ∧
    (Token.unpopular.evaluate r c = .count 1 →
      (Token.unpopular.evaluate r later = .count 1 ↔ ¬ ∃ t ∈ r.earliest?,
        Instant.TurnsBack 12 c.reference.now later.reference.now t)) ∧
    ∀ t, Instant.TurnsBack 12 c.reference.now later.reference.now t →
      c.reference.now.month = 2 ∧ c.reference.now.date.dayOfMonth = 28 ∧
        later.reference.now.date.dayOfMonth = 29 := by
  refine ⟨fun hrecent ↦ ?_, fun hunpopular ↦ ?_, fun t hturns ↦ hturns.leapDay⟩
  · rw [(r.evaluate_recent later).eq_one_iff] at hrecent
    rw [(r.evaluate_recent c).eq_one_iff, Record.isRecent_iff_of_later h hrecent]
  · rw [(r.evaluate_unpopular c).eq_one_iff] at hunpopular
    rw [(r.evaluate_unpopular later).eq_one_iff, Record.isUnpopular_iff_of_earlier h hunpopular]

/-- A second before nine o'clock on 28 February 2023, a play makes its file unpopular on 28 February
2024 at ten, and the file is unpopular on 29 February at nine. -/
theorem ageing_one_way_unless_turned_back_leap_day :
    let play : Instant :=
      ⟨⟨yearStart 2023 + 58, by decide⟩, 32399, 0, by decide, by decide, by decide⟩
    let now : Instant :=
      ⟨⟨yearStart 2024 + 58, by decide⟩, 36000, 0, by decide, by decide, by decide⟩
    let later : Instant :=
      ⟨⟨yearStart 2024 + 59, by decide⟩, 32400, 0, by decide, by decide, by decide⟩
    let r : Record := .ofFile {} [play]
    now ≤ later ∧ Token.unpopular.evaluate r (.of ⟨now, .sunday⟩ (some play)) = .count 1 ∧
      Token.unpopular.evaluate r (.of ⟨later, .sunday⟩ (some play)) = .count 1 := by
  intro play now later r
  let c : Context := .of ⟨now, .sunday⟩ (some play)
  let d : Context := .of ⟨later, .sunday⟩ (some play)
  have hle : c.reference.now ≤ d.reference.now := by decide
  have hnow : Token.unpopular.evaluate r c = .count 1 := by decide +kernel
  have hoff : ¬ ∃ t ∈ r.earliest?, Instant.TurnsBack 12 now later t := by
    have hplay : play ∈ r.earliest? := by
      rw [Option.mem_def]
      decide +kernel
    rw [Record.exists_mem_earliest?_iff hplay]
    exact fun hturns ↦ absurd hturns.notBeforeLater (by decide)
  exact ⟨hle, hnow, ((ageing_one_way_unless_turned_back r hle).2.1 hnow).2 hoff⟩

/-- A play at half past nine on 28 February 2023 is more than a year ago on 28 February 2024 at ten,
and not on 29 February at nine; and it is more than a month ago on 30 March 2023 at ten, and not on
31 March at nine. -/
theorem ageing_turns_back :
    let play : Instant :=
      ⟨⟨yearStart 2023 + 58, by decide⟩, 34200, 0, by decide, by decide, by decide⟩
    let ten (d : Date) : Instant := ⟨d, 36000, 0, by decide, by decide, by decide⟩
    let nine (d : Date) : Instant := ⟨d, 32400, 0, by decide, by decide, by decide⟩
    let r : Record := .ofFile {} [play]
    let context (now : Instant) : Context := .of ⟨now, .sunday⟩ (some play)
    (∃ now later : Instant, now = ten ⟨yearStart 2024 + 58, by decide⟩ ∧
      later = nine ⟨yearStart 2024 + 59, by decide⟩ ∧ now ≤ later ∧ ¬ now.isLeap ∧
      ¬ later.isLeap ∧ Token.unpopular.evaluate r (context now) = .count 1 ∧
      Token.unpopular.evaluate r (context later) = .count 0) ∧
    ∃ now later : Instant, now = ten ⟨yearStart 2023 + 88, by decide⟩ ∧
      later = nine ⟨yearStart 2023 + 89, by decide⟩ ∧ now ≤ later ∧ ¬ now.isLeap ∧
      ¬ later.isLeap ∧ r.earliest? = some play ∧ play ≤ now ∧
      Token.recent.evaluate r (context later) = .count 1 ∧
      Token.recent.evaluate r (context now) = .count 0 := by
  intro play ten nine r context
  exact ⟨⟨_, _, rfl, rfl, by decide, by decide, by decide, by decide +kernel, by decide +kernel⟩,
    _, _, rfl, rfl, by decide, by decide, by decide, by decide +kernel, by decide,
    by decide +kernel, by decide +kernel⟩

end Jukebox
