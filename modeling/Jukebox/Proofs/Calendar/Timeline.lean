import Jukebox.Calendar.Instant

/-!
Instants among each other and on the timeline. Midnights compare by their days
(`midnight_le_iff`, `lt_midnight_iff`); outside leap seconds the timeline carries the order
(`lt_iff_timeline`) and a duration is added on it (`plus_of_not_leap`), as long as the calendar
lasts (`exists_ofTimeline?_iff`).
-/

set_option autoImplicit false
set_option relaxedAutoImplicit false

namespace Jukebox.Calendar.Instant

theorem isLeap_iff {t : Instant} : t.isLeap = true ↔ 1000000000 ≤ t.nano := decide_eq_true_iff

theorem not_isLeap_iff {t : Instant} : ¬ t.isLeap = true ↔ t.nano < 1000000000 := by
  rw [isLeap_iff, Nat.not_le]

/-! ### Midnights -/

@[simp] theorem isLeap_midnight (d : Date) : (midnight d).isLeap = false := rfl

theorem midnight_le_iff {d : Date} {t : Instant} : midnight d ≤ t ↔ d.day ≤ t.date.day := by
  have hsecond := t.second_lt
  have hnano := t.nano_lt
  simp only [le_iff, rank, midnight]
  omega

theorem lt_midnight_iff {d : Date} {t : Instant} : t < midnight d ↔ t.date.day < d.day := by
  have hsecond := t.second_lt
  have hnano := t.nano_lt
  simp only [lt_iff, rank, midnight]
  omega

/-- Whole days on the timeline are the midnights. -/
theorem ofTimeline?_days (n : Int) :
    ofTimeline? (n * 86400000000000) = (Date.ofDay? n).map midnight := by
  ext t
  rw [ofTimeline?_eq_some_iff, Option.map_eq_some_iff]
  have hsecond := t.second_lt
  constructor
  · rintro ⟨htime, hnano⟩
    simp only [timeline] at htime
    have hday : t.date.day = n := by omega
    refine ⟨t.date, Date.ofDay?_eq_some_iff.2 hday, ?_⟩
    rw [← rank_inj]
    simp only [rank, midnight]
    omega
  · rintro ⟨d, hd, rfl⟩
    rw [Date.ofDay?_eq_some_iff] at hd
    simp only [timeline, midnight]
    omega

theorem first_le (t : Instant) : first ≤ t := midnight_le_iff.2 t.date.inCalendar.1

/-! ### Lists in order -/

/-- Instants in order are told by the instants alone. -/
theorem ascending_eq_of_perm {ts us : List Instant} (h : ts.Perm us) :
    ascending ts = ascending us := by
  refine List.Perm.eq_of_pairwise (fun a b _ _ hab hba ↦ ?_) (pairwise_ascending ts)
    (pairwise_ascending us) ((ascending_perm ts).trans (h.trans (ascending_perm us).symm))
  exact rank_inj.1 (Int.le_antisymm hab hba)

theorem ascending_eq_iff {ts us : List Instant} :
    ascending ts = us ↔ us.Perm ts ∧ us.Pairwise (· ≤ ·) := by
  constructor
  · rintro rfl
    exact ⟨ascending_perm ts, pairwise_ascending ts⟩
  · rintro ⟨hperm, hsorted⟩
    rw [← ascending_eq_of_perm hperm]
    exact List.mergeSort_of_pairwise (hsorted.imp fun h ↦ decide_eq_true h)

/-! ### The timeline -/

theorem first_timeline : first.timeline = firstDay * 86400000000000 := by decide

theorem last_timeline : last.timeline + 1 = (lastDay + 1) * 86400000000000 := by decide

/-- The timeline holds an instant exactly from the first day of the calendar to the last. -/
theorem exists_ofTimeline?_iff {n : Int} :
    (∃ t, ofTimeline? n = some t) ↔
      firstDay * 86400000000000 ≤ n ∧ n < (lastDay + 1) * 86400000000000 := by
  constructor
  · rintro ⟨t, ht⟩
    obtain ⟨htime, hnano⟩ := ofTimeline?_eq_some_iff.1 ht
    have hsecond := t.second_lt
    have hday := t.date.inCalendar
    simp only [timeline] at htime
    omega
  · rintro ⟨hlow, hhigh⟩
    have hday : firstDay ≤ n / 86400000000000 ∧ n / 86400000000000 ≤ lastDay := by omega
    rw [ofTimeline?, Date.ofDay?, dif_pos hday]
    exact ⟨_, rfl⟩

theorem lt_iff_timeline {t u : Instant} (ht : ¬ t.isLeap) (hu : ¬ u.isLeap) :
    t < u ↔ t.timeline < u.timeline := by
  rw [not_isLeap_iff] at ht hu
  have hsecond := t.second_lt
  have hsecond' := u.second_lt
  simp only [lt_iff, rank, timeline]
  omega

/-! ### Durations -/

theorem plus_zero (t : Instant) : t.plus 0 = some t := by
  unfold plus
  split
  · rename_i hleap
    rw [Int.add_zero, ofTimeline?_eq_some_iff]
    exact ⟨rfl, hleap⟩
  · rw [dif_pos (by have := t.nano_lt; omega)]
    simp

theorem plus_of_not_leap {t : Instant} (ht : ¬ t.isLeap) (nanos : Int) :
    t.plus nanos = ofTimeline? (t.timeline + nanos) := by
  rw [not_isLeap_iff] at ht
  rw [plus, dif_pos ht]

/-- Outside leap seconds an addition stays on the timeline, as long as the calendar lasts. -/
theorem exists_plus_eq_some_iff {t : Instant} (ht : ¬ t.isLeap) {nanos : Int} :
    (∃ u, t.plus nanos = some u) ↔ firstDay * 86400000000000 ≤ t.timeline + nanos ∧
      t.timeline + nanos < (lastDay + 1) * 86400000000000 := by
  rw [plus_of_not_leap ht, exists_ofTimeline?_iff]

theorem timeline_of_plus {t u : Instant} (ht : ¬ t.isLeap) {nanos : Int}
    (h : t.plus nanos = some u) : u.timeline = t.timeline + nanos ∧ ¬ u.isLeap := by
  rw [plus_of_not_leap ht, ofTimeline?_eq_some_iff] at h
  exact ⟨h.1, not_isLeap_iff.2 h.2⟩

theorem plus_midnight (d : Date) (days : Int) :
    (midnight d).plus (days * 86400000000000) = (Date.ofDay? (d.day + days)).map midnight := by
  rw [plus_of_not_leap (by simp), ← ofTimeline?_days]
  congr 1
  simp only [timeline, midnight]
  omega

end Jukebox.Calendar.Instant
