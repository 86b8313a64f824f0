/-!
# The length of years and months

Days are numbered through, day 0 being 1 January of year 0 of the Gregorian calendar carried
backwards without end. `yearStart y` is the number of the first day of year `y`, and `yearOf`
finds the year of a day: `yearOf_eq_iff` says that it is the one year whose first day has come
while that of the next year has not.

Inside a year, `locate` walks through the month lengths; `locate_eq_iff` says that the place it
finds is the only one that adds up to the day sought.
-/

set_option autoImplicit false
set_option relaxedAutoImplicit false

namespace Jukebox.Calendar

/-! ### Years -/

/-- The number of the first day of year `y`. -/
def yearStart (y : Int) : Int := 365 * y + (y + 3) / 4 - (y + 99) / 100 + (y + 399) / 400

/-- A year divisible by 4, but not by 100 unless by 400. -/
def isLeapYear (y : Int) : Bool := y % 4 == 0 && (y % 100 != 0 || y % 400 == 0)

/-- The days of a year. -/
def yearLength (y : Int) : Nat := if isLeapYear y then 366 else 365

theorem yearStart_succ (y : Int) : yearStart (y + 1) = yearStart y + yearLength y := by
  simp only [yearStart, yearLength, isLeapYear, Bool.and_eq_true, Bool.or_eq_true, beq_iff_eq,
    bne_iff_ne, ne_eq]
  split <;> omega

theorem yearStart_lt_succ (y : Int) : yearStart y < yearStart (y + 1) := by
  rw [yearStart_succ, yearLength]
  split <;> omega

theorem yearStart_le_yearStart {y z : Int} (h : y ≤ z) : yearStart y ≤ yearStart z := by
  simp only [yearStart]
  omega

/-- The year of a day: a guess from the mean length of years, which is off by one at most. -/
def yearOf (n : Int) : Int :=
  let y := 400 * n / 146097
  if n < yearStart y then y - 1 else if yearStart (y + 1) ≤ n then y + 1 else y

theorem yearStart_yearOf_le (n : Int) : yearStart (yearOf n) ≤ n := by
  simp only [yearOf]
  split
  · simp only [yearStart] at *
    omega
  · split <;> omega

theorem lt_yearStart_yearOf_succ (n : Int) : n < yearStart (yearOf n + 1) := by
  simp only [yearOf]
  split
  · simpa using ‹n < _›
  · split
    · simp only [yearStart] at *
      omega
    · omega

theorem yearOf_eq_iff {n y : Int} : yearOf n = y ↔ yearStart y ≤ n ∧ n < yearStart (y + 1) := by
  constructor
  · rintro rfl
    exact ⟨yearStart_yearOf_le n, lt_yearStart_yearOf_succ n⟩
  · rintro ⟨hlo, hhi⟩
    have hlo' := yearStart_yearOf_le n
    have hhi' := lt_yearStart_yearOf_succ n
    rcases Int.lt_trichotomy (yearOf n) y with h | h | h
    · have := yearStart_le_yearStart (show yearOf n + 1 ≤ y from h)
      omega
    · exact h
    · have := yearStart_le_yearStart (show y + 1 ≤ yearOf n from h)
      omega

/-! ### Months -/

/-- The lengths of the twelve months. -/
def monthLengths (leap : Bool) : List Nat :=
  [31, if leap then 29 else 28, 31, 30, 31, 30, 31, 31, 30, 31, 30, 31]

/-- The days of a month, the first month being number 1; there is no month outside `1..12`. -/
def monthLength (y : Int) (month : Nat) : Nat :=
  if month = 0 then 0 else (monthLengths (isLeapYear y)).getD (month - 1) 0

/-- The days of a year before a month. -/
def monthStart (y : Int) (month : Nat) : Nat :=
  ((monthLengths (isLeapYear y)).take (month - 1)).foldr (· + ·) 0

/-- The month, counted from 0, and the day in it, counted from 0, of a day of the year. -/
def locate : List Nat → Nat → Nat × Nat
  | [], d => (0, d)
  | len :: rest, d =>
    if d < len then (0, d)
    else ((locate rest (d - len)).1 + 1, (locate rest (d - len)).2)

theorem locate_eq_iff {lens : List Nat} {d m r : Nat} (h : d < lens.foldr (· + ·) 0) :
    locate lens d = (m, r) ↔
      m < lens.length ∧ r < lens.getD m 0 ∧ (lens.take m).foldr (· + ·) 0 + r = d := by
  induction lens generalizing d m r with
  | nil => simp at h
  | cons len rest ih =>
    rw [List.foldr_cons] at h
    by_cases hd : d < len
    · cases m with
      | zero =>
        simp only [locate, hd, if_true, Prod.mk.injEq, true_and, List.length_cons,
          List.getD_cons_zero, List.take_zero, List.foldr_nil, Nat.zero_add]
        omega
      | succ m =>
        simp only [locate, hd, if_true, Prod.mk.injEq, List.take_succ_cons, List.foldr_cons]
        omega
    · cases m with
      | zero =>
        simp only [locate, hd, if_false, Prod.mk.injEq, List.getD_cons_zero, List.take_zero,
          List.foldr_nil]
        omega
      | succ m =>
        have := ih (d := d - len) (m := m) (r := r) (by omega)
        simp only [locate, hd, if_false, Prod.mk.injEq, Nat.add_right_cancel_iff,
          List.length_cons, List.getD_cons_succ, List.take_succ_cons, List.foldr_cons]
        rw [Prod.ext_iff] at this
        rw [this]
        omega

theorem sum_take_add_lt {lens : List Nat} {m r : Nat} (h : r < lens.getD m 0) :
    m < lens.length ∧ (lens.take m).foldr (· + ·) 0 + r < lens.foldr (· + ·) 0 := by
  induction lens generalizing m with
  | nil => simp at h
  | cons len rest ih =>
    cases m with
    | zero =>
      simp only [List.getD_cons_zero] at h
      simp only [List.length_cons, List.take_zero, List.foldr_nil, List.foldr_cons]
      omega
    | succ m =>
      have := ih (by simpa only [List.getD_cons_succ] using h)
      simp only [List.length_cons, List.take_succ_cons, List.foldr_cons]
      omega

theorem sum_monthLengths (y : Int) :
    (monthLengths (isLeapYear y)).foldr (· + ·) 0 = yearLength y := by
  simp only [monthLengths, yearLength]
  split <;> rfl

end Jukebox.Calendar
