import Jukebox.Calendar.Date

/-!
# Instants

An instant is a date, a second of the day and nanoseconds. The last second of a minute may be
followed by a leap second, whose nanoseconds count on from a billion.

`rank` puts all instants in one order. `timeline` counts nanoseconds as if there were no leap
seconds; `ofTimeline?_eq_some_iff` says that it names every other instant, once. `plus` adds a
duration: a leap second is left as its end when time runs forwards, and as its beginning when it
runs backwards.
-/

set_option autoImplicit false
set_option relaxedAutoImplicit false

namespace Jukebox.Calendar

structure Instant where
  date : Date
  /-- Seconds since midnight. -/
  second : Nat
  /-- Nanoseconds; a billion and more inside a leap second. -/
  nano : Nat
  second_lt : second < 86400
  nano_lt : nano < 2000000000
  leap_second : 1000000000 ≤ nano → second % 60 = 59
  deriving DecidableEq

namespace Instant

def isLeap (t : Instant) : Bool := 1000000000 ≤ t.nano

/-! ### Order -/

/-- The place of an instant in time, leap seconds included. -/
def rank (t : Instant) : Int := (t.date.day * 86400 + t.second) * 2000000000 + t.nano

theorem rank_inj {a b : Instant} : a.rank = b.rank ↔ a = b := by
  refine ⟨fun h ↦ ?_, fun h ↦ h ▸ rfl⟩
  obtain ⟨da, sa, na, hsa, hna, _⟩ := a
  obtain ⟨db, sb, nb, hsb, hnb, _⟩ := b
  simp only [rank] at h
  have hday : da.day = db.day := by omega
  obtain rfl : da = db := Date.ext_day hday
  obtain rfl : sa = sb := by omega
  obtain rfl : na = nb := by omega
  rfl

instance : LE Instant := ⟨fun a b ↦ a.rank ≤ b.rank⟩

instance : LT Instant := ⟨fun a b ↦ a.rank < b.rank⟩

instance (a b : Instant) : Decidable (a ≤ b) := inferInstanceAs (Decidable (a.rank ≤ b.rank))

instance (a b : Instant) : Decidable (a < b) := inferInstanceAs (Decidable (a.rank < b.rank))

theorem le_iff {a b : Instant} : a ≤ b ↔ a.rank ≤ b.rank := Iff.rfl

theorem lt_iff {a b : Instant} : a < b ↔ a.rank < b.rank := Iff.rfl

/-- The later of two instants. -/
def later (a b : Instant) : Instant := if a ≤ b then b else a

/-- The instants in order, each as often as given. -/
def ascending (ts : List Instant) : List Instant := ts.mergeSort fun a b ↦ decide (a ≤ b)

theorem ascending_perm (ts : List Instant) : (ascending ts).Perm ts := List.mergeSort_perm ts _

theorem pairwise_ascending (ts : List Instant) : (ascending ts).Pairwise (· ≤ ·) := by
  have h := @List.pairwise_mergeSort Instant (fun a b ↦ decide (a ≤ b))
    (fun a b c hab hbc ↦ by simp only [decide_eq_true_eq, le_iff] at *; omega)
    (fun a b ↦ by simp only [Bool.or_eq_true, decide_eq_true_eq, le_iff]; omega) ts
  simpa [ascending] using h

/-! ### Making instants -/

/-- The beginning of a date. -/
def midnight (d : Date) : Instant := ⟨d, 0, 0, by decide, by decide, by decide⟩

/-- The first instant of the calendar. -/
def first : Instant := midnight Date.first

/-- The last instant of the calendar that is not inside a leap second. -/
def last : Instant := ⟨Date.last, 86399, 999999999, by decide, by decide, by decide⟩

/-- The instant with a time of day; second 60 is the leap second. -/
def ofTime? (d : Date) (hour minute second nano : Nat) : Option Instant :=
  if h : hour < 24 ∧ minute < 60 ∧ second < 60 ∧ nano < 1000000000 then
    some ⟨d, hour * 3600 + minute * 60 + second, nano, by omega, by omega, by omega⟩
  else if h : hour < 24 ∧ minute < 60 ∧ second = 60 ∧ nano < 1000000000 then
    some ⟨d, hour * 3600 + minute * 60 + 59, 1000000000 + nano, by omega, by omega, by omega⟩
  else none

def year (t : Instant) : Int := t.date.year

def month (t : Instant) : Nat := t.date.month

def weekday (t : Instant) : Weekday := t.date.weekday

def hour (t : Instant) : Nat := t.second / 3600

def minute (t : Instant) : Nat := t.second / 60 % 60

/-! ### Durations -/

/-- Nanoseconds since day 0, the nanoseconds of a leap second running into the next second. -/
def timeline (t : Instant) : Int := (t.date.day * 86400 + t.second) * 1000000000 + t.nano

/-- The instant outside leap seconds at a number of nanoseconds, if the calendar holds it. -/
def ofTimeline? (n : Int) : Option Instant :=
  (Date.ofDay? (n / 86400000000000)).map fun d ↦
    ⟨d, (n / 1000000000 % 86400).toNat, (n % 1000000000).toNat, by omega, by omega, by omega⟩

theorem ofTimeline?_eq_some_iff {n : Int} {t : Instant} :
    ofTimeline? n = some t ↔ t.timeline = n ∧ t.nano < 1000000000 := by
  obtain ⟨d, s, k, hs, hk, hl⟩ := t
  simp only [ofTimeline?, Option.map_eq_some_iff, Date.ofDay?_eq_some_iff, timeline, mk.injEq]
  constructor
  · rintro ⟨e, he, rfl, rfl, rfl⟩
    omega
  · rintro ⟨rfl, h⟩
    exact ⟨d, by omega, rfl, by omega, by omega⟩

/-- The number of the day 1 January 1970. -/
def epochDay : Int := yearStart 1970

/-- The instant a number of seconds after the beginning of 1970. -/
def ofUnix? (seconds : Int) : Option Instant :=
  ofTimeline? ((epochDay * 86400 + seconds) * 1000000000)

/-- The seconds since the beginning of 1970; a leap second counts as the second before it. -/
def toUnix (t : Instant) : Int := (t.date.day - epochDay) * 86400 + t.second

/-- The instant a number of nanoseconds later, or earlier when the number is negative. -/
def plus (t : Instant) (nanos : Int) : Option Instant :=
  if hout : t.nano < 1000000000 then ofTimeline? (t.timeline + nanos)
  else if h : -1000000000 < nanos ∧ t.nano + nanos < 2000000000 then
    some { t with
      nano := (t.nano + nanos).toNat
      nano_lt := by omega
      leap_second := fun _ ↦ t.leap_second (by omega) }
  else if 0 < nanos then ofTimeline? (t.timeline - 1000000000 + nanos)
  else ofTimeline? (t.timeline + nanos)

/--
The nanoseconds from `u` to `t`. A leap second between the two times of day counts, whichever of
them it belongs to.
-/
def since (t u : Instant) : Int :=
  let passed : Int :=
    if u.second < t.second ∧ u.isLeap then 1
    else if t.second < u.second ∧ t.isLeap then -1
    else 0
  t.timeline - u.timeline + passed * 1000000000

end Instant

end Jukebox.Calendar
