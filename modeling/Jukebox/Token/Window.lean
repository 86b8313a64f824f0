import Jukebox.Calendar.Instant

/-!
Windows of time: all instants from a first one up to, and without, a last one.
-/

set_option autoImplicit false
set_option relaxedAutoImplicit false

namespace Jukebox

open Calendar

/-- The instants from `start` on that come before `stop`. -/
structure Window where
  start : Instant
  stop : Instant
  deriving DecidableEq

namespace Window

/-- The window between two instants, unless it is empty. -/
def between? (start stop : Instant) : Option Window :=
  if start < stop then some ⟨start, stop⟩ else none

/-- From the beginning to the end of the calendar. -/
def whole : Window := ⟨Instant.first, Instant.last⟩

def contains (w : Window) (t : Instant) : Bool := w.start ≤ t && t < w.stop

theorem contains_iff {w : Window} {t : Instant} :
    w.contains t = true ↔ w.start ≤ t ∧ t < w.stop := by
  simp [contains]

theorem between?_eq_some_iff {start stop : Instant} {w : Window} :
    between? start stop = some w ↔ start < stop ∧ w = ⟨start, stop⟩ := by
  unfold between?
  split <;> simp_all [eq_comm]

end Window

end Jukebox
