import Jukebox.Calendar.Instant
import Jukebox.Decimal.Binary64

/-!
Serial dates: days and parts of a day since 30 December 1899, as spreadsheets count them. A serial
date is a number of the binary format with 64 bits and names an instant to the millisecond.
-/

set_option autoImplicit false
set_option relaxedAutoImplicit false

namespace Jukebox.History

open Calendar Decimal

/-- The day of serial date 0. -/
def serialBase : Date := ⟨yearStart 1899 + 363, by decide⟩

/-- The instant of a serial date: the days in milliseconds, rounded twice, first as a product. -/
def ofSerial? (days : Binary64) : Option Instant := do
  let millis ← (days.mul (.ofNat 86400000)).toInt?
  (Instant.midnight serialBase).plus (millis * 1000000)

/-- The serial number that an entry spells, with a point or comma and no exponent. -/
def serial? (entry : List Char) : Option Binary64 :=
  let digits := entry.map fun c ↦ if c = ',' then '.' else c
  if digits.all fun c ↦ c.isDigit || c == '.' || c == '-' then Binary64.ofChars? digits else none

end Jukebox.History
