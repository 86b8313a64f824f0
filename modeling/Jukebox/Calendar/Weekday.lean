/-!
Days of the week and names of months. A day is numbered from Sunday, which is 0; a name may be
written in full or as its first three letters.
-/

set_option autoImplicit false
set_option relaxedAutoImplicit false

namespace Jukebox.Calendar

inductive Weekday where
  | sunday | monday | tuesday | wednesday | thursday | friday | saturday
  deriving DecidableEq, Repr, Inhabited

namespace Weekday

/-- The number of a day, Sunday being 0. -/
def number : Weekday → Nat
  | sunday => 0
  | monday => 1
  | tuesday => 2
  | wednesday => 3
  | thursday => 4
  | friday => 5
  | saturday => 6

/-- The day with a number, numbers counting on through the weeks. -/
def ofNumber (n : Nat) : Weekday :=
  match n % 7 with
  | 0 => sunday
  | 1 => monday
  | 2 => tuesday
  | 3 => wednesday
  | 4 => thursday
  | 5 => friday
  | _ => saturday

/-- The seven days, Sunday first. -/
def all : List Weekday := [sunday, monday, tuesday, wednesday, thursday, friday, saturday]

theorem mem_all (d : Weekday) : d ∈ all := by cases d <;> decide

theorem number_lt (d : Weekday) : d.number < 7 := by cases d <;> decide

@[simp] theorem ofNumber_number (d : Weekday) : ofNumber d.number = d := by cases d <;> rfl

@[simp] theorem number_ofNumber (n : Nat) : (ofNumber n).number = n % 7 := by
  have h : n % 7 < 7 := Nat.mod_lt n (by decide)
  unfold ofNumber
  generalize n % 7 = r at *
  match r, h with
  | 0, _ | 1, _ | 2, _ | 3, _ | 4, _ | 5, _ | 6, _ => rfl

theorem number_inj {d e : Weekday} : d.number = e.number ↔ d = e :=
  ⟨fun h ↦ by rw [← ofNumber_number d, h, ofNumber_number], fun h ↦ h ▸ rfl⟩

/-- How many days after `start` the day comes for the first time. -/
def daysSince (d start : Weekday) : Nat := (d.number + 7 - start.number) % 7

/-- The name in lower case. -/
def name : Weekday → String
  | sunday => "sunday"
  | monday => "monday"
  | tuesday => "tuesday"
  | wednesday => "wednesday"
  | thursday => "thursday"
  | friday => "friday"
  | saturday => "saturday"

end Weekday

/-- The names of the months in lower case, January first. -/
def monthNames : List String :=
  ["january", "february", "march", "april", "may", "june", "july", "august", "september",
    "october", "november", "december"]

/-- `cs` is a name in full or its first three letters. -/
def isNameOf (name : String) (cs : List Char) : Bool :=
  cs = name.toList || cs = name.toList.take 3

/-- The weekday with a lower-case name. -/
def Weekday.ofName? (cs : List Char) : Option Weekday :=
  Weekday.all.find? fun d ↦ isNameOf d.name cs

/-- The number of the month with a lower-case name, January being 1. -/
def monthOfName? (cs : List Char) : Option Nat :=
  (monthNames.findIdx? fun name ↦ isNameOf name cs).map (· + 1)

end Jukebox.Calendar
