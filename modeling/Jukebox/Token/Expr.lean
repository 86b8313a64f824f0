import Jukebox.Calendar.Shift

/-!
The syntax of tokens, before any calendar arithmetic: ranges relative to the present, dates,
selectors of years, months and weekdays, and keywords.
-/

set_option autoImplicit false
set_option relaxedAutoImplicit false

namespace Jukebox.Token

open Jukebox.Calendar

/-- Where a relative range is counted from. -/
inductive Anchor where
  /-- The present itself. -/
  | now
  /-- Midnight before the present. -/
  | today
  /-- The beginning of the current week. -/
  | week
  /-- The beginning of the current month. -/
  | month
  /-- The beginning of the current year. -/
  | year
  deriving DecidableEq, Repr

namespace Anchor

def all : List Anchor := [now, today, week, month, year]

def word : Anchor → String
  | now => "now"
  | today => "today"
  | week => "week"
  | month => "month"
  | year => "year"

/-- The unit of shifts and lengths that name none. -/
def unit : Anchor → Span
  | now => .hour
  | today => .day
  | week => .week
  | month => .month
  | year => .year

end Anchor

/-- A number of units, the unit left open when none is written. -/
structure Amount where
  value : Int
  unit : Option Span
  deriving DecidableEq, Repr

/-- The words that stand for a token by themselves. -/
inductive Keyword where
  | total | weekend | recent | unpopular | unplayed | prehistory | perYear | perMonth | perWeekday
  deriving DecidableEq, Repr

namespace Keyword

/-- Every spelling of every keyword. -/
def spellings : List (String × Keyword) :=
  [("total", total), ("weekend", weekend), ("weekends", weekend), ("recent", recent),
    ("unpopular", unpopular), ("unplayed", unplayed), ("prehistory", prehistory),
    ("peryear", perYear), ("permonth", perMonth), ("perweekday", perWeekday)]

/-- The first spelling. -/
def word : Keyword → String
  | total => "total"
  | weekend => "weekend"
  | recent => "recent"
  | unpopular => "unpopular"
  | unplayed => "unplayed"
  | prehistory => "prehistory"
  | perYear => "peryear"
  | perMonth => "permonth"
  | perWeekday => "perweekday"

def ofChars? (cs : List Char) : Option Keyword :=
  (spellings.find? fun p ↦ p.1.toList = cs).map Prod.snd

end Keyword

/-- A token as written. -/
inductive Expr where
  /-- A range counted from an anchor, such as `today-30d,31d`. -/
  | relative (anchor : Anchor) (shift length : Option Amount)
  /-- A range from a date, such as `date=2024-06-01t22:15,3h`. -/
  | date (year month day : Nat) (time : Option (Nat × Nat)) (length : Option Amount)
  /-- Calendar years, such as `year=2023,2024`. -/
  | years (values : List Nat)
  /-- Months of any year, such as `month=12` or `month=dec`. -/
  | months (values : List Nat)
  /-- Weekdays by their place in the week, such as `weekday=1,7`. -/
  | weekdayNumbers (values : List Nat)
  /-- Weekdays by name, such as `weekday=mon,tuesday`. -/
  | weekdayNames (days : List Weekday)
  /-- A keyword, such as `total` or `peryear=2015`. -/
  | keyword (word : Keyword) (value : Option Nat)
  deriving DecidableEq, Repr

end Jukebox.Token
