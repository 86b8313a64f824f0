import Jukebox.Assoc
import Jukebox.Text.Numeral

/-!
# Statistics

A statistic is a number or a series of numbers. Numbers add up, and so do series, place by place,
the shorter one going on with zeros; where a number meets a series, the series stands.

`Statistics` holds the statistics of a file, or of several files together, under the texts of
their tokens.
-/

set_option autoImplicit false
set_option relaxedAutoImplicit false

namespace Jukebox

inductive Statistic where
  | count (n : Int)
  | series (ns : List Int)
  deriving DecidableEq, Repr

namespace Statistic

/-- The number; a series has number 0. -/
def number : Statistic → Int
  | count n => n
  | series _ => 0

/-- The text: a series with `separator` between its members. -/
def text (separator : String) : Statistic → String
  | count n => toString n
  | series ns => separator.intercalate (ns.map toString)

/-- The sum of two series, as long as the longer one. -/
def addSeries : List Int → List Int → List Int
  | a :: as, b :: bs => (a + b) :: addSeries as bs
  | [], bs => bs
  | as, [] => as

def add : Statistic → Statistic → Statistic
  | count a, count b => count (a + b)
  | count _, series bs => series bs
  | series as, count _ => series as
  | series as, series bs => series (addSeries as bs)

theorem length_addSeries (as bs : List Int) :
    (addSeries as bs).length = max as.length bs.length := by
  fun_induction addSeries as bs <;> grind

end Statistic

/-- Why a statistic cannot be used. -/
inductive StatisticError where
  /-- There is no statistic for a token. -/
  | unknownToken (text : String)
  /-- A series orders no playlist. -/
  | notSortable (playlist token : String)
  deriving DecidableEq, Repr

def StatisticError.message : StatisticError → String
  | unknownToken text => s!"Token [{text}] was not resolved for this run"
  | notSortable playlist token =>
    s!"Playlist '{playlist}' cannot be ordered by series token [{token}]"

/-- Statistics by the texts of their tokens. -/
abbrev Statistics := Assoc String Statistic

namespace Statistics

/-- The statistic of a token, which must be there. -/
def require (s : Statistics) (text : String) : Except StatisticError Statistic :=
  match Assoc.get? s text with
  | some v => .ok v
  | none => .error (.unknownToken text)

/-- The number of a token, 0 if it has none. -/
def number (s : Statistics) (text : String) : Int := ((Assoc.get? s text).map (·.number)).getD 0

/-- Adds one statistic under a token. -/
def accumulate (s : Statistics) (text : String) (v : Statistic) : Statistics :=
  Assoc.set s text (match Assoc.get? s text with
    | some old => old.add v
    | none => v)

/-- Token by token the sum of several statistics. -/
def sum (all : List Statistics) : Statistics :=
  all.foldl (fun total s ↦ s.foldl (fun t (text, v) ↦ accumulate t text v) total) []

end Statistics

end Jukebox
