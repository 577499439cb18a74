import Harvest.Calendar.TimeOfDay
import Harvest.Text.Quoted

/-! # The daily downtime window

The source is down every day for a while. The window is given by two times of day, both included;
a window whose end lies before its start runs past midnight.
-/

namespace Harvest.Admission

open Harvest.Calendar Harvest.Text

/-- A text that is no time of day. -/
structure InvalidTime where
  text : String
deriving DecidableEq

def InvalidTime.message (e : InvalidTime) : String :=
  "invalid time of day " ++ quoted e.text ++ ", expected HH:MM"

/-- The daily window of downtime. -/
structure Window where
  start : TimeOfDay
  stop : TimeOfDay
deriving DecidableEq

namespace Window

/-- From 10:58 to 11:25. -/
def standard : Window := ⟨.ofMinutes 10 58, .ofMinutes 11 25⟩

/-- Reads the two bounds of a window. -/
def parse (start stop : String) : Except InvalidTime Window :=
  match TimeOfDay.ofString? start with
  | none => .error ⟨start⟩
  | some a =>
    match TimeOfDay.ofString? stop with
    | none => .error ⟨stop⟩
    | some b => .ok ⟨a, b⟩

/-- Whether the window is open at a time of day. -/
def containsTime (w : Window) (t : TimeOfDay) : Bool :=
  if w.start ≤ w.stop then decide (w.start ≤ t) && decide (t ≤ w.stop)
  else decide (w.start ≤ t) || decide (t ≤ w.stop)

/-- Whether the window is open at an instant. -/
def contains (w : Window) (now : Instant) : Bool := w.containsTime now.timeOfDay

end Window

end Harvest.Admission
