import Harvest.Power
import Harvest.Text.Digits

/-! # The text of durations

A duration is shown in the largest unit of which it holds at least one, with as many decimals as
are needed.
-/

namespace Harvest.Calendar

open Harvest.Text

/-- A duration in nanoseconds. -/
structure Duration where
  nanos : Nat
deriving DecidableEq, Repr, Inhabited

namespace Duration

def ofMillis (n : Nat) : Duration := ⟨n * 1000000⟩

def ofSeconds (n : Nat) : Duration := ⟨n * 1000000000⟩

/-- Whole milliseconds. -/
def millis (d : Duration) : Nat := d.nanos / 1000000

/-- Drops zeros at the end. -/
def dropZeros (ds : List Char) : List Char := (ds.reverse.dropWhile (· = '0')).reverse

/-- A number of units of `10 ^ places` nanoseconds. -/
def inUnit (nanos places : Nat) (unit : String) : String :=
  let fraction := dropZeros (padded places (nanos % tenTo places))
  let whole := showNat (nanos / tenTo places)
  if places = 0 ∨ fraction.isEmpty then whole ++ unit
  else whole ++ "." ++ String.ofList fraction ++ unit

/-- The text of a duration. -/
def text (d : Duration) : String :=
  if 1000000000 ≤ d.nanos then inUnit d.nanos 9 "s"
  else if 1000000 ≤ d.nanos then inUnit d.nanos 6 "ms"
  else if 1000 ≤ d.nanos then inUnit d.nanos 3 "µs"
  else inUnit d.nanos 0 "ns"

end Duration

end Harvest.Calendar
