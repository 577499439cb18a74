import Harvest.Killmail.Basic
import Harvest.Total

/-! # Daily tallies

For each day of UTC: how many killmails were stored, and how many of them were the work of no
player or of a single one.
-/

namespace Harvest

open Harvest.Calendar

/-- The counts of a day. -/
structure DayTally where
  total : Nat
  npc : Nat
  solo : Nat
deriving DecidableEq, Repr, Inhabited

namespace DayTally

def zero : DayTally := ⟨0, 0, 0⟩

/-- Counts a killmail. -/
def add (t : DayTally) (k : Killmail) : DayTally :=
  { total := t.total + 1
    npc := if k.npc then t.npc + 1 else t.npc
    solo := if k.solo then t.solo + 1 else t.solo }

end DayTally

/-- The counts of all days with a killmail, in order of the days. -/
structure Tally where
  days : List (Date × DayTally)

namespace Tally

def empty : Tally := ⟨[]⟩

instance : Inhabited Tally := ⟨empty⟩

/-- Counts a killmail on a day, in a list sorted by day. -/
def addOn (d : Date) (k : Killmail) : List (Date × DayTally) → List (Date × DayTally)
  | [] => [(d, DayTally.zero.add k)]
  | (e, t) :: rest =>
    if d = e then (e, t.add k) :: rest
    else if d < e then (d, DayTally.zero.add k) :: (e, t) :: rest
    else (e, t) :: addOn d k rest

/-- Counts a killmail on the day of its time. -/
def observe (t : Tally) (k : Killmail) : Tally := ⟨addOn k.time.date k t.days⟩

/-- The counts of a day. -/
def day (t : Tally) (d : Date) : DayTally := (t.days.lookup d).getD .zero

/-- The number of killmails counted. -/
def total (t : Tally) : Nat := totalOf (fun d => d.2.total) t.days

end Tally

end Harvest
