import Harvest.Backfill.Source
import Harvest.Total

/-! # Walks over days and their report

A backfill walks over the days from one date to another, in either direction, and reports for each
of them how many killmails there were, how many were stored before and after, and how many were
enqueued.
-/

namespace Harvest.Backfill

open Harvest.Calendar Harvest.Json Harvest.Text

/-! ## Walks -/

/-- Which way the days are walked. -/
inductive Direction where
  | forward
  | backward
deriving DecidableEq, Repr, Inhabited

namespace Direction

def name : Direction → String
  | .forward => "forward"
  | .backward => "backward"

/-- The small form of the letters from A to Z. -/
def lowered (s : String) : String := String.ofList (s.toList.map Char.toLower)

/-- Reads a direction, or says why it is none. -/
def parse (s : String) : Except String Direction :=
  let t := lowered s
  if t = "forward" ∨ t = "asc" then .ok .forward
  else if t = "backward" ∨ t = "desc" then .ok .backward
  else .error ("unknown direction " ++ quoted t)

end Direction

/-- The days from one date to a later one, both included. A day is passed only on the way to the
next one, so the last day of the calendar is never reached. -/
def daysBetween (low high : Date) : List Date :=
  (List.range (high.dayNumber - low.dayNumber + 1).toNat).filterMap fun (i : Nat) =>
    (Date.ofDayNumber? (low.dayNumber + i)).filter fun d => d.succ?.isSome

/-- The days between two dates, both included, in walking order. -/
def walk (start stop : Date) (direction : Direction) : List Date :=
  let days := if start ≤ stop then daysBetween start stop else daysBetween stop start
  match direction with
  | .forward => days
  | .backward => days.reverse

/-- What a backfill is asked to do. -/
structure Request where
  start : Date
  stop : Date
  direction : Direction
  /-- Only counts are compared; nothing is enqueued. -/
  statsOnly : Bool
deriving DecidableEq

namespace Request

/-- A single day. -/
def day (d : Date) : Request := ⟨d, d, .forward, false⟩

/-- The day before, or the first day of all. -/
def yesterday (today : Date) : Request := day (today.pred?.getD today)

def dates (r : Request) : List Date := walk r.start r.stop r.direction

end Request

/-! ## Reports -/

/-- What became of a day. -/
structure DayReport where
  date : Date
  /-- The number of killmails that the source knows. -/
  total : Nat
  /-- The numbers of killmails stored at first and at last. -/
  before : Nat
  after : Nat
  enqueued : Nat
  /-- How often the listing was worked off. -/
  passes : Nat
deriving DecidableEq

namespace DayReport

def isComplete (r : DayReport) : Bool := decide (r.total ≤ r.after)

def toValue (r : DayReport) : Value :=
  .object [("date", .text r.date.iso), ("total", .whole r.total), ("before", .whole r.before),
    ("after", .whole r.after), ("enqueued", .whole r.enqueued), ("passes", .whole r.passes),
    ("complete", .bool r.isComplete)]

/-- A day of which nothing has been done. -/
def opened (date : Date) (total before : Nat) : DayReport :=
  { date, total, before, after := before, enqueued := 0, passes := 0 }

end DayReport

/-- What became of a walk. -/
structure Report where
  days : List DayReport
  /-- The dates that the source does not count. -/
  skipped : List Date
deriving DecidableEq

namespace Report

def empty : Report := ⟨[], []⟩

instance : Inhabited Report := ⟨empty⟩

def enqueued (r : Report) : Nat := totalOf DayReport.enqueued r.days

/-- The killmails still missing, over all days. -/
def missing (r : Report) : Nat := totalOf (fun d => d.total - d.after) r.days

def toValue (r : Report) : Value :=
  .object [("days", .ofList DayReport.toValue r.days),
    ("skipped", .ofList (fun d => .text d.iso) r.skipped), ("enqueued", .whole r.enqueued),
    ("missing", .whole r.missing)]

end Report

end Harvest.Backfill
