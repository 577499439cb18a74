import Harvest.Backfill.Report
import Harvest.Import.Importer
import Harvest.Queue.Dispatch

/-! # The walk of a backfill

A backfill walks over the days of a request. For each day it counts the stored killmails; while
they fall short of the total it fetches the listing of the day, enqueues the items whose id is not
stored, waits until the queue is drained, and counts again, for a limited number of passes.

The queue is drained once it is empty and nothing is in flight, asked in this order. A walk that
does not see the count of items in flight waits for one more interval instead.

As with the importer, everything happens in steps; what a step meets with outside of the stores is
its answer.

## Main definitions

* `Walk`: where a backfill stands.
* `Walk.step?`: its next step.
* `World`, `World.next?`: a backfill and an importer on the same stores.
-/

namespace Harvest.Backfill

open Harvest.Calendar Harvest.Text

/-! ## Settings and errors -/

/-- The settings that steps depend on. -/
structure Config where
  /-- How often a listing is asked for, at least once. -/
  dayAttempts : Nat
  /-- After so many days in a row without a total the walk is given up. -/
  maxMissingDates : Nat
  /-- How often a day is worked off. -/
  datePasses : Nat
  enqueueBatch : Nat
  /-- The items in flight can be seen. -/
  tracked : Bool
deriving DecidableEq

/-- Why a walk is given up. -/
inductive Abort where
  | totals (cause : SourceError)
  | day (date : Date) (attempts : Nat) (cause : SourceError)
  | missingDates (count : Nat) (last : Date)
  | storage (cause : StorageError)
  | queue (cause : QueueError)
  | cancelled
deriving DecidableEq

def Abort.message : Abort → String
  | .totals cause => "Unable to fetch history totals: " ++ cause.message
  | .day date attempts cause =>
    "Unable to fetch history for " ++ date.iso ++ " after " ++ showNat attempts ++ " attempts: "
      ++ cause.message
  | .missingDates count last =>
    showNat count ++ " consecutive dates missing from totals (last " ++ last.iso ++ ")"
  | .storage cause => "Storage error: " ++ cause.message
  | .queue cause => "Queue error: " ++ cause.message
  | .cancelled => "Reconciliation cancelled"

/-! ## State -/

/-- Where a walk stands: what its next step does. -/
inductive Stage where
  /-- It asks for the totals. -/
  | totals
  /-- It takes the next day. -/
  | next
  /-- It counts what is stored of a day. -/
  | count (date : Date) (total : Nat)
  /-- It looks whether the day needs another pass. -/
  | pass (day : DayReport)
  /-- It asks for the listing. -/
  | list (day : DayReport) (attempt : Nat)
  /-- It waits before it asks again. -/
  | backoff (day : DayReport) (attempt : Nat)
  /-- It asks which of the listed ids are stored. -/
  | lookup (day : DayReport) (listed : List WorkItem)
  /-- It enqueues a chunk of items with one score, and further chunks. -/
  | push (day : DayReport) (pushed : Nat) (score : Int) (chunk : List WorkItem)
    (rest : List (List WorkItem))
  /-- It asks for the length of the queue. -/
  | readLength (day : DayReport)
  /-- It asks what is in flight. -/
  | readInFlight (day : DayReport) (queued : Nat)
  /-- It waits before it asks again whether the queue is drained. -/
  | polling (day : DayReport)
  /-- It waits for what may still be in flight. -/
  | settling (day : DayReport)
  /-- It counts what is stored after a pass. -/
  | recount (day : DayReport)
  /-- It rests between days. -/
  | pausing
  | ended (r : Except Abort Report)

/-- Where a backfill stands. -/
structure Walk where
  stage : Stage
  /-- The days still to be walked. -/
  dates : List Date
  totals : Totals
  /-- How many days in a row had no total. -/
  missingRun : Nat
  report : Report
  cancelled : Bool

/-- A backfill about to start. -/
def Walk.start : Walk :=
  { stage := .totals, dates := [], totals := .empty, missingRun := 0, report := .empty
    cancelled := false }

instance : Inhabited Walk := ⟨.start⟩

/-- What a step meets with. -/
inductive Answer where
  /-- Whatever the step asks for is done. -/
  | done
  | storageFails (e : StorageError)
  | queueFails (e : QueueError)
  | totals (r : Except SourceError Totals)
  | listing (r : Except SourceError (List WorkItem))

/-! ## Steps -/

namespace Walk

/-- The backfill ends with an error. -/
def give (w : Walk) (a : Abort) : Walk := { w with stage := .ended (.error a) }

/-- The day is done. -/
def close (w : Walk) (r : Request) (day : DayReport) : Walk :=
  { w with report := { w.report with days := w.report.days ++ [day] }
           stage := if r.statsOnly then .next else .pausing }

/-- The next day is taken. -/
def takeDate (c : Config) (w : Walk) : Walk :=
  if w.cancelled then w.give .cancelled
  else
    match w.dates with
    | [] => { w with stage := .ended (.ok w.report) }
    | date :: dates =>
      match w.totals.day? date with
      | some total => { w with dates, missingRun := 0, stage := .count date total }
      | none =>
        let w := { w with dates, missingRun := w.missingRun + 1
                          report := { w.report with skipped := w.report.skipped ++ [date] } }
        if c.maxMissingDates ≤ w.missingRun then w.give (.missingDates w.missingRun date)
        else { w with stage := .next }

/-- The day is worked off once more, or done. -/
def beginPass (c : Config) (r : Request) (w : Walk) (day : DayReport) : Walk :=
  if day.after < day.total ∧ day.passes < c.datePasses then
    { w with stage := .list { day with passes := day.passes + 1 } 1 }
  else w.close r day

/-- The listing of the day has been asked for. -/
def receive (c : Config) (w : Walk) (day : DayReport) (attempt : Nat) :
    Except SourceError (List WorkItem) → Walk
  | .ok listed => { w with stage := .lookup day listed }
  | .error e =>
    if e.isRetryable ∧ attempt < max 1 c.dayAttempts then { w with stage := .backoff day attempt }
    else w.give (.day day.date attempt e)

/-- The listed items whose id is not stored, in their order. -/
def missingItems (listed : List WorkItem) (stored : List Killmail) : List WorkItem :=
  listed.filter fun i => !(stored.map Killmail.id).contains i.id

/-- The missing items are known. -/
def beginPush (c : Config) (w : Walk) (day : DayReport) (missing : List WorkItem) : Walk :=
  if missing = [] then { w with stage := .recount day }
  else { w with stage := .push day 0 0 [] (chunksOf c.enqueueBatch missing) }

/-- The range of times of a day. -/
def filter (date : Date) : Filter := .within (.day date)

/-- The next step of a backfill, on the stores of an importer and at an instant; none if it waits,
or if the answer does not fit. -/
def step? (c : Config) (r : Request) (now : Instant) (s : Import.World) (w : Walk) (a : Answer) :
    Option (Import.World × Walk) :=
  match w.stage, a with
  | .totals, .totals (.ok totals) => some (s, { w with totals, dates := r.dates, stage := .next })
  | .totals, .totals (.error e) => some (s, w.give (.totals e))
  | .next, .done => some (s, w.takeDate c)
  | .count date total, .done =>
    let day := DayReport.opened date total (s.depot.archive.count (filter date))
    some (s, if r.statsOnly then w.close r day else { w with stage := .pass day })
  | .count _ _, .storageFails e => some (s, w.give (.storage e))
  | .pass day, .done => some (s, w.beginPass c r day)
  | .list day attempt, .listing answer => some (s, w.receive c day attempt answer)
  | .lookup day listed, .done =>
    match s.depot.archive.find (.withIds (listed.map WorkItem.id)) with
    | .ok stored => some (s, w.beginPush c day (missingItems listed stored))
    | .error e => some (s, w.give (.storage e))
  | .lookup _ _, .storageFails e => some (s, w.give (.storage e))
  | .push day pushed score (i :: chunk) rest, .done =>
    some ({ s with queue := s.queue.push i score },
      { w with stage := .push day (pushed + 1) score chunk rest })
  | .push _ _ _ (_ :: _) _, .queueFails e => some (s, w.give (.queue e))
  | .push day pushed _ [] (chunk :: rest), .done =>
    some (s, { w with stage := .push day pushed (dispatchScore now) chunk rest })
  | .push day pushed _ [] [], .done =>
    some (s, { w with stage := .readLength { day with enqueued := day.enqueued + pushed } })
  | .readLength day, .done => some (s, { w with stage := .readInFlight day s.queue.size })
  | .readLength _, .queueFails e => some (s, w.give (.queue e))
  | .readInFlight day queued, .done =>
    let handling := if c.tracked then s.inFlight else 0
    if queued = 0 ∧ handling = 0 then
      some (s, { w with stage := if c.tracked then .recount day else .settling day })
    else some (s, { w with stage := .polling day })
  | .recount day, .done =>
    let after := s.depot.archive.count (filter day.date)
    some (s, { w with stage := .pass { day with after } })
  | .recount _, .storageFails e => some (s, w.give (.storage e))
  | _, _ => none

/-- The time of a wait is up. -/
def wake? (w : Walk) : Option Walk :=
  match w.stage with
  | .backoff day attempt => some { w with stage := .list day (attempt + 1) }
  | .polling day => some { w with stage := .readLength day }
  | .settling day => some { w with stage := .recount day }
  | .pausing => some { w with stage := .next }
  | _ => none

/-- The backfill waits for time to pass. -/
def waits (w : Walk) : Bool :=
  match w.stage with
  | .backoff _ _ | .polling _ | .settling _ | .pausing => true
  | _ => false

/-- A wait is given up, as the backfill is cancelled. -/
def interrupt? (w : Walk) : Option Walk :=
  if w.cancelled && w.waits then some (w.give .cancelled) else none

/-- How the backfill has ended, if it has. -/
def result? (w : Walk) : Option (Except Abort Report) :=
  match w.stage with
  | .ended r => some r
  | _ => none

end Walk

/-! ## With an importer -/

/-- A backfill and an importer on the same stores. -/
structure World where
  importer : Import.World
  walk : Walk

/-- A step of the backfill, of the importer, or of the world around them. -/
inductive Event where
  /-- The backfill takes its next step at an instant. -/
  | walk (now : Instant) (a : Answer)
  | wake
  | interrupt
  | cancel
  | importer (e : Import.Event)

namespace World

/-- The state after an event, if the event is possible. -/
def next? (importer : Import.Config) (c : Config) (r : Request) (s : World) : Event → Option World
  | .walk now a => (s.walk.step? c r now s.importer a).map fun (i, w) => ⟨i, w⟩
  | .wake => s.walk.wake?.map fun w => { s with walk := w }
  | .interrupt => s.walk.interrupt?.map fun w => { s with walk := w }
  | .cancel => some { s with walk := { s.walk with cancelled := true } }
  | .importer e => (s.importer.next? importer e).map fun i => { s with importer := i }

end World

end Harvest.Backfill
