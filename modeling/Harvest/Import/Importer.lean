import Harvest.Admission.State
import Harvest.Import.Handling
import Harvest.Queue.Basic

/-! # The importer

The importer takes work items off the queue and gives each to a worker of its own. Not more than a
fixed number of workers are at work at a time, and an item is taken only after the admission state
has let it pass.

An item taken off the queue is counted as in flight. The count is raised before the item is taken
and lowered after its handling has ended, so that whoever reads the length of the queue first and
the count afterwards cannot miss an item. The worker itself lowers the count: one that breaks down
leaves it raised.

Everything happens in steps, of the loop, of the workers and of the world around them, which may
come in any order. A step that is not possible has no result.

## Main definitions

* `World`: the state of an importer with everything it works on.
* `Event`, `World.next?`: the steps.
* `World.runs?`: a sequence of steps.
-/

namespace Harvest.Import

open Harvest.Admission

/-! ## Settings -/

/-- What the importer does about an empty queue. -/
inductive Mode where
  /-- It waits for more. -/
  | service
  /-- It ends once the queue stays empty across one wait while no worker is left. -/
  | drain
deriving DecidableEq, Repr, Inhabited

/-- The settings that steps depend on. -/
structure Config where
  maxConcurrency : Nat
  mode : Mode
  parties : Parties
deriving DecidableEq

/-- The number of workers that there may be at a time, at least one. -/
def Config.slots (c : Config) : Nat := max 1 c.maxConcurrency

/-! ## State -/

/-- Why the loop pauses. -/
inductive Pause where
  /-- All workers are busy. -/
  | busy
  /-- The queue is empty. -/
  | idle
  /-- The queue has failed. -/
  | failed
deriving DecidableEq, Repr

/-- Where the loop stands: what its next step does. -/
inductive Loop where
  /-- It looks whether to stop and whether a worker is free. -/
  | top
  /-- It looks whether the admission state lets work pass. -/
  | held
  /-- It sits out the penalty of a degraded state. -/
  | penalty
  /-- It raises the count of items in flight. -/
  | cleared
  /-- It takes an item off the queue. -/
  | entered
  /-- It gives an item to a worker. -/
  | spawning (w : WorkItem)
  /-- It lowers the count again, as there was no item. -/
  | empty
  | broken
  /-- It waits for some time. -/
  | pausing (p : Pause)
  /-- It waits for the last workers. -/
  | joining
  | stopped
deriving DecidableEq

/-- A worker with its item. Workers are numbered as they are made. -/
structure Worker where
  number : Nat
  item : WorkItem
  stage : Stage

/-- An importer with everything it works on. -/
structure World where
  queue : Queue
  depot : Depot
  workers : List Worker
  /-- The number of workers made. -/
  made : Nat
  /-- Workers that have ended since the loop last looked. -/
  ended : Nat
  inFlight : Nat
  loop : Loop
  /-- No item was found when the loop last looked, and no worker was left. -/
  wasIdle : Bool
  stopping : Bool
  admission : State

namespace World

/-- An importer about to start. -/
def start (q : Queue) (a : Archive) (admission : State) : World :=
  { queue := q, depot := .ofArchive a, workers := [], made := 0, ended := 0, inFlight := 0
    loop := .top, wasIdle := false, stopping := false, admission }

instance : Inhabited World := ⟨start default default .green⟩

/-- The worker of a number. -/
def worker? (s : World) (n : Nat) : Option Worker := s.workers.find? (·.number = n)

/-- Gives a worker its next stage. -/
def setStage (s : World) (n : Nat) (stage : Stage) : World :=
  { s with workers := s.workers.map fun w => if w.number = n then { w with stage } else w }

/-- Takes a worker out that has ended. -/
def retire (s : World) (n : Nat) : World :=
  { s with workers := s.workers.filter (·.number ≠ n), ended := s.ended + 1 }

/-- No worker is at work, and none has ended since the loop last looked. -/
def settled (s : World) : Bool := s.workers.isEmpty && s.ended == 0

end World

/-! ## Steps -/

/-- A step of the loop, of a worker, or of the world around them. -/
inductive Event where
  /-- The loop takes its next step. -/
  | loop
  /-- The queue fails as the loop asks it for an item. -/
  | popFails
  /-- The time of a pause or a penalty is up. -/
  | wake
  /-- The loop gives up waiting, as it is to stop. -/
  | interrupt
  /-- A worker takes its next step and meets with an answer. -/
  | work (n : Nat) (a : Answer)
  /-- A worker breaks down. -/
  | crash (n : Nat)
  | push (w : WorkItem) (score : Int)
  | setAdmission (s : State)
  | stop

namespace World

/-- The loop looks for a reason to stop and for a free worker. -/
def beginRound (c : Config) (s : World) : World :=
  if s.stopping then { s with loop := .joining }
  else
    let s := { s with ended := 0 }
    { s with loop := if s.workers.length < c.slots then .held else .pausing .busy }

/-- The loop looks at the admission state. -/
def askAdmission (s : World) : World :=
  if s.admission.isBlocking then s
  else if s.admission = .yellow then { s with loop := .penalty }
  else { s with loop := .cleared }

/-- The loop takes an item off the queue. -/
def pop (s : World) : World :=
  match s.queue.popMin with
  | (queue, .ok (some w)) => { s with queue, loop := .spawning w, wasIdle := false }
  | (queue, .ok none) => { s with queue, loop := .empty }
  | (queue, .error _) => { s with queue, loop := .broken }

/-- The loop gives an item to a new worker. -/
def spawn (s : World) (w : WorkItem) : World :=
  { s with workers := s.workers ++ [⟨s.made, w, .lookup⟩], made := s.made + 1, loop := .top }

/-- The loop has found the queue empty. -/
def rest (c : Config) (s : World) : World :=
  let s := { s with inFlight := s.inFlight - 1 }
  if c.mode = .drain ∧ s.settled ∧ s.wasIdle then { s with loop := .joining }
  else { s with wasIdle := s.settled, loop := .pausing .idle }

/-- The next step of the loop. -/
def advance? (c : Config) (s : World) : Option World :=
  match s.loop with
  | .top => some (s.beginRound c)
  | .held => some s.askAdmission
  | .cleared => some { s with inFlight := s.inFlight + 1, loop := .entered }
  | .entered => some s.pop
  | .spawning w => some (s.spawn w)
  | .empty => some (s.rest c)
  | .broken => some { s with inFlight := s.inFlight - 1, loop := .pausing .failed }
  | .joining => if s.workers.isEmpty then some { s with ended := 0, loop := .stopped } else none
  | .penalty | .pausing _ | .stopped => none

/-- The next step of a worker. -/
def work? (c : Config) (s : World) (n : Nat) (a : Answer) : Option World := do
  let w ← s.worker? n
  match w.stage with
  | .leave => some { s.retire n with inFlight := s.inFlight - 1 }
  | stage => do
    let (depot, stage) ← stage.step? c.parties w.item s.depot a
    return { s with depot }.setStage n stage

/-- The state after an event, if the event is possible. -/
def next? (c : Config) (s : World) : Event → Option World
  | .loop => s.advance? c
  | .popFails => if s.loop = .entered then some { s with loop := .broken } else none
  | .wake =>
    match s.loop with
    | .penalty => some { s with loop := .cleared }
    | .pausing _ => some { s with loop := .top }
    | _ => none
  | .interrupt =>
    match s.stopping, s.loop with
    | true, .held | true, .penalty | true, .pausing _ => some { s with loop := .joining }
    | _, _ => none
  | .work n a => s.work? c n a
  | .crash n => (s.worker? n).map fun _ => s.retire n
  | .push w score => some { s with queue := s.queue.push w score }
  | .setAdmission state => some { s with admission := state }
  | .stop => some { s with stopping := true }

/-- The state after a sequence of events, if all of them are possible. -/
def runs? (c : Config) (s : World) : List Event → Option World
  | [] => some s
  | e :: es =>
    match s.next? c e with
    | some s => s.runs? c es
    | none => none

theorem runs?_append (c : Config) (s : World) (xs ys : List Event) :
    s.runs? c (xs ++ ys) = (s.runs? c xs).bind fun t => t.runs? c ys := by
  induction xs generalizing s with
  | nil => rfl
  | cons e es ih =>
    simp only [List.cons_append, runs?]
    cases s.next? c e with
    | none => rfl
    | some t => exact ih t

end World

end Harvest.Import
