import Harvest.Admission.Gate
import Harvest.Archive.Faults
import Harvest.Import.Importer
import Harvest.Queue.Faulty
import Harvest.Simulation

/-! # Rehearsals of the importer

A rehearsal runs an importer in virtual time against scripted surroundings: a source that answers
each fetch after a given time, stores that fail where they are told to, and things that happen at
given times. Its steps are steps of the importer, taken in the order in which a single thread takes
them: the loop and the workers go on until they have to wait.

## Main definitions

* `Script`: the settings and the surroundings.
* `Scene`, `Script.act`: the state of a rehearsal, and the turns of its agents.
* `Script.rehearse`: a run of the importer.
* `Script.process`: items handled one after another without the queue.
-/

namespace Harvest.Import

open Harvest.Admission Harvest.Api

/-! ## The script -/

/-- How the source answers a fetch. -/
structure Delivery where
  /-- The time that it takes. -/
  delay : Nat
  /-- The body, or the failure; without either the worker breaks down. -/
  result : Option (Except FetchError (List UInt8))

/-- The waits of the importer, in milliseconds. -/
structure Pace where
  /-- While all workers are busy. -/
  spacing : Nat
  /-- While the queue is empty, or after it has failed. -/
  idleWait : Nat
deriving DecidableEq, Repr

namespace Pace

/-- The length of a pause. -/
def of (p : Pace) : Pause → Nat
  | .busy => p.spacing
  | .idle | .failed => p.idleWait

end Pace

/-- The settings and the surroundings of a rehearsal. -/
structure Script where
  config : Config
  pace : Pace
  gate : Gate
  fetch : WorkItem → Delivery
  backupFails : Bool
  archiveFaults : ArchiveFaults

/-- Something that happens around the importer. -/
inductive Happening where
  | push (w : WorkItem) (score : Int)
  | setAdmission (s : State)
  | stop
  /-- The importer is looked at. -/
  | sample

/-- What is seen of an importer. -/
structure Sample where
  inFlight : Nat
  queued : Nat
  summary : Summary
  finished : Bool

/-! ## Scenes -/

/-- Who acts in a rehearsal. -/
inductive Agent where
  | loop
  | worker (n : Nat)
  /-- Makes things happen at their times. -/
  | director
deriving DecidableEq, Repr

/-- The state of a rehearsal. -/
structure Scene where
  world : World
  queueFaults : QueueFaults
  /-- What is still to happen, in order of time. -/
  upcoming : List (Nat × Happening)
  /-- Fetches with their times, the latest first. -/
  fetched : List (Nat × WorkItem)
  /-- What was seen, the latest first. -/
  samples : List Sample
  finishedAt : Option Nat

namespace Scene

/-- A scene in which nothing has happened yet. -/
def start (world : World) (faults : QueueFaults) (upcoming : List (Nat × Happening)) : Scene :=
  { world, queueFaults := faults, upcoming, fetched := [], samples := [], finishedAt := none }

def sample (sc : Scene) : Sample :=
  { inFlight := sc.world.inFlight, queued := sc.world.queue.size, summary := sc.world.depot.summary
    finished := sc.finishedAt.isSome }

/-- The loop waits for time to pass, for a change of the admission state, or to be stopped. -/
def loopWaits (sc : Scene) : Bool :=
  match sc.world.loop with
  | .held | .penalty | .pausing _ => true
  | _ => false

/-- Everything is over. -/
def isOver (sc : Scene) : Bool := sc.finishedAt.isSome && sc.upcoming.isEmpty

end Scene

/-! ## Turns -/

namespace Script

/-- The next event of the loop, if it need not wait for a worker. -/
def loopEvent? (sc : Scene) : Option Event :=
  match sc.world.loop with
  | .stopped => none
  | .joining => if sc.world.workers.isEmpty then some .loop else none
  | .pausing _ | .penalty => some (if sc.world.stopping then .interrupt else .wake)
  | .held => some (if sc.world.stopping then .interrupt else .loop)
  | .entered => some (if 0 < sc.queueFaults.pops then .popFails else .loop)
  | _ => some .loop

/-- What the loop does after a step that took it from one place to another. -/
def restOfLoop (c : Script) (before : Loop) (after : World) : Rest :=
  match after.loop with
  | .pausing p => .sleep (c.pace.of p)
  | .penalty => .sleep c.gate.penalty
  | .held => if before = .held then .wait else .none
  | .joining => if after.workers.isEmpty then .none else .wait
  | .stopped => .wait
  | _ => .none

/-- A turn of the loop. -/
def loopTurn (c : Script) (now : Nat) (sc : Scene) : Turn Scene Agent :=
  match loopEvent? sc with
  | none => ⟨sc, .wait, []⟩
  | some e =>
    match sc.world.next? c.config e with
    | none => ⟨sc, .wait, []⟩
    | some world =>
      let pops := match e with
        | .popFails => sc.queueFaults.pops - 1
        | _ => sc.queueFaults.pops
      let finishedAt := if world.loop = .stopped then some now else sc.finishedAt
      { state := { sc with world, queueFaults := { sc.queueFaults with pops }, finishedAt }
        rest := c.restOfLoop sc.world.loop world
        woken := (List.range' sc.world.made (world.made - sc.world.made)).map .worker }

/-- What a worker meets with at its next step; none if it breaks down. -/
def answer? (c : Script) (w : WorkItem) : Stage → Option Answer
  | .lookup => some (if c.archiveFaults.lookups.contains w.id then .fails else .done)
  | .fetch => (c.fetch w).result.map .fetched
  | .store _ _ => some (if c.archiveFaults.inserts.contains w.id then .fails else .done)
  | .backup _ _ => some (if c.backupFails then .fails else .done)
  | .observe _ | .count _ | .leave => some .done

/-- The next event of a worker. -/
def workerEvent (c : Script) (w : Worker) : Event :=
  match c.answer? w.item w.stage with
  | some a => .work w.number a
  | none => .crash w.number

/-- What a worker does before its next step. -/
def restBefore (c : Script) (w : WorkItem) : Stage → Rest
  | .fetch => if (c.fetch w).delay = 0 then .none else .sleep (c.fetch w).delay
  | _ => .none

/-- A turn of a worker. -/
def workerTurn (c : Script) (now n : Nat) (sc : Scene) : Turn Scene Agent :=
  match sc.world.worker? n with
  | none => ⟨sc, .wait, []⟩
  | some w =>
    match sc.world.next? c.config (c.workerEvent w) with
    | none => ⟨sc, .wait, []⟩
    | some world =>
      match world.worker? n with
      | some w' =>
        let fetched := match w'.stage with
          | .fetch => (now, w.item) :: sc.fetched
          | _ => sc.fetched
        ⟨{ sc with world, fetched }, c.restBefore w.item w'.stage, []⟩
      | none =>
        let last := world.loop = .joining ∧ world.workers.isEmpty
        ⟨{ sc with world }, .wait, if last then [.loop] else []⟩

/-- Something happens; whoever it concerns wakes. -/
def perform (c : Script) (sc : Scene) (h : Happening) : Scene × List Agent :=
  let stepped (e : Event) : Scene := { sc with world := (sc.world.next? c.config e).getD sc.world }
  match h with
  | .push w score =>
    if sc.queueFaults.refuses w then (sc, []) else (stepped (.push w score), [])
  | .setAdmission s => (stepped (.setAdmission s), if sc.world.loop = .held then [.loop] else [])
  | .stop => (stepped .stop, if sc.loopWaits then [.loop] else [])
  | .sample => ({ sc with samples := sc.sample :: sc.samples }, [])

/-- A turn of the director. -/
def directorTurn (c : Script) (now : Nat) (sc : Scene) : Turn Scene Agent :=
  match sc.upcoming with
  | [] => ⟨sc, .wait, []⟩
  | (time, h) :: upcoming =>
    if now < time then ⟨sc, .sleep (time - now), []⟩
    else
      let (sc, woken) := c.perform sc h
      ⟨{ sc with upcoming }, .none, woken⟩

/-- A turn of an agent. -/
def act (c : Script) (now : Nat) : Agent → Scene → Turn Scene Agent
  | .loop, sc => c.loopTurn now sc
  | .worker n, sc => c.workerTurn now n sc
  | .director, sc => c.directorTurn now sc

/-! ## Runs -/

/-- Runs the importer until it has stopped and nothing is left to happen, for at most the given
number of turns. -/
def rehearse (c : Script) (sc : Scene) (turns : Nat) : Scene :=
  ((Simulation.start sc [.loop, .director]).run c.act Scene.isOver turns).state

/-! ## Without the queue -/

/-- One item handled by itself from a stage on: the depot, the time, and the fetches with their
times, the latest first. -/
def handle (c : Script) (w : WorkItem) (now : Nat) (d : Depot) (fetched : List (Nat × WorkItem))
    (stage : Stage) : Depot × Nat × List (Nat × WorkItem) :=
  let now := match c.restBefore w stage with
    | .sleep time => now + time
    | _ => now
  match c.answer? w stage with
  | none => (d, now, fetched)
  | some a =>
    match h : stage.step? c.config.parties w d a with
    | none => (d, now, fetched)
    | some (d', stage') =>
      let fetched := match stage' with
        | .fetch => (now, w) :: fetched
        | _ => fetched
      c.handle w now d' fetched stage'
termination_by stage.rank
decreasing_by exact Stage.rank_lt_of_step? h

/-- What is known while items are handled by themselves. -/
structure Progress where
  depot : Depot
  now : Nat
  fetched : List (Nat × WorkItem)
  /-- The summaries after each item, the latest first. -/
  summaries : List Summary

/-- Handles items one after another, each once the gate lets it pass; an item that is never let
pass keeps all later ones waiting. -/
def process (c : Script) (tl : Timeline) : List WorkItem → Progress → Progress
  | [], p => p
  | w :: ws, p =>
    match c.gate.clearance? tl p.now with
    | none => p
    | some now =>
      let (depot, now, fetched) := c.handle w now p.depot p.fetched .lookup
      c.process tl ws { depot, now, fetched, summaries := depot.summary :: p.summaries }

end Script

end Harvest.Import
