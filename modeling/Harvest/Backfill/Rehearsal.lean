import Harvest.Backfill.Walk
import Harvest.Import.Rehearsal

/-! # Rehearsals of a backfill

A rehearsal runs a backfill in virtual time, with an importer beside it that has started one
millisecond earlier. The source of listings answers from a script and takes no time. Once the
backfill has ended, the importer is told to stop.
-/

namespace Harvest.Backfill

open Harvest.Calendar

/-- The waits of a backfill, in milliseconds. -/
structure Pace where
  dayBackoff : Nat
  drainPoll : Nat
  /-- Between days. -/
  pause : Nat
deriving DecidableEq, Repr

/-- The settings and the surroundings of a rehearsal. -/
structure Script where
  config : Config
  pace : Pace
  request : Request
  /-- The instant at which work is dispatched. -/
  clock : Instant
  totals : Except SourceError Totals
  /-- The listing of a day. -/
  day : Date → Except SourceError (List WorkItem)
  cancelAt : Option Nat
  importer : Import.Script

/-- Who acts in a rehearsal. -/
inductive Agent where
  | crew (a : Import.Agent)
  | walker
  | canceller
deriving DecidableEq, Repr

/-- The state of a rehearsal. -/
structure Scene where
  crew : Import.Scene
  walk : Walk
  /-- The failures with which the next listings are answered. -/
  dayFailures : List SourceError
  /-- The listings asked for with their times, the latest first. -/
  dayCalls : List (Nat × Date)
  endedAt : Option Nat
  /-- There is an importer. -/
  staffed : Bool

namespace Scene

/-- The backfill has ended, and so has the importer. -/
def isOver (sc : Scene) : Bool :=
  sc.endedAt.isSome && (!sc.staffed || sc.crew.finishedAt.isSome)

end Scene

namespace Script

/-- What the next step of the backfill meets with. -/
def answer (c : Script) (sc : Scene) : Answer :=
  let storage := c.importer.archiveFaults
  let queue := sc.crew.queueFaults
  match sc.walk.stage with
  | .totals => .totals c.totals
  | .list day _ =>
    match sc.dayFailures with
    | e :: _ => .listing (.error e)
    | [] => .listing (c.day day.date)
  | .count _ _ | .recount _ =>
    if storage.counts then .storageFails (.backend storage.cause) else .done
  | .lookup _ _ => if storage.finds then .storageFails (.backend storage.cause) else .done
  | .push _ _ _ (w :: _) _ => if queue.refuses w then .queueFails (.backend queue.cause) else .done
  | .readLength _ => if queue.counts then .queueFails (.backend queue.cause) else .done
  | _ => .done

/-- How long the backfill waits, if it does. -/
def restOfWalk (c : Script) (w : Walk) : Rest :=
  match w.stage with
  | .backoff _ _ => .sleep c.pace.dayBackoff
  | .polling _ | .settling _ => .sleep c.pace.drainPoll
  | .pausing => .sleep c.pace.pause
  | .ended _ => .wait
  | _ => .none

/-- The backfill has gone on to a new place; when it has ended, the importer is told to stop. -/
def arrive (c : Script) (now : Nat) (sc : Scene) (walk : Walk) : Turn Scene Agent :=
  match walk.result? with
  | none => ⟨{ sc with walk }, c.restOfWalk walk, []⟩
  | some _ =>
    let (crew, woken) := c.importer.perform sc.crew .stop
    ⟨{ sc with walk, crew, endedAt := some now }, .wait, woken.map .crew⟩

/-- A turn of the backfill. -/
def walkerTurn (c : Script) (now : Nat) (sc : Scene) : Turn Scene Agent :=
  if sc.walk.waits then
    match if sc.walk.cancelled then sc.walk.interrupt? else sc.walk.wake? with
    | some walk => c.arrive now sc walk
    | none => ⟨sc, .wait, []⟩
  else
    match sc.walk.step? c.config c.request c.clock sc.crew.world (c.answer sc) with
    | none => ⟨sc, .wait, []⟩
    | some (world, walk) =>
      let sc := match sc.walk.stage with
        | .list day _ =>
          { sc with dayFailures := sc.dayFailures.tail, dayCalls := (now, day.date) :: sc.dayCalls }
        | _ => sc
      c.arrive now { sc with crew := { sc.crew with world } } walk

/-- A turn of an agent. The backfill is first made to wait for the importer to start. -/
def act (c : Script) (now : Nat) (a : Agent) (sc : Scene) : Turn Scene Agent :=
  match a with
  | .crew a =>
    let t := c.importer.act now a sc.crew
    ⟨{ sc with crew := t.state }, t.rest, t.woken.map .crew⟩
  | .walker => if now = 0 then ⟨sc, .sleep 1, []⟩ else c.walkerTurn now sc
  | .canceller =>
    match c.cancelAt with
    | none => ⟨sc, .wait, []⟩
    | some time =>
      if now < time + 1 then ⟨sc, .sleep (time + 1 - now), []⟩
      else
        ⟨{ sc with walk := { sc.walk with cancelled := true } }, .wait,
          if sc.walk.waits then [.walker] else []⟩

/-- Runs the backfill and the importer until both have ended, for at most the given number of
turns. The backfill starts at time 1. -/
def rehearse (c : Script) (sc : Scene) (turns : Nat) : Scene :=
  let crew := if sc.staffed then [Agent.crew .loop] else []
  ((Simulation.start sc (crew ++ [.walker, .canceller])).run c.act Scene.isOver turns).state

end Script

end Harvest.Backfill
