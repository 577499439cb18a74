import Harvest.Admission.Watch
import Harvest.Api.Endpoint
import Harvest.Backfill.Rehearsal
import Harvest.Feed

/-! # The service

The loops of the program run beside each other: the tracker and the poller keep the admission state
up to date, the importer works off the queue, and a backfill may walk over days. They run in
virtual time against a network. What calls report is published to the health monitor.

To ask the queue for an item takes a moment, in which the other loops go on.

## Main definitions

* `Service.Plan`, `Service`: the settings and the state of a run.
* `Service.Plan.run`: a run until its end.
-/

namespace Harvest

open Harvest.Calendar Harvest.Admission Harvest.Api

/-! ## State -/

/-- The state of a run. -/
structure Service where
  scene : Backfill.Scene
  health : Health

namespace Service

/-- Who acts in a run. -/
inductive Agent where
  | tracker
  | poller
  /-- The importer and the backfill. -/
  | inner (a : Backfill.Agent)
  /-- Ends the run after some time. -/
  | closer
deriving DecidableEq

/-- The settings and the surroundings of a run. -/
structure Plan where
  api : Config
  network : Network
  tracker : TrackerConfig
  trackerInterval : Nat
  pollerInterval : Nat
  backfill : Backfill.Script
  /-- The time after which all loops are told to stop. -/
  limit : Option Nat
  /-- The instant at which the run starts. -/
  start : Instant

namespace Plan

/-- The instant of a time. -/
def instant (p : Plan) (now : Nat) : Instant := (p.start.add? (.ofMillis now)).getD p.start

/-! ## Turns -/

/-- The loops have been told to stop. -/
def isStopping (s : Service) : Bool := s.scene.crew.world.stopping

/-- Publishes what calls have reported. -/
def publish (s : Service) (reported : List Telemetry) : Service :=
  let monitor := reported.foldl Telemetry.publish s.health.monitor
  { s with health := { s.health with monitor } }

/-- Something happens to the importer. -/
def perform (p : Plan) (s : Service) (h : Import.Happening) : Service × List Agent :=
  let (crew, woken) := p.backfill.importer.perform s.scene.crew h
  ({ s with scene := { s.scene with crew } }, woken.map fun a => .inner (.crew a))

/-- A loop goes on, unless it is to stop or its interval is zero. -/
def goesOn (s : Service) (interval : Nat) : Bool := !isStopping s && 0 < interval

/-- A turn of the tracker: the importer sees the state that is published. -/
def trackerTurn (p : Plan) (now : Nat) (s : Service) : Turn Service Agent :=
  if goesOn s p.trackerInterval then
    let (health, result) := s.health.tick p.tracker (p.instant now)
    let (s, woken) :=
      if health.monitor.publications = s.health.monitor.publications then (s, [])
      else p.perform s (.setAdmission health.monitor.state)
    let s := { s with health }
    match result with
    | .done _ => ⟨s, .sleep p.trackerInterval, woken⟩
    | .overflow => ⟨s, .wait, woken⟩
  else ⟨s, .wait, []⟩

/-- A turn of the poller. A call that fails leaves the load signal alone, and one that breaks down
ends the loop; what either has reported is published. -/
def pollerTurn (p : Plan) (now : Nat) (s : Service) : Turn Service Agent :=
  if goesOn s p.pollerInterval then
    match Client.loadSignal p.api p.network (p.instant now) with
    | .error e => ⟨publish s e.reported, .wait, []⟩
    | .ok (result, reported) =>
      let s := publish s reported
      let s := match result with
        | .ok l => { s with health := { s.health with monitor := s.health.monitor.publishLoad l } }
        | .error _ => s
      ⟨s, .sleep p.pollerInterval, []⟩
  else ⟨s, .wait, []⟩

/-- What the next turn of a worker reports. -/
def reportedBy (p : Plan) (now : Nat) (s : Service) (n : Nat) : List Telemetry :=
  match s.scene.crew.world.worker? n with
  | some { item, stage := .fetch, .. } =>
    match Client.fetchKillmail p.api p.network (p.instant now) item with
    | .ok (_, reported) => reported
    | .error e => e.reported
  | _ => []

/-- A turn of the importer or of the backfill. -/
def innerTurn (p : Plan) (now : Nat) (a : Backfill.Agent) (s : Service) : Turn Service Agent :=
  let reported := match a with
    | .crew (.worker n) => p.reportedBy now s n
    | _ => []
  let t := p.backfill.act now a s.scene
  let rest :=
    if a = .crew .loop ∧ t.state.crew.world.loop = .entered then .sleep 0 else t.rest
  ⟨publish { s with scene := t.state } reported, rest, t.woken.map .inner⟩

/-- A turn of whoever acts. -/
def act (p : Plan) (now : Nat) (a : Agent) (s : Service) : Turn Service Agent :=
  match a with
  | .tracker => p.trackerTurn now s
  | .poller => p.pollerTurn now s
  | .inner a => p.innerTurn now a s
  | .closer =>
    match p.limit with
    | none => ⟨s, .wait, []⟩
    | some limit =>
      if now < limit then ⟨s, .sleep (limit - now), []⟩
      else
        let (s, woken) := p.perform s .stop
        let walk := s.scene.walk
        ⟨{ s with scene := { s.scene with walk := { walk with cancelled := true } } }, .wait,
          woken ++ if walk.waits then [.inner .walker] else []⟩

/-! ## Runs -/

/-- Runs agents until an end, for at most the given number of turns. -/
def run (p : Plan) (agents : List Agent) (isEnd : Service → Bool) (s : Service) (turns : Nat) :
    Service :=
  ((Simulation.start s agents).run p.act isEnd turns).state

end Plan

end Service

end Harvest
