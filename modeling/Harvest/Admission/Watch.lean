import Harvest.Admission.Monitor
import Harvest.Simulation

/-! # Watching the source

Two loops keep the monitor up to date. The tracker evaluates the signals, and the poller asks for a
load signal; both act at once and then at a fixed interval, until they are told to stop. A loop
whose interval is zero breaks down before it acts. A failed poll leaves the signal before it in
place.

The loops are run in virtual time, while steps are taken beside them. The clock that signals are
dated by is a clock of its own, which stands still unless a step moves it.

## Main definitions

* `Watch`: the monitor with the loops beside it.
* `Watch.run`: the steps taken beside the loops.
-/

namespace Harvest.Admission

open Harvest.Calendar

/-! ## State -/

/-- What the source answers when it is asked for a load signal: how many players are active, and
whether it admits the public; none if it fails. -/
abbrev Poll := Option (Int × Bool)

/-- A step beside the loops. -/
inductive WatchStep (α : Type) where
  | sleep (time : Nat)
  /-- The source is asked once more. -/
  | poll
  | stop
  /-- Something is done to the monitor or to the clock, or asked of them. -/
  | other (f : Monitor → Instant → Monitor × Instant × α)

/-- What a step comes to. -/
inductive WatchAnswer (α : Type) where
  | done
  /-- Whether the source has answered. -/
  | polled (ok : Bool)
  /-- For each loop that was started, whether it has stopped. -/
  | stopped (loops : List Bool)
  | other (a : α)

/-- What is seen after a step. -/
structure Sighting (α : Type) where
  state : State
  /-- How often the source has been asked. -/
  polls : Nat
  answer : WatchAnswer α

/-- Who acts. -/
inductive Watcher where
  | tracker
  | poller
  /-- Takes the steps beside the loops. -/
  | visitor
deriving DecidableEq, Repr

/-- The settings of the loops; an interval is given for each loop that is started. -/
structure WatchConfig where
  tracker : TrackerConfig
  trackerInterval : Option Nat
  pollerInterval : Option Nat

/-- The monitor with the loops beside it. -/
structure Watch (α : Type) where
  health : Health
  clock : Instant
  /-- What the source is going to answer; the last answer repeats. -/
  answers : List Poll
  polls : Nat
  stopping : Bool
  upcoming : List (WatchStep α)
  /-- What was seen, the latest first. -/
  seen : List (Sighting α)

namespace Watch

variable {α : Type}

/-- A watch about to start. -/
def start (clock : Instant) (answers : List Poll) (upcoming : List (WatchStep α)) : Watch α :=
  { health := .initial, clock, answers, polls := 0, stopping := false, upcoming, seen := [] }

/-- Asks the source once. -/
def poll (w : Watch α) : Watch α × Bool :=
  let (answer, answers) := match w.answers with
    | [] => (none, [])
    | [a] => (a, [a])
    | a :: rest => (a, rest)
  let w := { w with answers, polls := w.polls + 1 }
  match answer with
  | none => (w, false)
  | some (activeCount, maintenance) =>
    let monitor := w.health.monitor.publishLoad ⟨activeCount, maintenance, w.clock⟩
    ({ w with health := { w.health with monitor } }, true)

/-- A loop goes on, unless it is to stop or its interval is zero. -/
def goesOn (w : Watch α) (interval : Option Nat) : Bool := !w.stopping && 0 < interval.getD 0

/-- A turn of the tracker. A tick that fails ends the loop. -/
def trackerTurn (c : WatchConfig) (w : Watch α) : Turn (Watch α) Watcher :=
  if w.goesOn c.trackerInterval then
    match w.health.tick c.tracker w.clock with
    | (health, .done _) => ⟨{ w with health }, .sleep (c.trackerInterval.getD 0), []⟩
    | (health, .overflow) => ⟨{ w with health }, .wait, []⟩
  else ⟨w, .wait, []⟩

/-- A turn of the poller. -/
def pollerTurn (c : WatchConfig) (w : Watch α) : Turn (Watch α) Watcher :=
  if w.goesOn c.pollerInterval then ⟨w.poll.1, .sleep (c.pollerInterval.getD 0), []⟩
  else ⟨w, .wait, []⟩

/-- The loops that are started. -/
def loops (c : WatchConfig) : List Watcher :=
  (c.trackerInterval.map fun _ => .tracker).toList
    ++ (c.pollerInterval.map fun _ => .poller).toList

/-- Takes a step that takes no time. -/
def perform (c : WatchConfig) (w : Watch α) : WatchStep α → Watch α × WatchAnswer α
  | .sleep _ => (w, .done)
  | .poll =>
    let (w, ok) := w.poll
    (w, .polled ok)
  | .stop => ({ w with stopping := true }, .stopped ((loops c).map fun _ => true))
  | .other f =>
    let (monitor, clock, a) := f w.health.monitor w.clock
    ({ w with health := { w.health with monitor }, clock }, .other a)

/-- Records what is seen after a step. -/
def see (w : Watch α) (answer : WatchAnswer α) : Watch α :=
  { w with seen := ⟨w.health.monitor.state, w.polls, answer⟩ :: w.seen }

/-- A turn of the visitor. What follows a sleep is seen after it. -/
def visitorTurn (c : WatchConfig) (w : Watch α) : Turn (Watch α) Watcher :=
  match w.upcoming with
  | [] => ⟨w, .wait, []⟩
  | .sleep (n + 1) :: upcoming => ⟨{ w with upcoming := .sleep 0 :: upcoming }, .sleep (n + 1), []⟩
  | step :: upcoming =>
    let (w, answer) := w.perform c step
    ⟨{ w.see answer with upcoming }, .none, []⟩

/-- A turn of whoever acts. -/
def act (c : WatchConfig) (_ : Nat) : Watcher → Watch α → Turn (Watch α) Watcher
  | .tracker, w => w.trackerTurn c
  | .poller, w => w.pollerTurn c
  | .visitor, w => w.visitorTurn c

/-- Runs the loops while the steps are taken, for at most the given number of turns. -/
def run (c : WatchConfig) (w : Watch α) (turns : Nat) : Watch α :=
  let s := Simulation.start w (loops c ++ [.visitor])
  (s.run (act c) (fun w => w.upcoming.isEmpty) turns).state

end Watch

end Harvest.Admission
