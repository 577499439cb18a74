import Harvest.Admission.Tracking
import Harvest.Admission.Transition

/-! # The health monitor

The monitor holds the admission state with the latest signals and the log of responses. Others
publish signals; a tick of the tracker evaluates them and publishes the next state. Whoever waits
for a change sees every publication, which is counted.

## Main definitions

* `Monitor`: the shared state of health.
* `Tracker.tick`: one evaluation.
-/

namespace Harvest.Admission

open Harvest.Calendar

/-! ## The monitor -/

/-- The admission state with the latest signals and the log of responses. -/
structure Monitor where
  state : State
  /-- How often a state has been published. -/
  publications : Nat
  budget : Option Budget
  load : Option Load
  log : Log

namespace Monitor

/-- Green, with nothing observed. -/
def initial : Monitor := ⟨.green, 0, none, none, .empty⟩

instance : Inhabited Monitor := ⟨initial⟩

/-- Publishes a state. -/
def setState (m : Monitor) (s : State) : Monitor :=
  { m with state := s, publications := m.publications + 1 }

/-- Publishes the target of a transition, if it is a change. -/
def apply (m : Monitor) (t : Transition) : Monitor :=
  if t.isChange then m.setState t.target else m

def publishLoad (m : Monitor) (l : Load) : Monitor := { m with load := some l }

/-- Publishes a budget. One that names no reset keeps the reset named before. -/
def recordBudget (m : Monitor) (remaining : Int) (resetAt : Option Instant) (now : Instant) :
    Monitor :=
  { m with budget := some ⟨remaining, resetAt.or (m.budget.bind Budget.resetAt), now⟩ }

def recordStatus (m : Monitor) (c : StatusClass) (now : Instant) : Monitor :=
  { m with log := m.log.record c now }

def prune (m : Monitor) (cutoff : Instant) : Monitor := { m with log := m.log.prune cutoff }

end Monitor

/-! ## The tracker -/

/-- The settings of the tracker. -/
structure TrackerConfig where
  policy : Policy
  /-- An older load signal counts as missing. -/
  loadMaxAge : Span
  /-- Responses are forgotten after this time. -/
  retention : Span
deriving DecidableEq

def TrackerConfig.standard : TrackerConfig :=
  { policy := .standard, loadMaxAge := .ofSeconds 120, retention := .ofSeconds 360 }

/-- The monitor together with the tracker's memory. -/
structure Health where
  monitor : Monitor
  /-- Budgets observed at or before this instant were cleared by a reset. -/
  recoveredAt : Option Instant

namespace Health

def initial : Health := ⟨.initial, none⟩

instance : Inhabited Health := ⟨initial⟩

/-- The load signal, unless it is too old. -/
def freshLoad (h : Health) (c : TrackerConfig) (now : Instant) : Option Load :=
  h.monitor.load.filter fun l => decide (now.since l.observedAt ≤ c.loadMaxAge)

/-- The budget, unless a reset has cleared it. -/
def liveBudget (h : Health) : Option Budget :=
  h.monitor.budget.filter fun b => h.recoveredAt.all fun r => decide (r < b.observedAt)

/-- The signals of an evaluation. -/
def signals (h : Health) (c : TrackerConfig) (now : Instant) : Signals :=
  { load := h.freshLoad c now, budget := h.liveBudget, now }

/-- The transition that a tick makes. -/
def transition (h : Health) (c : TrackerConfig) (now : Instant) : Transition :=
  evaluate h.monitor.state (h.signals c now) c.policy

/-- The outcome of a tick. -/
inductive TickResult where
  | done (t : Transition)
  /-- The log could not be pruned: the cutoff lies out of range. -/
  | overflow
deriving DecidableEq

/-- One tick: evaluates the signals, publishes the result and prunes the log. The log is left
alone when the cutoff lies out of range. -/
def tick (h : Health) (c : TrackerConfig) (now : Instant) : Health × TickResult :=
  let t := h.transition c now
  let recoveredAt := if t.reason = some .budgetReset then some now else h.recoveredAt
  let monitor := h.monitor.apply t
  match now.sub? c.retention with
  | some cutoff => (⟨monitor.prune cutoff, recoveredAt⟩, .done t)
  | none => (⟨monitor, recoveredAt⟩, .overflow)

end Health

end Harvest.Admission
