import Harvest.Admission.Monitor
import Harvest.Proofs.Run

/-! # The moves of the health monitor

What an evaluation can come to, said once, and what a tick makes of it. The monitor with its tracker
and a clock is a machine: ticks, signals, forced states and settings of the clock may come in any
order. Its journal tells of ticks with their transitions, and of the signals that were published.

## Main definitions

* `Verdict`: what an evaluation can come to.
* `Station`, `Station.next`: the monitor with a clock, and its steps.
* `station`: the machine.

## Main statements

* `verdict_evaluate`: every evaluation comes to one of the verdicts.
* `Health.state_tick`: a tick leads to the target of its transition.
-/

namespace Harvest.Admission

open Harvest.Calendar

/-! ## Evaluations -/

/-- What an evaluation can come to. -/
inductive Verdict (current : State) (s : Signals) (p : Policy) : Transition → Prop where
  | outage {r : Reason} (h : p.outage s.load = some r) :
      Verdict current s p (.into current .downtime r)
  /-- Downtime goes on. -/
  | remain (h : p.outage s.load = none) (hc : current = .downtime)
      (hw : p.window.contains s.now = true) : Verdict current s p (.stay current)
  /-- Downtime is over. -/
  | reopen (h : p.outage s.load = none) (hc : current = .downtime)
      (hw : p.window.contains s.now = false) :
      Verdict current s p (.into current .green .windowClosed)
  | window (h : p.outage s.load = none) (hc : current ≠ .downtime)
      (hw : p.window.contains s.now = true) :
      Verdict current s p (.into current .downtime .windowOpen)
  /-- Nothing is known of the budget. -/
  | unknown (h : p.outage s.load = none) (hc : current ≠ .downtime)
      (hw : p.window.contains s.now = false) (hb : s.budget = none) :
      Verdict current s p (.stay current)
  | reset {b : Budget} (h : p.outage s.load = none) (hc : current ≠ .downtime)
      (hw : p.window.contains s.now = false) (hb : s.budget = some b)
      (hd : current.isDegraded = true) (hr : b.hasReset s.now = true) :
      Verdict current s p (.into current .green .budgetReset)
  | keep {b : Budget} (h : p.outage s.load = none) (hc : current ≠ .downtime)
      (hw : p.window.contains s.now = false) (hb : s.budget = some b)
      (hr : ¬ (current.isDegraded = true ∧ b.hasReset s.now = true))
      (hband : band current b.remaining = current) : Verdict current s p (.stay current)
  | move {b : Budget} (h : p.outage s.load = none) (hc : current ≠ .downtime)
      (hw : p.window.contains s.now = false) (hb : s.budget = some b)
      (hr : ¬ (current.isDegraded = true ∧ b.hasReset s.now = true))
      (hband : band current b.remaining ≠ current) :
      Verdict current s p (.into current (band current b.remaining) (.budget b.remaining))

section evaluate

variable {current : State} {s : Signals} {p : Policy} {t : Transition}

theorem verdict_budgetStep {b : Budget} (h : p.outage s.load = none) (hc : current ≠ .downtime)
    (hw : p.window.contains s.now = false) (hb : s.budget = some b) :
    Verdict current s p (budgetStep current b s.now) := by
  unfold budgetStep
  by_cases hr : current.isDegraded = true ∧ b.hasReset s.now = true
  · rw [if_pos (by rw [hr.1, hr.2]; rfl)]
    exact .reset h hc hw hb hr.1 hr.2
  · rw [if_neg (by rwa [Bool.and_eq_true])]
    by_cases hband : band current b.remaining = current
    · rw [if_pos hband]
      exact .keep h hc hw hb hr hband
    · rw [if_neg hband]
      exact .move h hc hw hb hr hband

/-- Every evaluation comes to one of the verdicts. -/
theorem verdict_evaluate (current : State) (s : Signals) (p : Policy) :
    Verdict current s p (evaluate current s p) := by
  unfold evaluate
  cases ho : p.outage s.load with
  | some r => exact .outage ho
  | none =>
    cases hw : p.window.contains s.now with
    | true =>
      by_cases hc : current = .downtime
      · subst hc
        exact .remain ho rfl hw
      · simp only [if_neg hc]
        exact .window ho hc hw
    | false =>
      by_cases hc : current = .downtime
      · subst hc
        exact .reopen ho rfl hw
      · simp only [if_neg hc]
        cases hb : s.budget with
        | none => exact .unknown ho hc hw hb
        | some b => exact verdict_budgetStep ho hc hw hb

theorem Verdict.source (h : Verdict current s p t) : t.source = current := by
  cases h <;> rfl

theorem outage_ne_budgetReset (p : Policy) (load : Option Load) :
    p.outage load ≠ some .budgetReset := by
  unfold Policy.outage
  split
  · nofun
  · split
    · nofun
    · split <;> nofun

/-- Only a degraded state recovers, and only by a budget whose reset has passed. -/
theorem Verdict.of_budgetReset (h : Verdict current s p t) (hr : t.reason = some .budgetReset) :
    t.target = .green ∧ current.isDegraded = true ∧
      ∃ b, s.budget = some b ∧ b.hasReset s.now = true := by
  cases h with
  | reset _ _ _ hb hd hreset => exact ⟨rfl, hd, _, hb, hreset⟩
  | outage h =>
    cases hr
    exact absurd h (outage_ne_budgetReset p s.load)
  | _ => cases hr

end evaluate

/-! ## Ticks -/

namespace Monitor

@[simp] theorem load_apply (m : Monitor) (t : Transition) : (m.apply t).load = m.load := by
  unfold apply
  split <;> rfl

@[simp] theorem budget_apply (m : Monitor) (t : Transition) : (m.apply t).budget = m.budget := by
  unfold apply
  split <;> rfl

/-- A transition that starts from the state of the monitor leads to its target. -/
theorem state_apply {m : Monitor} {t : Transition} (h : t.source = m.state) :
    (m.apply t).state = t.target := by
  unfold apply
  split
  · rfl
  · rename_i hchange
    -- no change is published, as the target is the state already
    have hsame : t.source = t.target := by simpa [Transition.isChange] using hchange
    rw [← h, hsame]

end Monitor

namespace Health

variable (h : Health) (c : TrackerConfig) (now : Instant)

theorem verdict_transition :
    Verdict h.monitor.state (h.signals c now) c.policy (h.transition c now) :=
  verdict_evaluate _ _ _

/-- A tick leads to the target of its transition. -/
theorem state_tick : (h.tick c now).1.monitor.state = (h.transition c now).target := by
  have hsource : (h.transition c now).source = h.monitor.state :=
    (h.verdict_transition c now).source
  unfold tick
  split <;> exact Monitor.state_apply hsource

@[simp] theorem load_tick : (h.tick c now).1.monitor.load = h.monitor.load := by
  unfold tick
  split <;> exact Monitor.load_apply _ _

@[simp] theorem budget_tick : (h.tick c now).1.monitor.budget = h.monitor.budget := by
  unfold tick
  split <;> exact Monitor.budget_apply _ _

theorem recoveredAt_tick : (h.tick c now).1.recoveredAt
    = if (h.transition c now).reason = some .budgetReset then some now else h.recoveredAt := by
  unfold tick
  split <;> rfl

variable {h c now} {b : Budget}

theorem liveBudget_eq_some_iff : h.liveBudget = some b ↔
    h.monitor.budget = some b ∧ ∀ r, h.recoveredAt = some r → r < b.observedAt := by
  rw [liveBudget, Option.filter_eq_some_iff]
  cases h.recoveredAt <;> simp

theorem freshLoad_eq_some_iff {l : Load} : h.freshLoad c now = some l ↔
    h.monitor.load = some l ∧ now.since l.observedAt ≤ c.loadMaxAge := by
  rw [freshLoad, Option.filter_eq_some_iff, decide_eq_true_eq]

end Health

/-! ## The machine -/

/-- The monitor with its tracker and the clock that they are dated by. -/
structure Station where
  health : Health
  clock : Instant

/-- What can happen to a station. -/
inductive Event where
  /-- The tracker evaluates the signals. -/
  | tick
  /-- The clock is set, forward or back. -/
  | setClock (now : Instant)
  | publishLoad (l : Load)
  | recordBudget (remaining : Int) (resetAt : Option Instant) (observedAt : Instant)
  | recordStatus (status : StatusClass) (observedAt : Instant)
  /-- A state is forced from outside. -/
  | setState (s : State)
  /-- A transition is published that no tick has made. -/
  | apply (t : Transition)
  | prune (cutoff : Instant)

/-- What the journal says of a step. -/
inductive Mark where
  | ticked (now : Instant) (t : Transition)
  | loaded (l : Load)
  | budgeted (remaining : Int) (resetAt : Option Instant) (observedAt : Instant)

namespace Station

/-- A station of which nothing has been observed. -/
def start (now : Instant) : Station := ⟨.initial, now⟩

/-- Does something to the monitor. -/
def onMonitor (s : Station) (f : Monitor → Monitor) : Station :=
  { s with health := { s.health with monitor := f s.health.monitor } }

/-- The transition that a tick makes. -/
def transition (c : TrackerConfig) (s : Station) : Transition := s.health.transition c s.clock

/-- The station after an event. -/
def next (c : TrackerConfig) (s : Station) : Event → Station
  | .tick => { s with health := (s.health.tick c s.clock).1 }
  | .setClock now => { s with clock := now }
  | .publishLoad l => s.onMonitor (·.publishLoad l)
  | .recordBudget remaining resetAt observedAt =>
    s.onMonitor (·.recordBudget remaining resetAt observedAt)
  | .recordStatus status observedAt => s.onMonitor (·.recordStatus status observedAt)
  | .setState state => s.onMonitor (·.setState state)
  | .apply t => s.onMonitor (·.apply t)
  | .prune cutoff => s.onMonitor (·.prune cutoff)

/-- What the journal says of an event. -/
def mark? (c : TrackerConfig) (s : Station) : Event → Option Mark
  | .tick => some (.ticked s.clock (s.transition c))
  | .publishLoad l => some (.loaded l)
  | .recordBudget remaining resetAt observedAt => some (.budgeted remaining resetAt observedAt)
  | .setClock _ | .recordStatus _ _ | .setState _ | .apply _ | .prune _ => none

theorem state_next_tick (c : TrackerConfig) (s : Station) :
    (s.next c .tick).health.monitor.state = (s.transition c).target :=
  s.health.state_tick c s.clock

end Station

/-- The station as a machine. -/
def station (c : TrackerConfig) : Machine Station Event Mark where
  next? s e := some (s.next c e)
  mark? := Station.mark? c

end Harvest.Admission
