import Harvest.Proofs.Admission.Recovery

/-! # Old readings after a recovery

A recovery clears the readings of the budget that are dated no later than itself. As long as only
such readings are published, and no state is forced, no budget is looked at any more: the state is
green, or downtime while the source is down, whatever the clock, the load and the window do.

A recovery may itself go by a reading that is dated later than the tick, as the clock may have been
set back since. Such a reading is not cleared.

## Main definitions

* `OldReadings`: the steps of a run in which only old readings are published.
* `Recovered`: what holds ever since a recovery.

## Main statements

* `Recovered.step`, `recovered_of_run`: it is kept by every such step, and so by every run.
* `recovery_lasts`: no tick of such a run goes by the budget.
-/

namespace Harvest.Admission

open Harvest.Calendar

/-! ## Ticks without a budget -/

/-- The reason lies with the budget. -/
def Reason.isOfBudget : Reason → Bool
  | .budgetReset | .budget _ => true
  | .noLoad | .lowActiveCount _ | .maintenance | .windowOpen | .windowClosed => false

theorem isOfBudget_of_outage {p : Policy} {load : Option Load} {r : Reason}
    (h : p.outage load = some r) : r.isOfBudget = false := by
  unfold Policy.outage at h
  split at h
  · cases h
    rfl
  · split at h
    · cases h
      rfl
    · split at h
      · cases h
        rfl
      · cases h

variable {c : TrackerConfig} {r : Instant} {s t : Station} {j : List Mark}

/-- Without a budget, green and downtime lead to each other at most, and for no reason of the
budget. -/
theorem Verdict.of_no_budget {current : State} {g : Signals} {p : Policy} {x : Transition}
    (h : Verdict current g p x) (hb : g.budget = none)
    (hcurrent : current = .green ∨ current = .downtime) :
    (x.target = .green ∨ x.target = .downtime) ∧
      ∀ reason, x.reason = some reason → reason.isOfBudget = false := by
  cases h with
  | outage houtage =>
    refine ⟨.inr rfl, ?_⟩
    intro reason hreason
    cases hreason
    exact isOfBudget_of_outage houtage
  | remain _ _ _ | unknown _ _ _ _ =>
    refine ⟨hcurrent, ?_⟩
    intro reason hreason
    cases hreason
  | reopen _ _ _ =>
    refine ⟨.inl rfl, ?_⟩
    intro reason hreason
    cases hreason
    rfl
  | window _ _ _ =>
    refine ⟨.inr rfl, ?_⟩
    intro reason hreason
    cases hreason
    rfl
  | reset _ _ _ hsome _ _ | keep _ _ _ hsome _ _ | move _ _ _ hsome _ _ =>
    rw [hb] at hsome
    cases hsome

/-! ## Ever since a recovery -/

/-- Only readings dated no later than `r` are published, and no state is forced. -/
def OldReadings (r : Instant) (_ : Station) : Event → Prop
  | .recordBudget _ _ observedAt => observedAt ≤ r
  | .setState _ | .apply _ => False
  | .tick | .setClock _ | .publishLoad _ | .recordStatus _ _ | .prune _ => True

instance (r : Instant) : ∀ (s : Station) (e : Event), Decidable (OldReadings r s e)
  | _, .recordBudget _ _ observedAt => inferInstanceAs (Decidable (observedAt ≤ r))
  | _, .setState _ | _, .apply _ => isFalse id
  | _, .tick | _, .setClock _ | _, .publishLoad _ | _, .recordStatus _ _ | _, .prune _ =>
    isTrue trivial

/-- What holds ever since a recovery at `r`. -/
structure Recovered (r : Instant) (s : Station) : Prop where
  recoveredAt : s.health.recoveredAt = some r
  /-- The budget that is published has been cleared. -/
  budget : ∀ b, s.health.monitor.budget = some b → b.observedAt ≤ r
  state : s.health.monitor.state = .green ∨ s.health.monitor.state = .downtime

namespace Recovered

theorem liveBudget_eq (h : Recovered r s) : s.health.liveBudget = none := by
  rw [Option.eq_none_iff_forall_ne_some]
  intro b hb
  obtain ⟨hbudget, hlive⟩ := Health.liveBudget_eq_some_iff.mp hb
  have hlater : r < b.observedAt := hlive r h.recoveredAt
  exact Instant.not_lt_of_le (h.budget b hbudget) hlater

theorem transition_ok (h : Recovered r s) :
    ((s.transition c).target = .green ∨ (s.transition c).target = .downtime) ∧
      ∀ reason, (s.transition c).reason = some reason → reason.isOfBudget = false :=
  (s.health.verdict_transition c s.clock).of_no_budget h.liveBudget_eq h.state

theorem tick (h : Recovered r s) : Recovered r (s.next c .tick) := by
  obtain ⟨htarget, hreasons⟩ := h.transition_ok (c := c)
  have hreason : (s.transition c).reason ≠ some .budgetReset := by
    intro hr
    exact absurd (hreasons .budgetReset hr) (by decide)
  have hrecovered : (s.next c .tick).health.recoveredAt = s.health.recoveredAt :=
    (s.health.recoveredAt_tick c s.clock).trans (if_neg hreason)
  have hbudget : (s.next c .tick).health.monitor.budget = s.health.monitor.budget :=
    s.health.budget_tick c s.clock
  refine ⟨hrecovered.trans h.recoveredAt, ?_, ?_⟩
  · rw [hbudget]
    exact h.budget
  · rw [Station.state_next_tick]
    exact htarget

theorem step (h : Recovered r s) (e : Event) (allowed : OldReadings r s e) :
    Recovered r (s.next c e) := by
  cases e with
  | tick => exact h.tick
  | recordBudget remaining resetAt observedAt =>
    have hbudget : ∀ b, (s.next c (.recordBudget remaining resetAt observedAt)).health.monitor.budget
        = some b → b.observedAt ≤ r := by
      intro b hb
      cases hb
      exact allowed
    exact ⟨h.recoveredAt, hbudget, h.state⟩
  | setState | apply => exact absurd allowed id
  | setClock | publishLoad | recordStatus | prune => exact ⟨h.recoveredAt, h.budget, h.state⟩

/-- A recovery leads to green, and clears a reading that is dated no later than its tick. -/
theorem start (hs : (s.transition c).reason = some .budgetReset)
    (hold : ∀ b, s.health.monitor.budget = some b → b.observedAt ≤ s.clock) :
    Recovered s.clock (s.next c .tick) := by
  have hgreen := ((s.health.verdict_transition c s.clock).of_budgetReset hs).1
  have hbudget : (s.next c .tick).health.monitor.budget = s.health.monitor.budget :=
    s.health.budget_tick c s.clock
  refine ⟨(s.health.recoveredAt_tick c s.clock).trans (if_pos hs), ?_, ?_⟩
  · rw [hbudget]
    exact hold
  · rw [Station.state_next_tick]
    exact .inl hgreen

end Recovered

theorem recovered_of_run (h : (station c).Run (OldReadings r) s j t) (hs : Recovered r s) :
    Recovered r t := by
  refine h.invariant ?_ hs
  intro t e u allowed step ht
  cases step
  exact ht.step e allowed

/-- **A recovery lasts as long as only old readings are published.** Let a tick recover by a reading
that is dated no later than the tick, and let every later reading be dated no later either, while
no state is forced. Then every further tick leads to green or downtime, and never for a reason of
the budget, whatever the clock, the load and the window do. -/
theorem recovery_lasts (hs : (s.transition c).reason = some .budgetReset)
    (hold : ∀ b, s.health.monitor.budget = some b → b.observedAt ≤ s.clock)
    (h : (station c).Run (OldReadings s.clock) (s.next c .tick) j t) :
    ((t.next c .tick).health.monitor.state = .green ∨
        (t.next c .tick).health.monitor.state = .downtime) ∧
      ∀ reason, (t.transition c).reason = some reason → reason.isOfBudget = false := by
  have hrecovered : Recovered s.clock t := recovered_of_run h (.start hs hold)
  rw [Station.state_next_tick]
  exact hrecovered.transition_ok

/-! ## Readings from before and from after -/

namespace Late

open Twice (second)

/-- A low budget names a reset, which then has passed. -/
def before : List Event := [
  .publishLoad ⟨20000, false, second 0⟩, .recordBudget 4 (some (second 10)) (second 0), .tick,
  .setClock (second 11)]

/-- A reading from before the recovery comes late, the source goes down and comes back, and the
clock is set back. -/
def after : List Event := [
  .recordBudget 3 none (second 5), .tick, .publishLoad ⟨20000, true, second 12⟩, .tick,
  .publishLoad ⟨20000, false, second 13⟩, .tick, .setClock (second 6)]

def recovers (s : Station) : Bool :=
  (s.transition .standard).reason = some .budgetReset && s.clock = second 11 &&
    s.health.monitor.budget = some ⟨4, some (second 10), second 0⟩

theorem reaches_late :
    (station .standard).reaches (fun _ _ => True) (.start (second 0)) before (fun s =>
      recovers s && (station .standard).reaches (OldReadings (second 11)) (s.next .standard .tick)
        after (fun t => t.health.monitor.budget = some ⟨3, some (second 10), second 5⟩)) = true := by
  decide +kernel

/-- Three errors are left, but that was before the recovery. -/
theorem still_open :
    ∃ j₁ s j₂ t, (station .standard).Run (fun _ _ => True) (.start (second 0)) j₁ s ∧
      (s.transition .standard).reason = some .budgetReset ∧
      (station .standard).Run (OldReadings s.clock) (s.next .standard .tick) j₂ t ∧
      t.health.monitor.budget = some ⟨3, some (second 10), second 5⟩ ∧
      ((t.next .standard .tick).health.monitor.state = .green ∨
        (t.next .standard .tick).health.monitor.state = .downtime) ∧
      ∀ reason, (t.transition .standard).reason = some reason → reason.isOfBudget = false := by
  obtain ⟨j₁, s, hrun, hs⟩ := Machine.exists_run_of_reaches reaches_late
  simp only [recovers, Bool.and_eq_true, decide_eq_true_eq] at hs
  obtain ⟨⟨⟨hrecovers, hclock⟩, hbudget⟩, hafter⟩ := hs
  obtain ⟨j₂, t, hrun', ht⟩ := Machine.exists_run_of_reaches hafter
  rw [← hclock] at hrun'
  have hold : ∀ b, s.health.monitor.budget = some b → b.observedAt ≤ s.clock := by
    intro b hb
    rw [hbudget] at hb
    cases hb
    rw [hclock]
    decide
  exact ⟨j₁, s, j₂, t, hrun, hrecovers, hrun', of_decide_eq_true ht,
    recovery_lasts hrecovers hold hrun'⟩

end Late

/-! ## A reading that is dated later than the recovery -/

namespace SetBack

open Twice (second)

/-- The clock is set back after a low reading, to a time when the reset that it names has passed. -/
def events : List Event := [
  .publishLoad ⟨20000, false, second 30⟩, .recordBudget 4 (some (second 10)) (second 30), .tick,
  .setClock (second 11)]

theorem reaches_events :
    (station .standard).reaches (fun _ _ => True) (.start (second 30)) events (fun s =>
      (s.transition .standard).reason = some .budgetReset &&
        (((s.next .standard .tick).transition .standard).reason = some (.budget 4) &&
          ((s.next .standard .tick).next .standard .tick).health.monitor.state = .red)) = true := by
  decide +kernel

/-- The tick after the recovery undoes it, though nothing has been published in between. -/
theorem exists_recovery_undone :
    ∃ j s, (station .standard).Run (fun _ _ => True) (.start (second 30)) j s ∧
      (s.transition .standard).reason = some .budgetReset ∧
      ((s.next .standard .tick).transition .standard).reason = some (.budget 4) ∧
      ((s.next .standard .tick).next .standard .tick).health.monitor.state = .red := by
  obtain ⟨j, s, hrun, hs⟩ := Machine.exists_run_of_reaches reaches_events
  simp only [Bool.and_eq_true, decide_eq_true_eq] at hs
  exact ⟨j, s, hrun, hs⟩

end SetBack

end Harvest.Admission
