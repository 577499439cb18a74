import Harvest.Proofs.Admission.Downtime

/-! # An exhausted budget closes the gate

With fewer than ten errors left, and no reset past, a tick leads to a state that blocks, whatever
the state was before. There is one exception: a tick that ends a downtime opens the gate, whatever
the budget. The next tick at the same time closes it again.

## Main definitions

* `Station.Exhausted`: the budget is live, low, and waits for its reset.
* `Station.Reopens`: the next tick is the end of a downtime.

## Main statements

* `exhausted_tick`: what a tick makes of an exhausted budget.
* `exhausted_two_ticks`: the gate does not stay open.
-/

namespace Harvest.Admission

open Harvest.Calendar

namespace Station

/-- The budget was observed after the last recovery, has fewer than ten errors left, and is not yet
reset. -/
structure Exhausted (s : Station) (b : Budget) : Prop where
  published : s.health.monitor.budget = some b
  live : ∀ r, s.health.recoveredAt = some r → r < b.observedAt
  low : b.remaining < 10
  pending : ∀ t, b.resetAt = some t → ¬ t < s.clock

/-- It is downtime, but neither the load nor the clock asks for it. -/
structure Reopens (c : TrackerConfig) (s : Station) : Prop where
  down : s.health.monitor.state = .downtime
  load : ∃ l, s.health.monitor.load = some l ∧ s.clock.since l.observedAt ≤ c.loadMaxAge ∧
    ¬ c.policy.IsDown l
  window : c.policy.window.contains s.clock = false

variable {c : TrackerConfig} {s : Station} {b : Budget}

theorem reopens_iff : s.Reopens c ↔ s.health.monitor.state = .downtime ∧
    c.policy.outage (s.health.freshLoad c s.clock) = none ∧
    c.policy.window.contains s.clock = false := by
  rw [Policy.outage_eq_none_iff]
  simp only [Health.freshLoad_eq_some_iff, and_assoc]
  exact ⟨fun h => ⟨h.down, h.load, h.window⟩, fun h => ⟨h.1, h.2.1, h.2.2⟩⟩

namespace Exhausted

theorem liveBudget_eq (h : s.Exhausted b) : s.health.liveBudget = some b :=
  Health.liveBudget_eq_some_iff.mpr ⟨h.published, h.live⟩

theorem hasReset_eq (h : s.Exhausted b) : b.hasReset s.clock = false := by
  unfold Budget.hasReset
  split
  · rename_i t ht
    exact decide_eq_false (h.pending t ht)
  · rfl

end Exhausted

end Station

/-! ## One tick -/

/-- A low budget asks for red. -/
theorem band_eq_red {current : State} {remaining : Int} (h : current ≠ .downtime)
    (hlow : remaining < 10) : band current remaining = .red := by
  cases current with
  | downtime => exact absurd rfl h
  | green => exact if_pos (by omega)
  | yellow => exact if_pos hlow
  | red => simp only [band, if_neg (show ¬ 20 < remaining by omega),
      if_neg (show ¬ 10 ≤ remaining by omega)]

variable {c : TrackerConfig} {s : Station} {b : Budget} {current : State} {g : Signals}
  {p : Policy} {t : Transition}

/-- With a low budget that is not reset, an evaluation comes to a state that blocks, or ends a
downtime. -/
theorem Verdict.of_low (h : Verdict current g p t) (hbudget : g.budget = some b)
    (hlow : b.remaining < 10) (hpending : b.hasReset g.now = false) :
    t.target.isBlocking = true ∨
      current = .downtime ∧ p.outage g.load = none ∧ p.window.contains g.now = false := by
  cases h with
  | outage _ | window _ _ _ => exact .inl rfl
  | remain _ hc _ =>
    rw [hc]
    exact .inl rfl
  | reopen h hc hw => exact .inr ⟨hc, h, hw⟩
  | unknown _ _ _ hb =>
    rw [hb] at hbudget
    cases hbudget
  | reset _ _ _ hb _ hr =>
    rw [hb] at hbudget
    cases hbudget
    rw [hpending] at hr
    cases hr
  | keep _ hc _ hb _ hband =>
    rw [hb] at hbudget
    cases hbudget
    rw [← hband, band_eq_red hc hlow]
    exact .inl rfl
  | move _ hc _ hb _ _ =>
    rw [hb] at hbudget
    cases hbudget
    rw [band_eq_red hc hlow]
    exact .inl rfl

theorem Station.Reopens.transition_eq (h : s.Reopens c) :
    s.transition c = .into .downtime .green .windowClosed := by
  obtain ⟨hc, ho, hw⟩ := Station.reopens_iff.mp h
  show evaluate s.health.monitor.state (s.health.signals c s.clock) c.policy = _
  simp only [evaluate, Health.signals, ho, hc, hw, if_pos, Bool.false_eq_true, if_false]

theorem Station.Exhausted.blocking_next_tick (h : s.Exhausted b) (hstays : ¬ s.Reopens c) :
    (s.next c .tick).health.monitor.state.isBlocking = true := by
  have hverdict := s.health.verdict_transition c s.clock
  rw [Station.state_next_tick]
  rcases hverdict.of_low h.liveBudget_eq h.low h.hasReset_eq with hblocks | hopens
  · exact hblocks
  · exact absurd (Station.reopens_iff.mpr hopens) hstays

/-! ## Two ticks -/

/-- A tick leaves an exhausted budget as it is. -/
theorem Station.Exhausted.next_tick (h : s.Exhausted b) : (s.next c .tick).Exhausted b := by
  have hreason : (s.transition c).reason ≠ some .budgetReset := by
    intro hr
    obtain ⟨-, -, b', hb', hreset⟩ := (s.health.verdict_transition c s.clock).of_budgetReset hr
    have hsame : some b' = some b := hb'.symm.trans h.liveBudget_eq
    cases hsame
    exact absurd (h.hasReset_eq.symm.trans hreset) (by decide)
  have hrecovered : (s.next c .tick).health.recoveredAt = s.health.recoveredAt :=
    (s.health.recoveredAt_tick c s.clock).trans (if_neg hreason)
  exact {
    published := (s.health.budget_tick c s.clock).trans h.published
    live := by rw [hrecovered]; exact h.live
    low := h.low
    pending := h.pending }

/-- The tick that leads to downtime has seen the cause, which the next tick at the same time sees
as well. -/
theorem Station.not_reopens_next_tick : ¬ (s.next c .tick).Reopens c := by
  intro hopens
  obtain ⟨hdown, ho, hw⟩ := Station.reopens_iff.mp hopens
  have hload : (s.next c .tick).health.freshLoad c s.clock = s.health.freshLoad c s.clock :=
    congrArg (Option.filter _) (s.health.load_tick c s.clock)
  have hverdict := s.health.verdict_transition c s.clock
  rw [Station.state_next_tick, Station.transition, hverdict.target_eq_downtime_iff] at hdown
  rcases hdown with houtage | hwindow
  · exact houtage ((congrArg c.policy.outage hload).symm.trans ho)
  · exact absurd (hwindow.symm.trans hw) (by decide)

/-- The gate that the end of a downtime has opened is closed by the next tick at the same time. -/
theorem exhausted_two_ticks (h : s.Exhausted b) :
    ((s.next c .tick).next c .tick).health.monitor.state.isBlocking = true :=
  h.next_tick.blocking_next_tick Station.not_reopens_next_tick

/-! ## The gate -/

/-- **An exhausted budget closes the gate.** With fewer than ten errors left and no reset past, the
state after a tick blocks, whatever it was before and however it was reached. Only the end of a
downtime leads to green, whatever the budget. -/
theorem exhausted_tick (h : s.Exhausted b) :
    (¬ s.Reopens c → (s.next c .tick).health.monitor.state.isBlocking = true) ∧
    (s.Reopens c → (s.next c .tick).health.monitor.state = .green ∧
      (s.transition c).reason = some .windowClosed) := by
  refine ⟨h.blocking_next_tick, fun hopens => ?_⟩
  rw [Station.state_next_tick, hopens.transition_eq]
  exact ⟨rfl, rfl⟩

/-! ## The end of a downtime -/

namespace Reopening

def noon : Instant := ⟨1704110400, 0, Eq.refl true⟩

/-- It is downtime as there is no load signal, and five errors are left. Then the first load signal
tells of a healthy source. -/
def events : List Event := [.recordBudget 5 none noon, .tick, .publishLoad ⟨20000, false, noon⟩]

def budget : Budget := ⟨5, none, noon⟩

/-- The budget is exhausted, and the next tick is the end of the downtime. -/
def isReached (t : Station) : Bool :=
  t.clock = noon && t.health.monitor.budget = some budget && t.health.recoveredAt = none &&
    t.health.monitor.load = some ⟨20000, false, noon⟩ && t.health.monitor.state = .downtime

theorem reaches_exhausted :
    (station .standard).reaches (fun _ _ => True) (.start noon) events isReached = true := by
  decide +kernel

theorem of_isReached {t : Station} (h : isReached t = true) :
    t.Exhausted budget ∧ t.Reopens .standard := by
  simp only [isReached, Bool.and_eq_true, decide_eq_true_eq] at h
  obtain ⟨⟨⟨⟨hclock, hbudget⟩, hrecovered⟩, hload⟩, hstate⟩ := h
  refine ⟨⟨hbudget, ?_, by simp [budget], ?_⟩, hstate, ⟨_, hload, ?_⟩, ?_⟩
  · simp [hrecovered]
  · simp [budget]
  · rw [hclock]
    decide
  · rw [hclock]
    decide

/-- The budget is exhausted, and yet a tick leads to a state that does not block. -/
theorem exists_exhausted_not_blocking :
    ∃ j t, (station .standard).Run (fun _ _ => True) (.start noon) j t ∧ t.Exhausted budget ∧
      (t.next .standard .tick).health.monitor.state.isBlocking = false := by
  obtain ⟨j, t, hrun, ht⟩ := Machine.exists_run_of_reaches reaches_exhausted
  obtain ⟨hexhausted, hopens⟩ := of_isReached ht
  refine ⟨j, t, hrun, hexhausted, ?_⟩
  rw [Station.state_next_tick, hopens.transition_eq]
  rfl

/-- The gate opens for one tick. -/
theorem blocking_again :
    ∃ j t, (station .standard).Run (fun _ _ => True) (.start noon) j t ∧ t.Exhausted budget ∧
      (t.next .standard .tick).health.monitor.state = .green ∧
      ((t.next .standard .tick).next .standard .tick).health.monitor.state.isBlocking = true := by
  obtain ⟨j, t, hrun, ht⟩ := Machine.exists_run_of_reaches reaches_exhausted
  obtain ⟨hexhausted, hopens⟩ := of_isReached ht
  refine ⟨j, t, hrun, hexhausted, ((exhausted_tick hexhausted).2 hopens).1, ?_⟩
  exact (exhausted_tick hexhausted.next_tick).1 Station.not_reopens_next_tick

end Reopening

end Harvest.Admission
