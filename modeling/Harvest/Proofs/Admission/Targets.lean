import Harvest.Proofs.Admission.Downtime

/-! # Where a tick leads

The state after a tick as a function of the state before it. While the source counts as down, every
tick leads to downtime. While it is up, the end of a downtime leads to green, and any other state
goes where the live reading of the budget sends it, or stays where there is none.

## Main definitions

* `Health.SourceUp`: neither the load signal nor the clock asks for downtime.
* `aim`: where a tick leads while the source is up.

## Main statements

* `Health.state_tick_of_up`, `Health.state_tick_of_not_up`: the state after a tick.
-/

namespace Harvest.Admission

open Harvest.Calendar

/-! ## Severity -/

theorem State.le_refl (a : State) : a ≤ a := Nat.le_refl a.severity

/-! ## The source is up -/

namespace Health

/-- The load signal is fresh and tells of no outage, and the clock is outside of the window. -/
structure SourceUp (h : Health) (c : TrackerConfig) (now : Instant) : Prop where
  load : ∃ l, h.monitor.load = some l ∧ now.since l.observedAt ≤ c.loadMaxAge ∧ ¬ c.policy.IsDown l
  window : c.policy.window.contains now = false

variable {h : Health} {c : TrackerConfig} {now : Instant}

theorem sourceUp_iff : h.SourceUp c now ↔
    c.policy.outage (h.freshLoad c now) = none ∧ c.policy.window.contains now = false := by
  rw [Policy.outage_eq_none_iff]
  simp only [freshLoad_eq_some_iff, and_assoc]
  exact ⟨fun hup => ⟨hup.load, hup.window⟩, fun hup => ⟨hup.1, hup.2⟩⟩

instance : Decidable (h.SourceUp c now) := decidable_of_iff _ sourceUp_iff.symm

end Health

/-! ## Targets -/

/-- Where a tick leads while the source is up. -/
def aim (current : State) (budget : Option Budget) (now : Instant) : State :=
  if current = .downtime then .green
  else
    match budget with
    | none => current
    | some b =>
      if current.isDegraded = true ∧ b.hasReset now = true then .green
      else band current b.remaining

section aim

variable {current : State} {b : Budget} {now : Instant}

@[simp] theorem aim_downtime (budget : Option Budget) (now : Instant) :
    aim .downtime budget now = .green := rfl

theorem aim_none (h : current ≠ .downtime) : aim current none now = current := if_neg h

theorem aim_of_reset (hd : current.isDegraded = true) (hr : b.hasReset now = true) :
    aim current (some b) now = .green := by
  unfold aim
  split
  · rfl
  · exact if_pos ⟨hd, hr⟩

theorem aim_of_pending (h : current ≠ .downtime)
    (hr : ¬ (current.isDegraded = true ∧ b.hasReset now = true)) :
    aim current (some b) now = band current b.remaining := by
  unfold aim
  rw [if_neg h]
  exact if_neg hr

/-- While the source is up, an evaluation leads where its budget aims. -/
theorem Verdict.target_eq_aim {s : Signals} {p : Policy} {t : Transition}
    (h : Verdict current s p t) (hup : p.outage s.load = none)
    (hw : p.window.contains s.now = false) : t.target = aim current s.budget s.now := by
  cases h with
  | outage houtage => rw [hup] at houtage; cases houtage
  | remain _ _ hopen | window _ _ hopen => rw [hw] at hopen; cases hopen
  | reopen _ hc _ => rw [hc, aim_downtime]; rfl
  | unknown _ hc _ hb => rw [hb, aim_none hc]; rfl
  | reset _ _ _ hb hd hr => rw [hb, aim_of_reset hd hr]; rfl
  | keep _ hc _ hb hr hband => rw [hb, aim_of_pending hc hr, hband]; rfl
  | move _ hc _ hb hr _ => rw [hb, aim_of_pending hc hr]; rfl

end aim

namespace Health

variable {h : Health} {c : TrackerConfig} {now : Instant}

theorem state_tick_of_up (hup : h.SourceUp c now) :
    (h.tick c now).1.monitor.state = aim h.monitor.state h.liveBudget now := by
  obtain ⟨hload, hwindow⟩ := sourceUp_iff.mp hup
  rw [state_tick]
  exact (h.verdict_transition c now).target_eq_aim hload hwindow

theorem state_tick_of_not_up (hdown : ¬ h.SourceUp c now) :
    (h.tick c now).1.monitor.state = .downtime := by
  rw [state_tick, (h.verdict_transition c now).target_eq_downtime_iff]
  by_cases hload : c.policy.outage (h.freshLoad c now) = none
  · have hwindow : ¬ c.policy.window.contains now = false := fun hw =>
      hdown (sourceUp_iff.mpr ⟨hload, hw⟩)
    exact .inr (eq_true_of_ne_false hwindow)
  · exact .inl hload

end Health

end Harvest.Admission
