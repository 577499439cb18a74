import Harvest.Proofs.Admission.Moves
import Harvest.Proofs.Calendar.Instants

/-! # Recoveries

A degraded state recovers when the reset of the budget has passed. A budget that was observed before
is not looked at again, so the next recovery needs a new reading. A reading that names no reset
keeps the reset named before, even one that has been used already. It may then be used once more.

## Main definitions

* `Forward`: the steps of a run in which the clock is never set back.
* `Since`: what holds ever since a recovery.

## Main statements

* `since_of_run`: it is kept by every run in which the clock is never set back.
* `reading_between_recoveries`: what lies between two recoveries.
-/

namespace Harvest.Admission

open Harvest.Calendar

/-- The clock is not set back. -/
def Forward (s : Station) : Event → Prop
  | .setClock now => s.clock ≤ now
  | _ => True

instance : ∀ (s : Station) (e : Event), Decidable (Forward s e)
  | s, .setClock now => inferInstanceAs (Decidable (s.clock ≤ now))
  | _, .tick | _, .publishLoad _ | _, .recordBudget _ _ _ | _, .recordStatus _ _ | _, .setState _
  | _, .apply _ | _, .prune _ => isTrue trivial

/-- What holds since a recovery at a station `s`. -/
structure Since (s : Station) (j : List Mark) (t : Station) : Prop where
  clock : s.clock ≤ t.clock
  recovered : ∃ r, t.health.recoveredAt = some r ∧ s.clock ≤ r
  /-- Another budget was published since. -/
  budget : ∀ b, t.health.monitor.budget = some b →
    (∃ remaining resetAt, .budgeted remaining resetAt b.observedAt ∈ j) ∨
      s.health.monitor.budget = some b
  /-- Another reset was named since. -/
  reset : (∃ remaining r observedAt, .budgeted remaining (some r) observedAt ∈ j) ∨
    t.health.monitor.budget.bind Budget.resetAt = s.health.monitor.budget.bind Budget.resetAt

variable {c : TrackerConfig} {s t : Station} {j : List Mark}

theorem Since.start (h : (s.transition c).reason = some .budgetReset) :
    Since s [] (s.next c .tick) where
  clock := s.clock.le_refl
  recovered := ⟨s.clock, (s.health.recoveredAt_tick c s.clock).trans (if_pos h), s.clock.le_refl⟩
  budget _ hb := .inr ((s.health.budget_tick c s.clock).symm.trans hb)
  reset := .inr (congrArg (Option.bind · Budget.resetAt) (s.health.budget_tick c s.clock))

/-- Only readings and ticks matter, and settings of the clock. -/
theorem Since.quiet (h : Since s j t) (u : Station) (hclock : s.clock ≤ u.clock)
    (hrecovered : ∃ r, u.health.recoveredAt = some r ∧ s.clock ≤ r)
    (hbudget : u.health.monitor.budget = t.health.monitor.budget) (k : List Mark) :
    Since s (j ++ k) u where
  clock := hclock
  recovered := hrecovered
  budget b hb := by
    rcases h.budget b (hbudget ▸ hb) with ⟨remaining, resetAt, hmem⟩ | hsame
    · exact .inl ⟨remaining, resetAt, List.mem_append_left _ hmem⟩
    · exact .inr hsame
  reset := by
    rw [hbudget]
    rcases h.reset with ⟨remaining, r, observedAt, hmem⟩ | hsame
    · exact .inl ⟨remaining, r, observedAt, List.mem_append_left _ hmem⟩
    · exact .inr hsame

theorem Since.record (h : Since s j t) (remaining : Int) (resetAt : Option Instant)
    (observedAt : Instant) :
    Since s (j ++ [.budgeted remaining resetAt observedAt])
      (t.next c (.recordBudget remaining resetAt observedAt)) where
  clock := h.clock
  recovered := h.recovered
  budget b hb := by
    cases hb
    exact .inl ⟨remaining, resetAt, List.mem_append_right _ (List.mem_singleton_self _)⟩
  reset := by
    cases resetAt with
    | some r =>
      exact .inl ⟨remaining, r, observedAt, List.mem_append_right _ (List.mem_singleton_self _)⟩
    | none =>
      -- the reset named before stays
      rcases h.reset with ⟨remaining', r, observedAt', hmem⟩ | hsame
      · exact .inl ⟨remaining', r, observedAt', List.mem_append_left _ hmem⟩
      · exact .inr hsame

theorem Since.step (h : Since s j t) (e : Event) (allowed : Forward t e) :
    Since s (j ++ (t.mark? c e).toList) (t.next c e) := by
  cases e with
  | recordBudget remaining resetAt observedAt => exact h.record remaining resetAt observedAt
  | setClock now =>
    have hclock : s.clock ≤ now := Instant.le_trans h.clock allowed
    exact h.quiet (t.next c (.setClock now)) hclock h.recovered rfl _
  | tick =>
    have hrecovered : ∃ r, (t.next c .tick).health.recoveredAt = some r ∧ s.clock ≤ r := by
      rw [show (t.next c .tick).health.recoveredAt = _ from t.health.recoveredAt_tick c t.clock]
      split
      · exact ⟨t.clock, rfl, h.clock⟩
      · exact h.recovered
    exact h.quiet (t.next c .tick) h.clock hrecovered (t.health.budget_tick c t.clock) _
  | apply x =>
    have hbudget := t.health.monitor.budget_apply x
    exact h.quiet (t.next c (.apply x)) h.clock h.recovered hbudget _
  | publishLoad l => exact h.quiet (t.next c (.publishLoad l)) h.clock h.recovered rfl _
  | recordStatus status observedAt =>
    exact h.quiet (t.next c (.recordStatus status observedAt)) h.clock h.recovered rfl _
  | setState state => exact h.quiet (t.next c (.setState state)) h.clock h.recovered rfl _
  | prune cutoff => exact h.quiet (t.next c (.prune cutoff)) h.clock h.recovered rfl _

theorem since_of_run (hs : (s.transition c).reason = some .budgetReset)
    (h : (station c).Run Forward (s.next c .tick) j t) : Since s j t := by
  induction h with
  | nil => exact .start hs
  | snoc _ allowed step ih =>
    cases step
    exact ih.step _ allowed

/-- **What lies between two recoveries.** Let the clock never be set back. Between two ticks that
recover there is a reading that was observed after the first of them, unless the budget of that tick
is dated after the tick itself. And if no reading names a reset, then the second tick goes by the
reset of the first. -/
theorem reading_between_recoveries (hs : (s.transition c).reason = some .budgetReset)
    (h : (station c).Run Forward (s.next c .tick) j t)
    (ht : (t.transition c).reason = some .budgetReset) :
    ((∃ remaining resetAt observedAt, .budgeted remaining resetAt observedAt ∈ j ∧
        s.clock < observedAt) ∨
      ∃ b, s.health.monitor.budget = some b ∧ s.clock < b.observedAt) ∧
    ((∃ remaining r observedAt, .budgeted remaining (some r) observedAt ∈ j) ∨
      t.health.monitor.budget.bind Budget.resetAt
        = s.health.monitor.budget.bind Budget.resetAt) := by
  have hsince := since_of_run hs h
  refine ⟨?_, hsince.reset⟩
  obtain ⟨-, -, b, hb, -⟩ := (t.health.verdict_transition c t.clock).of_budgetReset ht
  obtain ⟨hbudget, hlive⟩ := Health.liveBudget_eq_some_iff.mp hb
  obtain ⟨r, hrecovered, hle⟩ := hsince.recovered
  have hafter : s.clock < b.observedAt := Instant.lt_of_le_of_lt hle (hlive r hrecovered)
  rcases hsince.budget b hbudget with ⟨remaining, resetAt, hmem⟩ | hsame
  · exact .inl ⟨remaining, resetAt, b.observedAt, hmem, hafter⟩
  · exact .inr ⟨b, hsame, hafter⟩

/-! ## A reset that is used twice -/

namespace Twice

/-- Seconds of a minute can be written as numerals. -/
instance neZero_sixty : @NeZero Nat Zero.ofOfNat0 60 := ⟨by decide⟩

/-- Some seconds after noon of 1 January 2024. -/
def second (n : Fin 60) : Instant := ⟨1704110400 + n, 0, by
  simp only [validInstant, minSecond, maxSecond]
  revert n
  decide⟩

/-- A low budget names a reset ten seconds later, which then has passed. -/
def before : List Event := [
  .publishLoad ⟨20000, false, second 0⟩, .recordBudget 4 (some (second 10)) (second 0), .tick,
  .setClock (second 11)]

/-- The next reading is low and names no reset. -/
def between : List Event := [.setClock (second 12), .recordBudget 3 none (second 12), .tick]

def namesReset : Mark → Bool
  | .budgeted _ (some _) _ => true
  | _ => false

def recovers (s : Station) : Bool := (s.transition .standard).reason = some .budgetReset

theorem reaches_twice :
    (station .standard).reaches Forward (.start (second 0)) before (fun s => recovers s &&
      ((station .standard).follow Forward (s.next .standard .tick) between).any fun r =>
        r.1.all (fun m => !namesReset m) && recovers r.2) = true := by
  decide +kernel

/-- The same reset leads to two recoveries, though no reading in between names a reset. -/
theorem exists_second_recovery :
    ∃ j₁ s j₂ t, (station .standard).Run Forward (.start (second 0)) j₁ s ∧
      (s.transition .standard).reason = some .budgetReset ∧
      (station .standard).Run Forward (s.next .standard .tick) j₂ t ∧
      (∀ m ∈ j₂, namesReset m = false) ∧
      (t.transition .standard).reason = some .budgetReset := by
  obtain ⟨j₁, s, hrun, hs⟩ := Machine.exists_run_of_reaches reaches_twice
  rw [Bool.and_eq_true, Option.any_eq_true] at hs
  obtain ⟨hfirst, ⟨j₂, t⟩, hfollow, ht⟩ := hs
  rw [Bool.and_eq_true, List.all_eq_true] at ht
  refine ⟨j₁, s, j₂, t, hrun, of_decide_eq_true hfirst, Machine.run_of_follow hfollow, ?_,
    of_decide_eq_true ht.2⟩
  intro m hm
  simpa using ht.1 m hm

theorem reading_between :
    ∃ j₁ s j₂ t, (station .standard).Run Forward (.start (second 0)) j₁ s ∧
      (s.transition .standard).reason = some .budgetReset ∧
      (station .standard).Run Forward (s.next .standard .tick) j₂ t ∧
      (t.transition .standard).reason = some .budgetReset ∧
      ((∃ remaining resetAt observedAt, .budgeted remaining resetAt observedAt ∈ j₂ ∧
          s.clock < observedAt) ∨
        ∃ b, s.health.monitor.budget = some b ∧ s.clock < b.observedAt) ∧
      ((∃ remaining r observedAt, .budgeted remaining (some r) observedAt ∈ j₂) ∨
        t.health.monitor.budget.bind Budget.resetAt
          = s.health.monitor.budget.bind Budget.resetAt) := by
  obtain ⟨j₁, s, hrun, hs⟩ := Machine.exists_run_of_reaches reaches_twice
  rw [Bool.and_eq_true, Option.any_eq_true] at hs
  obtain ⟨hfirst, ⟨j₂, t⟩, hfollow, ht⟩ := hs
  rw [Bool.and_eq_true] at ht
  have hfirst := of_decide_eq_true hfirst
  have hsecond := of_decide_eq_true ht.2
  have hbetween := Machine.run_of_follow hfollow
  exact ⟨j₁, s, j₂, t, hrun, hfirst, hbetween, hsecond,
    reading_between_recoveries hfirst hbetween hsecond⟩

end Twice

end Harvest.Admission
