import Harvest.Proofs.Admission.Targets

/-! # Less budget is never more permissive

Two readings of the budget may differ in nothing but the number of errors left. A tick that goes by
the smaller number leads to a state at least as severe as a tick that goes by the greater one,
whatever has happened before and whatever the other signals say.

The two ticks part at the bands only. They see the same load and the same clock; they start from the
same state; a recovery of the past clears both readings or neither, as they are of one date; and a
reset that is past clears both or neither, as they name the same one.

## Main definitions

* `Health.read`: publishes a reading of the budget.

## Main statements

* `aim_antitone`: fewer errors left never aim at a milder state.
* `less_budget_tick`: the two ticks.
-/

namespace Harvest.Admission

open Harvest.Calendar

/-! ## Bands -/

/-- With fewer errors left than this, a state is left for red or red stays. -/
def State.redBelow : State → Int
  | .green => 11
  | .yellow | .red | .downtime => 10

/-- With this many errors left or more, a state is left for green or green stays. -/
def State.greenFrom : State → Int
  | .yellow => 20
  | .green | .red | .downtime => 21

/-- The bands are cut at two numbers, which depend on the state. -/
theorem band_eq {current : State} (h : current ≠ .downtime) (remaining : Int) :
    band current remaining =
      if remaining < current.redBelow then .red
      else if remaining < current.greenFrom then .yellow
      else .green := by
  cases current with
  | downtime => exact absurd rfl h
  | green =>
    show (if remaining ≤ 10 then State.red else if remaining ≤ 20 then .yellow else .green)
      = if remaining < 11 then .red else if remaining < 21 then .yellow else .green
    -- at most ten are fewer than eleven, at most twenty fewer than twenty-one
    by_cases hred : remaining < 11
    · rw [if_pos hred, if_pos (by omega)]
    · rw [if_neg hred, if_neg (by omega)]
      by_cases hyellow : remaining < 21
      · rw [if_pos hyellow, if_pos (by omega)]
      · rw [if_neg hyellow, if_neg (by omega)]
  | yellow =>
    show (if remaining < 10 then State.red else if 20 ≤ remaining then .green else .yellow)
      = if remaining < 10 then .red else if remaining < 20 then .yellow else .green
    by_cases hyellow : remaining < 20
    · rw [if_pos hyellow, if_neg (by omega : ¬ 20 ≤ remaining)]
    · rw [if_neg hyellow, if_pos (by omega : 20 ≤ remaining)]
  | red =>
    show (if 20 < remaining then State.green else if 10 ≤ remaining then .yellow else .red)
      = if remaining < 10 then .red else if remaining < 21 then .yellow else .green
    -- the bands are asked for from the mildest on
    by_cases hred : remaining < 10
    · rw [if_pos hred, if_neg (by omega), if_neg (by omega)]
    · rw [if_neg hred]
      by_cases hyellow : remaining < 21
      · rw [if_pos hyellow, if_neg (by omega), if_pos (by omega)]
      · rw [if_neg hyellow, if_pos (by omega)]

/-- The band of fewer errors left is at least as severe, from whatever state. -/
theorem band_antitone (current : State) {less more : Int} (h : less ≤ more) :
    band current more ≤ band current less := by
  by_cases hdown : current = .downtime
  · rw [hdown]
    exact State.le_refl _
  · rw [band_eq hdown, band_eq hdown]
    by_cases hred : less < current.redBelow
    · -- no band is more severe than red
      rw [if_pos hred]
      split
      · exact State.le_refl _
      · split <;> decide
    · rw [if_neg hred, if_neg (by omega)]
      by_cases hyellow : less < current.greenFrom
      · rw [if_pos hyellow]
        split <;> decide
      · rw [if_neg hyellow, if_neg (by omega)]
        exact State.le_refl _

/-! ## Readings that differ in the number only -/

/-- The same reading with another number of errors left. -/
def Budget.left (b : Budget) (remaining : Int) : Budget := { b with remaining }

/-- Fewer errors left never aim at a milder state. -/
theorem aim_antitone (current : State) (budget : Option Budget) (now : Instant) {less more : Int}
    (h : less ≤ more) : aim current (budget.map (·.left more)) now
      ≤ aim current (budget.map (·.left less)) now := by
  by_cases hdown : current = .downtime
  · -- the end of a downtime does not ask for the budget
    rw [hdown, aim_downtime, aim_downtime]
    exact State.le_refl _
  · cases budget with
    | none => exact State.le_refl _
    | some b =>
      simp only [Option.map_some]
      -- the reset is that of both readings
      by_cases hreset : current.isDegraded = true ∧ b.hasReset now = true
      · have hmore : (b.left more).hasReset now = true := hreset.2
        have hless : (b.left less).hasReset now = true := hreset.2
        rw [aim_of_reset hreset.1 hmore, aim_of_reset hreset.1 hless]
        exact State.le_refl _
      · have hmore : ¬ (current.isDegraded = true ∧ (b.left more).hasReset now = true) := hreset
        have hless : ¬ (current.isDegraded = true ∧ (b.left less).hasReset now = true) := hreset
        rw [aim_of_pending hdown hmore, aim_of_pending hdown hless]
        exact band_antitone current h

namespace Health

variable (h : Health) (c : TrackerConfig) (resetAt : Option Instant) (observedAt now : Instant)

/-- Publishes a reading of the budget. -/
def read (remaining : Int) : Health :=
  { h with monitor := h.monitor.recordBudget remaining resetAt observedAt }

/-- The budget that a tick goes by is the published one, of whatever number, or there is none. -/
theorem exists_liveBudget_read : ∃ budget : Option Budget, ∀ remaining,
    (h.read resetAt observedAt remaining).liveBudget = budget.map (·.left remaining) := by
  by_cases hcounts : h.recoveredAt.all (fun r => decide (r < observedAt)) = true
  · -- the reading is later than the last recovery
    refine ⟨some ⟨0, resetAt.or (h.monitor.budget.bind Budget.resetAt), observedAt⟩, ?_⟩
    intro remaining
    exact Option.filter_some_pos hcounts
  · refine ⟨none, ?_⟩
    intro remaining
    exact Option.filter_some_neg (Bool.eq_false_iff.mpr hcounts)

/-- A reading of the budget tells nothing of the load. -/
theorem sourceUp_read (remaining : Int) :
    (h.read resetAt observedAt remaining).SourceUp c now ↔ h.SourceUp c now := by
  constructor
  · intro hup
    exact ⟨hup.load, hup.window⟩
  · intro hup
    exact ⟨hup.load, hup.window⟩

end Health

/-! ## The two ticks -/

/-- **Less budget is never more permissive.** Take any station, whatever has led to it, and two
readings of the budget that differ in nothing but the number of errors left. If the one with the
smaller number is published before a tick, the state after the tick is at least as severe as if the
other one is. -/
theorem less_budget_tick (c : TrackerConfig) (s : Station) (resetAt : Option Instant)
    (observedAt : Instant) {less more : Int} (h : less ≤ more) :
    ((s.next c (.recordBudget more resetAt observedAt)).next c .tick).health.monitor.state
      ≤ ((s.next c (.recordBudget less resetAt observedAt)).next c .tick).health.monitor.state := by
  show (((s.health.read resetAt observedAt more).tick c s.clock).1.monitor.state
    ≤ ((s.health.read resetAt observedAt less).tick c s.clock).1.monitor.state)
  by_cases hup : s.health.SourceUp c s.clock
  · have hmore := (s.health.sourceUp_read c resetAt observedAt s.clock more).mpr hup
    have hless := (s.health.sourceUp_read c resetAt observedAt s.clock less).mpr hup
    obtain ⟨budget, hlive⟩ := s.health.exists_liveBudget_read resetAt observedAt
    rw [Health.state_tick_of_up hmore, Health.state_tick_of_up hless, hlive, hlive]
    exact aim_antitone s.health.monitor.state budget s.clock h
  · -- a source that is down leads to downtime, whatever the budget
    have hmore : ¬ (s.health.read resetAt observedAt more).SourceUp c s.clock :=
      fun h => hup ((s.health.sourceUp_read c resetAt observedAt s.clock more).mp h)
    have hless : ¬ (s.health.read resetAt observedAt less).SourceUp c s.clock :=
      fun h => hup ((s.health.sourceUp_read c resetAt observedAt s.clock less).mp h)
    rw [Health.state_tick_of_not_up hmore, Health.state_tick_of_not_up hless]
    exact State.le_refl _

/-! ## One error more or less -/

namespace Brink

def noon : Instant := ⟨1704110400, 0, Eq.refl true⟩

/-- A low budget is cleared by its reset, and then yellow is forced. -/
def events : List Event := [
  .publishLoad ⟨20000, false, noon⟩, .recordBudget 4 (some noon) noon, .tick,
  .setClock ⟨1704110401, 0, Eq.refl true⟩, .tick, .setState .yellow]

/-- The state after a tick with some errors left, dated after the recovery. -/
def after (s : Station) (remaining : Int) : State :=
  ((s.next .standard (.recordBudget remaining (some ⟨1704110500, 0, Eq.refl true⟩)
    ⟨1704110402, 0, Eq.refl true⟩)).next .standard .tick).health.monitor.state

theorem reaches_yellow :
    (station .standard).reaches (fun _ _ => True) (.start noon) events
      (fun t => after t 19 = .yellow && after t 20 = .green) = true := by
  decide +kernel

/-- Nineteen errors left hold a yellow state that twenty release. -/
theorem yellow_held_by_one_less :
    ∃ j t, (station .standard).Run (fun _ _ => True) (.start noon) j t ∧
      (19 : Int) ≤ 20 ∧ after t 20 ≤ after t 19 ∧ after t 19 = .yellow ∧ after t 20 = .green := by
  obtain ⟨j, t, hrun, ht⟩ := Machine.exists_run_of_reaches reaches_yellow
  simp only [Bool.and_eq_true, decide_eq_true_eq] at ht
  exact ⟨j, t, hrun, by decide, less_budget_tick .standard t _ _ (by decide), ht⟩

end Brink

end Harvest.Admission
