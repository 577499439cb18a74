import Harvest.Api.Headers
import Harvest.Proofs.Admission.Targets

/-! # Responses that tell nothing of the budget

A response whose headers tell nothing of the budget is taken for a reading of the cautious budget,
which names no reset and so keeps the reset named before. It replaces the reading before, whatever
that one said. The tick after it is compared with the tick that would have come without it.

Mostly the response makes the state no milder. There are four exceptions, all of them while the
source is up and it is not downtime: the reading before asks for red, which the cautious budget does
not; no reading holds the state, which the response then moves; or the response is dated no later
than the last recovery, so that it only takes the reading before out of account.

## Main definitions

* `Headers.IsSilent`: the headers tell nothing of the budget.
* `Health.hear`: publishes what was reported of a response.
* `Health.Loosens`: the exceptions.

## Main statements

* `silent_response_tick`: a silent response makes the state after a tick milder exactly in the
  exceptions.
-/

namespace Harvest.Api

open Harvest.Calendar Harvest.Text Harvest.Admission

/-! ## Silent headers -/

/-- The headers tell nothing of the budget: each of its values is missing or cannot be read. -/
structure Headers.IsSilent (h : Headers) : Prop where
  remaining : ((h.get? "x-esi-error-limit-remain").bind fun v => readInt64? (trim v.toList)) = none
  reset : ((h.get? "x-esi-error-limit-reset").bind fun v => readInt64? (trim v.toList)) = none

namespace Headers.IsSilent

variable {h : Headers}

theorem remaining_eq (hs : h.IsSilent) : h.remaining = Budget.defaultRemaining := by
  rw [Headers.remaining, hs.remaining]
  rfl

theorem resetAt_eq (hs : h.IsSilent) (now : Instant) : h.resetAt now = .ok none := by
  rw [Headers.resetAt, hs.reset]

/-- A silent response is reported as a reading of the cautious budget that names no reset. -/
theorem telemetry_eq (hs : h.IsSilent) (status : Nat) (time : Instant) :
    telemetry status h time =
      .ok (statusReport status time ++ [.budget Budget.defaultRemaining none time]) := by
  rw [telemetry, hs.resetAt_eq time, hs.remaining_eq]

end Headers.IsSilent

end Harvest.Api

namespace Harvest.Admission

open Harvest.Calendar Harvest.Api

namespace Health

/-! ## What a silent response changes -/

/-- Publishes what was reported of a response. -/
def hear (h : Health) (reported : List Telemetry) : Health :=
  { h with monitor := reported.foldl Telemetry.publish h.monitor }

/-- The reading that a silent response is taken for. -/
def cautious (h : Health) (time : Instant) : Budget :=
  ⟨Budget.defaultRemaining, h.monitor.budget.bind Budget.resetAt, time⟩

/-- A reading of that time is taken into account: it is later than the last recovery. -/
def Counts (h : Health) (time : Instant) : Prop := ∀ r, h.recoveredAt = some r → r < time

/-- `g` is `h` after a silent response. -/
structure Heard (h g : Health) (time : Instant) : Prop where
  state : g.monitor.state = h.monitor.state
  load : g.monitor.load = h.monitor.load
  recoveredAt : g.recoveredAt = h.recoveredAt
  budget : g.monitor.budget = some (h.cautious time)

theorem heard_of_silent (h : Health) (status : Nat) (time : Instant) :
    h.Heard (h.hear (statusReport status time ++ [.budget Budget.defaultRemaining none time]))
      time := by
  unfold statusReport
  cases StatusClass.ofStatus? status with
  | none => exact ⟨rfl, rfl, rfl, rfl⟩
  | some c => exact ⟨rfl, rfl, rfl, rfl⟩

variable {h g : Health} {c : TrackerConfig} {time now : Instant} {b : Budget}

namespace Heard

theorem sourceUp_iff (hg : h.Heard g time) : g.SourceUp c now ↔ h.SourceUp c now := by
  constructor
  · intro hup
    exact ⟨hg.load ▸ hup.load, hup.window⟩
  · intro hup
    exact ⟨hg.load.symm ▸ hup.load, hup.window⟩

theorem liveBudget_of_counts (hg : h.Heard g time) (hcounts : h.Counts time) :
    g.liveBudget = some (h.cautious time) := by
  rw [liveBudget_eq_some_iff, hg.recoveredAt]
  exact ⟨hg.budget, hcounts⟩

theorem liveBudget_of_not_counts (hg : h.Heard g time) (hcounts : ¬ h.Counts time) :
    g.liveBudget = none := by
  rw [Option.eq_none_iff_forall_ne_some]
  intro b hb
  obtain ⟨hbudget, hlive⟩ := liveBudget_eq_some_iff.mp hb
  rw [hg.budget, Option.some.injEq] at hbudget
  subst hbudget
  rw [hg.recoveredAt] at hlive
  exact hcounts hlive

end Heard

/-- The response keeps the reset named before, so it is past for both readings or for neither. -/
theorem hasReset_cautious (hlive : h.liveBudget = some b) (time now : Instant) :
    (h.cautious time).hasReset now = b.hasReset now := by
  have hbudget : h.monitor.budget = some b := (liveBudget_eq_some_iff.mp hlive).1
  unfold cautious Budget.hasReset
  rw [hbudget]
  rfl

/-! ## The exceptions -/

/-- A silent response of that time makes the state after a tick milder. -/
inductive Loosens (h : Health) (time now : Instant) : Prop where
  /-- The reading before asks for red, and no reset is past that would clear it. -/
  | hides {b : Budget} (hlive : h.liveBudget = some b) (hcounts : h.Counts time)
      (hpending : ¬ (h.monitor.state.isDegraded = true ∧ b.hasReset now = true))
      (hlow : b.remaining < 10 ∨ h.monitor.state = .green ∧ b.remaining = 10)
  /-- It is red, but no reading holds it. -/
  | releases (hlive : h.liveBudget = none) (hcounts : h.Counts time)
      (hstate : h.monitor.state = .red)
  /-- It is yellow, but no reading holds it, and the reset named before is past. -/
  | resets (hlive : h.liveBudget = none) (hcounts : h.Counts time)
      (hstate : h.monitor.state = .yellow) (hreset : (h.cautious time).hasReset now = true)
  /-- The response does not count, and the reading before asks for a more severe state. -/
  | discards {b : Budget} (hlive : h.liveBudget = some b) (hcounts : ¬ h.Counts time)
      (hworse : ¬ aim h.monitor.state (some b) now ≤ h.monitor.state)

end Health

/-! ## Where the cautious budget leads -/

section aims

variable {current : State} {b : Budget} {now : Instant}

/-- The cautious budget asks for yellow. -/
theorem band_defaultRemaining (h : current ≠ .downtime) :
    band current Budget.defaultRemaining = .yellow := by
  cases current with
  | downtime => exact absurd rfl h
  | green | yellow | red => rfl

theorem band_eq_red_iff (h : current ≠ .downtime) {remaining : Int} :
    band current remaining = .red ↔ remaining < 10 ∨ current = .green ∧ remaining = 10 := by
  cases current with
  | downtime => exact absurd rfl h
  | green =>
    simp only [band, true_and]
    by_cases hlow : remaining ≤ 10
    · simp only [if_pos hlow, true_iff]
      omega
    · rw [if_neg hlow]
      split <;> simp <;> omega
  | yellow =>
    simp only [band]
    by_cases hlow : remaining < 10
    · simp [hlow]
    · rw [if_neg hlow]
      split <;> simp <;> omega
  | red =>
    simp only [band]
    split
    · simp
      omega
    · split <;> simp <;> omega

/-- Of the states other than downtime, only red is more severe than yellow. -/
theorem not_le_yellow_iff {s : State} (h : s ≠ .downtime) : ¬ s ≤ .yellow ↔ s = .red := by
  cases s with
  | downtime => exact absurd rfl h
  | green | yellow | red => decide

end aims

namespace Health

variable {h g : Health} {c : TrackerConfig} {time now : Instant} {b : Budget}

/-! ## Which exception there can be -/

theorem loosens_iff_of_replaced (hlive : h.liveBudget = some b) (hcounts : h.Counts time) :
    h.Loosens time now ↔ ¬ (h.monitor.state.isDegraded = true ∧ b.hasReset now = true) ∧
      (b.remaining < 10 ∨ h.monitor.state = .green ∧ b.remaining = 10) := by
  constructor
  · intro hloosens
    cases hloosens with
    | hides hb _ hpending hlow =>
      rw [hlive] at hb
      cases hb
      exact ⟨hpending, hlow⟩
    | releases hnone _ _ | resets hnone _ _ _ => rw [hlive] at hnone; cases hnone
    | discards _ hstale _ => exact absurd hcounts hstale
  · rintro ⟨hpending, hlow⟩
    exact .hides hlive hcounts hpending hlow

theorem loosens_iff_of_introduced (hlive : h.liveBudget = none) (hcounts : h.Counts time) :
    h.Loosens time now ↔ h.monitor.state = .red ∨
      h.monitor.state = .yellow ∧ (h.cautious time).hasReset now = true := by
  constructor
  · intro hloosens
    cases hloosens with
    | hides hb _ _ _ | discards hb _ _ => rw [hlive] at hb; cases hb
    | releases _ _ hstate => exact .inl hstate
    | resets _ _ hstate hreset => exact .inr ⟨hstate, hreset⟩
  · rintro (hstate | ⟨hstate, hreset⟩)
    · exact .releases hlive hcounts hstate
    · exact .resets hlive hcounts hstate hreset

theorem loosens_iff_of_stale (hcounts : ¬ h.Counts time) :
    h.Loosens time now ↔
      ∃ b, h.liveBudget = some b ∧ ¬ aim h.monitor.state (some b) now ≤ h.monitor.state := by
  constructor
  · intro hloosens
    cases hloosens with
    | hides _ hlater _ _ | releases _ hlater _ | resets _ hlater _ _ =>
      exact absurd hlater hcounts
    | discards hlive _ hworse => exact ⟨_, hlive, hworse⟩
  · rintro ⟨b, hlive, hworse⟩
    exact .discards hlive hcounts hworse

/-! ## Both ticks -/

/-- A live reading is replaced by the cautious budget. -/
theorem not_le_iff_of_replaced (hcur : h.monitor.state ≠ .downtime)
    (hlive : h.liveBudget = some b) (hcounts : h.Counts time) :
    ¬ aim h.monitor.state (some b) now ≤ aim h.monitor.state (some (h.cautious time)) now ↔
      h.Loosens time now := by
  rw [loosens_iff_of_replaced hlive hcounts]
  by_cases hreset : h.monitor.state.isDegraded = true ∧ b.hasReset now = true
  · -- both readings are cleared by the same reset
    have hcautious := (hasReset_cautious hlive time now).trans hreset.2
    rw [aim_of_reset hreset.1 hreset.2, aim_of_reset hreset.1 hcautious]
    constructor
    · intro hlt
      exact absurd (State.le_refl _) hlt
    · rintro ⟨hpending, -⟩
      exact absurd hreset hpending
  · have hcautious : ¬ (h.monitor.state.isDegraded = true ∧
        (h.cautious time).hasReset now = true) := by
      rwa [hasReset_cautious hlive]
    rw [aim_of_pending hcur hreset, aim_of_pending hcur hcautious]
    show ¬ _ ≤ band h.monitor.state Budget.defaultRemaining ↔ _
    -- the cautious budget leads to yellow, so only red is more severe
    rw [band_defaultRemaining hcur, not_le_yellow_iff (band_ne_downtime hcur _),
      band_eq_red_iff hcur]
    constructor
    · intro hlow
      exact ⟨hreset, hlow⟩
    · rintro ⟨-, hlow⟩
      exact hlow

/-- There is no live reading, and the cautious budget becomes one. -/
theorem not_le_iff_of_introduced (hcur : h.monitor.state ≠ .downtime)
    (hlive : h.liveBudget = none) (hcounts : h.Counts time) :
    ¬ h.monitor.state ≤ aim h.monitor.state (some (h.cautious time)) now ↔
      h.Loosens time now := by
  rw [loosens_iff_of_introduced hlive hcounts]
  by_cases hreset : h.monitor.state.isDegraded = true ∧ (h.cautious time).hasReset now = true
  · rw [aim_of_reset hreset.1 hreset.2]
    obtain ⟨hdegraded, hreset⟩ := hreset
    cases hstate : h.monitor.state with
    | downtime => exact absurd hstate hcur
    | green => rw [hstate] at hdegraded; cases hdegraded
    | yellow =>
      simp only [hreset]
      decide
    | red =>
      simp only [true_or, iff_true]
      decide
  · rw [aim_of_pending hcur hreset]
    show ¬ _ ≤ band h.monitor.state Budget.defaultRemaining ↔ _
    rw [band_defaultRemaining hcur, not_le_yellow_iff hcur]
    constructor
    · exact Or.inl
    · rintro (hred | ⟨hyellow, hpast⟩)
      · exact hred
      · rw [hyellow] at hreset
        exact absurd ⟨rfl, hpast⟩ hreset

/-- The response does not count, so no reading is left. -/
theorem not_le_iff_of_stale (hcur : h.monitor.state ≠ .downtime) (hcounts : ¬ h.Counts time) :
    ¬ aim h.monitor.state h.liveBudget now ≤ h.monitor.state ↔ h.Loosens time now := by
  rw [loosens_iff_of_stale hcounts]
  cases hlive : h.liveBudget with
  | none =>
    -- without the response there is none, either
    rw [aim_none hcur]
    constructor
    · intro hlt
      exact absurd (State.le_refl _) hlt
    · rintro ⟨b, hb, -⟩
      cases hb
  | some b =>
    constructor
    · intro hworse
      exact ⟨b, rfl, hworse⟩
    · rintro ⟨b', hb, hworse⟩
      cases hb
      exact hworse

/-- While the source is up and it is not downtime, both ticks go by their readings. -/
theorem Heard.not_le_iff (hg : h.Heard g time) (hup : h.SourceUp c now)
    (hcur : h.monitor.state ≠ .downtime) :
    ¬ (h.tick c now).1.monitor.state ≤ (g.tick c now).1.monitor.state ↔ h.Loosens time now := by
  have hup' : g.SourceUp c now := hg.sourceUp_iff.mpr hup
  rw [state_tick_of_up hup, state_tick_of_up hup', hg.state]
  by_cases hcounts : h.Counts time
  · rw [hg.liveBudget_of_counts hcounts]
    cases hlive : h.liveBudget with
    | some b => exact not_le_iff_of_replaced hcur hlive hcounts
    | none =>
      rw [aim_none hcur]
      exact not_le_iff_of_introduced hcur hlive hcounts
  · rw [hg.liveBudget_of_not_counts hcounts, aim_none hcur]
    exact not_le_iff_of_stale hcur hcounts

/-- Elsewhere neither tick goes by a reading. -/
theorem Heard.state_tick_eq (hg : h.Heard g time)
    (hquiet : ¬ (h.SourceUp c now ∧ h.monitor.state ≠ .downtime)) :
    (g.tick c now).1.monitor.state = (h.tick c now).1.monitor.state := by
  by_cases hup : h.SourceUp c now
  · have hcur : h.monitor.state = .downtime := Decidable.not_not.mp fun hcur => hquiet ⟨hup, hcur⟩
    have hup' : g.SourceUp c now := hg.sourceUp_iff.mpr hup
    rw [state_tick_of_up hup, state_tick_of_up hup', hg.state, hcur, aim_downtime, aim_downtime]
  · have hup' : ¬ g.SourceUp c now := fun hup' => hup (hg.sourceUp_iff.mp hup')
    rw [state_tick_of_not_up hup, state_tick_of_not_up hup']

end Health

/-- **What a silent response does to the next tick.** Let the headers of a response tell nothing of
the budget, and let it be reported before a tick. The state after the tick is at least as severe as
the one that the tick would have led to without the response, except while the source is up and it
is not downtime, and there exactly in the listed exceptions. -/
theorem silent_response_tick {headers : Headers} (hs : headers.IsSilent) (h : Health)
    (c : TrackerConfig) (status : Nat) (time now : Instant) :
    ∃ reported, telemetry status headers time = .ok reported ∧
      (¬ (h.tick c now).1.monitor.state ≤ ((h.hear reported).tick c now).1.monitor.state ↔
        h.SourceUp c now ∧ h.monitor.state ≠ .downtime ∧ h.Loosens time now) := by
  have hheard := h.heard_of_silent status time
  refine ⟨_, hs.telemetry_eq status time, ?_⟩
  by_cases hopen : h.SourceUp c now ∧ h.monitor.state ≠ .downtime
  · obtain ⟨hup, hcur⟩ := hopen
    rw [hheard.not_le_iff hup hcur]
    constructor
    · intro hloosens
      exact ⟨hup, hcur, hloosens⟩
    · rintro ⟨-, -, hloosens⟩
      exact hloosens
  · rw [hheard.state_tick_eq hopen]
    constructor
    · intro hlt
      exact absurd (State.le_refl _) hlt
    · rintro ⟨hup, hcur, -⟩
      exact absurd ⟨hup, hcur⟩ hopen

/-! ## A low reading that is hidden -/

namespace Hidden

def noon : Instant := ⟨1704110400, 0, Eq.refl true⟩

/-- One value cannot be read, and the other is missing. -/
def headers : Headers := ⟨[("x-esi-error-limit-remain", "lots")]⟩

def reported : List Telemetry := [.status .ok noon, .budget 15 none noon]

theorem isSilent_headers : headers.IsSilent := ⟨by decide +kernel, by decide +kernel⟩

theorem telemetry_headers : telemetry 200 headers noon = .ok reported := by
  rw [isSilent_headers.telemetry_eq]
  rfl

/-- The source is up, and five errors are left, so that it is red. -/
def events : List Event := [.publishLoad ⟨20000, false, noon⟩, .recordBudget 5 none noon, .tick]

def budget : Budget := ⟨5, none, noon⟩

def isRed (t : Station) : Bool :=
  t.clock = noon && t.health.liveBudget = some budget && t.health.recoveredAt = none &&
    t.health.monitor.state = .red && decide (t.health.SourceUp .standard noon)

theorem reaches_red :
    (station .standard).reaches (fun _ _ => True) (.start noon) events (fun t => isRed t &&
      ((t.health.tick .standard noon).1.monitor.state = .red &&
        ((t.health.hear reported).tick .standard noon).1.monitor.state = .yellow)) = true := by
  decide +kernel

/-- A silent response opens the gate, which without it would have stayed closed. -/
theorem exists_loosening_response :
    ∃ j t, (station .standard).Run (fun _ _ => True) (.start noon) j t ∧
      headers.IsSilent ∧ telemetry 200 headers noon = .ok reported ∧
      (t.health.tick .standard noon).1.monitor.state = .red ∧
      ((t.health.hear reported).tick .standard noon).1.monitor.state = .yellow := by
  obtain ⟨j, t, hrun, ht⟩ := Machine.exists_run_of_reaches reaches_red
  simp only [Bool.and_eq_true, decide_eq_true_eq] at ht
  exact ⟨j, t, hrun, isSilent_headers, telemetry_headers, ht.2.1, ht.2.2⟩

theorem milder_than_red :
    ∃ j t, (station .standard).Run (fun _ _ => True) (.start noon) j t ∧
      ∃ reported, telemetry 200 headers noon = .ok reported ∧
        ¬ (t.health.tick .standard noon).1.monitor.state
          ≤ ((t.health.hear reported).tick .standard noon).1.monitor.state := by
  obtain ⟨j, t, hrun, ht⟩ := Machine.exists_run_of_reaches reaches_red
  simp only [isRed, Bool.and_eq_true, decide_eq_true_eq] at ht
  obtain ⟨⟨⟨⟨⟨-, hlive⟩, hrecovered⟩, hstate⟩, hup⟩, -⟩ := ht
  have hcounts : t.health.Counts noon := by
    intro r hr
    rw [hrecovered] at hr
    cases hr
  have hpending : ¬ (t.health.monitor.state.isDegraded = true ∧ budget.hasReset noon = true) := by
    rintro ⟨-, hreset⟩
    exact absurd hreset (by decide)
  have hloosens : t.health.Loosens noon noon :=
    .hides hlive hcounts hpending (.inl (by decide))
  obtain ⟨reported, htelemetry, hiff⟩ :=
    silent_response_tick isSilent_headers t.health .standard 200 noon noon
  exact ⟨j, t, hrun, reported, htelemetry, hiff.mpr ⟨hup, by simp [hstate], hloosens⟩⟩

end Hidden

end Harvest.Admission
