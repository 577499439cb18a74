import Harvest.Proofs.Admission.Targets
import Mathlib.Dynamics.PeriodicPts.Lemmas

/-! # The state under constant signals

While the signals do not change, each tick does the same to the state, so that the states of a run
are the iterates of one function. The bands of the budget overlap so that the state comes to rest:
two ticks are enough, wherever it starts.

Two numbers of errors belong to two bands at once. Green is left for yellow with twenty errors left,
and so is yellow for green: at twenty the state never rests, and changes with every tick. Green is
left for red with ten errors left, and red for yellow: a downtime that ends at ten takes a third
tick.

## Main definitions

* `Steady`: the steps of a run under constant signals.
* `level`: the state that the remaining budget comes to rest at.

## Main statements

* `Course.step`, `course_of_run`: the states of such a run are the iterates of `settle`.
* `iterate_settle`, `iterate_swing`: where they come to rest, and where they do not.
* `state_after_second_tick`: the states of a run from its second tick on.
-/

namespace Harvest.Admission

open Harvest.Calendar

/-! ## The same tick again and again -/

/-- Where a tick leads while the source is up and no reset is past. -/
def settle (budget : Option Budget) (current : State) : State :=
  if current = .downtime then .green
  else
    match budget with
    | none => current
    | some b => band current b.remaining

/-- The state that a number of errors left comes to rest at. -/
def level (remaining : Int) : State :=
  if remaining < 10 then .red else if remaining ≤ 20 then .yellow else .green

section settle

variable {current : State} {b : Budget} {n : Nat}

@[simp] theorem settle_downtime (budget : Option Budget) : settle budget .downtime = .green := rfl

theorem settle_none (h : current ≠ .downtime) : settle none current = current := if_neg h

theorem settle_some (h : current ≠ .downtime) :
    settle (some b) current = band current b.remaining := if_neg h

theorem aim_eq_settle {budget : Option Budget} {now : Instant}
    (h : ∀ b, budget = some b → b.hasReset now = false) :
    aim current budget now = settle budget current := by
  by_cases hc : current = .downtime
  · rw [hc, aim_downtime, settle_downtime]
  · cases budget with
    | none => rw [aim_none hc, settle_none hc]
    | some b =>
      have hpending : ¬ (current.isDegraded = true ∧ b.hasReset now = true) := by
        rintro ⟨-, hreset⟩
        rw [h b rfl] at hreset
        cases hreset
      rw [aim_of_pending hc hpending, settle_some hc]

/-! ## Coming to rest -/

theorem level_ne_downtime (remaining : Int) : level remaining ≠ .downtime := by
  unfold level
  split
  · decide
  · split <;> decide

/-- Apart from the numbers that belong to two bands, one tick is enough. -/
theorem band_eq_level {remaining : Int} (h : current ≠ .downtime) (h20 : remaining ≠ 20)
    (h10 : current = .green → remaining ≠ 10) : band current remaining = level remaining := by
  unfold level
  cases current with
  | downtime => exact absurd rfl h
  | green =>
    have h10 : remaining ≠ 10 := h10 rfl
    simp only [band]
    by_cases hlow : remaining < 10
    · rw [if_pos hlow, if_pos (by omega)]
    · rw [if_neg hlow, if_neg (by omega)]
  | yellow =>
    simp only [band]
    by_cases hlow : remaining < 10
    · rw [if_pos hlow, if_pos hlow]
    · rw [if_neg hlow, if_neg hlow]
      by_cases hhigh : 20 ≤ remaining
      · rw [if_pos hhigh, if_neg (by omega)]
      · rw [if_neg hhigh, if_pos (by omega)]
  | red =>
    simp only [band]
    by_cases hhigh : 20 < remaining
    · rw [if_pos hhigh, if_neg (by omega), if_neg (by omega)]
    · rw [if_neg hhigh]
      by_cases hlow : remaining < 10
      · rw [if_neg (by omega), if_pos hlow]
      · rw [if_pos (by omega), if_neg hlow, if_pos (by omega)]

/-- The bands leave the state of rest as it is. -/
theorem settle_level (h20 : b.remaining ≠ 20) :
    settle (some b) (level b.remaining) = level b.remaining := by
  have hne := level_ne_downtime b.remaining
  rw [settle_some hne]
  apply band_eq_level hne h20
  intro hgreen h10
  rw [h10] at hgreen
  exact absurd hgreen (by decide)

/-- Outside of downtime, two ticks are enough. -/
theorem settle_settle (h : current ≠ .downtime) (h20 : b.remaining ≠ 20) :
    settle (some b) (settle (some b) current) = level b.remaining := by
  by_cases h10 : current = .green ∧ b.remaining = 10
  · -- red is only passed through
    obtain ⟨rfl, hten⟩ := h10
    rw [settle_some h, hten]
    show settle (some b) .red = _
    rw [settle_some (by decide), hten]
    rfl
  · have hband : band current b.remaining = level b.remaining :=
      band_eq_level h h20 fun hgreen hten => h10 ⟨hgreen, hten⟩
    rw [settle_some h, hband, settle_level h20]

/-- The end of a downtime is a tick of its own, but for ten errors left the next one is enough. -/
theorem settle_green (h20 : b.remaining ≠ 20) (h10 : b.remaining ≠ 10) :
    settle (some b) (settle (some b) .downtime) = level b.remaining := by
  rw [settle_downtime, settle_some (by decide)]
  exact band_eq_level (by decide) h20 fun _ => h10

theorem iterate_settle (h20 : b.remaining ≠ 20) (hn : 2 ≤ n)
    (h10 : current = .downtime → b.remaining = 10 → 3 ≤ n) :
    (settle (some b))^[n] current = level b.remaining := by
  have hrest : ∀ k, (settle (some b))^[k] (level b.remaining) = level b.remaining :=
    Function.iterate_fixed (settle_level h20)
  by_cases hten : current = .downtime ∧ b.remaining = 10
  · obtain ⟨k, rfl⟩ := Nat.exists_eq_add_of_le' (h10 hten.1 hten.2)
    rw [hten.1, Function.iterate_add_apply]
    show (settle (some b))^[k] (settle (some b) (settle (some b) .green)) = _
    rw [settle_settle (by decide) h20, hrest]
  · obtain ⟨k, rfl⟩ := Nat.exists_eq_add_of_le' hn
    rw [Function.iterate_add_apply]
    show (settle (some b))^[k] (settle (some b) (settle (some b) current)) = _
    by_cases hdown : current = .downtime
    · rw [hdown, settle_green h20 fun h => hten ⟨hdown, h⟩, hrest]
    · rw [settle_settle hdown h20, hrest]

/-- A downtime that ends with ten errors left passes through green and red. -/
example : [1, 2, 3, 4].map (fun n => (settle (some ⟨10, none, .epoch⟩))^[n] .downtime)
    = [.green, .red, .yellow, .yellow] := rfl

/-- Without a live reading, only a downtime ends. -/
theorem iterate_settle_none (hn : 1 ≤ n) : (settle none)^[n] current = settle none current := by
  obtain ⟨k, rfl⟩ := Nat.exists_eq_add_of_le' hn
  rw [Function.iterate_succ_apply]
  apply Function.iterate_fixed
  by_cases hdown : current = .downtime
  · rw [hdown]
    rfl
  · rw [settle_none hdown, settle_none hdown]

/-! ## Never coming to rest -/

theorem settle_green_of_twenty (h : b.remaining = 20) : settle (some b) .green = .yellow := by
  rw [settle_some (by decide), h]
  rfl

theorem settle_yellow_of_twenty (h : b.remaining = 20) : settle (some b) .yellow = .green := by
  rw [settle_some (by decide), h]
  rfl

/-- With twenty errors left, every tick leads to green or yellow. -/
theorem settle_of_twenty (h : b.remaining = 20) (current : State) :
    settle (some b) current = .green ∨ settle (some b) current = .yellow := by
  cases current with
  | green => exact .inr (settle_green_of_twenty h)
  | yellow => exact .inl (settle_yellow_of_twenty h)
  | downtime => exact .inl rfl
  | red =>
    rw [settle_some (by decide), h]
    exact .inr rfl

/-- With twenty errors left, green and yellow take turns. -/
theorem iterate_swing (h : b.remaining = 20) (hcurrent : current = .green ∨ current = .yellow) :
    (settle (some b))^[n] current = current ↔ 2 ∣ n := by
  have hgreen := settle_green_of_twenty h
  have hyellow := settle_yellow_of_twenty h
  have hperiod : Function.IsPeriodicPt (settle (some b)) 2 current := by
    show settle (some b) (settle (some b) current) = current
    rcases hcurrent with rfl | rfl
    · rw [hgreen, hyellow]
    · rw [hyellow, hgreen]
  have hmoves : ¬ Function.IsFixedPt (settle (some b)) current := by
    show ¬ settle (some b) current = current
    rcases hcurrent with rfl | rfl
    · rw [hgreen]
      decide
    · rw [hyellow]
      decide
  have hminimal : Function.minimalPeriod (settle (some b)) current = 2 :=
    Function.minimalPeriod_eq_prime hperiod hmoves
  rw [← hminimal]
  exact Function.isPeriodicPt_iff_minimalPeriod_dvd

end settle

/-! ## Runs under constant signals -/

/-- The number of ticks that a journal tells of. -/
def ticksIn (j : List Mark) : Nat :=
  j.countP fun
    | .ticked _ _ => true
    | _ => false

theorem ticksIn_append (j k : List Mark) : ticksIn (j ++ k) = ticksIn j + ticksIn k :=
  List.countP_append

namespace Station

/-- The source is up, and no reset is past. -/
structure Calm (c : TrackerConfig) (s : Station) : Prop where
  up : s.health.SourceUp c s.clock
  pending : ∀ t ∈ s.health.monitor.budget.bind Budget.resetAt, ¬ t < s.clock

instance (c : TrackerConfig) (s : Station) : Decidable (s.Calm c) :=
  decidable_of_iff (s.health.SourceUp c s.clock ∧
      ∀ t ∈ s.health.monitor.budget.bind Budget.resetAt, ¬ t < s.clock)
    ⟨fun h => ⟨h.1, h.2⟩, fun h => ⟨h.up, h.pending⟩⟩

end Station

/-- The signals that a tick sees are constant: it is calm at every tick, no state is forced, and the
budget that is published does not change. -/
def Steady (c : TrackerConfig) (s : Station) : Event → Prop
  | .tick => s.Calm c
  | .recordBudget remaining resetAt observedAt =>
    (s.health.monitor.recordBudget remaining resetAt observedAt).budget = s.health.monitor.budget
  | .setState _ | .apply _ => False
  | .setClock _ | .publishLoad _ | .recordStatus _ _ | .prune _ => True

variable {c : TrackerConfig} {s t u : Station} {j k : List Mark} {n : Nat}

theorem Station.Calm.hasReset_eq (h : s.Calm c) {b : Budget}
    (hb : s.health.liveBudget = some b) : b.hasReset s.clock = false := by
  have hbudget := (Health.liveBudget_eq_some_iff.mp hb).1
  have hpending := h.pending
  rw [hbudget, Option.bind_some] at hpending
  unfold Budget.hasReset
  split
  · rename_i r hr
    exact decide_eq_false (hpending r hr)
  · rfl

/-- A station `t` that `n` ticks under constant signals have led to from `s`. -/
structure Course (s : Station) (n : Nat) (t : Station) : Prop where
  budget : t.health.monitor.budget = s.health.monitor.budget
  recoveredAt : t.health.recoveredAt = s.health.recoveredAt
  state : t.health.monitor.state = (settle s.health.liveBudget)^[n] s.health.monitor.state

namespace Course

theorem start (s : Station) : Course s 0 s := ⟨rfl, rfl, rfl⟩

theorem liveBudget_eq (h : Course s n t) : t.health.liveBudget = s.health.liveBudget := by
  rw [Health.liveBudget, Health.liveBudget, h.budget, h.recoveredAt]

theorem tick (h : Course s n t) (hcalm : t.Calm c) : Course s (n + 1) (t.next c .tick) := by
  have hreason : (t.transition c).reason ≠ some .budgetReset := by
    intro hr
    obtain ⟨-, -, b, hb, hreset⟩ := (t.health.verdict_transition c t.clock).of_budgetReset hr
    exact absurd ((hcalm.hasReset_eq hb).symm.trans hreset) (by decide)
  have hrecovered : (t.next c .tick).health.recoveredAt = t.health.recoveredAt :=
    (t.health.recoveredAt_tick c t.clock).trans (if_neg hreason)
  have haim : aim t.health.monitor.state t.health.liveBudget t.clock
      = settle t.health.liveBudget t.health.monitor.state :=
    aim_eq_settle fun b hb => hcalm.hasReset_eq hb
  have hstate : (t.next c .tick).health.monitor.state
      = settle t.health.liveBudget t.health.monitor.state :=
    (Health.state_tick_of_up hcalm.up).trans haim
  refine ⟨(t.health.budget_tick c t.clock).trans h.budget, hrecovered.trans h.recoveredAt, ?_⟩
  rw [hstate, h.liveBudget_eq, h.state, Function.iterate_succ_apply']

/-- Only ticks change the state. -/
theorem step (h : Course s n t) (e : Event) (allowed : Steady c t e) :
    Course s (n + ticksIn (t.mark? c e).toList) (t.next c e) := by
  cases e with
  | tick => exact h.tick allowed
  | recordBudget remaining resetAt observedAt =>
    have hbudget : (t.next c (.recordBudget remaining resetAt observedAt)).health.monitor.budget
        = t.health.monitor.budget := allowed
    exact ⟨hbudget.trans h.budget, h.recoveredAt, h.state⟩
  | setState | apply => exact absurd allowed id
  | setClock | publishLoad | recordStatus | prune => exact ⟨h.budget, h.recoveredAt, h.state⟩

end Course

theorem course_of_run (h : (station c).Run (Steady c) s j t) : Course s (ticksIn j) t := by
  induction h with
  | nil => exact .start s
  | snoc _ allowed step ih =>
    cases step
    rw [ticksIn_append]
    exact ih.step _ allowed

/-! ## From the second tick on -/

namespace Station

/-- Exactly twenty errors are left, with which green is left for yellow, and yellow for green. -/
def Swings (s : Station) : Prop := ∃ b, s.health.liveBudget = some b ∧ b.remaining = 20

/-- It is downtime with exactly ten errors left, with which green is left for red, and red for
yellow. -/
def Overshoots (s : Station) : Prop :=
  s.health.monitor.state = .downtime ∧ ∃ b, s.health.liveBudget = some b ∧ b.remaining = 10

end Station

/-- From the second tick on the state is that of rest. -/
theorem Course.state_eq (h : Course s n t) (hn : 2 ≤ n) (hswings : ¬ s.Swings)
    (hovershoots : s.Overshoots → 3 ≤ n) :
    t.health.monitor.state = match s.health.liveBudget with
      | none => settle none s.health.monitor.state
      | some b => level b.remaining := by
  rw [h.state]
  cases hlive : s.health.liveBudget with
  | none => exact iterate_settle_none (by omega)
  | some b =>
    have h20 : b.remaining ≠ 20 := fun h20 => hswings ⟨b, hlive, h20⟩
    apply iterate_settle h20 hn
    intro hdown h10
    exact hovershoots ⟨hdown, b, hlive, h10⟩

/-- **The state under constant signals, from the second tick on.** Take a run in which the source is
up at every tick, no reset is past, the budget that is published does not change and no state is
forced. After its second tick and after every later one the state is the same, wherever it started,
unless exactly twenty errors are left; but a downtime that ends with exactly ten left takes a third
tick. With exactly twenty left the state never rests: it changes with every tick. -/
theorem state_after_second_tick (ht : (station c).Run (Steady c) s j t)
    (hu : (station c).Run (Steady c) t k u) (hj : 2 ≤ ticksIn j) :
    (¬ s.Swings → (s.Overshoots → 3 ≤ ticksIn j) →
      u.health.monitor.state = t.health.monitor.state) ∧
    (s.Swings → (u.health.monitor.state = t.health.monitor.state ↔ 2 ∣ ticksIn k)) := by
  have hcourse := course_of_run ht
  constructor
  · intro hswings hovershoots
    have hlater := course_of_run (ht.append hu)
    rw [ticksIn_append] at hlater
    rw [hcourse.state_eq hj hswings hovershoots,
      hlater.state_eq (by omega) hswings fun hover => (hovershoots hover).trans (by omega)]
  · rintro ⟨b, hlive, h20⟩
    have hrest := course_of_run hu
    have hstate : t.health.monitor.state = .green ∨ t.health.monitor.state = .yellow := by
      obtain ⟨m, hm⟩ := Nat.exists_eq_add_of_le' (show 1 ≤ ticksIn j by omega)
      rw [hcourse.state, hlive, hm, Function.iterate_succ_apply']
      exact settle_of_twenty h20 _
    rw [hrest.state, hcourse.liveBudget_eq, hlive]
    exact iterate_swing h20 hstate

/-! ## Two numbers that belong to two bands -/

namespace Boundary

def noon : Instant := ⟨1704110400, 0, Eq.refl true⟩

/-- The source is up, and some errors are left. -/
def left (remaining : Int) : Station :=
  ((Station.start noon).next .standard (.publishLoad ⟨20000, false, noon⟩)).next .standard
    (.recordBudget remaining none noon)

/-- It is downtime, though nothing asks for it any more. -/
def leftInDowntime (remaining : Int) : Station :=
  (left remaining).next .standard (.setState .downtime)

def tick (s : Station) : Station := s.next .standard .tick

theorem run_tick {s : Station} (h : s.Calm .standard) :
    (station .standard).Run (Steady .standard) s [.ticked s.clock (s.transition .standard)]
      (tick s) :=
  Machine.Run.single (m := station .standard) (e := .tick) h rfl

/-- With twenty errors left, the third tick under constant signals changes the state. -/
theorem exists_change_after_second_tick :
    ∃ j t k u, (station .standard).Run (Steady .standard) (left 20) j t ∧ ticksIn j = 2 ∧
      (station .standard).Run (Steady .standard) t k u ∧ ticksIn k = 1 ∧
      u.health.monitor.state ≠ t.health.monitor.state := by
  have hfirst := run_tick (s := left 20) (by decide +kernel)
  have hsecond := run_tick (s := tick (left 20)) (by decide +kernel)
  have hthird := run_tick (s := tick (tick (left 20))) (by decide +kernel)
  exact ⟨_, _, _, _, hfirst.append hsecond, rfl, hthird, rfl, by decide +kernel⟩

/-- A downtime that ends with ten errors left comes to rest with the third tick. -/
theorem rests_after_third_tick :
    ∃ j t k u, (station .standard).Run (Steady .standard) (leftInDowntime 10) j t ∧
      ticksIn j = 3 ∧ (station .standard).Run (Steady .standard) t k u ∧ ticksIn k = 1 ∧
      u.health.monitor.state = t.health.monitor.state := by
  have hfirst := run_tick (s := leftInDowntime 10) (by decide +kernel)
  have hsecond := run_tick (s := tick (leftInDowntime 10)) (by decide +kernel)
  have hthird := run_tick (s := tick (tick (leftInDowntime 10))) (by decide +kernel)
  have hfourth := run_tick (s := tick (tick (tick (leftInDowntime 10)))) (by decide +kernel)
  have hrun := (hfirst.append hsecond).append hthird
  have hswings : ¬ (leftInDowntime 10).Swings := by
    rintro ⟨b, hlive, h20⟩
    have hb : (leftInDowntime 10).health.liveBudget = some ⟨10, none, noon⟩ := by decide +kernel
    rw [hb] at hlive
    cases hlive
    exact absurd h20 (by decide)
  exact ⟨_, _, _, _, hrun, rfl, hfourth, rfl,
    (state_after_second_tick hrun hfourth (by decide)).1 hswings fun _ => by decide⟩

end Boundary

end Harvest.Admission
