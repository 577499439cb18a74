import Harvest.Proofs.Admission.Moves

/-! # Downtime is decided by the present signals

After a tick the state is downtime exactly if the load signal says so, or is missing or too old, or
if the clock is inside the daily window. Nothing else counts: neither the budget of errors and its
reset, nor a recovery of the past, nor the state before the tick.

The window is an arc of the clock face. Whoever walks forward from its start comes to an instant
inside of it no later than to its end, be it on the same day or past midnight.

## Main statements

* `Window.containsTime_iff`: an open window is an arc.
* `Verdict.target_eq_downtime_iff`: the evaluations that come to downtime.
* `downtime_after_tick_iff`: the ticks of a run that leave a station in downtime.
-/

namespace Harvest.Calendar.TimeOfDay

/-! ## The clock face -/

/-- The number of places on the clock face: each second has room for a leap second. -/
def places : Int := 86400 * 2000000000

/-- The place on the clock face. -/
def place (t : TimeOfDay) : Int := t.second * 2000000000 + t.nano

/-- How far it is to walk forward on the clock face from `s` to `t`. -/
def ahead (s t : TimeOfDay) : Int := (t.place - s.place) % places

variable {s t : TimeOfDay}

theorem bounds (t : TimeOfDay) : t.second < 86400 ∧ t.nano < 2000000000 := by
  simpa only [validTimeOfDay, Bool.and_eq_true, decide_eq_true_eq] using t.valid

theorem place_bounds (t : TimeOfDay) : 0 ≤ t.place ∧ t.place < places := by
  obtain ⟨hsecond, hnano⟩ := t.bounds
  unfold place places
  omega

theorem le_iff_place_le : s ≤ t ↔ s.place ≤ t.place := by
  obtain ⟨-, hs⟩ := s.bounds
  obtain ⟨-, ht⟩ := t.bounds
  show s.second < t.second ∨ s.second = t.second ∧ s.nano ≤ t.nano ↔ _
  unfold place
  omega

theorem ahead_of_le (h : s.place ≤ t.place) : ahead s t = t.place - s.place := by
  have hs := s.place_bounds
  have ht := t.place_bounds
  exact Int.emod_eq_of_lt (by omega) (by omega)

/-- Whoever walks to an earlier place walks past midnight. -/
theorem ahead_of_lt (h : t.place < s.place) : ahead s t = t.place - s.place + places := by
  have hs := s.place_bounds
  have ht := t.place_bounds
  unfold ahead
  rw [← Int.add_emod_right]
  exact Int.emod_eq_of_lt (by omega) (by omega)

end Harvest.Calendar.TimeOfDay

namespace Harvest.Admission

open Harvest.Calendar

namespace Window

/-- The time lies on the arc that leads forward from the start of the window to its end, both
included. -/
def OnArc (w : Window) (t : TimeOfDay) : Prop := w.start.ahead t ≤ w.start.ahead w.stop

instance (w : Window) (t : TimeOfDay) : Decidable (w.OnArc t) :=
  inferInstanceAs (Decidable (w.start.ahead t ≤ w.start.ahead w.stop))

/-- An open window is an arc. -/
theorem containsTime_iff {w : Window} {t : TimeOfDay} : w.containsTime t = true ↔ w.OnArc t := by
  have hstart := w.start.place_bounds
  have hstop := w.stop.place_bounds
  have ht := t.place_bounds
  unfold containsTime OnArc
  by_cases hle : w.start ≤ w.stop
  · -- the arc ends on the day on which it starts
    rw [if_pos hle, Bool.and_eq_true, decide_eq_true_eq, decide_eq_true_eq,
      TimeOfDay.le_iff_place_le, TimeOfDay.le_iff_place_le]
    rw [TimeOfDay.le_iff_place_le] at hle
    rw [TimeOfDay.ahead_of_le hle]
    by_cases hlt : t.place < w.start.place
    · rw [TimeOfDay.ahead_of_lt hlt]
      omega
    · rw [TimeOfDay.ahead_of_le (by omega)]
      omega
  · -- the arc leads past midnight
    rw [if_neg hle, Bool.or_eq_true, decide_eq_true_eq, decide_eq_true_eq,
      TimeOfDay.le_iff_place_le, TimeOfDay.le_iff_place_le]
    rw [TimeOfDay.le_iff_place_le] at hle
    rw [TimeOfDay.ahead_of_lt (show w.stop.place < w.start.place by omega)]
    by_cases hlt : t.place < w.start.place
    · rw [TimeOfDay.ahead_of_lt hlt]
      omega
    · rw [TimeOfDay.ahead_of_le (by omega)]
      omega

end Window

/-! ## Evaluations that come to downtime -/

/-- A load that is taken for an outage. -/
def Policy.IsDown (p : Policy) (l : Load) : Prop :=
  l.maintenance = true ∨ l.activeCount < p.minActiveCount

instance (p : Policy) (l : Load) : Decidable (p.IsDown l) :=
  inferInstanceAs (Decidable (l.maintenance = true ∨ l.activeCount < p.minActiveCount))

/-- A missing load counts as an outage. -/
theorem Policy.outage_ne_none_iff {p : Policy} {load : Option Load} :
    p.outage load ≠ none ↔ ∀ l, load = some l → p.IsDown l := by
  cases load with
  | none => simp [outage]
  | some l =>
    simp only [outage, IsDown, Option.some.injEq, forall_eq']
    split
    · simp [*]
    · split <;> simp [*]

theorem Policy.outage_eq_none_iff {p : Policy} {load : Option Load} :
    p.outage load = none ↔ ∃ l, load = some l ∧ ¬ p.IsDown l := by
  rw [← Decidable.not_iff_not, ← ne_eq, outage_ne_none_iff]
  simp only [not_exists, not_and, Decidable.not_not]

/-- The bands of the budget neither lead to downtime nor out of it. -/
theorem band_ne_downtime {current : State} (h : current ≠ .downtime) (remaining : Int) :
    band current remaining ≠ .downtime := by
  cases current with
  | downtime => exact absurd rfl h
  | green | yellow | red =>
    simp only [band]
    split
    · decide
    · split <;> decide

theorem Verdict.target_eq_downtime_iff {current : State} {s : Signals} {p : Policy} {t : Transition}
    (h : Verdict current s p t) :
    t.target = .downtime ↔ p.outage s.load ≠ none ∨ p.window.contains s.now = true := by
  cases h with
  | outage h => simp [Transition.into, h]
  | remain h hc hw => simp [Transition.stay, hc, hw]
  | window h _ hw => simp [Transition.into, hw]
  | reopen h _ hw | reset h _ hw => simp [Transition.into, h, hw]
  | unknown h hc hw | keep h hc hw => simp [Transition.stay, h, hc, hw]
  | move h hc hw => simp [Transition.into, h, hw, band_ne_downtime hc]

/-! ## Along runs -/

/-- The last load signal that a journal tells of. -/
def lastLoad (j : List Mark) : Option Load :=
  (j.filterMap fun
    | .loaded l => some l
    | _ => none).getLast?

theorem lastLoad_append (j k : List Mark) : lastLoad (j ++ k) = (lastLoad k).or (lastLoad j) := by
  rw [lastLoad, List.filterMap_append, List.getLast?_append]
  rfl

variable {c : TrackerConfig} {ok : Station → Event → Prop} {s t : Station} {j : List Mark}

theorem load_next (c : TrackerConfig) (s : Station) (e : Event) :
    (s.next c e).health.monitor.load
      = (lastLoad (s.mark? c e).toList).or s.health.monitor.load := by
  cases e with
  | tick => exact s.health.load_tick c s.clock
  | apply t => exact s.health.monitor.load_apply t
  | _ => rfl

/-- The load signal that a station goes by is the last that was published. -/
theorem load_of_run (h : (station c).Run ok s j t) :
    t.health.monitor.load = (lastLoad j).or s.health.monitor.load := by
  induction h with
  | nil => rfl
  | @snoc j t u e _ _ step ih =>
    rw [← Option.some.inj step, load_next, ih, lastLoad_append, Option.or_assoc]
    rfl

/-- **Downtime is decided by the present signals.** Take any run of a station, with signals, forced
states and settings of the clock in any order. The state after the next tick is downtime exactly if
the last load signal is missing or too old, or tells of an outage, or the clock is on the arc of the
window. -/
theorem downtime_after_tick_iff (h : (station c).Run ok s j t) :
    (t.next c .tick).health.monitor.state = .downtime ↔
      (∀ l, (lastLoad j).or s.health.monitor.load = some l →
        c.loadMaxAge < t.clock.since l.observedAt) ∨
      (∃ l, (lastLoad j).or s.health.monitor.load = some l ∧
        t.clock.since l.observedAt ≤ c.loadMaxAge ∧
        (l.maintenance = true ∨ l.activeCount < c.policy.minActiveCount)) ∨
      c.policy.window.OnArc t.clock.timeOfDay := by
  have hverdict := t.health.verdict_transition c t.clock
  rw [Station.state_next_tick, Station.transition, hverdict.target_eq_downtime_iff,
    ← load_of_run h, ← Window.containsTime_iff]
  show c.policy.outage (t.health.freshLoad c t.clock) ≠ none ∨ _ ↔ _
  rw [Policy.outage_ne_none_iff, ← or_assoc]
  refine or_congr ?_ Iff.rfl
  simp only [Health.freshLoad_eq_some_iff, Policy.IsDown]
  cases hload : t.health.monitor.load with
  | none => simp
  | some l =>
    by_cases hfresh : t.clock.since l.observedAt ≤ c.loadMaxAge
    · simp [hfresh, Int.not_lt.mpr hfresh]
    · simp [hfresh, Int.not_le.mp hfresh]

/-! ## A night with a window past midnight -/

namespace Night

/-- From 23:30 to 0:15. -/
def window : Window := ⟨.ofMinutes 23 30, .ofMinutes 0 15⟩

def config : TrackerConfig := { TrackerConfig.standard with policy := ⟨100, window⟩ }

/-- One minute before the window. -/
def evening : Instant := ⟨1704151740, 0, by decide⟩

/-- Five minutes past midnight. -/
def deepNight : Instant := ⟨1704153900, 0, by decide⟩

/-- A low budget is cleared by its reset. Then the state is forced, and the clock moves on. -/
def events : List Event := [
  .publishLoad ⟨20000, false, evening⟩, .recordBudget 4 (some ⟨1704151750, 0, by decide⟩) evening,
  .tick, .setClock ⟨1704151751, 0, by decide⟩, .tick, .setState .yellow, .setClock deepNight,
  .publishLoad ⟨20000, false, deepNight⟩]

theorem reaches_deepNight :
    (station config).reaches (fun _ _ => True) (.start evening) events
      (·.clock = deepNight) = true := by
  decide +kernel

theorem downtime_at_deepNight :
    ∃ j t, (station config).Run (fun _ _ => True) (.start evening) j t ∧ t.clock = deepNight ∧
      (t.next config .tick).health.monitor.state = .downtime := by
  obtain ⟨j, t, hrun, hclock⟩ := Machine.exists_run_of_reaches reaches_deepNight
  have hclock : t.clock = deepNight := of_decide_eq_true hclock
  have harc : window.OnArc t.clock.timeOfDay := by
    rw [hclock]
    decide +kernel
  exact ⟨j, t, hrun, hclock, (downtime_after_tick_iff hrun).mpr (.inr (.inr harc))⟩

end Night

end Harvest.Admission
