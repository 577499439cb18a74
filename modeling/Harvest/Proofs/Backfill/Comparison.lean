import Harvest.Proofs.Backfill.Moves

/-! # Walks that only compare

A walk of which only counts are asked goes from one day to the next: it counts what is stored of a
day, and the day is reported. The same places are all that a walk comes to which may not work off a
day even once. In none of them is a listing asked for or an item pushed.

## Main statements

* `Walk.Move.bare`: such a walk stays at these places and leaves the stores as they are.
* `compares_of_run`: each day that is reported was counted at a state of the run.
-/

namespace Harvest.Backfill

open Harvest.Calendar
open Harvest.Import (Mark)

/-- A place at which no day is worked off. -/
def Stage.Bare (r : Request) : Stage → Prop
  | .totals | .next | .count _ _ | .pausing | .ended _ => True
  | .pass _ => r.statsOnly = false
  | .list _ _ | .backoff _ _ | .lookup _ _ | .push _ _ _ _ _ | .readLength _ | .readInFlight _ _
  | .polling _ | .settling _ | .recount _ => False

/-- Days are only counted: this was asked for, or a day may not be worked off even once. -/
def Sparing (c : Config) (r : Request) : Prop := r.statsOnly = true ∨ c.datePasses = 0

/-- The day was counted in this state, and nothing else was done about it. -/
structure World.Compares (u : World) (day : DayReport) : Prop where
  stage : u.walk.stage = .count day.date day.total
  before : day.before = u.importer.depot.archive.count (Walk.filter day.date)
  after : day.after = u.importer.depot.archive.count (Walk.filter day.date)
  enqueued : day.enqueued = 0
  passes : day.passes = 0

/-! ## Steps -/

section steps

variable {ic : Import.Config} {c : Config} {r : Request} {now : Instant} {i i' : Import.World}
  {w v : Walk} {a : Answer} {s t : World} {e : Event}

theorem Walk.bare_close {day : DayReport} : (w.close r day).stage.Bare r := by
  unfold Walk.close
  split <;> trivial

theorem Walk.Move.bare (hr : Sparing c r) (hst : w.stage.Bare r) (h : w.Move c r now i a i' v) :
    v.stage.Bare r ∧ i' = i := by
  cases h with
  | compared | close => exact ⟨Walk.bare_close, rfl⟩
  | counted _ hstats => exact ⟨hstats, rfl⟩
  | again h _ hp =>
    -- only where more than counts are asked does a walk come to a pass, and then there is none left
    rw [h] at hst
    rcases hr with hr | hr
    · exact absurd (hr.symm.trans hst) (by decide)
    · omega
  | totals | totalsFail | cancelled | finish | date | skip | giveUpDates | countFails =>
    exact ⟨trivial, rfl⟩
  | listed h | retry h | giveUpDay h | nothing h | dispatch h | findFails h | lookupFails h
  | push h | pushFails h | chunk h | pushed h | length h | lengthFails h | drained h | emptied h
  | busy h | recounted h | recountFails h =>
    rw [h] at hst
    exact hst.elim

theorem Walk.Wake.bare (hst : w.stage.Bare r) (h : w.Wake v) : v.stage.Bare r := by
  cases h with
  | rested => trivial
  | again h | poll h | settle h =>
    rw [h] at hst
    exact hst.elim

theorem World.Step.bare (hr : Sparing c r) (hst : s.walk.stage.Bare r) (h : s.Step ic c r e t) :
    t.walk.stage.Bare r := by
  cases h with
  | walk h => exact (h.bare hr hst).1
  | wake h => exact h.bare hst
  | interrupt => trivial
  | cancel => exact hst
  | importer => exact hst

/-- Only the importer touches the stores. -/
theorem World.Step.importer_eq (hr : Sparing c r) (hst : s.walk.stage.Bare r)
    (h : s.Step ic c r e t) (he : ∀ f, e ≠ .importer f) : t.importer = s.importer := by
  cases h with
  | walk h => exact (h.bare hr hst).2
  | importer => exact absurd rfl (he _)
  | wake | interrupt | cancel => rfl

/-- A listing is not asked for. -/
theorem World.Step.not_listing {b : Except SourceError (List WorkItem)}
    (h : s.Step ic c r (.walk now (.listing b)) t) : ¬ s.walk.stage.Bare r := by
  intro hst
  cases h with
  | walk h =>
    cases h with
    | _ h =>
      rw [h] at hst
      exact hst

/-- A day is reported in the step after the state that counts it. -/
theorem World.Step.days (hr : r.statsOnly = true) (hst : s.walk.stage.Bare r)
    (h : s.Step ic c r e t) :
    t.walk.report.days = s.walk.report.days ∨
      ∃ day, t.walk.report.days = s.walk.report.days ++ [day] ∧ s.Compares day := by
  cases h with
  | walk h =>
    cases h with
    | compared h => exact .inr ⟨_, rfl, h, rfl, rfl, rfl, rfl⟩
    | close h =>
      rw [h] at hst
      exact absurd (hr.symm.trans hst) (by decide)
    | _ => exact .inl rfl
  | wake h => exact .inl (congrArg Report.days h.report_eq)
  | interrupt | cancel | importer => exact .inl rfl

end steps

/-! ## Runs -/

section runs

variable {ic : Import.Config} {c : Config} {r : Request} {ok : World → Event → Prop}
  {i : Import.World} {j : List Mark} {s : World}

theorem bare_of_run (hr : Sparing c r) (h : (backfill ic c r).Run ok ⟨i, .start⟩ j s) :
    s.walk.stage.Bare r :=
  h.invariant (P := fun s => s.walk.stage.Bare r)
    (fun _ step hst => (World.step_of_next? step).bare hr hst) trivial

/-- Each day that is reported was counted at a state of the run. -/
theorem compares_of_run (hr : r.statsOnly = true)
    (h : (backfill ic c r).Run ok ⟨i, .start⟩ j s) {day : DayReport}
    (hday : day ∈ s.walk.report.days) :
    ∃ j₁ u j₂, j = j₁ ++ j₂ ∧ (backfill ic c r).Run ok ⟨i, .start⟩ j₁ u ∧
      (backfill ic c r).Run ok u j₂ s ∧ u.Compares day := by
  induction h with
  | nil => cases hday
  | @snoc j t s e h allowed step ih =>
    -- a day of an earlier report is found earlier in the run
    have hearlier : day ∈ t.walk.report.days → ∃ j₁ u j₂,
        j ++ ((backfill ic c r).mark? t e).toList = j₁ ++ j₂ ∧
          (backfill ic c r).Run ok ⟨i, .start⟩ j₁ u ∧
          (backfill ic c r).Run ok u j₂ s ∧ u.Compares day := by
      intro hday
      obtain ⟨j₁, u, j₂, rfl, hu, hrest, hcompares⟩ := ih hday
      exact ⟨j₁, u, _, List.append_assoc _ _ _, hu, hrest.snoc allowed step, hcompares⟩
    have hstep := (World.step_of_next? step).days hr (bare_of_run (.inl hr) h)
    rcases hstep with heq | ⟨new, heq, hcompares⟩
    · exact hearlier (heq ▸ hday)
    · rw [heq] at hday
      rcases List.mem_append.mp hday with hday | hday
      · exact hearlier hday
      · cases List.mem_singleton.mp hday
        exact ⟨j, t, _, rfl, h, Machine.Run.single allowed step, hcompares⟩

end runs

end Harvest.Backfill
