import Harvest.Proofs.Backfill.Gaps
import Harvest.Proofs.Backfill.Moves

/-! # A walk and its report

A walk goes over its days in order. A day that has a total is visited, a day that has none is
skipped, and too many such days in a row end the walk. Which day that is depends on all the days
before it, while the walk only remembers how many of them it has just skipped.

The key idea is to remember the days. What a walk has gone over is a list without a gap that ends in
as many days without a total as the walk remembers. It grows by one day with every day that is taken
and keeps to the days of the walk, so the day at which there would be a gap is the last day of the
first one.

## Main definitions

* `Calm`: the totals are given, nothing is cancelled and no store fails.
* `Walked`, `Tour`: what a walk has gone over, and where it stands.

## Main statements

* `Walk.Move.visit`: within a day a walk stays with it, closes it, or gives up.
* `Tour.step`: what a walk has gone over, from one step to the next.
* `verdict_of_ended`: what a walk returns.
-/

namespace Harvest.Backfill

open Harvest.Calendar
open Harvest.Import (Mark)

/-! ## Visits -/

/-- The walk was given up for another reason than the dates: no totals, a day that has failed, or a
cancellation. -/
def Abort.Fails : Abort → Prop
  | .missingDates _ _ => False
  | _ => True

/-- The day that the walk is within, and its total. -/
def Stage.visiting : Stage → Option (Date × Nat)
  | .count date total => some (date, total)
  | .pass day | .list day _ | .backoff day _ | .lookup day _ | .push day _ _ _ _
  | .readLength day | .readInFlight day _ | .polling day | .settling day | .recount day =>
    some day.head
  | .totals | .next | .pausing | .ended _ => none

/-- The walk is between two days. -/
def Stage.Between (st : Stage) : Prop := st = .next ∨ st = .pausing

/-- What becomes of a walk within a day: it stays there, reports the day, or gives up. -/
inductive Walk.Visit (w : Walk) (x : Date × Nat) : Walk → Prop where
  | stays {st : Stage} (h : st.visiting = some x) : Visit w x { w with stage := st }
  | closes {st : Stage} {day : DayReport} (hst : st.Between) (hday : day.head = x) :
      Visit w x { w with stage := st, report := { w.report with days := w.report.days ++ [day] } }
  | fails {a : Abort} (ha : a.Fails) : Visit w x (w.give a)

section moves

variable {ic : Import.Config} {c : Config} {r : Request} {now : Instant} {i i' : Import.World}
  {w v : Walk} {a : Answer} {x : Date × Nat}

theorem Walk.visit_close {day : DayReport} (hday : day.head = x) : w.Visit x (w.close r day) := by
  unfold Walk.close
  split
  · exact .closes (.inl rfl) hday
  · exact .closes (.inr rfl) hday

theorem Walk.Move.visit (h : w.Move c r now i a i' v) (hx : w.stage.visiting = some x) :
    w.Visit x v := by
  cases h with
  | totals h | totalsFail h | cancelled h | finish h | date h | skip h | giveUpDates h =>
    rw [h] at hx
    cases hx
  | compared h | close h =>
    rw [h] at hx
    exact Walk.visit_close (Option.some.inj hx)
  | countFails | giveUpDay | findFails | lookupFails | pushFails | lengthFails | recountFails =>
    exact .fails trivial
  | counted h | again h | listed h | retry h | nothing h | dispatch h | push h | chunk h | pushed h
  | length h | drained h | emptied h | busy h | recounted h =>
    rw [h] at hx
    exact .stays hx

theorem Walk.Move.cancelled_eq (h : w.Move c r now i a i' v) : v.cancelled = w.cancelled := by
  cases h <;> rfl

theorem Walk.Wake.cancelled_eq (h : w.Wake v) : v.cancelled = w.cancelled := by
  cases h <;> rfl

/-- The end of a wait within a day leaves the day as it is. -/
theorem Walk.Wake.visit (h : w.Wake v) (hx : w.stage.visiting = some x) : w.Visit x v := by
  cases h with
  | rested h =>
    rw [h] at hx
    cases hx
  | again h | poll h | settle h =>
    rw [h] at hx
    exact .stays hx

end moves

/-! ## What a walk has gone over -/

/-- A walk has gone over days, of which it may not have reported the last yet. -/
structure Walked (c : Config) (r : Request) (ts : Totals) (done : List Date) (w : Walk) : Prop where
  totals : w.totals = ts
  dates : r.dates = done ++ w.dates
  run : ts.EndsIn done w.missingRun
  noGap : ¬ ts.HasGap c.tolerance done
  skipped : w.report.skipped = ts.lacking done
  days : w.report.days.map DayReport.head ++ w.stage.visiting.toList = ts.counted done

/-- Where a walk stands. -/
inductive Tour (c : Config) (r : Request) (ts : Totals) (w : Walk) : Prop where
  | asking (h : w.stage = .totals) (hrun : w.missingRun = 0) (hreport : w.report = .empty)
  | within {x : Date × Nat} {done : List Date} (h : w.stage.visiting = some x)
      (hw : Walked c r ts done w)
  | between {done : List Date} (h : w.stage.Between) (hw : Walked c r ts done w)
  | ended {y : Except Abort Report} (h : w.stage = .ended y) (hy : Verdict c ts r.dates y)
  | failed {a : Abort} (h : w.stage = .ended (.error a)) (ha : a.Fails)

/-- The totals are given, nothing is cancelled and no store fails. -/
def Calm (ts : Totals) (_ : World) : Event → Prop
  | .walk _ (.totals answer) => answer = .ok ts
  | .walk _ (.storageFails _) | .cancel => False
  | _ => True

section steps

variable {ic : Import.Config} {c : Config} {r : Request} {ts : Totals} {done : List Date}
  {now : Instant} {i i' : Import.World} {w v : Walk} {a : Answer} {x : Date × Nat} {d : Date}
  {l : List Date} {n : Nat}

theorem Stage.Between.visiting {st : Stage} (h : st.Between) : st.visiting = none := by
  rcases h with rfl | rfl <;> rfl

theorem Stage.Between.ne_ended {st : Stage} (h : st.Between) (y : Except Abort Report) :
    st ≠ .ended y := by
  rcases h with rfl | rfl <;> nofun

namespace Walked

/-- Between two days all days with a total are reported. -/
theorem days_eq (hw : Walked c r ts done w) (hst : w.stage.Between) :
    w.report.days.map DayReport.head = ts.counted done := by
  have hdays := hw.days
  rw [hst.visiting] at hdays
  exact (List.append_nil _).symm.trans hdays

theorem visit (hw : Walked c r ts done w) (hx : w.stage.visiting = some x) (h : w.Visit x v) :
    Tour c r ts v := by
  have hdays := hw.days
  rw [hx] at hdays
  cases h with
  | stays hst => exact .within hst ⟨hw.totals, hw.dates, hw.run, hw.noGap, hw.skipped, by rwa [hst]⟩
  | @closes st day hst hday =>
    refine .between hst ⟨hw.totals, hw.dates, hw.run, hw.noGap, hw.skipped, ?_⟩
    rw [hst.visiting, List.map_append, List.map_singleton, hday, ← hdays]
    exact List.append_nil _
  | fails ha => exact .failed rfl ha

/-- What has been walked over with a day more that has no total. -/
theorem lacking (hw : Walked c r ts done w) (hst : w.stage = .next) (hd : w.dates = d :: l)
    (ht : ts.day? d = none) :
    r.dates = done ++ [d] ++ l ∧ ts.EndsIn (done ++ [d]) (w.missingRun + 1) ∧
      w.report.skipped ++ [d] = ts.lacking (done ++ [d]) ∧
      w.report.days.map DayReport.head = ts.counted (done ++ [d]) := by
  refine ⟨?_, hw.run.lacking ht, ?_, ?_⟩
  · rw [hw.dates, hd, List.append_assoc, List.singleton_append]
  · rw [Totals.lacking_append ht, hw.skipped]
  · rw [Totals.counted_append_lacking ht, hw.days_eq (.inl hst)]

theorem finish (hw : Walked c r ts done w) (hst : w.stage = .next) (hd : w.dates = []) :
    Verdict c ts r.dates (.ok w.report) := by
  have hall : r.dates = done := by rw [hw.dates, hd, List.append_nil]
  rw [hall]
  exact .toured hw.noGap (hw.days_eq (.inl hst)) hw.skipped

theorem date (hw : Walked c r ts done w) (hst : w.stage = .next) (hd : w.dates = d :: l)
    (ht : ts.day? d = some n) :
    Walked c r ts (done ++ [d])
      { w with dates := l, missingRun := 0, stage := .count d n } := by
  have hend : ts.EndsIn (done ++ [d]) 0 := Totals.endsIn_counted (by simp [ht])
  refine ⟨hw.totals, ?_, hend, ?_, ?_, ?_⟩
  · rw [hw.dates, hd, List.append_assoc, List.singleton_append]
  · exact Totals.not_hasGap_concat hw.noGap hend c.tolerance_pos
  · exact hw.skipped.trans (Totals.lacking_append_counted ht).symm
  · rw [Totals.counted_append ht, ← hw.days_eq (.inl hst)]
    rfl

/-- One day more without a total, and still not too many. -/
theorem skip (hw : Walked c r ts done w) (hst : w.stage = .next) (hd : w.dates = d :: l)
    (ht : ts.day? d = none) (hm : w.missingRun + 1 < c.maxMissingDates) :
    Walked c r ts (done ++ [d])
      { w with dates := l, missingRun := w.missingRun + 1
               report := { w.report with skipped := w.report.skipped ++ [d] }
               stage := .next } := by
  obtain ⟨hdates, hend, hskipped, hdays⟩ := hw.lacking hst hd ht
  refine ⟨hw.totals, hdates, hend, ?_, hskipped, ?_⟩
  · have hlt : w.missingRun + 1 < c.tolerance := Nat.lt_of_lt_of_le hm (Nat.le_max_right _ _)
    exact Totals.not_hasGap_concat hw.noGap hend hlt
  · exact (List.append_nil _).trans hdays

/-- One day more without a total, and it is the last of a gap, which is the first. -/
theorem giveUp (hw : Walked c r ts done w) (hst : w.stage = .next) (hd : w.dates = d :: l)
    (ht : ts.day? d = none) (hm : c.maxMissingDates ≤ w.missingRun + 1) :
    Verdict c ts r.dates (.error (.missingDates (w.missingRun + 1) d)) := by
  obtain ⟨hdates, -⟩ := hw.lacking hst hd ht
  -- without this day there was no gap, so the days just skipped are one less than the tolerance
  have hlt := hw.run.lt hw.noGap
  have hcount : w.missingRun + 1 = c.tolerance := by
    unfold Config.tolerance at hlt ⊢
    omega
  obtain ⟨pre, gap, hdone, hlength, hgap, -⟩ := hw.run
  -- the days just skipped and this one are the gap
  rw [hcount]
  refine @Verdict.missing c ts r.dates pre gap l d ?_ ?_ ?_ ?_
  · rw [hdates, hdone]
    simp only [List.append_assoc]
  · rw [List.length_append, List.length_singleton, hlength, hcount]
  · intro e he
    rcases List.mem_append.mp he with he | he
    · exact hgap e he
    · exact List.mem_singleton.mp he ▸ ht
  · rw [← hdone]
    exact hw.noGap

theorem next (hw : Walked c r ts done w) (hst : w.stage = .next) (h : w.Move c r now i a i' v) :
    Tour c r ts v := by
  cases h with
  | cancelled => exact .failed rfl trivial
  | finish _ _ hd => exact .ended rfl (hw.finish hst hd)
  | date _ _ hd ht =>
    rw [hw.totals] at ht
    exact .within rfl (hw.date hst hd ht)
  | skip _ _ hd ht hm =>
    rw [hw.totals] at ht
    exact .between (.inl rfl) (hw.skip hst hd ht hm)
  | giveUpDates _ _ hd ht hm =>
    rw [hw.totals] at ht
    exact .ended rfl (hw.giveUp hst hd ht hm)
  | _ h =>
    rw [hst] at h
    cases h

/-- The totals are given, and no day has been taken yet. -/
theorem nil (hrun : w.missingRun = 0) (hreport : w.report = .empty) :
    Walked c r ts [] { w with totals := ts, dates := r.dates, stage := .next } := by
  refine ⟨rfl, rfl, ?_, Totals.not_hasGap_nil c.tolerance_pos, ?_, ?_⟩
  · rw [hrun]
    exact Totals.endsIn_nil
  · rw [hreport]
    rfl
  · rw [hreport]
    rfl

end Walked

theorem Tour.move (hw : Tour c r ts w) (hok : ∀ y, a = .totals y → y = .ok ts)
    (h : w.Move c r now i a i' v) : Tour c r ts v := by
  cases hw with
  | asking hst hrun hreport =>
    cases h with
    | @totals ts' h =>
      cases hok _ rfl
      exact .between (.inl rfl) (.nil hrun hreport)
    | totalsFail => exact .failed rfl trivial
    | _ h =>
      rw [hst] at h
      cases h
  | within hx hw => exact hw.visit hx (h.visit hx)
  | between hst hw =>
    rcases hst with hst | hst
    · exact hw.next hst h
    · -- a walk that rests takes no step of its own
      cases h with
      | _ h =>
        rw [hst] at h
        cases h
  | ended hst => exact absurd h (Walk.not_move_ended hst)
  | failed hst => exact absurd h (Walk.not_move_ended hst)

theorem Tour.wake (hw : Tour c r ts w) (h : w.Wake v) : Tour c r ts v := by
  cases hw with
  | within hx hw => exact hw.visit hx (h.visit hx)
  | between hst hw =>
    have hnone := hst.visiting
    cases h with
    | rested =>
      refine .between (.inl rfl) ⟨hw.totals, hw.dates, hw.run, hw.noGap, hw.skipped, ?_⟩
      rw [← hw.days, hnone]
      rfl
    | again h | poll h | settle h =>
      rw [h] at hnone
      cases hnone
  | asking hst | ended hst | failed hst =>
    cases h with
    | _ h =>
      rw [hst] at h
      cases h

theorem Tour.cancel (hw : Tour c r ts w) : Tour c r ts { w with cancelled := true } := by
  cases hw with
  | asking hst hrun hreport => exact .asking hst hrun hreport
  | within hx hw =>
    exact .within hx ⟨hw.totals, hw.dates, hw.run, hw.noGap, hw.skipped, hw.days⟩
  | between hst hw =>
    exact .between hst ⟨hw.totals, hw.dates, hw.run, hw.noGap, hw.skipped, hw.days⟩
  | ended hst hy => exact .ended hst hy
  | failed hst ha => exact .failed hst ha

/-- What a walk has gone over, from one step to the next. -/
theorem Tour.step {s t : World} {e : Event} (hs : Tour c r ts s.walk)
    (hok : ∀ now y, e = .walk now (.totals y) → y = .ok ts)
    (step : (backfill ic c r).next? s e = some t) : Tour c r ts t.walk := by
  cases World.step_of_next? step with
  | walk h => exact hs.move (fun y hy => hok _ y (by rw [hy])) h
  | wake h => exact hs.wake h
  | interrupt => exact .failed rfl trivial
  | cancel => exact hs.cancel
  | importer => exact hs

end steps

/-! ## Along runs -/

variable {ic : Import.Config} {c : Config} {r : Request} {ts : Totals} {i : Import.World}
  {j k : List Mark} {s t : World}

/-- Where a calm walk stands, and that it was not cancelled. -/
theorem tour_of_calm (h : (backfill ic c r).Run (Calm ts) ⟨i, .start⟩ j s) :
    Tour c r ts s.walk ∧ s.walk.cancelled = false := by
  refine h.invariant (P := fun s => Tour c r ts s.walk ∧ s.walk.cancelled = false) ?_
    ⟨.asking rfl rfl rfl, rfl⟩
  rintro s e t allowed step ⟨htour, hcancelled⟩
  refine ⟨htour.step ?_ step, ?_⟩
  · rintro now y rfl
    exact allowed
  · cases World.step_of_next? step with
    | walk h => exact h.cancelled_eq.trans hcancelled
    | wake h => exact h.cancelled_eq.trans hcancelled
    | interrupt hc =>
      -- a wait is interrupted only after a cancellation
      rw [hcancelled] at hc
      cases hc
    | cancel => exact allowed.elim
    | importer => exact hcancelled

/-- What a calm walk returns, unless it was given up for another reason. -/
theorem verdict_of_ended {y : Except Abort Report}
    (h : (backfill ic c r).Run (Calm ts) ⟨i, .start⟩ j s) (hst : s.walk.stage = .ended y)
    (hy : ∀ a, y = .error a → ¬ a.Fails) : Verdict c ts r.dates y := by
  have hvisiting : s.walk.stage.visiting = none := by rw [hst]; rfl
  cases (tour_of_calm h).1 with
  | ended hst' hv =>
    rw [hst] at hst'
    cases hst'
    exact hv
  | failed hst' ha =>
    rw [hst] at hst'
    cases hst'
    exact absurd ha (hy _ rfl)
  | asking hst' =>
    rw [hst] at hst'
    cases hst'
  | within hx =>
    rw [hvisiting] at hx
    cases hx
  | between hst' =>
    rw [hst] at hst'
    rcases hst' with hst' | hst' <;> cases hst'

end Harvest.Backfill
