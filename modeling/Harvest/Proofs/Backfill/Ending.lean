import Harvest.Proofs.Backfill.Comparison
import Harvest.Proofs.Backfill.Itinerary
import Harvest.Proofs.Backfill.Tour

/-! # The end of a walk

Outside of its days a walk is never stuck, and there it takes few steps: one for the totals, and for
each day one to take it and one to rest after it. So a walk returns unless it stays within a day.
Whether a day can be left is a matter of the surroundings, that is of the events that are allowed.

## Main definitions

* `Walk.left`: a bound for the steps that a walk still takes outside of its days.
* `World.Proceeds`: outside of its days a walk goes on, and its bound falls.
* `Completable`: each day that is visited can be brought to its end.

## Main statements

* `World.Step.left_le`: the bound never rises, and falls with each step outside of a day.
* `ends_of_run`: a walk comes to its end if each of its days can.
* `completable_of_sparing`, `completable_of_unlisted`: where the days can.
* `tour_of_run`: what a walk returns, that it returns, and what it does if it only compares.
-/

namespace Harvest.Backfill

open Harvest.Calendar
open Harvest.Import (Mark)

/-! ## The steps that are left -/

/-- A bound for the steps that a walk still takes outside of its days. -/
def Walk.left (r : Request) (w : Walk) : Nat :=
  match w.stage with
  | .totals => 2 * r.dates.length + 2
  | .next => 2 * w.dates.length + 1
  | .ended _ => 0
  | _ => 2 * w.dates.length + 2

/-- A step that the backfill takes itself. -/
def Event.IsOwn : Event → Prop
  | .walk _ _ | .wake | .interrupt => True
  | .cancel | .importer _ => False

section left

variable {ic : Import.Config} {c : Config} {r : Request} {now : Instant} {i i' : Import.World}
  {w v : Walk} {a : Answer} {x : Date × Nat} {s t : World} {e : Event}

theorem Walk.left_of_visiting (hx : w.stage.visiting = some x) :
    w.left r = 2 * w.dates.length + 2 := by
  unfold Walk.left
  split
  · rename_i hst
    rw [hst] at hx
    cases hx
  · rename_i hst
    rw [hst] at hx
    cases hx
  · rename_i hst
    rw [hst] at hx
    cases hx
  · rfl

theorem Walk.left_le_of_between (hst : w.stage.Between) : w.left r ≤ 2 * w.dates.length + 2 := by
  rcases hst with hst | hst <;> simp [Walk.left, hst]

/-- Within a day, and when it is closed, the days left stay as they are. -/
theorem Walk.Visit.left_le (hx : w.stage.visiting = some x) (h : w.Visit x v) :
    v.left r ≤ w.left r := by
  rw [Walk.left_of_visiting hx]
  cases h with
  | stays hst => exact Nat.le_of_eq (Walk.left_of_visiting hst)
  | closes hst => exact Walk.left_le_of_between hst
  | fails => exact Nat.zero_le _

/-- Each step outside of a day takes one off. -/
theorem Walk.Move.left_lt (h : w.Move c r now i a i' v) (hx : w.stage.visiting = none) :
    v.left r < w.left r := by
  cases h with
  | totals h | totalsFail h | cancelled h | finish h =>
    simp [Walk.left, Walk.give, h]
  | date h _ hd | skip h _ hd | giveUpDates h _ hd =>
    simp only [Walk.left, h, hd, List.length_cons]
    omega
  | _ h =>
    rw [h] at hx
    cases hx

theorem Walk.Wake.left_lt (h : w.Wake v) (hx : w.stage.visiting = none) :
    v.left r < w.left r := by
  cases h with
  | rested h => simp [Walk.left, h]
  | again h | poll h | settle h =>
    rw [h] at hx
    cases hx

theorem Walk.left_pos_of_waits (h : w.waits = true) : 0 < w.left r := by
  unfold Walk.left
  split
  · exact Nat.succ_pos _
  · exact Nat.succ_pos _
  · rename_i hst
    rw [Walk.waits, hst] at h
    cases h
  · exact Nat.succ_pos _

/-- The bound never rises, and falls with each step that the walk takes outside of a day. -/
theorem World.Step.left_le (h : s.Step ic c r e t) :
    t.walk.left r ≤ s.walk.left r ∧
      (e.IsOwn → s.walk.stage.visiting = none → t.walk.left r < s.walk.left r) := by
  cases h with
  | walk h =>
    cases hx : s.walk.stage.visiting with
    | none => exact ⟨Nat.le_of_lt (h.left_lt hx), fun _ _ => h.left_lt hx⟩
    | some x => exact ⟨(h.visit hx).left_le hx, nofun⟩
  | wake h =>
    cases hx : s.walk.stage.visiting with
    | none => exact ⟨Nat.le_of_lt (h.left_lt hx), fun _ _ => h.left_lt hx⟩
    | some x => exact ⟨(h.visit hx).left_le hx, nofun⟩
  | interrupt _ hw => exact ⟨Nat.zero_le _, fun _ _ => Walk.left_pos_of_waits hw⟩
  | cancel => exact ⟨Nat.le_refl _, fun own => own.elim⟩
  | importer => exact ⟨Nat.le_refl _, fun own => own.elim⟩

end left

/-! ## Progress -/

/-- Only calm events are allowed, and among them what a walk needs to go on. -/
structure Lenient (ts : Totals) (ok : World → Event → Prop) : Prop where
  calm : ∀ s e, ok s e → Calm ts s e
  totals : ∀ s, ok s (.walk .epoch (.totals (.ok ts)))
  done : ∀ s, ok s (.walk .epoch .done)
  wake : ∀ s, ok s .wake

/-- Outside of its days a walk goes on until it has ended, and its bound falls. -/
structure World.Proceeds (ic : Import.Config) (c : Config) (r : Request)
    (ok : World → Event → Prop) (s : World) : Prop where
  exists_step : s.walk.stage.visiting = none → (∀ y, s.walk.stage ≠ .ended y) →
    ∃ e t, e.IsOwn ∧ ok s e ∧ (backfill ic c r).next? s e = some t
  left_le : ∀ e t, (backfill ic c r).next? s e = some t →
    t.walk.left r ≤ s.walk.left r ∧
      (e.IsOwn → s.walk.stage.visiting = none → t.walk.left r < s.walk.left r)

/-- Allowed events lead from here to the end of a day. -/
def World.Closes (ic : Import.Config) (c : Config) (r : Request) (ok : World → Event → Prop)
    (s : World) : Prop :=
  ∃ k t, (backfill ic c r).Run ok s k t ∧ t.walk.stage.Between

/-- Wherever an allowed run may be within a day, the day can be brought to its end. -/
def Completable (ic : Import.Config) (c : Config) (r : Request) (ok : World → Event → Prop)
    (i : Import.World) : Prop :=
  ∀ j s x, (backfill ic c r).Run ok ⟨i, .start⟩ j s → s.walk.stage.visiting = some x →
    s.Closes ic c r ok

section progress

variable {ic : Import.Config} {c : Config} {r : Request} {ts : Totals}
  {ok : World → Event → Prop} {i : Import.World} {j k : List Mark} {s t : World}

theorem left_le_of_run (h : (backfill ic c r).Run ok s k t) : t.walk.left r ≤ s.walk.left r := by
  refine h.invariant (P := fun t => t.walk.left r ≤ s.walk.left r) ?_ (Nat.le_refl _)
  intro t e u _ step hle
  exact Nat.le_trans (World.step_of_next? step).left_le.1 hle

theorem next?_of_step? {v : Walk} {i' : Import.World} {now : Instant} {a : Answer}
    (h : s.walk.step? c r now s.importer a = some (i', v)) :
    (backfill ic c r).next? s (.walk now a) = some ⟨i', v⟩ :=
  Option.map_eq_some_iff.mpr ⟨_, h, rfl⟩

/-- To take a day is not to fail, unless the walk was cancelled. -/
theorem Walk.Move.not_fails {now : Instant} {i i' : Import.World} {w v : Walk} {a : Answer}
    (h : w.Move c r now i a i' v) (hst : w.stage = .next) (hc : w.cancelled = false) {b : Abort}
    (hb : v.stage = .ended (.error b)) : ¬ b.Fails := by
  cases h with
  | cancelled _ hc' =>
    rw [hc] at hc'
    cases hc'
  | giveUpDates =>
    cases hb
    exact id
  | finish | date | skip => cases hb
  | _ h =>
    rw [hst] at h
    cases h

/-- Outside of its days a walk can go on. -/
theorem exists_step (hok : Lenient ts ok) (h : (backfill ic c r).Run ok ⟨i, .start⟩ j s)
    (hx : s.walk.stage.visiting = none) (hend : ∀ y, s.walk.stage ≠ .ended y) :
    ∃ e t, e.IsOwn ∧ ok s e ∧ (backfill ic c r).next? s e = some t ∧
      ∀ b, t.walk.stage = .ended (.error b) → ¬ b.Fails := by
  have hc := (tour_of_calm (h.mono hok.calm)).2
  -- there are three places outside of a day, each with a step of its own
  cases hst : s.walk.stage with
  | totals =>
    have step : (backfill ic c r).next? s (.walk .epoch (.totals (.ok ts))) =
        some ⟨s.importer, { s.walk with totals := ts, dates := r.dates, stage := .next }⟩ :=
      next?_of_step? (by simp only [Walk.step?, hst])
    refine ⟨.walk .epoch (.totals (.ok ts)), _, trivial, hok.totals s, step, ?_⟩
    intro b hb
    cases hb
  | next =>
    have hmove : s.walk.Move c r .epoch s.importer .done s.importer (s.walk.takeDate c) :=
      Walk.move_of_takeDate hst
    have step : (backfill ic c r).next? s (.walk .epoch .done) =
        some ⟨s.importer, s.walk.takeDate c⟩ :=
      next?_of_step? (by simp only [Walk.step?, hst])
    exact ⟨.walk .epoch .done, _, trivial, hok.done s, step, fun b => hmove.not_fails hst hc⟩
  | pausing =>
    have step : (backfill ic c r).next? s .wake =
        some { s with walk := { s.walk with stage := .next } } :=
      Option.map_eq_some_iff.mpr ⟨_, by rw [Walk.wake?, hst], rfl⟩
    refine ⟨.wake, _, trivial, hok.wake s, step, ?_⟩
    intro b hb
    cases hb
  | ended y => exact absurd hst (hend y)
  | count | pass | list | backoff | lookup | push | readLength | readInFlight | polling | settling
  | recount =>
    rw [hst] at hx
    cases hx

theorem proceeds_of_run (hok : Lenient ts ok) (h : (backfill ic c r).Run ok ⟨i, .start⟩ j s) :
    s.Proceeds ic c r ok where
  exists_step hx hend := by
    obtain ⟨e, t, hown, allowed, step, -⟩ := exists_step hok h hx hend
    exact ⟨e, t, hown, allowed, step⟩
  left_le _ _ step := (World.step_of_next? step).left_le

/-- A walk that has not failed can be brought to its end, if each of its days can. -/
theorem ends_of_run (hok : Lenient ts ok) (hday : Completable ic c r ok i)
    (h : (backfill ic c r).Run ok ⟨i, .start⟩ j s)
    (hfails : ∀ a, s.walk.stage = .ended (.error a) → ¬ a.Fails) :
    ∃ k t y, (backfill ic c r).Run ok s k t ∧ t.walk.stage = .ended y ∧
      Verdict c ts r.dates y := by
  -- the induction is on the steps that are left outside of the days
  induction hn : s.walk.left r using Nat.strong_induction_on generalizing j s with
  | _ n ih =>
  obtain ⟨htour, -⟩ := tour_of_calm (h.mono hok.calm)
  -- from a state outside of the days a step leads to one with less left
  have hout : ∀ {k t}, (backfill ic c r).Run ok s k t → t.walk.stage.visiting = none →
      (∀ y, t.walk.stage ≠ .ended y) →
        ∃ k t y, (backfill ic c r).Run ok s k t ∧ t.walk.stage = .ended y ∧
          Verdict c ts r.dates y := by
    intro k t hrun hx hend
    obtain ⟨e, u, hown, allowed, step, hfails'⟩ := exists_step hok (h.append hrun) hx hend
    have hlt : u.walk.left r < n := by
      rw [← hn]
      have hless : u.walk.left r < t.walk.left r := (World.step_of_next? step).left_le.2 hown hx
      exact Nat.lt_of_lt_of_le hless (left_le_of_run hrun)
    have hstep := hrun.snoc allowed step
    obtain ⟨k', v, y, hrest, hy⟩ := ih _ hlt (h.append hstep) hfails' rfl
    exact ⟨_, v, y, hstep.append hrest, hy⟩
  cases htour with
  | asking hst =>
    refine hout .nil (by rw [hst]; rfl) ?_
    intro y hy
    rw [hst] at hy
    cases hy
  | within hx =>
    obtain ⟨k, t, hrun, ht⟩ := hday _ _ _ h hx
    exact hout hrun ht.visiting ht.ne_ended
  | between hst => exact hout .nil hst.visiting hst.ne_ended
  | ended hst hy => exact ⟨_, s, _, .nil, hst, hy⟩
  | failed hst ha => exact absurd ha (hfails _ hst)

end progress

/-! ## Days that can be brought to their end -/

/-- The source lists nothing, and its answers come. -/
structure Unlisted (ts : Totals) (ok : World → Event → Prop) : Prop extends Lenient ts ok where
  listing : ∀ s, ok s (.walk .epoch (.listing (.ok [])))
  only : ∀ s now b, ok s (.walk now (.listing b)) → b = .ok []

/-- The places that a walk comes to where nothing is listed. -/
def Stage.Idle : Stage → Prop
  | .totals | .next | .count _ _ | .pass _ | .list _ _ | .recount _ | .pausing | .ended _ => True
  | .lookup _ listed => listed = []
  | .backoff _ _ | .push _ _ _ _ _ | .readLength _ | .readInFlight _ _ | .polling _
  | .settling _ => False

section days

variable {ic : Import.Config} {c : Config} {r : Request} {ts : Totals}
  {ok : World → Event → Prop} {i : Import.World} {s : World} {day : DayReport}

/-- No ids, no questions to the archive. -/
theorem find_nothing (a : Archive) : ∃ stored, a.find (.withIds []) = .ok stored := by
  cases a with
  | memory a => exact ⟨_, rfl⟩
  | table a =>
    have hquery : Query.ofFilter (.withIds []) = [] := by
      simp [Query.ofFilter, Filter.withIds, chunksOf]
    refine ⟨[], ?_⟩
    simp [Archive.find, TableArchive.find, hquery]

theorem Walk.between_close {w : Walk} : (w.close r day).stage.Between := by
  unfold Walk.close
  split
  · exact .inl rfl
  · exact .inr rfl

namespace World.Closes

theorem of_between (hst : s.walk.stage.Between) : s.Closes ic c r ok := ⟨[], s, .nil, hst⟩

theorem of_step? {now : Instant} {a : Answer} {i' : Import.World} {v : Walk}
    (hclose : World.Closes ic c r ok ⟨i', v⟩) (allowed : ok s (.walk now a))
    (h : s.walk.step? c r now s.importer a = some (i', v)) : s.Closes ic c r ok := by
  obtain ⟨k, t, hrun, ht⟩ := hclose
  have hstep := Machine.Run.single (m := backfill ic c r) allowed (next?_of_step? h)
  exact ⟨_, t, hstep.append hrun, ht⟩

variable (hok : Lenient ts ok)
include hok

/-- After a pass a day is counted again and looked at. -/
theorem recount (hpass : ∀ (t : World) (after : Nat), t.walk.stage = .pass { day with after } →
      t.Closes ic c r ok)
    (hst : s.walk.stage = .recount day) : s.Closes ic c r ok := by
  let after := s.importer.depot.archive.count (Walk.filter day.date)
  have hstep : s.walk.step? c r .epoch s.importer .done =
      some (s.importer, { s.walk with stage := .pass { day with after } }) := by
    simp only [Walk.step?, hst, after]
  exact of_step? (hpass _ _ rfl) (hok.done s) hstep

theorem lookup (hpass : ∀ (t : World) (after : Nat), t.walk.stage = .pass { day with after } →
      t.Closes ic c r ok)
    (hst : s.walk.stage = .lookup day []) : s.Closes ic c r ok := by
  obtain ⟨stored, hfind⟩ := find_nothing s.importer.depot.archive
  have hstep : s.walk.step? c r .epoch s.importer .done =
      some (s.importer, { s.walk with stage := .recount day }) := by
    simp only [Walk.step?, hst, List.map_nil, hfind]
    rfl
  exact of_step? (recount hok hpass rfl) (hok.done s) hstep

theorem list {attempt : Nat} (hlist : ∀ s, ok s (.walk .epoch (.listing (.ok []))))
    (hpass : ∀ (t : World) (after : Nat), t.walk.stage = .pass { day with after } →
      t.Closes ic c r ok)
    (hst : s.walk.stage = .list day attempt) : s.Closes ic c r ok := by
  have hstep : s.walk.step? c r .epoch s.importer (.listing (.ok [])) =
      some (s.importer, { s.walk with stage := .lookup day [] }) := by
    simp only [Walk.step?, hst, Walk.receive]
  exact of_step? (lookup hok hpass rfl) (hlist s) hstep

/-- A day that needs another pass gets it, as long as there are passes left. -/
theorem pass (hlist : c.datePasses = 0 ∨ ∀ s, ok s (.walk .epoch (.listing (.ok []))))
    (hst : s.walk.stage = .pass day) : s.Closes ic c r ok := by
  have hstep : s.walk.step? c r .epoch s.importer .done =
      some (s.importer, s.walk.beginPass c r day) := by
    simp only [Walk.step?, hst]
  refine of_step? ?_ (hok.done s) hstep
  -- the induction is on the passes that are left
  induction hn : c.datePasses - day.passes generalizing s day with
  | zero =>
    have hdone : ¬ (day.after < day.total ∧ day.passes < c.datePasses) := by omega
    rw [Walk.beginPass, if_neg hdone]
    exact of_between Walk.between_close
  | succ n ih =>
    have hlist' : ∀ s, ok s (.walk .epoch (.listing (.ok []))) := by
      rcases hlist with hzero | hlist
      · omega
      · exact hlist
    rw [Walk.beginPass]
    split
    · refine list hok hlist' ?_ rfl
      intro t after ht
      have hstep' : t.walk.step? c r .epoch t.importer .done = some (t.importer,
          t.walk.beginPass c r { { day with passes := day.passes + 1 } with after }) := by
        simp only [Walk.step?, ht]
      refine of_step? (ih ht hstep' ?_) (hok.done t) hstep'
      show c.datePasses - (day.passes + 1) = n
      omega
    · exact of_between Walk.between_close

theorem count {date : Date} {total : Nat}
    (hlist : r.statsOnly = true ∨ c.datePasses = 0 ∨ ∀ s, ok s (.walk .epoch (.listing (.ok []))))
    (hst : s.walk.stage = .count date total) : s.Closes ic c r ok := by
  generalize hday : DayReport.opened date total
    (s.importer.depot.archive.count (Walk.filter date)) = day
  have hstep : s.walk.step? c r .epoch s.importer .done = some (s.importer,
      if r.statsOnly then s.walk.close r day else { s.walk with stage := .pass day }) := by
    simp only [Walk.step?, hst, hday]
  refine of_step? ?_ (hok.done s) hstep
  split
  · exact of_between Walk.between_close
  · rename_i hstats
    exact pass hok (hlist.resolve_left hstats) rfl

end World.Closes

/-- A day that is only counted is soon closed. -/
theorem completable_of_sparing (hok : Lenient ts ok) (hr : Sparing c r) :
    Completable ic c r ok i := by
  intro j s x h hx
  have hbare := bare_of_run hr h
  cases hst : s.walk.stage with
  | count => exact .count hok (hr.imp_right Or.inl) hst
  | pass =>
    rw [hst] at hbare
    have hpasses : c.datePasses = 0 :=
      hr.resolve_left fun hstats => absurd (hstats.symm.trans hbare) (by decide)
    exact .pass hok (.inl hpasses) hst
  | totals | next | pausing | ended =>
    rw [hst] at hx
    cases hx
  | list | backoff | lookup | push | readLength | readInFlight | polling | settling | recount =>
    rw [hst] at hbare
    exact hbare.elim

theorem Walk.Move.idle {now : Instant} {i i' : Import.World} {w v : Walk} {a : Answer}
    (h : w.Move c r now i a i' v) (ha : ∀ b, a = .listing b → b = .ok [])
    (hst : w.stage.Idle) : v.stage.Idle := by
  cases h with
  | compared | close =>
    unfold Walk.close
    split <;> trivial
  | listed => exact Except.ok.inj (ha _ rfl)
  | retry => cases ha _ rfl
  | dispatch h _ hm =>
    rw [h] at hst
    cases hst
    exact absurd rfl hm
  | totals | totalsFail | cancelled | finish | date | skip | giveUpDates | counted | countFails
  | again | giveUpDay | nothing | findFails | lookupFails | pushFails | lengthFails | recounted
  | recountFails => trivial
  | push h | chunk h | pushed h | length h | drained h | emptied h | busy h =>
    rw [h] at hst
    exact hst.elim

theorem idle_of_run (hok : Unlisted ts ok) {j : List Mark}
    (h : (backfill ic c r).Run ok ⟨i, .start⟩ j s) : s.walk.stage.Idle := by
  refine h.invariant (P := fun s => s.walk.stage.Idle) ?_ trivial
  intro s e t allowed step hst
  cases World.step_of_next? step with
  | walk h =>
    refine h.idle ?_ hst
    rintro b rfl
    exact hok.only _ _ _ allowed
  | wake h =>
    cases h with
    | rested => trivial
    | again h | poll h | settle h =>
      rw [h] at hst
      exact hst.elim
  | interrupt => trivial
  | cancel => exact hst
  | importer => exact hst

/-- A day of which nothing is listed is closed after its passes. -/
theorem completable_of_unlisted (hok : Unlisted ts ok) : Completable ic c r ok i := by
  intro j s x h hx
  have hidle := idle_of_run hok h
  have hpass : ∀ (t : World) (day : DayReport), t.walk.stage = .pass day → t.Closes ic c r ok :=
    fun _ _ => .pass hok.toLenient (.inr hok.listing)
  cases hst : s.walk.stage with
  | count => exact .count hok.toLenient (.inr (.inr hok.listing)) hst
  | pass => exact hpass _ _ hst
  | list => exact .list hok.toLenient hok.listing (fun t _ => hpass t _) hst
  | lookup day listed =>
    rw [hst] at hidle
    cases hidle
    exact .lookup hok.toLenient (fun t _ => hpass t _) hst
  | recount => exact .recount hok.toLenient (fun t _ => hpass t _) hst
  | totals | next | pausing | ended =>
    rw [hst] at hx
    cases hx
  | backoff | push | readLength | readInFlight | polling | settling =>
    rw [hst] at hidle
    exact hidle.elim

end days

/-! ## The walk and its report -/

/-- **The walk and its report.** The days of a walk are all days from the earlier to the later of
two dates, each once and in the order of its direction. Let the totals be given, nothing be
cancelled and no store fail. A walk that ends, unless a day of it has failed, ends with the last day
of the first gap in the totals if there is one as long as the tolerance, and otherwise with a report
of all days, those with a total and those without. It does end: outside of its days it is never
stuck and takes boundedly many steps, and wherever it stands allowed events lead it to its end, if
they lead out of each day that it visits, as they do where days are only counted. And a walk that
only compares never asks for a listing, leaves the stores to the importer, and reports of each day
what was counted at one state of the run. -/
theorem tour_of_run {ic : Import.Config} {c : Config} {r : Request} {ts : Totals}
    {ok : World → Event → Prop} {i : Import.World} {j : List Mark} {s : World}
    (hok : Lenient ts ok) (hstart : r.start.succ?.isSome = true)
    (hstop : r.stop.succ?.isSome = true) (h : (backfill ic c r).Run ok ⟨i, .start⟩ j s) :
    (∀ d, d ∈ r.dates ↔ r.start ≤ d ∧ d ≤ r.stop ∨ r.stop ≤ d ∧ d ≤ r.start) ∧
      (r.dates.Pairwise fun d e =>
        match r.direction with
        | .forward => d < e
        | .backward => e < d) ∧
      (∀ y, s.walk.stage = .ended y → (∀ a, y = .error a → ¬ a.Fails) → Verdict c ts r.dates y) ∧
      s.Proceeds ic c r ok ∧
      ((∀ a, s.walk.stage = .ended (.error a) → ¬ a.Fails) →
        Sparing c r ∨ Completable ic c r ok i →
        ∃ k t y, (backfill ic c r).Run ok s k t ∧ t.walk.stage = .ended y ∧
          Verdict c ts r.dates y) ∧
      (r.statsOnly = true →
        (∀ now b t, (backfill ic c r).next? s (.walk now (.listing b)) ≠ some t) ∧
        (∀ e t, (∀ f, e ≠ .importer f) → (backfill ic c r).next? s e = some t →
          t.importer = s.importer) ∧
        ∀ day ∈ s.walk.report.days, ∃ j₁ u j₂, j = j₁ ++ j₂ ∧
          (backfill ic c r).Run ok ⟨i, .start⟩ j₁ u ∧ (backfill ic c r).Run ok u j₂ s ∧
          u.Compares day) := by
  refine ⟨fun d => Request.mem_dates hstart hstop, r.pairwise_dates,
    fun y => verdict_of_ended (h.mono hok.calm), proceeds_of_run hok h, ?_, ?_⟩
  · rintro hfails (hsparing | hday)
    · exact ends_of_run hok (completable_of_sparing hok hsparing) h hfails
    · exact ends_of_run hok hday h hfails
  · intro hstats
    have hbare := bare_of_run (.inl hstats) h
    refine ⟨?_, ?_, fun day => compares_of_run hstats h⟩
    · intro now b t step
      have hstep : s.Step ic c r (.walk now (.listing b)) t := World.step_of_next? step
      exact hstep.not_listing hbare
    · intro e t he step
      exact (World.step_of_next? step).importer_eq (.inl hstats) hbare he

/-! ## A walk over days that are counted but not listed -/

namespace Silent

/-- From the fifth of a month back to the first, although they are asked for the other way round. -/
def request : Request := ⟨⟨2024, 1, 1, rfl⟩, ⟨2024, 1, 5, rfl⟩, .backward, false⟩

/-- The fourth and the second have no total. -/
def totals : Totals :=
  ⟨[(⟨2024, 1, 1, rfl⟩, 4), (⟨2024, 1, 3, rfl⟩, 2), (⟨2024, 1, 5, rfl⟩, 1)]⟩

def config : Config := ⟨3, 3, 2, 250, true⟩

def importing : Import.Config := ⟨2, .service, ⟨false, false⟩⟩

def start : Import.World := .start (.memory .empty) (.memory ⟨[]⟩) .green

/-- The source lists nothing; all else that is calm may happen. -/
def Allowed (s : World) (e : Event) : Prop :=
  Calm totals s e ∧ ∀ now b, e = .walk now (.listing b) → b = .ok []

theorem unlisted : Unlisted totals Allowed where
  calm _ _ := And.left
  totals _ := ⟨rfl, fun _ _ h => by cases h⟩
  done _ := ⟨trivial, fun _ _ h => by cases h⟩
  wake _ := ⟨trivial, fun _ _ h => by cases h⟩
  listing _ := ⟨trivial, fun _ _ h => by cases h; rfl⟩
  only _ _ _ h := h.2 _ _ rfl

/-- Two days without a total are no gap, even if they were in a row. -/
theorem not_hasGap : ¬ totals.HasGap config.tolerance request.dates := by
  intro h
  have htwo : (totals.lacking request.dates).length < config.tolerance := by decide +kernel
  exact absurd h.le_lacking (Nat.not_le.mpr htwo)

/-- The days are visited in vain and reported all the same. -/
theorem reports_all : ∃ k t report, (backfill importing config request).Run Allowed
    ⟨start, .start⟩ k t ∧ t.walk.stage = .ended (.ok report) ∧
      report.days.map DayReport.head =
        [(⟨2024, 1, 5, rfl⟩, 1), (⟨2024, 1, 3, rfl⟩, 2), (⟨2024, 1, 1, rfl⟩, 4)] ∧
      report.skipped = [⟨2024, 1, 4, rfl⟩, ⟨2024, 1, 2, rfl⟩] := by
  have hstart : request.start.succ?.isSome = true := by decide +kernel
  have hstop : request.stop.succ?.isSome = true := by decide +kernel
  have hnil : (backfill importing config request).Run Allowed ⟨start, .start⟩ [] ⟨start, .start⟩ :=
    .nil
  obtain ⟨-, -, -, -, hends, -⟩ := tour_of_run unlisted.toLenient hstart hstop hnil
  have hfails : ∀ a, Walk.start.stage = .ended (.error a) → ¬ a.Fails := by
    intro a ha
    cases ha
  obtain ⟨k, t, y, hrun, hy, hverdict⟩ := hends hfails (.inr (completable_of_unlisted unlisted))
  cases hverdict with
  | missing hdays hlength hgap =>
    exact absurd ⟨_, ⟨_, _, hdays.symm⟩, hlength, hgap⟩ not_hasGap
  | @toured report _ hreport hskipped =>
    refine ⟨k, t, report, hrun, hy, hreport.trans ?_, hskipped.trans ?_⟩ <;> decide +kernel

end Silent

end Harvest.Backfill
