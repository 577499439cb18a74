import Harvest.Backfill.Walk
import Harvest.Proofs.Import.Journal

/-! # The moves of a backfill

What a step of a walk can do, said once, and what a step of a backfill with an importer beside it
can do. The importer is touched by its own steps and by the pushes of the walk; so a run of both is
a run of the importer for which the walk is one of those who push.

## Main statements

* `Walk.move_of_step?`: the steps of a walk are its moves.
* `World.step_of_next?`: the steps of a backfill with an importer beside it.
* `importer_run`: what a run is to the importer.
-/

namespace Harvest.Backfill

open Harvest.Calendar

/-! ## Walks -/

/-- What a step of a walk can do, on the stores of an importer and at an instant. -/
inductive Walk.Move (c : Config) (r : Request) (now : Instant) (s : Import.World) (w : Walk) :
    Answer → Import.World → Walk → Prop where
  | totals {ts : Totals} (h : w.stage = .totals) :
      Move c r now s w (.totals (.ok ts)) s
        { w with totals := ts, dates := r.dates, stage := .next }
  | totalsFail {e : SourceError} (h : w.stage = .totals) :
      Move c r now s w (.totals (.error e)) s (w.give (.totals e))
  | cancelled (h : w.stage = .next) (hc : w.cancelled = true) :
      Move c r now s w .done s (w.give .cancelled)
  | finish (h : w.stage = .next) (hc : w.cancelled = false) (hd : w.dates = []) :
      Move c r now s w .done s { w with stage := .ended (.ok w.report) }
  | date {date : Date} {dates : List Date} {total : Nat} (h : w.stage = .next)
      (hc : w.cancelled = false) (hd : w.dates = date :: dates)
      (ht : w.totals.day? date = some total) :
      Move c r now s w .done s { w with dates, missingRun := 0, stage := .count date total }
  | skip {date : Date} {dates : List Date} (h : w.stage = .next) (hc : w.cancelled = false)
      (hd : w.dates = date :: dates) (ht : w.totals.day? date = none)
      (hm : w.missingRun + 1 < c.maxMissingDates) :
      Move c r now s w .done s
        { w with dates, missingRun := w.missingRun + 1
                 report := { w.report with skipped := w.report.skipped ++ [date] }
                 stage := .next }
  /-- Too many days in a row have no total. -/
  | giveUpDates {date : Date} {dates : List Date} (h : w.stage = .next) (hc : w.cancelled = false)
      (hd : w.dates = date :: dates) (ht : w.totals.day? date = none)
      (hm : c.maxMissingDates ≤ w.missingRun + 1) :
      Move c r now s w .done s
        { w with dates, missingRun := w.missingRun + 1
                 report := { w.report with skipped := w.report.skipped ++ [date] }
                 stage := .ended (.error (.missingDates (w.missingRun + 1) date)) }
  | counted {date : Date} {total : Nat} (h : w.stage = .count date total)
      (hr : r.statsOnly = false) :
      Move c r now s w .done s
        { w with stage := .pass (.opened date total (s.depot.archive.count (filter date))) }
  | compared {date : Date} {total : Nat} (h : w.stage = .count date total)
      (hr : r.statsOnly = true) :
      Move c r now s w .done s
        (w.close r (.opened date total (s.depot.archive.count (filter date))))
  | countFails {date : Date} {total : Nat} {e : StorageError} (h : w.stage = .count date total) :
      Move c r now s w (.storageFails e) s (w.give (.storage e))
  | again {day : DayReport} (h : w.stage = .pass day) (ha : day.after < day.total)
      (hp : day.passes < c.datePasses) :
      Move c r now s w .done s
        { w with stage := .list { day with passes := day.passes + 1 } 1 }
  | close {day : DayReport} (h : w.stage = .pass day)
      (ha : ¬ (day.after < day.total ∧ day.passes < c.datePasses)) :
      Move c r now s w .done s (w.close r day)
  | listed {day : DayReport} {attempt : Nat} {l : List WorkItem} (h : w.stage = .list day attempt) :
      Move c r now s w (.listing (.ok l)) s { w with stage := .lookup day l }
  | retry {day : DayReport} {attempt : Nat} {e : SourceError} (h : w.stage = .list day attempt)
      (he : e.isRetryable = true) (ha : attempt < max 1 c.dayAttempts) :
      Move c r now s w (.listing (.error e)) s { w with stage := .backoff day attempt }
  | giveUpDay {day : DayReport} {attempt : Nat} {e : SourceError} (h : w.stage = .list day attempt)
      (he : ¬ (e.isRetryable = true ∧ attempt < max 1 c.dayAttempts)) :
      Move c r now s w (.listing (.error e)) s (w.give (.day day.date attempt e))
  /-- All that is listed is stored. -/
  | nothing {day : DayReport} {listed : List WorkItem} {stored : List Killmail}
      (h : w.stage = .lookup day listed)
      (hf : s.depot.archive.find (.withIds (listed.map WorkItem.id)) = .ok stored)
      (hm : missingItems listed stored = []) :
      Move c r now s w .done s { w with stage := .recount day }
  | dispatch {day : DayReport} {listed : List WorkItem} {stored : List Killmail}
      (h : w.stage = .lookup day listed)
      (hf : s.depot.archive.find (.withIds (listed.map WorkItem.id)) = .ok stored)
      (hm : missingItems listed stored ≠ []) :
      Move c r now s w .done s
        { w with stage := .push day 0 0 [] (chunksOf c.enqueueBatch (missingItems listed stored)) }
  | findFails {day : DayReport} {listed : List WorkItem} {e : StorageError}
      (h : w.stage = .lookup day listed)
      (hf : s.depot.archive.find (.withIds (listed.map WorkItem.id)) = .error e) :
      Move c r now s w .done s (w.give (.storage e))
  | lookupFails {day : DayReport} {listed : List WorkItem} {e : StorageError}
      (h : w.stage = .lookup day listed) :
      Move c r now s w (.storageFails e) s (w.give (.storage e))
  | push {day : DayReport} {pushed : Nat} {score : Int} {i : WorkItem} {chunk : List WorkItem}
      {rest : List (List WorkItem)} (h : w.stage = .push day pushed score (i :: chunk) rest) :
      Move c r now s w .done { s with queue := s.queue.push i score }
        { w with stage := .push day (pushed + 1) score chunk rest }
  | pushFails {day : DayReport} {pushed : Nat} {score : Int} {i : WorkItem} {chunk : List WorkItem}
      {rest : List (List WorkItem)} {e : QueueError}
      (h : w.stage = .push day pushed score (i :: chunk) rest) :
      Move c r now s w (.queueFails e) s (w.give (.queue e))
  | chunk {day : DayReport} {pushed : Nat} {score : Int} {chunk : List WorkItem}
      {rest : List (List WorkItem)} (h : w.stage = .push day pushed score [] (chunk :: rest)) :
      Move c r now s w .done s { w with stage := .push day pushed (dispatchScore now) chunk rest }
  | pushed {day : DayReport} {pushed : Nat} {score : Int}
      (h : w.stage = .push day pushed score [] []) :
      Move c r now s w .done s
        { w with stage := .readLength { day with enqueued := day.enqueued + pushed } }
  | length {day : DayReport} (h : w.stage = .readLength day) :
      Move c r now s w .done s { w with stage := .readInFlight day s.queue.size }
  | lengthFails {day : DayReport} {e : QueueError} (h : w.stage = .readLength day) :
      Move c r now s w (.queueFails e) s (w.give (.queue e))
  /-- The queue was empty, and nothing is in flight. -/
  | drained {day : DayReport} (h : w.stage = .readInFlight day 0) (hc : c.tracked = true)
      (hs : s.inFlight = 0) :
      Move c r now s w .done s { w with stage := .recount day }
  /-- The queue was empty, and what is in flight cannot be seen. -/
  | emptied {day : DayReport} (h : w.stage = .readInFlight day 0) (hc : c.tracked = false) :
      Move c r now s w .done s { w with stage := .settling day }
  | busy {day : DayReport} {queued : Nat} (h : w.stage = .readInFlight day queued)
      (hb : 0 < queued ∨ c.tracked = true ∧ 0 < s.inFlight) :
      Move c r now s w .done s { w with stage := .polling day }
  | recounted {day : DayReport} (h : w.stage = .recount day) :
      Move c r now s w .done s
        { w with stage := .pass { day with after := s.depot.archive.count (filter day.date) } }
  | recountFails {day : DayReport} {e : StorageError} (h : w.stage = .recount day) :
      Move c r now s w (.storageFails e) s (w.give (.storage e))

namespace Walk

variable {c : Config} {r : Request} {now : Instant} {s s' : Import.World} {w w' : Walk} {a : Answer}

theorem move_of_takeDate (h : w.stage = .next) : w.Move c r now s .done s (w.takeDate c) := by
  unfold takeDate
  by_cases hc : w.cancelled = true
  · rw [if_pos hc]
    exact .cancelled h hc
  · rw [if_neg hc]
    have hc' : w.cancelled = false := by simpa using hc
    split
    · rename_i hd
      exact .finish h hc' hd
    · rename_i date dates hd
      split
      · rename_i total ht
        exact .date h hc' hd ht
      · rename_i ht
        by_cases hm : c.maxMissingDates ≤ w.missingRun + 1
        · simp only [if_pos hm]
          exact .giveUpDates h hc' hd ht hm
        · simp only [if_neg hm]
          exact .skip h hc' hd ht (Nat.lt_of_not_le hm)

theorem move_of_beginPass {day : DayReport} (h : w.stage = .pass day) :
    w.Move c r now s .done s (w.beginPass c r day) := by
  unfold beginPass
  split
  · rename_i ha
    exact .again h ha.1 ha.2
  · rename_i ha
    exact .close h ha

theorem move_of_receive {day : DayReport} {attempt : Nat} (h : w.stage = .list day attempt)
    (answer : Except SourceError (List WorkItem)) :
    w.Move c r now s (.listing answer) s (w.receive c day attempt answer) := by
  unfold receive
  split
  · exact .listed h
  · split
    · rename_i he
      exact .retry h he.1 he.2
    · rename_i he
      exact .giveUpDay h he

theorem move_of_beginPush {day : DayReport} {listed : List WorkItem} {stored : List Killmail}
    (h : w.stage = .lookup day listed)
    (hf : s.depot.archive.find (.withIds (listed.map WorkItem.id)) = .ok stored) :
    w.Move c r now s .done s (w.beginPush c day (missingItems listed stored)) := by
  unfold beginPush
  split
  · rename_i hm
    exact .nothing h hf hm
  · rename_i hm
    exact .dispatch h hf hm

theorem move_of_readInFlight {day : DayReport} {queued : Nat} {s' : Import.World} {w' : Walk}
    (hst : w.stage = .readInFlight day queued)
    (h : (if queued = 0 ∧ (if c.tracked then s.inFlight else 0) = 0 then
        some (s, { w with stage := if c.tracked then .recount day else .settling day })
      else some (s, { w with stage := .polling day })) = some (s', w')) :
    w.Move c r now s .done s' w' := by
  by_cases hc : c.tracked = true
  · simp only [if_pos hc] at h
    split at h
    · rename_i hzero
      cases h
      exact .drained (hzero.1 ▸ hst) hc hzero.2
    · rename_i hbusy
      cases h
      refine .busy hst ?_
      rcases Nat.eq_zero_or_pos queued with hq | hq
      · exact .inr ⟨hc, by omega⟩
      · exact .inl hq
  · simp only [if_neg hc, and_true] at h
    split at h
    · rename_i hzero
      cases h
      exact .emptied (hzero ▸ hst) (by simpa using hc)
    · rename_i hbusy
      cases h
      exact .busy hst (.inl (Nat.pos_of_ne_zero hbusy))

/-- Every step of a walk is one of its moves. -/
theorem move_of_step? (h : w.step? c r now s a = some (s', w')) : w.Move c r now s a s' w' := by
  unfold step? at h
  -- the cases are those of the definition, in its order
  split at h
  · rename_i hst
    cases h
    exact .totals hst
  · rename_i hst
    cases h
    exact .totalsFail hst
  · rename_i hst
    cases h
    exact move_of_takeDate hst
  · rename_i hst
    by_cases hr : r.statsOnly = true
    · simp only [if_pos hr] at h
      cases h
      exact .compared hst hr
    · simp only [if_neg hr] at h
      cases h
      exact .counted hst (by simpa using hr)
  · rename_i hst
    cases h
    exact .countFails hst
  · rename_i hst
    cases h
    exact move_of_beginPass hst
  · rename_i hst
    cases h
    exact move_of_receive hst _
  · rename_i hst
    split at h
    · rename_i hf
      cases h
      exact move_of_beginPush hst hf
    · rename_i hf
      cases h
      exact .findFails hst hf
  · rename_i hst
    cases h
    exact .lookupFails hst
  · rename_i hst
    cases h
    exact .push hst
  · rename_i hst
    cases h
    exact .pushFails hst
  · rename_i hst
    cases h
    exact .chunk hst
  · rename_i hst
    cases h
    exact .pushed hst
  · rename_i hst
    cases h
    exact .length hst
  · rename_i hst
    cases h
    exact .lengthFails hst
  · rename_i hst
    exact move_of_readInFlight hst h
  · rename_i hst
    cases h
    exact .recounted hst
  · rename_i hst
    cases h
    exact .recountFails hst
  · cases h

/-- Reports are only added. -/
theorem Move.days (h : w.Move c r now s a s' w') :
    ∃ ds, w'.report.days = w.report.days ++ ds := by
  cases h with
  | compared | close => exact ⟨_, rfl⟩
  | _ => exact ⟨[], (List.append_nil _).symm⟩

/-- A walk that has ended does not go on. -/
theorem not_move_ended {x : Except Abort Report} (hst : w.stage = .ended x) :
    ¬ w.Move c r now s a s' w' := by
  intro h
  cases h with
  | _ h =>
    rw [h] at hst
    cases hst

end Walk

/-! ## Waits -/

/-- What the end of a wait can do. -/
inductive Walk.Wake (w : Walk) : Walk → Prop where
  | again {day : DayReport} {attempt : Nat} (h : w.stage = .backoff day attempt) :
      Wake w { w with stage := .list day (attempt + 1) }
  | poll {day : DayReport} (h : w.stage = .polling day) :
      Wake w { w with stage := .readLength day }
  | settle {day : DayReport} (h : w.stage = .settling day) :
      Wake w { w with stage := .recount day }
  | rested (h : w.stage = .pausing) : Wake w { w with stage := .next }

namespace Walk

variable {w w' : Walk}

theorem wake_of_wake? (h : w.wake? = some w') : w.Wake w' := by
  unfold wake? at h
  split at h
  · rename_i hst
    cases h
    exact .again hst
  · rename_i hst
    cases h
    exact .poll hst
  · rename_i hst
    cases h
    exact .settle hst
  · rename_i hst
    cases h
    exact .rested hst
  · cases h

theorem Wake.report_eq (h : w.Wake w') : w'.report = w.report := by
  cases h <;> rfl

end Walk

/-! ## With an importer -/

/-- What a step of a backfill with an importer beside it can do. -/
inductive World.Step (ic : Import.Config) (c : Config) (r : Request) (s : World) :
    Event → World → Prop where
  | walk {now : Instant} {a : Answer} {i : Import.World} {v : Walk}
      (h : s.walk.Move c r now s.importer a i v) : Step ic c r s (.walk now a) ⟨i, v⟩
  | wake {v : Walk} (h : s.walk.Wake v) : Step ic c r s .wake { s with walk := v }
  | interrupt (hc : s.walk.cancelled = true) (hw : s.walk.waits = true) :
      Step ic c r s .interrupt { s with walk := s.walk.give .cancelled }
  | cancel : Step ic c r s .cancel { s with walk := { s.walk with cancelled := true } }
  | importer {f : Import.Event} {i : Import.World} (h : s.importer.next? ic f = some i) :
      Step ic c r s (.importer f) { s with importer := i }

theorem World.step_of_next? {ic : Import.Config} {c : Config} {r : Request} {s t : World}
    {e : Event} (h : s.next? ic c r e = some t) : s.Step ic c r e t := by
  cases e with
  | walk now a =>
    obtain ⟨⟨i, v⟩, hmove, rfl⟩ := Option.map_eq_some_iff.mp h
    exact .walk (Walk.move_of_step? hmove)
  | wake =>
    obtain ⟨v, hv, rfl⟩ := Option.map_eq_some_iff.mp h
    exact .wake (Walk.wake_of_wake? hv)
  | interrupt =>
    obtain ⟨v, hv, rfl⟩ := Option.map_eq_some_iff.mp h
    unfold Walk.interrupt? at hv
    split at hv
    · rename_i hwait
      cases hv
      rw [Bool.and_eq_true] at hwait
      exact .interrupt hwait.1 hwait.2
    · cases hv
  | cancel =>
    cases h
    exact .cancel
  | importer f =>
    obtain ⟨i, hi, rfl⟩ := Option.map_eq_some_iff.mp h
    exact .importer hi

/-- What the journal says of an event: what an importer says of its own steps, and of a push. -/
def World.mark? (s : World) : Event → Option Import.Mark
  | .walk _ a =>
    match s.walk.stage, a with
    | .push _ _ score (i :: _) _, .done => s.importer.mark? (.push i score)
    | _, _ => none
  | .importer e => s.importer.mark? e
  | .wake | .interrupt | .cancel => none

/-- A backfill with an importer beside it as a machine, with the journal of the importer. -/
def backfill (ic : Import.Config) (c : Config) (r : Request) :
    Machine World Event Import.Mark where
  next? := World.next? ic c r
  mark? := World.mark?

/-- A side condition on the steps of the importer. -/
def OnImporter (ok : Import.World → Import.Event → Prop) (s : World) : Event → Prop
  | .importer e => ok s.importer e
  | .walk _ _ | .wake | .interrupt | .cancel => True

instance {ok : Import.World → Import.Event → Prop} [∀ s e, Decidable (ok s e)] :
    ∀ (s : World) (e : Event), Decidable (OnImporter ok s e)
  | s, .importer e => inferInstanceAs (Decidable (ok s.importer e))
  | _, .walk _ _ | _, .wake | _, .interrupt | _, .cancel => isTrue trivial

section importer

variable {ic : Import.Config} {c : Config} {r : Request} {ok : Import.World → Import.Event → Prop}
  {s t : World} {e : Event} {j : List Import.Mark}

/-- A step leaves the importer as it is, or is a step of the importer. -/
theorem importer_step (hok : ∀ s w score, ok s (.push w score)) (allowed : OnImporter ok s e)
    (step : (backfill ic c r).next? s e = some t) :
    t.importer = s.importer ∧ s.mark? e = none ∨
      ∃ f, ok s.importer f ∧ s.importer.next? ic f = some t.importer ∧
        s.mark? e = s.importer.mark? f := by
  cases World.step_of_next? step with
  | @importer f i hi => exact .inr ⟨f, allowed, hi, rfl⟩
  | wake | interrupt | cancel => exact .inl ⟨rfl, rfl⟩
  | walk h =>
    -- a push is the only move of a walk that touches the importer
    cases h with
    | @push _ _ score x _ _ h =>
      refine .inr ⟨.push x score, hok _ _ _, rfl, ?_⟩
      simp only [World.mark?, h]
    | _ h =>
      refine .inl ⟨rfl, ?_⟩
      simp only [World.mark?, h]

/-- To the importer, a run is one of its own runs. -/
theorem importer_run (hok : ∀ s w score, ok s (.push w score))
    (h : (backfill ic c r).Run (OnImporter ok) s j t) :
    (Import.importer ic).Run ok s.importer j t.importer := by
  induction h with
  | nil => exact .nil
  | @snoc j t u e _ allowed step ih =>
    have hmark : (backfill ic c r).mark? t e = t.mark? e := rfl
    rw [hmark]
    -- a step that is none of the importer leaves no mark in its journal
    rcases importer_step hok allowed step with ⟨hsame, hnone⟩ | ⟨f, hf, hstep, heq⟩
    · rw [hnone, hsame, Option.toList_none, List.append_nil]
      exact ih
    · rw [heq]
      exact ih.snoc hf hstep

end importer

end Harvest.Backfill
