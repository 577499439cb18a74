import Harvest.Proofs.Backfill.Moves
import Harvest.Proofs.Import.Progress

/-! # The drain barrier

After a walk has pushed the missing items of a day it waits until the queue is empty and nothing is
in flight, and only then counts again. An importer takes items off the queue meanwhile, and others
may push. When the wait is over, every item that the walk has pushed was taken off the queue, and
the worker that handled it has left.

The key idea is the order of four steps. The importer raises the count of items in flight before it
takes an item, and a worker lowers it only as it leaves; the walk reads the length of the queue
before it reads the count. So an item is gone from the queue when the length is read, and whoever
has it by then is counted until its last step.

## Main statements

* `World.Pending.step`: an item pushed stays queued until it is taken, and an empty queue is read
  only after that.
* `drain_barrier`: what a wait for the queue to drain has waited for.
-/

namespace Harvest.Backfill

open Harvest.Import (Mark Outcome Unharmed NoCrash)

/-! ## Between the push and the end of the wait -/

variable {ic : Import.Config} {c : Config} {r : Request} {s t : World} {e : Event}
  {j : List Mark} {w : WorkItem}

/-- What is known, since a push of the item, of a queue that others push to as well: the item is
queued or was taken, and it was taken before the walk has read that the queue is empty. -/
structure World.Pending (w : WorkItem) (j : List Mark) (s : World) : Prop where
  item : w ∈ s.importer.queue.items ∨ ∃ n, .taken n w ∈ j
  read : ∀ day, s.walk.stage = .readInFlight day 0 → ∃ n, .taken n w ∈ j

/-- The walk comes to read the count of items in flight by reading the length of the queue. -/
theorem Walk.Move.length_of_readInFlight {now : Calendar.Instant} {i i' : Import.World}
    {v v' : Walk} {a : Answer} (h : v.Move c r now i a i' v') {day : DayReport} {queued : Nat}
    (hv : v'.stage = .readInFlight day queued) : i.queue.size = queued := by
  cases h with
  | length => exact (Stage.readInFlight.inj hv).2
  | close | compared =>
    unfold Walk.close at hv
    split at hv <;> cases hv
  | _ => cases hv

theorem Walk.Wake.stage_ne {v v' : Walk} (h : v.Wake v') (day : DayReport) (queued : Nat) :
    v'.stage ≠ .readInFlight day queued := by
  intro hv
  cases h <;> cases hv

/-- Right after the push the item is queued. -/
theorem World.Pending.of_push {day : DayReport} {pushed : Nat} {score : Int} {chunk : List WorkItem}
    {rest : List (List WorkItem)} {now : Calendar.Instant}
    (h : s.walk.stage = .push day pushed score (w :: chunk) rest)
    (step : s.next? ic c r (.walk now .done) = some t) : t.Pending w [] := by
  obtain ⟨⟨i, v⟩, hmove, rfl⟩ := Option.map_eq_some_iff.mp step
  cases Walk.move_of_step? hmove with
  | @push _ _ _ x _ _ hst =>
    rw [h] at hst
    cases hst
    exact ⟨.inl (Queue.mem_items_push.mpr (.inl rfl)), fun day hday => by cases hday⟩
  | _ hst =>
    rw [h] at hst
    cases hst

theorem World.Pending.step (hs : s.Pending w j) (allowed : OnImporter Unharmed s e)
    (step : (backfill ic c r).next? s e = some t) : t.Pending w (j ++ (s.mark? e).toList) := by
  have hold : (∃ n, .taken n w ∈ j) → ∃ n, .taken n w ∈ j ++ (s.mark? e).toList := by
    rintro ⟨n, hn⟩
    exact ⟨n, List.mem_append_left _ hn⟩
  refine ⟨?_, ?_⟩
  · rcases hs.item with hqueue | htaken
    · rcases importer_step (fun _ _ _ => trivial) allowed step with
        ⟨hsame, -⟩ | ⟨f, hf, hnext, heq⟩
      · exact .inl (hsame ▸ hqueue)
      · have hstep := Import.World.step_of_next? hnext
        rcases Import.World.queued_or_taken_of_step hstep hf hqueue with hqueue | ⟨n, hn⟩
        · exact .inl hqueue
        · exact .inr ⟨n, List.mem_append_right _ (heq ▸ hn)⟩
    · exact .inr (hold htaken)
  · intro day hday
    -- an importer and a cancellation leave the stage, and only reading the length leads to it
    cases World.step_of_next? step with
    | importer => exact hold (hs.read day hday)
    | wake h => exact absurd hday (h.stage_ne day 0)
    | interrupt => cases hday
    | cancel => exact hold (hs.read day hday)
    | walk h =>
      have hsize := h.length_of_readInFlight hday
      -- the queue is empty at this step, so the item was taken before it
      rw [Queue.size_eq, List.length_eq_zero_iff] at hsize
      rcases hs.item with hqueue | htaken
      · rw [hsize] at hqueue
        cases hqueue
      · exact hold htaken

theorem pending_of_run (h : (backfill ic c r).Run (OnImporter Unharmed) s j t)
    (hs : s.Pending w []) : t.Pending w j := by
  induction h with
  | nil => exact hs
  | snoc _ allowed step ih => exact ih.step allowed step

/-! ## The end of the wait -/

/-- A wait that sees the items in flight ends where there are none. -/
theorem Walk.Move.drained_of_recount {now : Calendar.Instant} {i i' : Import.World} {v v' : Walk}
    {a : Answer} (h : v.Move c r now i a i' v') (hc : c.tracked = true) {day day' : DayReport}
    {queued : Nat} (hv : v.stage = .readInFlight day queued) (hv' : v'.stage = .recount day') :
    queued = 0 ∧ i.inFlight = 0 ∧ i' = i := by
  cases h with
  | drained h _ hzero =>
    rw [h] at hv
    exact ⟨(Stage.readInFlight.inj hv).2.symm, hzero, rfl⟩
  | emptied _ hc' => simp [hc] at hc'
  | busy => cases hv'
  | _ h =>
    rw [h] at hv
    cases hv

theorem importer_counted {q : Queue} {a : Archive} {admission : Admission.State}
    (h : (backfill ic c r).Run (OnImporter Unharmed) ⟨.start q a admission, .start⟩ j s) :
    s.importer.Tidy ic ∧ s.importer.Counted :=
  Import.counted_of_run (fun _ _ hok => hok.noCrash) (importer_run (fun _ _ _ => trivial) h)
    ⟨.start q a admission, rfl⟩

/-- **The drain barrier.** Take any run of a walk with an importer beside it, in which no worker
breaks down and no entry of the queue is lost, and a push of the walk in it. Where the walk later
ends its wait for the queue to drain, the item that it has pushed was taken off the queue after the
push, its outcome was counted, and its worker has left. Whatever that worker stores, earlier or
later, is in the archive when the wait ends, and a count that follows counts it. -/
theorem drain_barrier {q : Queue} {a : Archive} {admission : Admission.State} {j₁ j₂ : List Mark}
    {s₁ s₂ s₃ s₄ : World} {day day' day'' : DayReport} {pushed queued : Nat} {score : Int}
    {chunk : List WorkItem} {rest : List (List WorkItem)} {now now' : Calendar.Instant} {b : Answer}
    (hc : c.tracked = true)
    (h₁ : (backfill ic c r).Run (OnImporter Unharmed) ⟨.start q a admission, .start⟩ j₁ s₁)
    (hpush : s₁.walk.stage = .push day pushed score (w :: chunk) rest)
    (hpushed : s₁.next? ic c r (.walk now .done) = some s₂)
    (h₂ : (backfill ic c r).Run (OnImporter Unharmed) s₂ j₂ s₃)
    (hwait : s₃.walk.stage = .readInFlight day' queued)
    (hreturn : s₃.next? ic c r (.walk now' b) = some s₄)
    (hdone : s₄.walk.stage = .recount day'') :
    ∃ n o, [.taken n w, .counted n w o, .left n w].Sublist j₂ ∧
      ∀ j₃ s₅, (backfill ic c r).Run (OnImporter Unharmed) s₄ j₃ s₅ →
        ∀ k, .stored n w k ∈ j₂ ++ j₃ →
          s₄.importer.depot.archive.Holds k ∧ s₅.importer.depot.archive.Holds k ∧
            ∀ f, (s₅.importer.depot.archive.only [k]).count f ≤
              s₅.importer.depot.archive.count f := by
  have hallowed : OnImporter Unharmed s₁ (.walk now .done) := trivial
  have hrun := h₁.snoc hallowed hpushed
  have htidy := (importer_counted hrun).1
  have hcounted := (importer_counted (hrun.append h₂)).2
  have himporter := importer_run (fun _ _ _ => trivial) h₂
  have hrecorded := (Import.recorded_of_run (fun _ _ hok => hok.noCrash) htidy himporter).2
  -- the wait ends where the queue was empty and nothing is in flight
  obtain ⟨⟨i, v⟩, hmove, rfl⟩ := Option.map_eq_some_iff.mp hreturn
  obtain ⟨rfl, hzero, rfl⟩ := (Walk.move_of_step? hmove).drained_of_recount hc hwait hdone
  obtain ⟨n, hn⟩ := (pending_of_run h₂ (.of_push hpush hpushed)).read day' hwait
  obtain ⟨hgone, o, hsub⟩ := hrecorded.left hcounted hzero hn
  refine ⟨n, o, hsub, ?_⟩
  intro j₃ s₅ h₃ k hk
  have hlater := importer_run (fun _ _ _ => trivial) h₃
  -- a worker that has left is not heard of again
  have hstored : .stored n w k ∈ j₂ := by
    rcases List.mem_append.mp hk with hk | hk
    · exact hk
    · exact absurd rfl ((Import.gone_of_run hlater hgone).2 _ hk)
  obtain ⟨ks, hks, hmem⟩ := Import.archive_of_run himporter
  obtain ⟨ls, hls, -⟩ := Import.archive_of_run hlater
  have hholds : s₃.importer.depot.archive.Holds k := by
    rw [hks]
    exact Archive.holds_prepend_of_mem _ (hmem n w k hstored)
  have hstays : s₅.importer.depot.archive.Holds k := by
    rw [hls]
    exact hholds.prepend ls
  exact ⟨hholds, hstays, hstays.count_le⟩

/-! ## One day with one missing item -/

namespace Visit

def date : Calendar.Date := ⟨2024, 1, 1, Eq.refl true⟩

def config : Config := ⟨1, 1, 1, 5, true⟩

def machine : Machine World Event Mark := backfill ⟨1, .service, ⟨true, true⟩⟩ config (.day date)

def start : World := ⟨.start (.table ⟨[]⟩) (.memory ⟨[]⟩) .green, .start⟩

/-- The walk takes its next step. -/
def walk : Event := .walk .epoch .done

/-- Up to the push: one killmail is to be there, and the listing names one item. -/
def before : List Event :=
  [.walk .epoch (.totals (.ok ⟨[(date, 1)]⟩)), walk, walk, walk,
    .walk .epoch (.listing (.ok [⟨7, "a"⟩])), walk, walk]

/-- The walk finds the queue empty as the loop has just taken the item, and waits until the worker
has left. Another push has given the item a new score meanwhile. -/
def between : List Event := [
  [walk, .importer (.push ⟨7, "a"⟩ 3)], List.replicate 4 (.importer .loop), [walk, walk, .wake],
  [.importer .loop, .importer (.work 0 .done),
    .importer (.work 0 (.fetched (.ok Import.bodyOfSeven)))],
  List.replicate 5 (.importer (.work 0 .done)), [walk]].flatten

/-- The walk is about to push the item. -/
def isPushing (s : World) : Bool :=
  match s.walk.stage with
  | .push _ _ _ (x :: _) _ => x = ⟨7, "a"⟩
  | _ => false

/-- The walk is about to read the count of items in flight. -/
def isWaiting (s : World) : Bool :=
  match s.walk.stage with
  | .readInFlight _ _ => true
  | _ => false

/-- The walk is about to count again, and there is something to be counted. -/
def isDone (s : World) : Bool :=
  match s.walk.stage with
  | .recount _ => s.importer.depot.archive.count (Walk.filter date) = 1
  | _ => false

theorem reaches_before_between :
    machine.reaches (OnImporter Unharmed) start before (fun s₁ => isPushing s₁ &&
      (machine.next? s₁ walk).any fun s₂ =>
        machine.reaches (OnImporter Unharmed) s₂ between (fun s₃ => isWaiting s₃ &&
          (machine.next? s₃ walk).any isDone)) = true := by
  decide +kernel

theorem stage_of_isPushing {s : World} (h : isPushing s = true) :
    ∃ day pushed score chunk rest,
      s.walk.stage = .push day pushed score (⟨7, "a"⟩ :: chunk) rest := by
  unfold isPushing at h
  split at h
  · rename_i hst
    rw [of_decide_eq_true h] at hst
    exact ⟨_, _, _, _, _, hst⟩
  · cases h

theorem drain_barrier_of_visit :
    ∃ j₁ s₁ s₂ j₂ s₃ s₄, machine.Run (OnImporter Unharmed) start j₁ s₁ ∧
      machine.next? s₁ walk = some s₂ ∧ machine.Run (OnImporter Unharmed) s₂ j₂ s₃ ∧
      machine.next? s₃ walk = some s₄ ∧ s₄.importer.depot.archive.count (Walk.filter date) = 1 ∧
      ∃ n o, [.taken n ⟨7, "a"⟩, .counted n ⟨7, "a"⟩ o, .left n ⟨7, "a"⟩].Sublist j₂ ∧
        ∀ k, .stored n ⟨7, "a"⟩ k ∈ j₂ → s₄.importer.depot.archive.Holds k := by
  obtain ⟨j₁, s₁, h₁, hs₁⟩ := Machine.exists_run_of_reaches reaches_before_between
  rw [Bool.and_eq_true, Option.any_eq_true] at hs₁
  obtain ⟨hpushing, s₂, hpushed, hs₂⟩ := hs₁
  obtain ⟨day, pushed, score, chunk, rest, hpush⟩ := stage_of_isPushing hpushing
  obtain ⟨j₂, s₃, h₂, hs₃⟩ := Machine.exists_run_of_reaches hs₂
  rw [Bool.and_eq_true, Option.any_eq_true] at hs₃
  obtain ⟨hwaiting, s₄, hreturn, hs₄⟩ := hs₃
  unfold isWaiting at hwaiting
  unfold isDone at hs₄
  split at hwaiting
  · rename_i hwait
    split at hs₄
    · rename_i hdone
      obtain ⟨n, o, hsub, hstored⟩ := drain_barrier rfl h₁ hpush hpushed h₂ hwait hreturn hdone
      have hcount := of_decide_eq_true hs₄
      refine ⟨j₁, s₁, s₂, j₂, s₃, s₄, h₁, hpushed, h₂, hreturn, hcount, n, o, hsub, ?_⟩
      intro k hk
      exact (hstored [] s₄ .nil k (List.mem_append_left _ hk)).1
    · cases hs₄
  · cases hwaiting

end Visit

end Harvest.Backfill
