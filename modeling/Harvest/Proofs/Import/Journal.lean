import Harvest.Import.Importer
import Harvest.Proofs.Archive.Records
import Harvest.Proofs.Queue.Items
import Harvest.Proofs.Run
import Mathlib.Data.Multiset.AddSub

/-! # The journal of an importer

An importer as a machine. Its journal says which items came into the queue, which of them were taken
off it for which worker, what workers stored, and how they ended.

## Main definitions

* `Mark`, `World.mark?`: what the journal says of a step.
* `importer`: the machine.
* `NoCrash`, `Unharmed`: side conditions on steps.
* `queuedIn`, `takenIn`, `countedIn`: the contents of a journal.

## Main statements

* `exists_run_iff`: the runs of the machine are the sequences of possible events.
-/

namespace Harvest.Import

/-! ## Marks -/

/-- What the journal says of a step. Workers go by their numbers. -/
inductive Mark where
  /-- A push brings a new item into the queue. -/
  | queued (w : WorkItem)
  /-- A push gives a queued item a new score. -/
  | rescored (w : WorkItem)
  /-- An item is taken off the queue for a worker to come. -/
  | taken (n : Nat) (w : WorkItem)
  | stored (n : Nat) (w : WorkItem) (k : Killmail)
  | counted (n : Nat) (w : WorkItem) (o : Outcome)
  /-- The worker has done all there was to do. -/
  | left (n : Nat) (w : WorkItem)

/-- What the journal says of a step of a worker. -/
def Worker.mark? (w : Worker) (d : Depot) (a : Answer) : Option Mark :=
  match w.stage, a with
  | .store k _, .done => if k.id ∈ d.archive.ids then none else some (.stored w.number w.item k)
  | .count o, .done => some (.counted w.number w.item o)
  | .leave, _ => some (.left w.number w.item)
  | _, _ => none

/-- What the journal says of an event. -/
def World.mark? (s : World) : Event → Option Mark
  | .push w _ => some (if w ∈ s.queue.items then .rescored w else .queued w)
  | .loop =>
    match s.loop, s.queue.popMin.2 with
    | .entered, .ok (some w) => some (.taken s.made w)
    | _, _ => none
  | .work n a => (s.worker? n).bind fun w => w.mark? s.depot a
  | _ => none

/-- The importer as a machine. -/
def importer (c : Config) : Machine World Event Mark where
  next? s e := s.next? c e
  mark? := World.mark?

/-- The runs of the machine are the sequences of possible events. -/
theorem exists_run_iff {c : Config} {s t : World} :
    (∃ j, (importer c).Run (fun _ _ => True) s j t) ↔ ∃ es, s.runs? c es = some t := by
  constructor
  · rintro ⟨j, h⟩
    induction h with
    | nil => exact ⟨[], rfl⟩
    | @snoc _ _ _ e _ _ step ih =>
      obtain ⟨es, hes⟩ := ih
      refine ⟨es ++ [e], ?_⟩
      have step' : World.next? c _ e = some _ := step
      simp [World.runs?_append, hes, World.runs?, step']
  · rintro ⟨es, h⟩
    induction es generalizing s with
    | nil =>
      cases h
      exact ⟨[], .nil⟩
    | cons e es ih =>
      -- events are followed from the first, runs grow at their end
      rw [World.runs?] at h
      split at h
      · rename_i u step
        obtain ⟨j, hj⟩ := ih h
        exact ⟨_, (Machine.Run.single (m := importer c) (e := e) trivial step).append hj⟩
      · cases h

/-! ## Side conditions -/

/-- No worker breaks down. -/
def NoCrash (_ : World) : Event → Prop
  | .crash _ => False
  | _ => True

/-- No worker breaks down, and no entry is lost as it is taken off the queue. -/
def Unharmed (s : World) : Event → Prop
  | .crash _ => False
  | .loop => ¬ (s.loop = .entered ∧ s.queue.spoils = true)
  | _ => True

instance : ∀ (s : World) (e : Event), Decidable (NoCrash s e)
  | _, .crash _ => isFalse id
  | _, .loop | _, .popFails | _, .wake | _, .interrupt | _, .work _ _ | _, .push _ _
  | _, .setAdmission _ | _, .stop => isTrue trivial

instance : ∀ (s : World) (e : Event), Decidable (Unharmed s e)
  | _, .crash _ => isFalse id
  | s, .loop => inferInstanceAs (Decidable (¬ (s.loop = .entered ∧ s.queue.spoils = true)))
  | _, .popFails | _, .wake | _, .interrupt | _, .work _ _ | _, .push _ _ | _, .setAdmission _
  | _, .stop => isTrue trivial

theorem Unharmed.noCrash {s : World} {e : Event} (h : Unharmed s e) : NoCrash s e := by
  cases e with
  | crash n => exact h
  | _ => trivial

/-! ## Contents of a journal -/

/-- A work item with the number of the worker that it was taken for. -/
abbrev Ticket : Type := Nat × WorkItem

/-- The items that came into the queue. -/
def queuedIn (j : List Mark) : Multiset WorkItem :=
  j.filterMap fun
    | .queued w => some w
    | _ => none

/-- The items that were taken off the queue. -/
def takenIn (j : List Mark) : Multiset Ticket :=
  j.filterMap fun
    | .taken n w => some (n, w)
    | _ => none

/-- The items whose outcome was counted. -/
def countedIn (j : List Mark) : Multiset Ticket :=
  j.filterMap fun
    | .counted n w _ => some (n, w)
    | _ => none

theorem queuedIn_append (j k : List Mark) : queuedIn (j ++ k) = queuedIn j + queuedIn k := by
  rw [queuedIn, List.filterMap_append, ← Multiset.coe_add]
  rfl

theorem takenIn_append (j k : List Mark) : takenIn (j ++ k) = takenIn j + takenIn k := by
  rw [takenIn, List.filterMap_append, ← Multiset.coe_add]
  rfl

theorem countedIn_append (j k : List Mark) : countedIn (j ++ k) = countedIn j + countedIn k := by
  rw [countedIn, List.filterMap_append, ← Multiset.coe_add]
  rfl

end Harvest.Import
