import Harvest.Proofs.Import.Crew
import Mathlib.Data.Multiset.Bind
import Mathlib.Tactic.Abel

/-! # Accounts of what is due for an import

A worker that has stored a killmail hands its body to the backup, lets the killmail be observed and
counts an import. Between these steps other workers take theirs, so at most times less was done than
is due for what was stored.

The key idea is to say who owes the difference. An account compares what is due with what was done
and with what each worker still owes. A step of a worker changes both sides alike, so the account
stays settled; a worker that breaks down takes what it owes with it, and then no more was done than
was due.

## Main definitions

* `Account`, `Account.Fair`: an account, and what makes it keep.
* `imports`, `backups`, `observations`: the three accounts.

## Main statements

* `Account.covered_of_run`: no more is done than is due.
* `Account.settled_of_run`: as long as no worker breaks down, what is not done is owed.
-/

namespace Harvest.Import

/-! ## Accounts -/

/-- What is due for what was stored, what was done of it, and what a worker still owes. -/
structure Account (α : Type) where
  due : Depot → Multiset α
  done : Depot → Multiset α
  owed : Worker → Multiset α

namespace Account

variable {α : Type} {A : Account α} {p : Parties} {c : Config} {s t : World} {e : Event}
  {m : Option Mark}

/-- Workers owe nothing as they come and as they go, and in between each step pays what it owes
less. -/
structure Fair (A : Account α) (p : Parties) : Prop where
  start : ∀ a, A.due (.ofArchive a) = 0 ∧ A.done (.ofArchive a) = 0
  lookup : ∀ n w, A.owed ⟨n, w, .lookup⟩ = 0
  leave : ∀ w : Worker, w.stage = .leave → A.owed w = 0
  move : ∀ {w : Worker} {d d' : Depot} {st : Stage} {a : Answer}, w.stage.Move p w.item d a d' st →
    A.due d' + (A.done d + A.owed w) = A.due d + (A.done d' + A.owed { w with stage := st })

/-- What is due was done or is owed by a worker. -/
def Settled (A : Account α) (s : World) : Prop :=
  A.due s.depot = A.done s.depot + s.crew.bind A.owed

/-- What was done or is owed by a worker is due. -/
def Covered (A : Account α) (s : World) : Prop :=
  A.done s.depot + s.crew.bind A.owed ≤ A.due s.depot

theorem Fair.settled_start (hA : A.Fair p) (q : Queue) (a : Archive) (admission : Admission.State) :
    A.Settled (World.start q a admission) := by
  obtain ⟨hdue, hdone⟩ := hA.start a
  show A.due (.ofArchive a) = A.done (.ofArchive a) + 0
  rw [hdue, hdone, add_zero]

theorem Fair.bind_spawn (hA : A.Fair p) (w : WorkItem) :
    (s.spawn w).crew.bind A.owed = s.crew.bind A.owed := by
  rw [World.crew_spawn, Multiset.cons_bind, hA.lookup, zero_add]

theorem Fair.bind_retire (hA : A.Fair p) (ht : s.Tidy c) {n : Nat} {w : Worker}
    (hw : s.worker? n = some w) (h : w.stage = .leave) :
    (s.retire n).crew.bind A.owed = s.crew.bind A.owed := by
  obtain ⟨rest, hcrew, hretire, -⟩ := ht.split hw
  rw [hretire, hcrew, Multiset.cons_bind, hA.leave w h, zero_add]

/-- A step of a worker changes what is due as much as what is done or owed. -/
theorem Fair.work (hA : A.Fair c.parties) (ht : s.Tidy c) {n : Nat} {b : Answer} {w : Worker}
    {d : Depot} {st : Stage} (hw : s.worker? n = some w)
    (h : w.stage.Move c.parties w.item s.depot b d st) :
    A.due d + (A.done s.depot + s.crew.bind A.owed)
      = A.due s.depot + (A.done d + (s.setStage n st).crew.bind A.owed) := by
  obtain ⟨rest, hcrew, -, hset⟩ := ht.split hw
  have hmove := hA.move h
  -- the others owe what they owed, and the worker's own move is fair
  rw [hcrew, hset, Multiset.cons_bind, Multiset.cons_bind]
  calc A.due d + (A.done s.depot + (A.owed w + rest.bind A.owed))
      = A.due d + (A.done s.depot + A.owed w) + rest.bind A.owed := by abel
    _ = A.due s.depot + (A.done d + A.owed { w with stage := st }) + rest.bind A.owed := by
        rw [hmove]
    _ = A.due s.depot + (A.done d + (A.owed { w with stage := st } + rest.bind A.owed)) := by abel

theorem Settled.step (hs : A.Settled s) (hA : A.Fair c.parties) (ht : s.Tidy c)
    (h : s.Step c e m t) (hok : NoCrash s e) : A.Settled t := by
  unfold Settled at *
  cases h with
  | spawn h =>
    rw [hA.bind_spawn]
    exact hs
  | @work n b w d st hw h =>
    have hwork := hA.work ht hw h
    rw [← hs, add_comm] at hwork
    exact add_left_cancel hwork
  | @leave n b w hw h =>
    show A.due s.depot = A.done s.depot + (s.retire n).crew.bind A.owed
    rw [hA.bind_retire ht hw h]
    exact hs
  | crash => exact hok.elim
  | _ => exact hs

theorem Covered.step (hs : A.Covered s) (hA : A.Fair c.parties) (ht : s.Tidy c)
    (h : s.Step c e m t) : A.Covered t := by
  unfold Covered at *
  cases h with
  | spawn h =>
    rw [hA.bind_spawn]
    exact hs
  | @work n b w d st hw h =>
    show A.done d + (s.setStage n st).crew.bind A.owed ≤ A.due d
    -- the move is fair as an equation of sums, so what was due is added to both sides and cancelled
    have hle : A.due s.depot + (A.done d + (s.setStage n st).crew.bind A.owed)
        ≤ A.due s.depot + A.due d := by
      rw [← hA.work ht hw h, add_comm (A.due s.depot)]
      exact add_le_add_right hs _
    exact le_of_add_le_add_left hle
  | @leave n b w hw h =>
    show A.done s.depot + (s.retire n).crew.bind A.owed ≤ A.due s.depot
    rw [hA.bind_retire ht hw h]
    exact hs
  | @crash n w hw =>
    -- what the worker owed is not done any more
    obtain ⟨rest, hcrew, hretire, -⟩ := ht.split hw
    rw [hcrew, Multiset.cons_bind] at hs
    refine le_trans ?_ hs
    rw [hretire]
    exact add_le_add_right (Multiset.le_add_left _ _) _
  | _ => exact hs

section runs

variable {ok : World → Event → Prop} {q : Queue} {a : Archive} {admission : Admission.State}
  {j : List Mark}

theorem covered_of_run (hA : A.Fair c.parties)
    (h : (importer c).Run ok (World.start q a admission) j t) : A.Covered t :=
  (run_induction (P := fun _ s => A.Covered s) (fun htidy _ hstep ih => ih.step hA htidy hstep) h
    (.start q a admission) (le_of_eq (hA.settled_start q a admission).symm)).2

theorem settled_of_run (hA : A.Fair c.parties) (hok : ∀ s e, ok s e → NoCrash s e)
    (h : (importer c).Run ok (World.start q a admission) j t) : A.Settled t :=
  (run_induction (P := fun _ s => A.Settled s)
    (fun htidy allowed hstep ih => ih.step hA htidy hstep (hok _ _ allowed)) h
    (.start q a admission) (hA.settled_start q a admission)).2

/-- Where no worker is left nothing is owed. -/
theorem Settled.due_eq_done (hs : A.Settled s) (h : s.workers = []) :
    A.due s.depot = A.done s.depot := by
  have hcrew : s.crew = 0 := by
    rw [World.crew, h]
    rfl
  unfold Settled at hs
  rw [hcrew, Multiset.zero_bind, add_zero] at hs
  exact hs

end runs

end Account

/-! ## Three accounts -/

/-- The items whose handling ended with an import. -/
def Depot.imported (d : Depot) : Multiset WorkItem :=
  d.outcomes.filterMap fun x => if x.2 = .imported then some x.1 else none

/-- The import that a worker has still to count. -/
def Worker.uncounted (w : Worker) : Multiset WorkItem :=
  match w.stage with
  | .backup _ _ | .observe _ | .count .imported => {w.item}
  | _ => 0

/-- The item whose body a worker has still to hand to the backup. -/
def Worker.unsaved (w : Worker) : Multiset WorkItem :=
  match w.stage with
  | .backup _ _ => {w.item}
  | _ => 0

/-- The killmail that a worker has still to let be observed. -/
def Worker.unobserved (p : Parties) (w : Worker) : Multiset Killmail :=
  match w.stage with
  | .backup k _ => if p.observer then {k} else 0
  | .observe k => {k}
  | _ => 0

/-- Every killmail stored is to be counted as an import. -/
def imports : Account WorkItem where
  due d := d.stores.map Prod.fst
  done := Depot.imported
  owed := Worker.uncounted

/-- The body of every killmail stored is to be handed to the backup, if there is one. -/
def backups (p : Parties) : Account WorkItem where
  due d := if p.backup then ↑(d.stores.map Prod.fst) else 0
  done d := d.backups.map Backup.item
  owed := Worker.unsaved

/-- Every killmail stored is to be observed, if there is an observer. -/
def observations (p : Parties) : Account Killmail where
  due d := if p.observer then ↑(d.stores.map Prod.snd) else 0
  done d := d.observed
  owed := Worker.unobserved p

section after

variable (p : Parties) (n : Nat) (item : WorkItem) (k : Killmail) (body : List UInt8)

@[simp] theorem Worker.uncounted_afterStore :
    Worker.uncounted ⟨n, item, p.afterStore k body⟩ = {item} := by
  rcases p.afterStore_cases k body with h | h | h <;> rw [h] <;> rfl

@[simp] theorem Worker.uncounted_afterBackup :
    Worker.uncounted ⟨n, item, p.afterBackup k⟩ = {item} := by
  rcases p.afterBackup_cases k with h | h <;> rw [h] <;> rfl

@[simp] theorem Worker.unsaved_afterStore :
    Worker.unsaved ⟨n, item, p.afterStore k body⟩ = if p.backup then {item} else 0 := by
  unfold Parties.afterStore
  split
  · rfl
  · split <;> rfl

@[simp] theorem Worker.unsaved_afterBackup : Worker.unsaved ⟨n, item, p.afterBackup k⟩ = 0 := by
  rcases p.afterBackup_cases k with h | h <;> rw [h] <;> rfl

@[simp] theorem Worker.unobserved_afterStore :
    Worker.unobserved p ⟨n, item, p.afterStore k body⟩ = if p.observer then {k} else 0 := by
  unfold Parties.afterStore
  split
  · rfl
  · split <;> rfl

@[simp] theorem Worker.unobserved_afterBackup :
    Worker.unobserved p ⟨n, item, p.afterBackup k⟩ = if p.observer then {k} else 0 := by
  unfold Parties.afterBackup
  split <;> rfl

end after

theorem imports_fair (p : Parties) : imports.Fair p where
  start _ := ⟨rfl, rfl⟩
  lookup _ _ := rfl
  leave w h := by simp [imports, Worker.uncounted, h]
  move := by
    intro w d d' st a h
    obtain ⟨n, item, stage⟩ := w
    cases h with
    | store =>
      -- what was stored is owed from here on
      show {item} + ↑(d.stores.map Prod.fst) + (d.imported + 0)
        = ↑(d.stores.map Prod.fst) + (d.imported + Worker.uncounted ⟨n, item, _⟩)
      rw [Worker.uncounted_afterStore]
      abel
    | backup =>
      show ↑(d.stores.map Prod.fst) + (d.imported + {item})
        = ↑(d.stores.map Prod.fst) + (d.imported + Worker.uncounted ⟨n, item, _⟩)
      rw [Worker.uncounted_afterBackup]
    | @count o =>
      -- only an import pays; the other outcomes were not owed
      cases o with
      | imported =>
        show ↑(d.stores.map Prod.fst) + (d.imported + {item})
          = ↑(d.stores.map Prod.fst) + ({item} + d.imported + 0)
        abel
      | skipped | dropped => rfl
    | _ => rfl

theorem backups_fair (p : Parties) : (backups p).Fair p where
  start _ := ⟨ite_self _, rfl⟩
  lookup _ _ := rfl
  leave w h := by simp [backups, Worker.unsaved, h]
  move := by
    intro w d d' st a h
    obtain ⟨n, item, stage⟩ := w
    cases h with
    | store =>
      simp only [backups, List.map_cons, ← Multiset.cons_coe, Worker.unsaved_afterStore]
      -- without a backup nothing is due, and nothing is owed
      split
      · show item ::ₘ _ + (_ + 0) = _ + (_ + {item})
        rw [← Multiset.singleton_add]
        abel
      · rfl
    | backup =>
      simp only [backups, List.map_cons, ← Multiset.cons_coe, Worker.unsaved_afterBackup]
      show _ + (_ + {item}) = _ + (item ::ₘ _ + 0)
      rw [← Multiset.singleton_add]
      abel
    | _ => rfl

theorem observations_fair (p : Parties) : (observations p).Fair p where
  start _ := ⟨ite_self _, rfl⟩
  lookup _ _ := rfl
  leave w h := by simp [observations, Worker.unobserved, h]
  move := by
    intro w d d' st a h
    obtain ⟨n, item, stage⟩ := w
    cases h with
    | @store k body =>
      simp only [observations, List.map_cons, ← Multiset.cons_coe, Worker.unobserved_afterStore]
      split
      · show k ::ₘ _ + (_ + 0) = _ + (_ + {k})
        rw [← Multiset.singleton_add]
        abel
      · rfl
    | backup =>
      simp only [observations, Worker.unobserved_afterBackup]
      rfl
    | @observe k =>
      simp only [observations, ← Multiset.cons_coe]
      show _ + (_ + {k}) = _ + (k ::ₘ _ + 0)
      rw [← Multiset.singleton_add]
      abel
    | _ => rfl

end Harvest.Import
