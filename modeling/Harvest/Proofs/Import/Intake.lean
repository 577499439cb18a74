import Harvest.Proofs.Import.Moves
import Mathlib.Algebra.Order.Group.Multiset
import Mathlib.Tactic.Abel

/-! # Intake through the gate

The loop asks the queue for an item only after it has been let through the gate, and it comes back
to the gate before it asks again. The state may change in between: a clearance is not taken back. So
while the gate is closed the loop asks at most once more, for which it was cleared before.

The key idea is a credit. A clearance gives one, asking takes it, and the loop carries no more than
one at a time. While the gate is closed no credit is given.

## Main definitions

* `Passage`, `intake`: the importer with a journal of the gate and of the queue behind it.
* `Closed`: the steps of a run during which the gate stays closed.
* `Exchange`: what comes into the queue and what leaves it, along a run.

## Main statements

* `World.credit_step`, `credit_of_run`: nobody asks without a clearance.
* `World.exchange_step`, `exchange_of_run`: with each question at most one item leaves the queue.
* `intake_while_closed`: what is taken in while the gate is closed.
-/

namespace Harvest.Import

open Harvest.Admission

/-! ## The gate and the queue behind it -/

/-- What is to be told of the gate and of the queue behind it. -/
inductive Passage where
  /-- A push brings a new item into the queue. -/
  | came (w : WorkItem)
  /-- The loop finds a state that lets it through the gate. -/
  | cleared (found : State)
  /-- The loop asks the queue for an item, whatever comes of it. -/
  | asked
deriving DecidableEq

/-- What an event means for the gate and the queue behind it. -/
def World.passage? (s : World) : Event → Option Passage
  | .loop =>
    match s.loop with
    | .held => if s.admission.isBlocking then none else some (.cleared s.admission)
    | .entered => some .asked
    | _ => none
  | .popFails => some .asked
  | .push w _ => if w ∈ s.queue.items then none else some (.came w)
  | .work _ _ | .crash _ | .wake | .interrupt | .setAdmission _ | .stop => none

/-- The importer as a machine, with a journal of passages. -/
def intake (c : Config) : Machine World Event Passage where
  next? s e := s.next? c e
  mark? := World.passage?

/-- The gate is closed, and stays so. -/
def Closed (s : World) : Event → Prop
  | .setAdmission a => s.admission.isBlocking = true ∧ a.isBlocking = true
  | _ => s.admission.isBlocking = true

instance : ∀ (s : World) (e : Event), Decidable (Closed s e)
  | s, .setAdmission a =>
    inferInstanceAs (Decidable (s.admission.isBlocking = true ∧ a.isBlocking = true))
  | s, .loop | s, .popFails | s, .wake | s, .interrupt | s, .work _ _ | s, .crash _ | s, .push _ _
  | s, .stop => inferInstanceAs (Decidable (s.admission.isBlocking = true))

theorem Closed.isBlocking {s : World} {e : Event} (h : Closed s e) :
    s.admission.isBlocking = true := by
  cases e with
  | setAdmission a => exact h.1
  | _ => exact h

/-! ## Contents of a journal -/

/-- How often the queue was asked. -/
def asks (j : List Passage) : Nat := j.count .asked

/-- How often the loop was let through the gate. -/
def clearances (j : List Passage) : Nat :=
  j.countP fun
    | .cleared _ => true
    | _ => false

/-- The items that came into the queue. -/
def arrivals (j : List Passage) : Multiset WorkItem :=
  j.filterMap fun
    | .came w => some w
    | _ => none

theorem asks_append (j k : List Passage) : asks (j ++ k) = asks j + asks k := List.count_append

theorem clearances_append (j k : List Passage) :
    clearances (j ++ k) = clearances j + clearances k := List.countP_append

theorem arrivals_append (j k : List Passage) : arrivals (j ++ k) = arrivals j + arrivals k := by
  rw [arrivals, List.filterMap_append, ← Multiset.coe_add]
  rfl

theorem clearances_toList {p : Option Passage} (h : ∀ found, p ≠ some (.cleared found)) :
    clearances p.toList = 0 := by
  cases p with
  | none => rfl
  | some passage =>
    cases passage with
    | came _ | asked => rfl
    | cleared found => exact absurd rfl (h found)

/-! ## Clearances are credits -/

/-- The loop was let through the gate by a state that was not blocking, and has not asked the queue
since. -/
def Granted (j : List Passage) : Prop :=
  ∃ j₁ found j₂, j = j₁ ++ .cleared found :: j₂ ∧ found.isBlocking = false ∧ .asked ∉ j₂

theorem Granted.append {j k : List Passage} (h : Granted j) (hk : .asked ∉ k) :
    Granted (j ++ k) := by
  obtain ⟨j₁, found, j₂, rfl, hfound, hj⟩ := h
  refine ⟨j₁, found, j₂ ++ k, by simp, hfound, ?_⟩
  rw [List.mem_append, not_or]
  exact ⟨hj, hk⟩

theorem granted_of_cleared {found : State} (h : found.isBlocking = false) (j : List Passage) :
    Granted (j ++ [.cleared found]) := ⟨j, found, [], rfl, h, List.not_mem_nil⟩

/-- The loop has been let through the gate and has not asked the queue since. -/
def Loop.credit : Loop → Nat
  | .penalty | .cleared | .entered => 1
  | .top | .held | .spawning _ | .empty | .broken | .pausing _ | .joining | .stopped => 0

theorem Loop.credit_le_one (l : Loop) : l.credit ≤ 1 := by
  cases l <;> simp [credit]

namespace World

variable {c : Config} {s t : World} {e : Event} {m : Option Mark}

theorem credit_turn {l : Loop} {n : Nat} (h : s.Turn c e l n) :
    asks (s.passage? e).toList + l.credit ≤ clearances (s.passage? e).toList + s.loop.credit := by
  cases h with
  | degraded h ha =>
    -- the clearance is given before the penalty is sat out
    have hpassage : s.passage? .loop = some (.cleared .yellow) := by
      simp [passage?, h, ha, State.isBlocking]
    rw [hpassage, h]
    decide
  | clear h ha =>
    have hpassage : s.passage? .loop = some (.cleared s.admission) := by simp [passage?, h, ha]
    rw [hpassage, h]
    exact Nat.le_refl 1
  | blocked h ha => simp [passage?, h, ha, asks, clearances]
  | halt h | free h | busy h | served h | woken h | join h =>
    simp [passage?, h, asks, clearances, Loop.credit]
  | interrupted =>
    -- a loop that gives up waiting gives up its credit
    exact Nat.zero_le _

/-- The loop asks only for a credit, and has a credit only for a clearance. -/
theorem credit_step (h : s.Step c e m t) :
    asks (s.passage? e).toList + t.loop.credit
      ≤ clearances (s.passage? e).toList + s.loop.credit := by
  cases h with
  | turn h => exact credit_turn h
  | take h _ | miss h _ | spoil h _ | popFails h =>
    -- the credit is taken, whatever comes of the question
    simp [passage?, h, asks, clearances, Loop.credit]
  | enter h | spawn h | finish h | idle h | recover h =>
    simp [passage?, h, asks, clearances, Loop.credit, World.spawn]
  | pushNew _ hw | pushAgain _ hw => simp [passage?, hw, asks, clearances]
  | work | leave | crash | setAdmission | stop => exact Nat.le_refl _

theorem cleared_of_passage? {found : State} (h : s.passage? e = some (.cleared found)) :
    s.admission = found ∧ found.isBlocking = false := by
  cases e with
  | loop =>
    simp only [passage?] at h
    split at h
    · split at h
      · cases h
      · rename_i hblocking
        cases h
        exact ⟨rfl, eq_false_of_ne_true hblocking⟩
    · cases h
    · cases h
  | push w score =>
    simp only [passage?] at h
    split at h <;> cases h
  | _ => cases h

/-- A closed gate lets nobody through. -/
theorem clearances_of_closed (h : Closed s e) : clearances (s.passage? e).toList = 0 := by
  apply clearances_toList
  intro found hpassage
  obtain ⟨rfl, hopen⟩ := cleared_of_passage? hpassage
  exact absurd (h.isBlocking.symm.trans hopen) (by decide)

/-- A credit was granted. -/
theorem granted_step {j : List Passage} (h : s.Step c e m t)
    (hs : s.loop.credit = 1 → Granted j) (ht : t.loop.credit = 1) :
    Granted (j ++ (s.passage? e).toList) := by
  have hcredit := credit_step h
  have hone := s.loop.credit_le_one
  by_cases hcleared : ∃ found, s.passage? e = some (.cleared found)
  · -- the step itself lets the loop through
    obtain ⟨found, hpassage⟩ := hcleared
    rw [hpassage]
    exact granted_of_cleared (cleared_of_passage? hpassage).2 j
  · -- the credit was there before, and the step does not take it
    have hnone : clearances (s.passage? e).toList = 0 := by
      apply clearances_toList
      intro found hpassage
      exact hcleared ⟨found, hpassage⟩
    have hbefore : s.loop.credit = 1 := by omega
    have hunasked : asks (s.passage? e).toList = 0 := by omega
    exact (hs hbefore).append (List.count_eq_zero.mp hunasked)

/-! ## With each question at most one item leaves the queue -/

/-- What comes into the queue and what leaves it between two states. -/
structure Exchange (s : World) (j : List Passage) (t : World) : Prop where
  distinct : t.queue.Distinct
  /-- What has left is no more than was asked for. -/
  gone : ∃ gone : Multiset WorkItem, gone.card ≤ asks j ∧
    ↑s.queue.items + arrivals j = ↑t.queue.items + gone

namespace Exchange

variable {u : World} {j k : List Passage}

theorem refl (hs : s.queue.Distinct) : Exchange s [] s := ⟨hs, 0, Nat.le_refl _, rfl⟩

theorem trans (h : Exchange s j t) (h' : Exchange t k u) : Exchange s (j ++ k) u := by
  obtain ⟨gone, hgone, heq⟩ := h.gone
  obtain ⟨gone', hgone', heq'⟩ := h'.gone
  refine ⟨h'.distinct, gone + gone', ?_, ?_⟩
  · rw [Multiset.card_add, asks_append]
    exact Nat.add_le_add hgone hgone'
  · calc ↑s.queue.items + arrivals (j ++ k)
        = (↑s.queue.items + arrivals j) + arrivals k := by rw [arrivals_append, add_assoc]
      _ = (↑t.queue.items + arrivals k) + gone := by rw [heq]; abel
      _ = ↑u.queue.items + (gone + gone') := by rw [heq']; abel

/-- The queue is left alone. -/
theorem quiet (hs : s.queue.Distinct) (hqueue : t.queue = s.queue) (hj : arrivals j = 0) :
    Exchange s j t := by
  refine ⟨hqueue ▸ hs, 0, Nat.zero_le _, ?_⟩
  rw [hj, hqueue]

theorem pop (hs : s.queue.Distinct) (ht : t.queue = s.queue.popMin.1) : Exchange s [.asked] t := by
  obtain ⟨gone, hgone, hperm⟩ := Queue.perm_popMin hs
  have hitems : (↑gone + ↑s.queue.popMin.1.items : Multiset WorkItem) = ↑s.queue.items :=
    Multiset.coe_eq_coe.mpr hperm
  refine ⟨ht ▸ hs.popMin_fst, gone, hgone, ?_⟩
  calc ↑s.queue.items + arrivals [.asked]
      = ↑s.queue.items := add_zero _
    _ = ↑gone + ↑s.queue.popMin.1.items := hitems.symm
    _ = ↑t.queue.items + ↑gone := by rw [ht, add_comm]

theorem push (hs : s.queue.Distinct) (w : WorkItem) (score : Int)
    (ht : t.queue = s.queue.push w score) : Exchange s (s.passage? (.push w score)).toList t := by
  have hperm := s.queue.perm_items_push w score
  refine ⟨ht ▸ hs.push w score, 0, Nat.zero_le _, ?_⟩
  rw [add_zero, ht, Multiset.coe_eq_coe.mpr hperm]
  simp only [passage?]
  by_cases hw : w ∈ s.queue.items
  · -- a queued item only gets a new score
    rw [if_pos hw, if_pos hw]
    exact add_zero _
  · rw [if_neg hw, if_neg hw, ← Multiset.cons_coe, ← Multiset.singleton_add, add_comm]
    rfl

end Exchange

/-- Nothing comes into the queue by a step of the loop. -/
theorem arrivals_loop (s : World) : arrivals (s.passage? .loop).toList = 0 := by
  simp only [passage?]
  split
  · split <;> rfl
  · rfl
  · rfl

theorem exchange_step (hs : s.queue.Distinct) (h : s.Step c e m t) :
    Exchange s (s.passage? e).toList t := by
  cases h with
  | take h hq | miss h hq | spoil h hq =>
    -- whatever the pop gives, what it takes out has been asked for
    have hpassage : s.passage? .loop = some .asked := by simp only [passage?, h]
    have hqueue := congrArg Prod.fst hq
    rw [hpassage]
    exact .pop hs hqueue.symm
  | pushNew score _ | pushAgain score _ => exact .push hs _ score rfl
  | turn h =>
    cases h with
    | served | woken | interrupted => exact .quiet hs rfl rfl
    | halt | free | busy | blocked | degraded | clear | join =>
      exact .quiet hs rfl (arrivals_loop s)
  | enter | spawn | finish | idle | recover => exact .quiet hs rfl (arrivals_loop s)
  | popFails | work | leave | crash | setAdmission | stop => exact .quiet hs rfl rfl

end World

/-! ## Along runs -/

variable {c : Config} {ok : World → Event → Prop} {s t : World} {j k : List Passage} {q : Queue}
  {a : Archive} {admission : State}

theorem credit_of_run (h : (intake c).Run ok s j t) :
    asks j + t.loop.credit ≤ clearances j + s.loop.credit := by
  induction h with
  | nil => exact Nat.le_refl _
  | @snoc j t u e _ _ step ih =>
    have hstep := World.credit_step (World.step_of_next? step)
    show asks (j ++ (t.passage? e).toList) + _ ≤ clearances (j ++ (t.passage? e).toList) + _
    rw [asks_append, clearances_append]
    omega

theorem exchange_of_run (hs : s.queue.Distinct) (h : (intake c).Run ok s j t) :
    s.Exchange j t := by
  induction h with
  | nil => exact .refl hs
  | snoc _ _ step ih => exact ih.trans (World.exchange_step ih.distinct (World.step_of_next? step))

/-- No run starts with a credit. -/
theorem granted_of_run (h : (intake c).Run ok (World.start q a admission) j s)
    (hs : s.loop.credit = 1) : Granted j := by
  induction h with
  | nil => cases hs
  | snoc _ _ step ih => exact World.granted_step (World.step_of_next? step) ih hs

theorem clearances_of_run (h : (intake c).Run Closed s k t) : clearances k = 0 := by
  induction h with
  | nil => rfl
  | snoc _ allowed _ ih =>
    rw [clearances_append, ih, Nat.zero_add]
    exact World.clearances_of_closed allowed

/-- **A closed gate stops intake.** Take any run of an importer and a stretch of it in which the
state is red or downtime throughout, whatever else happens. In that stretch the loop asks the queue
for an item at most once. It is not let through the gate meanwhile: if it asks, then it was let
through before the stretch, by a state that was not blocking, and had not asked since. With that
question at most one item leaves the queue, and without it none does. -/
theorem intake_while_closed (hq : q.Distinct)
    (h : (intake c).Run (fun _ _ => True) (World.start q a admission) j s)
    (h' : (intake c).Run Closed s k t) :
    asks k ≤ 1 ∧ clearances k = 0 ∧ (asks k = 1 → Granted j) ∧
      ∃ gone : Multiset WorkItem, gone.card ≤ asks k ∧
        ↑s.queue.items + arrivals k = ↑t.queue.items + gone := by
  have hnone := clearances_of_run h'
  have hcredit := credit_of_run h'
  have hone := s.loop.credit_le_one
  have hdistinct : s.queue.Distinct := (exchange_of_run hq h).distinct
  rw [hnone] at hcredit
  refine ⟨by omega, hnone, ?_, (exchange_of_run hdistinct h').gone⟩
  intro hasked
  have hs : s.loop.credit = 1 := by omega
  exact granted_of_run h hs

/-! ## A gate that closes during a penalty -/

namespace Penalty

def config : Config := ⟨2, .service, ⟨false, false⟩⟩

def start : Queue := .table ⟨[⟨⟨7, "a"⟩, 1⟩, ⟨⟨8, "b"⟩, 2⟩]⟩

/-- The loop is let through with a penalty, and while it sits that out the state turns red. -/
def before : List Event := [.loop, .loop, .setAdmission .red]

/-- The loop takes the item that it was cleared for and is held at the gate from then on, while a
worker handles the item, another one comes in, and the state goes on to downtime. -/
def after : List Event := [
  .wake, .loop, .loop, .loop, .loop, .loop, .work 0 .done, .push ⟨9, "c"⟩ 0,
  .setAdmission .downtime, .loop, .work 0 (.fetched (.error ⟨404, ""⟩)), .work 0 .done,
  .work 0 .done, .loop]

theorem reaches_before_after :
    (intake config).reaches (fun _ _ => True) (World.start start (.memory ⟨[]⟩) .yellow) before
      (fun s => ((intake config).follow Closed s after).any fun r => decide (asks r.1 = 1) &&
        decide (r.2.loop = .held) && decide (r.2.queue.items = [⟨8, "b"⟩, ⟨9, "c"⟩])) = true := by
  decide +kernel

theorem one_taken_in :
    start.Distinct ∧ ∃ j s k t,
      (intake config).Run (fun _ _ => True) (World.start start (.memory ⟨[]⟩) .yellow) j s ∧
      (intake config).Run Closed s k t ∧ asks k = 1 ∧ Granted j ∧
      ∃ gone : Multiset WorkItem, gone.card ≤ 1 ∧
        ↑s.queue.items + arrivals k = {⟨8, "b"⟩, ⟨9, "c"⟩} + gone := by
  have hdistinct : start.Distinct := by decide +kernel
  obtain ⟨j, s, h, hs⟩ := Machine.exists_run_of_reaches reaches_before_after
  obtain ⟨⟨k, t⟩, hfollow, ht⟩ := (Option.any_eq_true _ _).mp hs
  simp only [Bool.and_eq_true, decide_eq_true_eq] at ht
  obtain ⟨⟨hasked, -⟩, hqueue⟩ := ht
  have h' := Machine.run_of_follow hfollow
  obtain ⟨-, -, hgranted, gone, hgone, heq⟩ := intake_while_closed hdistinct h h'
  rw [hasked] at hgone
  rw [hqueue] at heq
  exact ⟨hdistinct, j, s, k, t, h, h', hasked, hgranted hasked, gone, hgone, heq⟩

end Penalty

end Harvest.Import
