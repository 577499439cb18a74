import Harvest.Proofs.Import.Moves
import Mathlib.Data.List.Nodup
import Mathlib.Data.Multiset.Filter

/-! # The crew of an importer

Workers have numbers of their own, so a step of one worker leaves all others as they are. There are
never more workers than slots: the loop takes a slot before it takes an item. As long as no worker
breaks down, the count of items in flight is the number of workers, and one more while the loop is
between raising the count and handing the item over. Each worker that breaks down leaves it one too
high.

## Main statements

* `World.Tidy.step`, `World.Counted.step`: the invariants, kept by every step.
* `World.Overcounted.step`: what a breakdown does to the count.
* `World.Tidy.split`: a worker and the others.
* `run_induction`: what every step of a tidy importer keeps, a run keeps.
* `counted_of_run`: the count of items in flight along runs.
-/

namespace Harvest.Import

open Harvest.Admission

/-! ## Places of the loop -/

/-- The loop holds a slot for a worker to come. -/
def Loop.slot : Loop → Nat
  | .held | .penalty | .cleared | .entered | .spawning _ | .empty | .broken => 1
  | .top | .pausing _ | .joining | .stopped => 0

/-- The loop has raised the count of items in flight for no worker yet. -/
def Loop.raised : Loop → Nat
  | .entered | .spawning _ | .empty | .broken => 1
  | .top | .held | .penalty | .cleared | .pausing _ | .joining | .stopped => 0

/-- The number of workers that break down. -/
def Event.breakdowns : Event → Nat
  | .crash _ => 1
  | _ => 0

theorem NoCrash.breakdowns {s : World} {e : Event} (h : NoCrash s e) : e.breakdowns = 0 := by
  cases e with
  | crash n => exact h.elim
  | _ => rfl

namespace World

variable {c : Config} {s t : World} {e : Event} {m : Option Mark}

theorem Turn.breakdowns {l : Loop} {n : Nat} (h : s.Turn c e l n) : e.breakdowns = 0 := by
  cases h <;> rfl

theorem Turn.raised {l : Loop} {n : Nat} (h : s.Turn c e l n) :
    s.loop.raised = 0 ∧ l.raised = 0 := by
  cases h with
  | halt h | free h | busy h | blocked h | degraded h | clear h | served h | woken h | join h =>
    simp [h, Loop.raised]
  | interrupted _ h =>
    rcases h with h | h | ⟨p, h⟩ <;> simp [h, Loop.raised]

/-! ## Numbers -/

theorem mem_of_worker? {n : Nat} {w : Worker} (h : s.worker? n = some w) :
    w ∈ s.workers ∧ w.number = n :=
  ⟨List.mem_of_find?_eq_some h, by simpa using List.find?_some h⟩

@[simp] theorem numbers_setStage (s : World) (n : Nat) (st : Stage) :
    (s.setStage n st).workers.map Worker.number = s.workers.map Worker.number := by
  simp only [setStage, List.map_map]
  apply List.map_congr_left
  intro w _
  by_cases hw : w.number = n <;> simp [hw]

theorem mem_workers_setStage {n : Nat} {st : Stage} {w : Worker}
    (h : w ∈ (s.setStage n st).workers) : ∃ v ∈ s.workers, v.number = w.number := by
  have hmem := List.mem_map_of_mem (f := Worker.number) h
  rw [numbers_setStage] at hmem
  exact List.mem_map.mp hmem

theorem mem_workers_retire {n : Nat} {w : Worker} :
    w ∈ (s.retire n).workers ↔ w ∈ s.workers ∧ w.number ≠ n := by
  simp [retire]

theorem mem_workers_spawn {x : WorkItem} {w : Worker} :
    w ∈ (s.spawn x).workers ↔ w ∈ s.workers ∨ w = ⟨s.made, x, .lookup⟩ := by
  rw [World.spawn, List.mem_append, List.mem_singleton]

/-- Workers have numbers of their own, there are not too many of them, and none is left when the
importer has stopped. -/
structure Tidy (c : Config) (s : World) : Prop where
  nodup : (s.workers.map Worker.number).Nodup
  lt_made : ∀ w ∈ s.workers, w.number < s.made
  slots : s.workers.length + s.loop.slot ≤ c.slots
  stopped : s.loop = .stopped → s.workers = []

theorem Tidy.start (q : Queue) (a : Archive) (admission : State) :
    (World.start q a admission).Tidy c where
  nodup := List.nodup_nil
  lt_made := by simp [World.start]
  slots := Nat.zero_le _
  stopped _ := rfl

theorem Tidy.turn {l : Loop} {n : Nat} (hs : s.Tidy c) (h : s.Turn c e l n) :
    Tidy c { s with loop := l, ended := n } := by
  refine ⟨hs.nodup, hs.lt_made, ?_, ?_⟩
  · have hslots := hs.slots
    cases h with
    -- a slot is taken only where one is free
    | free _ _ hw => exact hw
    | halt h | busy h | blocked h | degraded h | clear h | served h | woken h | join h =>
      simpa [h, Loop.slot] using hslots
    | interrupted => exact Nat.le_trans (Nat.le_add_right _ _) hslots
  · intro hl
    cases h with
    | join _ hw => exact hw
    | _ => cases hl

theorem Tidy.step (hs : s.Tidy c) (h : s.Step c e m t) : t.Tidy c := by
  obtain ⟨hnodup, hlt, hslots, hstopped⟩ := hs
  cases h with
  | turn h => exact Tidy.turn ⟨hnodup, hlt, hslots, hstopped⟩ h
  | enter h | take h | miss h | spoil h | popFails h =>
    exact ⟨hnodup, hlt, by simpa [h, Loop.slot] using hslots, fun hl => by cases hl⟩
  | finish h | idle h | recover h =>
    -- the loop gives its slot back
    refine ⟨hnodup, hlt, ?_, fun hl => by cases hl⟩
    exact Nat.le_trans (Nat.le_add_right _ _) hslots
  | @spawn w h =>
    refine ⟨?_, ?_, ?_, fun hl => by cases hl⟩
    · -- all numbers given so far are below the next one
      have hfresh : s.made ∉ s.workers.map Worker.number := by
        intro hmem
        obtain ⟨v, hv, heq⟩ := List.mem_map.mp hmem
        exact absurd (hlt v hv) (by omega)
      simpa [World.spawn, List.nodup_append, hnodup] using hfresh
    · intro v hv
      rcases mem_workers_spawn.mp hv with hv | rfl
      · exact Nat.lt_succ_of_lt (hlt v hv)
      · exact Nat.lt_succ_self _
    · simpa [World.spawn, h, Loop.slot] using hslots
  | work hw _ =>
    -- a worker gets another stage and keeps its number
    refine ⟨?_, ?_, by simpa [setStage] using hslots, ?_⟩
    · rw [numbers_setStage]
      exact hnodup
    · intro v hv
      obtain ⟨u, hu, heq⟩ := mem_workers_setStage hv
      exact heq ▸ hlt u hu
    · intro hl
      have hnone := hstopped hl
      exact absurd (mem_of_worker? hw).1 (by simp [hnone])
  | leave hw _ | crash hw =>
    refine ⟨?_, fun v hv => hlt v (mem_workers_retire.mp hv).1, ?_, ?_⟩
    · exact (List.Sublist.map Worker.number List.filter_sublist).nodup hnodup
    · exact Nat.le_trans (Nat.add_le_add_right (List.length_filter_le _ _) _) hslots
    · intro hl
      have hnone := hstopped hl
      exact absurd (mem_of_worker? hw).1 (by simp [hnone])
  | pushNew | pushAgain | setAdmission | stop => exact ⟨hnodup, hlt, hslots, hstopped⟩

/-! ## One worker and the others -/

theorem Tidy.eq_of_number {v w : Worker} (hs : s.Tidy c) (hv : v ∈ s.workers) (hw : w ∈ s.workers)
    (h : v.number = w.number) : v = w :=
  List.inj_on_of_nodup_map hs.nodup hv hw h

/-- The workers, in no order. -/
def crew (s : World) : Multiset Worker := s.workers

/-- A step of a worker leaves the others as they are. -/
theorem Tidy.split {n : Nat} {w : Worker} (hs : s.Tidy c) (hw : s.worker? n = some w) :
    ∃ rest : Multiset Worker, s.crew = w ::ₘ rest ∧ (s.retire n).crew = rest ∧
      ∀ st, (s.setStage n st).crew = { w with stage := st } ::ₘ rest := by
  obtain ⟨hn, before, after, hsplit, hbefore⟩ := List.find?_eq_some_iff_append.mp hw
  have hn' : w.number = n := by simpa using hn
  have hnodup := hs.nodup
  rw [hsplit, List.map_append, List.map_cons, hn'] at hnodup
  -- the number is met once, so nobody before or after has it
  have hother : ∀ v ∈ before ++ after, v.number ≠ n := by
    intro v hv heq
    rcases List.mem_append.mp hv with hv | hv
    · simpa [heq] using hbefore v hv
    · have hmem := List.mem_map_of_mem (f := Worker.number) hv
      rw [heq] at hmem
      exact (List.nodup_cons.mp (List.nodup_append.mp hnodup).2.1).1 hmem
  refine ⟨↑(before ++ after), ?_, ?_, ?_⟩
  · rw [crew, hsplit, Multiset.cons_coe, Multiset.coe_eq_coe]
    exact List.perm_middle
  · have hkeep : (before ++ after).filter (fun v => decide (v.number ≠ n)) = before ++ after := by
      rw [List.filter_eq_self]
      intro v hv
      simpa using hother v hv
    rw [List.filter_append] at hkeep
    simp only [crew, retire, hsplit, List.filter_append, List.filter_cons, hn', ne_eq, not_true,
      decide_false, Bool.false_eq_true, if_false]
    exact congrArg _ hkeep
  · intro st
    have hsame : (before ++ after).map (fun v => if v.number = n then { v with stage := st } else v)
        = before ++ after := by
      refine (List.map_congr_left ?_).trans (List.map_id _)
      intro v hv
      rw [if_neg (hother v hv)]
      rfl
    rw [List.map_append] at hsame
    simp only [crew, setStage, hsplit, List.map_append, List.map_cons, if_pos hn']
    rw [Multiset.cons_coe, Multiset.coe_eq_coe, ← hsame]
    exact List.perm_middle

/-- After a step of a worker there are that worker at its next stage, and workers of before. -/
theorem Tidy.mem_setStage {n : Nat} {w v : Worker} {st : Stage} (hs : s.Tidy c)
    (hw : s.worker? n = some w) (hv : v ∈ (s.setStage n st).workers) :
    v = { w with stage := st } ∨ v ∈ s.workers := by
  obtain ⟨rest, hcrew, -, hset⟩ := hs.split hw
  have hmem : v ∈ (s.setStage n st).crew := hv
  rw [hset, Multiset.mem_cons] at hmem
  rcases hmem with heq | hmem
  · exact .inl heq
  · have hin : v ∈ s.crew := hcrew ▸ Multiset.mem_cons_of_mem hmem
    exact .inr hin

/-- The worker that takes a step is there after it, and so are all others. -/
theorem Tidy.setStage_mem {n : Nat} {w : Worker} (hs : s.Tidy c) (hw : s.worker? n = some w)
    (st : Stage) : { w with stage := st } ∈ (s.setStage n st).workers ∧
      ∀ v ∈ s.workers, v = w ∨ v ∈ (s.setStage n st).workers := by
  obtain ⟨rest, hcrew, -, hset⟩ := hs.split hw
  constructor
  · show { w with stage := st } ∈ (s.setStage n st).crew
    rw [hset]
    exact Multiset.mem_cons_self _ _
  · intro v hv
    have hmem : v ∈ s.crew := hv
    rw [hcrew, Multiset.mem_cons] at hmem
    rcases hmem with heq | hmem
    · exact .inl heq
    · refine .inr ?_
      show v ∈ (s.setStage n st).crew
      rw [hset]
      exact Multiset.mem_cons_of_mem hmem

theorem crew_spawn (s : World) (w : WorkItem) :
    (s.spawn w).crew = ⟨s.made, w, .lookup⟩ ::ₘ s.crew := by
  rw [crew, World.spawn, crew, Multiset.cons_coe, Multiset.coe_eq_coe]
  exact List.perm_append_singleton _ _

/-! ## The count of items in flight -/

/-- The count of items in flight is the number of workers, and one more while the loop is between
raising it and handing the item over. -/
def Counted (s : World) : Prop := s.inFlight = s.crew.card + s.loop.raised

/-- The count of items in flight is too high by a number. -/
def Overcounted (k : Nat) (s : World) : Prop := s.inFlight = s.crew.card + s.loop.raised + k

/-- Every worker that breaks down leaves the count one too high. -/
theorem Overcounted.step {k : Nat} (ht : s.Tidy c) (hs : s.Overcounted k) (h : s.Step c e m t) :
    t.Overcounted (k + e.breakdowns) := by
  unfold Overcounted at *
  cases h with
  | turn h =>
    obtain ⟨hbefore, hafter⟩ := h.raised
    show s.inFlight = s.crew.card + _ + (k + _)
    rw [hs, hbefore, hafter, h.breakdowns, Nat.add_zero k]
  | enter h =>
    show s.inFlight + 1 = s.crew.card + 1 + k
    rw [hs, h, Nat.add_right_comm]
    rfl
  | take h | miss h | spoil h | popFails h =>
    show s.inFlight = s.crew.card + 1 + k
    rw [hs, h]
    rfl
  | finish h | idle h | recover h =>
    -- no worker came of the raise, and it is taken back
    show s.inFlight - 1 = s.crew.card + 0 + k
    rw [hs, h, Loop.raised]
    omega
  | spawn h =>
    rw [crew_spawn, Multiset.card_cons]
    show s.inFlight = s.crew.card + 1 + 0 + k
    rw [hs, h]
    rfl
  | @work n a w d st hw _ =>
    obtain ⟨rest, hcrew, -, hset⟩ := ht.split hw
    show s.inFlight = (s.setStage n st).crew.card + s.loop.raised + k
    rw [hs, hset, hcrew, Multiset.card_cons, Multiset.card_cons]
  | @leave n a w hw _ =>
    obtain ⟨rest, hcrew, hretire, -⟩ := ht.split hw
    show s.inFlight - 1 = (s.retire n).crew.card + s.loop.raised + k
    rw [hs, hretire, hcrew, Multiset.card_cons]
    omega
  | @crash n w hw =>
    -- one worker less, and the count stays as it is
    obtain ⟨rest, hcrew, hretire, -⟩ := ht.split hw
    show s.inFlight = (s.retire n).crew.card + s.loop.raised + (k + 1)
    rw [hs, hretire, hcrew, Multiset.card_cons]
    omega
  | pushNew | pushAgain | setAdmission | stop => exact hs

theorem Counted.step (ht : s.Tidy c) (hs : s.Counted) (h : s.Step c e m t) (hok : NoCrash s e) :
    t.Counted := by
  have hover : s.Overcounted 0 := hs
  have hstep := hover.step ht h
  rwa [hok.breakdowns] at hstep

end World

/-! ## Along runs -/

variable {c : Config} {ok : World → Event → Prop} {s t : World} {j : List Mark}

/-- What every step of a tidy importer keeps, as the journal grows, a run keeps. -/
theorem run_induction {P : List Mark → World → Prop}
    (hstep : ∀ {j s e m t}, s.Tidy c → ok s e → s.Step c e m t → P j s → P (j ++ m.toList) t)
    (h : (importer c).Run ok s j t) (hs : s.Tidy c) (hp : P [] s) : t.Tidy c ∧ P j t := by
  -- a step is only asked of tidy states, so tidiness goes along with the invariant
  induction h with
  | nil => exact ⟨hs, hp⟩
  | snoc _ allowed step ih =>
    have hnext := World.step_of_next? step
    exact ⟨ih.1.step hnext, hstep ih.1 allowed hnext ih.2⟩

theorem counted_of_run (hok : ∀ s e, ok s e → NoCrash s e) (h : (importer c).Run ok s j t)
    (hs : s.Tidy c ∧ s.Counted) : t.Tidy c ∧ t.Counted :=
  run_induction (P := fun _ s => s.Counted)
    (fun ht allowed hstep ih => ih.step ht hstep (hok _ _ allowed)) h hs.1 hs.2

end Harvest.Import
