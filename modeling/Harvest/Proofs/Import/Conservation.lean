import Harvest.Proofs.Import.Crew
import Mathlib.Data.Multiset.Bind
import Mathlib.Tactic.Abel

/-! # Conservation of work

No item that comes into the queue is lost or handled twice. At every step it is queued, or held by a
worker or by the loop on its way to one, or its outcome has been counted. Whatever makes the loop go
on, pause or end, it never does so with an item in its hand.

The key idea is a ledger of two lines. What came into the queue is still there or was taken; what
was taken is held or was counted. Each step changes both sides of a line alike.

## Main statements

* `World.Balanced.step`: every step keeps the ledger.
* `work_conserved`: the ledger of a run.
-/

namespace Harvest.Import

/-! ## What is held -/

/-- The ticket that a worker holds until it has counted its outcome. -/
def Worker.held (w : Worker) : Multiset Ticket :=
  match w.stage with
  | .leave => 0
  | _ => {(w.number, w.item)}

/-- The ticket that the loop holds for a worker of a number to come. -/
def Loop.inHand (n : Nat) : Loop → Multiset Ticket
  | .spawning w => {(n, w)}
  | _ => 0

/-- The items whose outcome has been counted. -/
def Depot.handled (d : Depot) : Multiset WorkItem := d.outcomes.map Prod.fst

theorem Depot.mem_handled {d : Depot} {w : WorkItem} :
    w ∈ d.handled ↔ ∃ o, (w, o) ∈ d.outcomes := by
  rw [handled, Multiset.mem_coe, List.mem_map]
  constructor
  · rintro ⟨⟨v, o⟩, hx, rfl⟩
    exact ⟨o, hx⟩
  · rintro ⟨o, hx⟩
    exact ⟨(w, o), hx, rfl⟩

/-- The tickets whose outcome has not been counted. -/
def World.held (s : World) : Multiset Ticket := s.loop.inHand s.made + s.crew.bind Worker.held

theorem Worker.held_of_ne_leave {w : Worker} (h : w.stage ≠ .leave) :
    w.held = {(w.number, w.item)} := by
  unfold held
  split
  · rename_i hst
    exact absurd hst h
  · rfl

theorem Loop.inHand_of_raised {l : Loop} (h : l.raised = 0) (n : Nat) : l.inHand n = 0 := by
  cases l with
  | spawning w => cases h
  | _ => rfl

theorem Parties.afterStore_ne_leave (p : Parties) (k : Killmail) (body : List UInt8) :
    p.afterStore k body ≠ .leave := by
  rcases p.afterStore_cases k body with h | h | h <;> simp [h]

theorem Parties.afterBackup_ne_leave (p : Parties) (k : Killmail) : p.afterBackup k ≠ .leave := by
  rcases p.afterBackup_cases k with h | h <;> simp [h]

/-- A step of a handling gives up the ticket exactly when it counts an outcome. -/
theorem Worker.held_move {p : Parties} {w : Worker} {d d' : Depot} {st : Stage} {a : Answer}
    (h : w.stage.Move p w.item d a d' st) :
    w.held = Worker.held { w with stage := st } + countedIn (w.mark? d a).toList ∧
      d'.handled = (countedIn (w.mark? d a).toList).map Prod.snd + d.handled := by
  obtain ⟨n, item, stage⟩ := w
  -- only counting leads to the last stage; at all others the ticket is held
  cases h with
  | store hk =>
    have hst := p.afterStore_ne_leave
    simp [Worker.held_of_ne_leave, hst, Worker.mark?, hk, countedIn, Depot.handled]
  | backup =>
    have hst := p.afterBackup_ne_leave
    simp [Worker.held_of_ne_leave, hst, Worker.mark?, countedIn, Depot.handled]
  | duplicate hk => simp [Worker.held, Worker.mark?, hk, countedIn]
  | count => simp [Worker.held, Worker.mark?, countedIn, Depot.handled]
  | _ => simp [Worker.held, Worker.mark?, countedIn, Depot.handled]

/-- Workers neither queue items nor take them. -/
theorem Worker.mark?_untaken (w : Worker) (d : Depot) (a : Answer) :
    queuedIn (w.mark? d a).toList = 0 ∧ takenIn (w.mark? d a).toList = 0 := by
  unfold Worker.mark?
  split
  · split <;> exact ⟨rfl, rfl⟩
  · exact ⟨rfl, rfl⟩
  · exact ⟨rfl, rfl⟩
  · exact ⟨rfl, rfl⟩

/-! ## The ledger -/

namespace World

variable {c : Config} {s t : World} {e : Event} {m : Option Mark} {before : Multiset WorkItem}
  {j : List Mark}

/-- The ledger of a run that has started with some items in the queue. -/
structure Balanced (before : Multiset WorkItem) (j : List Mark) (s : World) : Prop where
  distinct : s.queue.Distinct
  /-- What came into the queue is there or was taken. -/
  queued : before + queuedIn j = ↑s.queue.items + (takenIn j).map Prod.snd
  /-- What was taken is held or was counted. -/
  taken : takenIn j = s.held + countedIn j
  counted : s.depot.handled = (countedIn j).map Prod.snd

theorem Balanced.start {q : Queue} (hq : q.Distinct) (a : Archive) (admission : Admission.State) :
    (World.start q a admission).Balanced q.items [] where
  distinct := hq
  queued := rfl
  taken := rfl
  counted := rfl

/-- A step that changes both sides of each line alike keeps the ledger. -/
theorem Balanced.change {k : List Mark} (hs : s.Balanced before j) (hdistinct : t.queue.Distinct)
    (hqueued : queuedIn k + ↑s.queue.items = ↑t.queue.items + (takenIn k).map Prod.snd)
    (htaken : takenIn k + s.held = t.held + countedIn k)
    (hcounted : t.depot.handled = (countedIn k).map Prod.snd + s.depot.handled) :
    t.Balanced before (j ++ k) := by
  refine ⟨hdistinct, ?_, ?_, ?_⟩
  · calc before + queuedIn (j ++ k)
        = (before + queuedIn j) + queuedIn k := by rw [queuedIn_append, add_assoc]
      _ = (queuedIn k + ↑s.queue.items) + (takenIn j).map Prod.snd := by rw [hs.queued]; abel
      _ = ↑t.queue.items + (takenIn (j ++ k)).map Prod.snd := by
          rw [hqueued, takenIn_append, Multiset.map_add]; abel
  · calc takenIn (j ++ k)
        = (takenIn k + s.held) + countedIn j := by rw [takenIn_append, hs.taken]; abel
      _ = t.held + countedIn (j ++ k) := by rw [htaken, countedIn_append]; abel
  · rw [hcounted, hs.counted, countedIn_append, Multiset.map_add, add_comm]

/-- A step that leaves the queue, the depot and what is held as they are, and of which the ledger
has nothing to say. -/
theorem Balanced.quiet {k : List Mark} (hs : s.Balanced before j) (hq : t.queue = s.queue)
    (hd : t.depot = s.depot) (hheld : t.held = s.held)
    (hk : queuedIn k = 0 ∧ takenIn k = 0 ∧ countedIn k = 0) : t.Balanced before (j ++ k) := by
  obtain ⟨hqueued, htaken, hcounted⟩ := hk
  refine hs.change (hq ▸ hs.distinct) ?_ ?_ ?_
  · rw [hqueued, htaken, hq, zero_add, Multiset.map_zero, add_zero]
  · rw [htaken, hcounted, hheld, zero_add, add_zero]
  · rw [hcounted, hd, Multiset.map_zero, zero_add]

theorem Balanced.pushNew (hs : s.Balanced before j) {w : WorkItem} (score : Int)
    (hw : w ∉ s.queue.items) :
    Balanced before (j ++ [.queued w]) { s with queue := s.queue.push w score } := by
  have hperm := s.queue.perm_items_push w score
  rw [if_neg hw] at hperm
  refine hs.change (hs.distinct.push w score) ?_ ?_ (zero_add _).symm
  · show ({w} : Multiset WorkItem) + _ = _ + 0
    rw [add_zero, Multiset.singleton_add, Multiset.cons_coe, Multiset.coe_eq_coe]
    exact hperm.symm
  · exact add_comm _ _

theorem Balanced.pushAgain (hs : s.Balanced before j) {w : WorkItem} (score : Int)
    (hw : w ∈ s.queue.items) :
    Balanced before (j ++ [.rescored w]) { s with queue := s.queue.push w score } := by
  have hperm := s.queue.perm_items_push w score
  rw [if_pos hw] at hperm
  refine hs.change (hs.distinct.push w score) ?_ (add_comm _ _) (zero_add _).symm
  show 0 + _ = _ + 0
  rw [zero_add, add_zero, Multiset.coe_eq_coe]
  exact hperm.symm

theorem Balanced.take (hs : s.Balanced before j) {q : Queue} {w : WorkItem}
    (h : s.loop = .entered) (hq : s.queue.popMin = (q, .ok (some w))) :
    Balanced before (j ++ [.taken s.made w])
      { s with queue := q, loop := .spawning w, wasIdle := false } := by
  -- the ticket is made out as the item leaves the queue
  refine hs.change (hs.distinct.popMin hq) ?_ ?_ (zero_add _).symm
  · show 0 + _ = _ + ({w} : Multiset WorkItem)
    rw [zero_add, add_comm, Multiset.singleton_add, Multiset.cons_coe, Multiset.coe_eq_coe]
    exact (Queue.perm_items_popMin hs.distinct hq).symm
  · rw [held, h]
    show {(s.made, w)} + (0 + s.crew.bind Worker.held) = {(s.made, w)} + s.crew.bind Worker.held + 0
    rw [zero_add, add_zero]

theorem held_spawn {w : WorkItem} (h : s.loop = .spawning w) : (s.spawn w).held = s.held := by
  rw [held, held, crew_spawn, Multiset.cons_bind, h]
  show 0 + ({(s.made, w)} + _) = {(s.made, w)} + _
  rw [zero_add]

theorem Balanced.work (hs : s.Balanced before j) (ht : s.Tidy c) {n : Nat} {a : Answer} {w : Worker}
    {d : Depot} {st : Stage} (hw : s.worker? n = some w)
    (h : w.stage.Move c.parties w.item s.depot a d st) :
    Balanced before (j ++ (w.mark? s.depot a).toList) ({ s with depot := d }.setStage n st) := by
  obtain ⟨rest, hcrew, -, hset⟩ := ht.split hw
  obtain ⟨hqueued, htaken⟩ := w.mark?_untaken s.depot a
  obtain ⟨hheld, houtcomes⟩ := Worker.held_move h
  -- the other workers hold what they held
  refine hs.change hs.distinct ?_ ?_ houtcomes
  · rw [hqueued, htaken, zero_add, Multiset.map_zero, add_zero]
    rfl
  · have hafter : held ({ s with depot := d }.setStage n st)
        = s.loop.inHand s.made + (s.setStage n st).crew.bind Worker.held := rfl
    rw [htaken, zero_add, hafter, held, hcrew, hset, Multiset.cons_bind, Multiset.cons_bind, hheld]
    abel

theorem held_retire (ht : s.Tidy c) {n : Nat} {w : Worker} (hw : s.worker? n = some w)
    (h : w.stage = .leave) : (s.retire n).held = s.held := by
  obtain ⟨rest, hcrew, hretire, -⟩ := ht.split hw
  -- its outcome was counted before, so the worker that leaves holds nothing
  have hnone : w.held = 0 := by rw [Worker.held, h]
  rw [held, held, hretire, hcrew, Multiset.cons_bind, hnone, zero_add]
  rfl

theorem held_of_stopped (hs : s.Tidy c) (h : s.loop = .stopped) : s.held = 0 := by
  rw [held, crew, hs.stopped h, h]
  rfl

/-- Every step keeps the ledger. -/
theorem Balanced.step (hs : s.Balanced before j) (ht : s.Tidy c) (h : s.Step c e m t)
    (hok : Unharmed s e) : t.Balanced before (j ++ m.toList) := by
  -- pushes, takes and steps of workers have entries in the ledger, all others leave it alone
  cases h with
  | turn h =>
    obtain ⟨hbefore, hafter⟩ := h.raised
    refine hs.quiet rfl rfl ?_ ⟨rfl, rfl, rfl⟩
    rw [held, held, Loop.inHand_of_raised hbefore, Loop.inHand_of_raised hafter]
    rfl
  | enter h | popFails h | finish h | idle h | recover h =>
    refine hs.quiet rfl rfl ?_ ⟨rfl, rfl, rfl⟩
    rw [held, held, h]
    rfl
  | miss h hq =>
    refine hs.quiet (Queue.items_of_popMin_none hq).1 rfl ?_ ⟨rfl, rfl, rfl⟩
    rw [held, held, h]
    rfl
  | take h hq => exact hs.take h hq
  | spoil h hq => exact absurd ⟨h, Queue.spoils_of_popMin hq⟩ hok
  | spawn h => exact hs.quiet rfl rfl (held_spawn h) ⟨rfl, rfl, rfl⟩
  | work hw h => exact hs.work ht hw h
  | leave hw h => exact hs.quiet rfl rfl (held_retire ht hw h) ⟨rfl, rfl, rfl⟩
  | crash => exact hok.elim
  | pushNew score hw => exact hs.pushNew score hw
  | pushAgain score hw => exact hs.pushAgain score hw
  | setAdmission | stop => exact hs.quiet rfl rfl rfl ⟨rfl, rfl, rfl⟩

end World

/-! ## Along runs -/

theorem Summary.processed_ofOutcomes (os : List Outcome) :
    (Summary.ofOutcomes os).processed = os.length := by
  induction os with
  | nil => rfl
  | cons o os ih =>
    simp only [Summary.ofOutcomes, Summary.processed, List.count_cons, List.length_cons] at ih ⊢
    cases o <;> simp <;> omega

theorem Depot.processed_summary (d : Depot) : d.summary.processed = d.handled.card := by
  rw [summary, Summary.processed_ofOutcomes, handled, Multiset.coe_card, List.length_map,
    List.length_map]

variable {c : Config} {q : Queue} {a : Archive} {admission : Admission.State} {j : List Mark}
  {t : World}

theorem balanced_of_run (hq : q.Distinct)
    (h : (importer c).Run Unharmed (World.start q a admission) j t) :
    t.Tidy c ∧ t.Balanced q.items j := by
  refine run_induction ?_ h (.start q a admission) (.start hq a admission)
  intro j s e m t htidy allowed hstep hbal
  exact hbal.step htidy hstep allowed

/-- **Conservation of work.** At every state of a run, what was queued at the start or came in since
is queued, or held, or its outcome was counted. The summary has counted as many outcomes, there are
never more workers than slots, and once the importer has stopped no worker is left: everything that
was taken off the queue was counted, and everything else is still there. -/
theorem work_conserved (hq : q.Distinct)
    (h : (importer c).Run Unharmed (World.start q a admission) j t) :
    (↑q.items + queuedIn j
        = ↑t.queue.items + t.held.map Prod.snd + (countedIn j).map Prod.snd) ∧
      (countedIn j).card = t.depot.summary.imported + t.depot.summary.skipped
        + t.depot.summary.dropped ∧
      t.workers.length ≤ max 1 c.maxConcurrency ∧
      (t.loop = .stopped → t.workers = [] ∧ takenIn j = countedIn j ∧
        ↑q.items + queuedIn j = ↑t.queue.items + (takenIn j).map Prod.snd) := by
  obtain ⟨htidy, hbal⟩ := balanced_of_run hq h
  refine ⟨?_, ?_, ?_, ?_⟩
  · rw [hbal.queued, hbal.taken, Multiset.map_add, add_assoc]
  · rw [← Multiset.card_map Prod.snd, ← hbal.counted, ← Depot.processed_summary]
    rfl
  · exact Nat.le_trans (Nat.le_add_right _ _) htidy.slots
  · intro hstopped
    have hnone := htidy.stopped hstopped
    exact ⟨hnone, by rw [hbal.taken, World.held_of_stopped htidy hstopped, zero_add], hbal.queued⟩

/-! ## A shift that is stopped -/

namespace Shift

def config : Config := ⟨0, .drain, ⟨false, false⟩⟩

def start : Queue := .table ⟨[⟨⟨7, "a"⟩, 1⟩, ⟨⟨7, "b"⟩, 2⟩]⟩

/-- Two items are taken, with a queue that fails in between; a third comes in and is left behind. -/
def events : List Event := [
  List.replicate 6 .loop,
  [.wake, .work 0 .done, .work 0 (.fetched (.error ⟨404, ""⟩)), .push ⟨7, "b"⟩ 5, .push ⟨8, "c"⟩ 9,
    .work 0 .done, .work 0 .done],
  List.replicate 3 .loop,
  [.popFails, .loop, .wake],
  List.replicate 5 .loop,
  [.stop, .loop, .work 1 .fails, .work 1 .done, .work 1 .done, .loop]].flatten

theorem reaches_events :
    (importer config).reaches Unharmed (World.start start (.memory ⟨[]⟩) .green) events (fun t =>
      decide (t.loop = .stopped) && decide (t.depot.handled.card = 2)
        && decide (t.queue.items = [⟨8, "c"⟩])) = true := by
  decide +kernel

theorem work_conserved_of_shift :
    start.Distinct ∧ ∃ j t,
      (importer config).Run Unharmed (World.start start (.memory ⟨[]⟩) .green) j t ∧
      t.loop = .stopped ∧ t.workers = [] ∧ (countedIn j).card = 2 ∧ takenIn j = countedIn j ∧
      ↑start.items + queuedIn j = {⟨8, "c"⟩} + (takenIn j).map Prod.snd := by
  have hdistinct : start.Distinct := by decide +kernel
  obtain ⟨j, t, h, ht⟩ := Machine.exists_run_of_reaches reaches_events
  simp only [Bool.and_eq_true, decide_eq_true_eq] at ht
  obtain ⟨⟨hstopped, houtcomes⟩, hqueue⟩ := ht
  obtain ⟨-, hcounted, -, hend⟩ := work_conserved hdistinct h
  obtain ⟨hnone, htaken, hleft⟩ := hend hstopped
  refine ⟨hdistinct, j, t, h, hstopped, hnone, ?_, htaken, ?_⟩
  · rw [hcounted, ← houtcomes, ← Depot.processed_summary]
    rfl
  · rw [hleft, hqueue]
    rfl

end Shift

end Harvest.Import
