import Harvest.Proofs.Archive.Lookup
import Harvest.Proofs.Import.Progress

/-! # Deliveries

Some items are wanted: none of them is stored, and each of them, when it is fetched, is decoded to a
killmail with a time in a range. Nobody else pushes, no worker breaks down, and neither the archive
nor an entry of the queue is lost. Then every wanted item that was pushed is under way until its id
is stored with a time in the range, and where nothing is queued or in flight all of them are.

Of several items with one id only the first to be stored leaves its killmail. The others find the id
stored, so what is said of an item is said of the id and not of the killmail of that item.

## Main definitions

* `Delivering`: the steps of such an importer.
* `World.Still`: nothing is queued or in flight.
* `World.Delivery`: only wanted items are queued and handled.
* `World.Underway`: a wanted item is on its way, or its id is stored.

## Main statements

* `World.Still.step`, `World.Delivery.step`, `World.Underway.step`: they are kept by every step.
* `World.Underway.arrived_of_idle`: where nothing is queued or in flight, the id is stored.
-/

namespace Harvest.Import

open Harvest.Calendar (Range)

/-! ## Steps of a delivery -/

/-- What a worker meets with if the archive does not fail, and a wanted item is fetched and decoded
to a killmail with a time in the range. -/
def Worker.MeetsDelivery (r : Range) (wanted : List WorkItem) (w : Worker) (a : Answer) : Prop :=
  match w.stage, a with
  | .lookup, .fails | .store _ _, .fails => False
  | .fetch, .fetched f =>
    w.item ∈ wanted → (decoded? w.item f).any (fun k => r.contains k.time) = true
  | _, _ => True

/-- No worker breaks down, nobody pushes, no entry of the queue is lost, and workers meet with a
delivery. -/
def Delivering (r : Range) (wanted : List WorkItem) (s : World) : Event → Prop
  | .loop => ¬ (s.loop = .entered ∧ s.queue.spoils = true)
  | .work n a => ∀ w, s.worker? n = some w → w.MeetsDelivery r wanted a
  | .crash _ | .push _ _ => False
  | .popFails | .wake | .interrupt | .setAdmission _ | .stop => True

instance (r : Range) (wanted : List WorkItem) (w : Worker) (a : Answer) :
    Decidable (w.MeetsDelivery r wanted a) := by
  unfold Worker.MeetsDelivery
  split <;> infer_instance

instance (r : Range) (wanted : List WorkItem) :
    ∀ (s : World) (e : Event), Decidable (Delivering r wanted s e)
  | s, .loop => inferInstanceAs (Decidable (¬ (s.loop = .entered ∧ s.queue.spoils = true)))
  | s, .work n a =>
    inferInstanceAs (Decidable (∀ w, s.worker? n = some w → w.MeetsDelivery r wanted a))
  | _, .crash _ | _, .push _ _ => isFalse id
  | _, .popFails | _, .wake | _, .interrupt | _, .setAdmission _ | _, .stop => isTrue trivial

variable {r : Range} {wanted : List WorkItem}

theorem Delivering.unharmed {s : World} {e : Event} (h : Delivering r wanted s e) :
    Unharmed s e := by
  cases e with
  | loop | crash => exact h
  | _ => trivial

/-! ## Workers -/

/-- A worker has a killmail with a time in the range to store, or the id is stored. -/
def Worker.Delivers (r : Range) (a : Archive) (w : Worker) : Prop :=
  match w.stage with
  | .lookup | .fetch => True
  | .store k _ => k.id = w.item.id ∧ r.contains k.time = true
  | .backup _ _ | .observe _ | .count .imported | .count .skipped | .leave =>
    a.HasWithin r w.item.id
  | .count .dropped => False

theorem Worker.Delivers.prepend {w : Worker} {a : Archive} (h : w.Delivers r a)
    (ks : List Killmail) : w.Delivers r (a.prepend ks) := by
  obtain ⟨n, item, stage⟩ := w
  cases stage with
  | lookup | fetch => trivial
  | store => exact h
  | backup | observe | leave => exact Archive.HasWithin.prepend h ks
  | count o =>
    cases o with
    | imported | skipped => exact Archive.HasWithin.prepend h ks
    | dropped => exact h

/-- The ids of wanted items are stored, if at all, with a time in the range. -/
def Sound (r : Range) (wanted : List WorkItem) (a : Archive) : Prop :=
  ∀ w ∈ wanted, w.id ∈ a.ids → a.HasWithin r w.id

section moves

variable {p : Parties} {w : Worker} {d d' : Depot} {st : Stage} {a : Answer}

theorem Sound.move (hs : Sound r wanted d.archive) (hw : w.Delivers r d.archive)
    (h : w.stage.Move p w.item d a d' st) : Sound r wanted d'.archive := by
  obtain ⟨n, item, stage⟩ := w
  cases h with
  | @store k body =>
    -- the id is that of the killmail stored now, or was stored before
    intro x hx hid
    rcases Archive.mem_ids_prepend.mp hid with ⟨k', hk', heq⟩ | hold
    · rw [List.mem_singleton.mp hk'] at heq
      exact ⟨k, Archive.holds_prepend_of_mem _ (List.mem_singleton.mpr rfl), heq, hw.2⟩
    · exact (hs x hx hold).prepend [k]
  | _ => exact hs

theorem Worker.Delivers.move (hw : w.Delivers r d.archive) (hs : Sound r wanted d.archive)
    (hitem : w.item ∈ wanted) (h : w.stage.Move p w.item d a d' st)
    (ha : w.MeetsDelivery r wanted a) : Worker.Delivers r d'.archive { w with stage := st } := by
  obtain ⟨n, item, stage⟩ := w
  cases h with
  | known hid => exact hs item hitem hid
  | ask => trivial
  | lookupFails | storeFails => exact ha.elim
  | undelivered hr =>
    have hany := ha hitem
    rw [hr] at hany
    cases hany
  | delivered hr =>
    have hany := ha hitem
    rw [hr] at hany
    exact ⟨(decoded?_some hr).1, hany⟩
  | @store k body =>
    have hstored : (d.archive.prepend [k]).HasWithin r item.id :=
      ⟨k, Archive.holds_prepend_of_mem _ (List.mem_singleton.mpr rfl), hw.1, hw.2⟩
    rcases p.afterStore_cases k body with h | h | h <;> rw [h] <;> exact hstored
  | @duplicate k _ hk =>
    have hid : k.id = item.id := hw.1
    exact hs item hitem (hid ▸ hk)
  | @backup k => rcases p.afterBackup_cases k with h | h <;> rw [h] <;> exact hw
  | observe => exact hw
  | @count o =>
    cases o with
    | imported | skipped => exact hw
    | dropped => exact hw.elim

end moves

namespace World

variable {c : Config} {s t : World} {e : Event} {m : Option Mark} {a : Archive} {w x : WorkItem}

theorem Turn.ne_spawning {l : Loop} {n : Nat} (h : s.Turn c e l n) :
    s.loop ≠ .spawning w ∧ l ≠ .spawning w := by
  obtain ⟨hbefore, hafter⟩ := h.raised
  refine ⟨?_, ?_⟩
  · intro hl
    rw [hl] at hbefore
    cases hbefore
  · rintro rfl
    cases hafter

/-! ## Nothing under way -/

/-- Nothing is queued or in flight, and the archive is as given. -/
structure Still (a : Archive) (s : World) : Prop where
  archive : s.depot.archive = a
  queue : s.queue.items = []
  workers : s.workers = []
  hand : ∀ w, s.loop ≠ .spawning w

/-- Where the count of items in flight is zero, no worker is left and the loop has nothing in its
hand. -/
theorem Counted.idle (hs : s.Counted) (hzero : s.inFlight = 0) :
    s.workers = [] ∧ ∀ w, s.loop ≠ .spawning w := by
  have hsum : 0 = s.crew.card + s.loop.raised := hzero ▸ hs
  refine ⟨?_, ?_⟩
  · have hcard : s.crew.card = 0 := by omega
    exact List.length_eq_zero_iff.mp hcard
  · intro w hl
    rw [hl] at hsum
    change 0 = s.crew.card + 1 at hsum
    omega

theorem Still.of_counted (hs : s.Counted) (hzero : s.inFlight = 0) (hqueue : s.queue.items = []) :
    s.Still s.depot.archive :=
  ⟨rfl, hqueue, (hs.idle hzero).1, (hs.idle hzero).2⟩

theorem Still.not_worker (hs : s.Still a) {n : Nat} {v : Worker} : s.worker? n ≠ some v := by
  intro hv
  have hmem := (mem_of_worker? hv).1
  rw [hs.workers] at hmem
  cases hmem

/-- As nobody pushes, an empty queue stays empty. -/
theorem queue_of_step (hqueue : s.queue.items = []) (h : s.Step c e m t)
    (hok : Delivering r wanted s e) : t.queue.items = [] := by
  cases h with
  | take _ hq =>
    have hmem := (Queue.mem_items_popMin hq).1
    rw [hqueue] at hmem
    cases hmem
  | miss _ hq => exact (Queue.items_of_popMin_none hq).1 ▸ hqueue
  | spoil h hq => exact absurd ⟨h, Queue.spoils_of_popMin hq⟩ hok
  | pushNew | pushAgain => exact hok.elim
  | _ => exact hqueue

/-- As nobody pushes, nothing comes under way. -/
theorem Still.step (hs : s.Still a) (h : s.Step c e m t) (hok : Delivering r wanted s e) :
    t.Still a := by
  have hqueue := queue_of_step hs.queue h hok
  cases h with
  | turn h => exact ⟨hs.archive, hqueue, hs.workers, fun w => h.ne_spawning.2⟩
  | @take _ w _ hq =>
    have hmem := (Queue.mem_items_popMin hq).1
    rw [hs.queue] at hmem
    cases hmem
  | spawn h => exact absurd h (hs.hand _)
  | work hv | leave hv | crash hv => exact absurd hv hs.not_worker
  | miss | spoil | enter | popFails | finish | idle | recover =>
    exact ⟨hs.archive, hqueue, hs.workers, fun w hl => by cases hl⟩
  | pushNew | pushAgain | setAdmission | stop => exact ⟨hs.archive, hqueue, hs.workers, hs.hand⟩

/-! ## Wanted items only -/

/-- Only wanted items are queued and handled, and all workers deliver. -/
structure Delivery (r : Range) (wanted : List WorkItem) (s : World) : Prop where
  queue : ∀ w ∈ s.queue.items, w ∈ wanted
  hand : ∀ w, s.loop = .spawning w → w ∈ wanted
  workers : ∀ v ∈ s.workers, v.item ∈ wanted ∧ v.Delivers r s.depot.archive
  sound : Sound r wanted s.depot.archive

/-- Wanted items may be pushed where nothing is under way and none of them is stored. -/
theorem Still.delivery (hs : s.Still a) (hw : ∀ w ∈ wanted, w.id ∉ a.ids) :
    s.Delivery r wanted where
  queue w h := by
    rw [hs.queue] at h
    cases h
  hand w h := absurd h (hs.hand w)
  workers v h := by
    rw [hs.workers] at h
    cases h
  sound w h hid := absurd (hs.archive ▸ hid) (hw w h)

theorem Delivery.push (hs : s.Delivery r wanted) (hw : w ∈ wanted) (score : Int) :
    Delivery r wanted { s with queue := s.queue.push w score } where
  queue x hx := by
    rcases Queue.mem_items_push.mp hx with rfl | hx
    · exact hw
    · exact hs.queue x hx
  hand := hs.hand
  workers := hs.workers
  sound := hs.sound

theorem Delivery.work (hs : s.Delivery r wanted) (ht : s.Tidy c) {n : Nat} {b : Answer} {v : Worker}
    {d : Depot} {st : Stage} (hv : s.worker? n = some v)
    (h : v.stage.Move c.parties v.item s.depot b d st) (hb : v.MeetsDelivery r wanted b) :
    Delivery r wanted ({ s with depot := d }.setStage n st) := by
  obtain ⟨hitem, hdelivers⟩ := hs.workers v (mem_of_worker? hv).1
  refine ⟨hs.queue, hs.hand, ?_, hs.sound.move hdelivers h⟩
  obtain ⟨ks, hks, -⟩ := archive_of_step (.work hv h)
  intro u hu
  rcases ht.mem_setStage hv hu with rfl | hu
  · exact ⟨hitem, hdelivers.move hs.sound hitem h hb⟩
  · -- the archive has grown under the other workers
    obtain ⟨huitem, hudelivers⟩ := hs.workers u hu
    exact ⟨huitem, hks ▸ hudelivers.prepend ks⟩

theorem Delivery.step (hs : s.Delivery r wanted) (ht : s.Tidy c) (h : s.Step c e m t)
    (hok : Delivering r wanted s e) : t.Delivery r wanted := by
  cases h with
  | turn h => exact ⟨hs.queue, fun w hl => absurd hl h.ne_spawning.2, hs.workers, hs.sound⟩
  | @take q w h hq =>
    refine ⟨fun x hx => hs.queue x (Queue.mem_of_mem_popMin hq hx), ?_, hs.workers, hs.sound⟩
    intro x hl
    cases hl
    exact hs.queue w (Queue.mem_items_popMin hq).1
  | miss _ hq =>
    have hqueue := (Queue.items_of_popMin_none hq).1 ▸ hs.queue
    exact ⟨hqueue, fun w hl => (by cases hl), hs.workers, hs.sound⟩
  | spoil h hq => exact absurd ⟨h, Queue.spoils_of_popMin hq⟩ hok
  | @spawn w h =>
    refine ⟨hs.queue, fun w hl => (by cases hl), ?_, hs.sound⟩
    intro v hv
    rcases mem_workers_spawn.mp hv with hv | rfl
    · exact hs.workers v hv
    · exact ⟨hs.hand w h, trivial⟩
  | work hv h => exact hs.work ht hv h (hok _ hv)
  | leave | crash =>
    exact ⟨hs.queue, hs.hand, fun v hv => hs.workers v (mem_workers_retire.mp hv).1, hs.sound⟩
  | pushNew | pushAgain => exact hok.elim
  | enter | popFails | finish | idle | recover =>
    exact ⟨hs.queue, fun w hl => (by cases hl), hs.workers, hs.sound⟩
  | setAdmission | stop => exact ⟨hs.queue, hs.hand, hs.workers, hs.sound⟩

/-! ## Where a wanted item is -/

/-- An item is on its way, or its id is stored with a time in the range. -/
inductive Underway (r : Range) (w : WorkItem) (s : World) : Prop where
  | queued (h : w ∈ s.queue.items)
  | inHand (h : s.loop = .spawning w)
  | atWork {v : Worker} (hv : v ∈ s.workers) (hw : v.item = w)
  | arrived (h : s.depot.archive.HasWithin r w.id)

theorem Underway.push (h : s.Underway r w) (x : WorkItem) (score : Int) :
    Underway r w { s with queue := s.queue.push x score } := by
  cases h with
  | queued h => exact .queued (Queue.mem_items_push.mpr (.inr h))
  | inHand h => exact .inHand h
  | atWork hv hw => exact .atWork hv hw
  | arrived h => exact .arrived h

theorem Underway.of_push (r : Range) (s : World) (w : WorkItem) (score : Int) :
    Underway r w { s with queue := s.queue.push w score } :=
  .queued (Queue.mem_items_push.mpr (.inl rfl))

/-- Nothing is under way any more where nothing is queued or in flight. -/
theorem Underway.arrived_of_idle (h : s.Underway r w) (hcounted : s.Counted)
    (hzero : s.inFlight = 0) (hqueue : s.queue.items = []) :
    s.depot.archive.HasWithin r w.id := by
  obtain ⟨hworkers, hhand⟩ := hcounted.idle hzero
  cases h with
  | queued h =>
    rw [hqueue] at h
    cases h
  | inHand h => exact absurd h (hhand w)
  | atWork hv =>
    rw [hworkers] at hv
    cases hv
  | arrived h => exact h

theorem hasWithin_of_step {id : UInt64} (h : s.Step c e m t)
    (hs : s.depot.archive.HasWithin r id) : t.depot.archive.HasWithin r id := by
  obtain ⟨ks, hks, -⟩ := archive_of_step h
  exact hks ▸ hs.prepend ks

/-- An item in the hand of the loop stays there, or a worker gets it. -/
theorem Underway.of_inHand (hl : s.loop = .spawning w) (h : s.Step c e m t) : t.Underway r w := by
  cases h with
  | turn h => exact absurd hl h.ne_spawning.1
  | @spawn x h =>
    have hx : x = w := Loop.spawning.inj (h.symm.trans hl)
    exact .atWork (mem_workers_spawn.mpr (.inr rfl)) hx
  | enter h | take h | miss h | spoil h | popFails h | finish h | idle h | recover h =>
    rw [h] at hl
    cases hl
  | work | leave | crash | pushNew | pushAgain | setAdmission | stop => exact .inHand hl

/-- A worker keeps its item until the id is stored. -/
theorem Underway.of_atWork (hd : s.Delivery r wanted) (ht : s.Tidy c) {v : Worker}
    (hv : v ∈ s.workers) (hw : v.item = w) (h : s.Step c e m t) (hok : NoCrash s e) :
    t.Underway r w := by
  cases h with
  | @work n b u d st hu _ =>
    obtain ⟨hself, hothers⟩ := ht.setStage_mem hu st
    rcases hothers v hv with rfl | hv
    · exact .atWork hself hw
    · exact .atWork hv hw
  | @leave n b u hu hst =>
    obtain ⟨hmem, hnumber⟩ := mem_of_worker? hu
    by_cases heq : v.number = n
    · have hvu : v = u := ht.eq_of_number hv hmem (heq.trans hnumber.symm)
      subst hvu
      have hdelivers := (hd.workers v hv).2
      rw [Worker.Delivers, hst] at hdelivers
      exact .arrived (hw ▸ hdelivers)
    · exact .atWork (mem_workers_retire.mpr ⟨hv, heq⟩) hw
  | crash => exact hok.elim
  | spawn => exact .atWork (mem_workers_spawn.mpr (.inl hv)) hw
  | _ => exact .atWork hv hw

theorem Underway.step (hs : s.Underway r w) (hd : s.Delivery r wanted) (ht : s.Tidy c)
    (h : s.Step c e m t) (hok : Delivering r wanted s e) : t.Underway r w := by
  cases hs with
  | queued hw =>
    rcases queued_or_taken_of_step h hok.unharmed hw with hw | ⟨n, hn⟩
    · exact .queued hw
    · exact .inHand (inHand_of_taken h hn).1
  | inHand hl => exact .of_inHand hl h
  | atWork hv hw => exact .of_atWork hd ht hv hw h hok.unharmed.noCrash
  | arrived hw => exact .arrived (hasWithin_of_step h hw)

end World

end Harvest.Import
