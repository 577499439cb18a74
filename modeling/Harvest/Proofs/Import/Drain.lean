import Harvest.Proofs.Archive.Tallies
import Harvest.Proofs.Import.Conservation
import Harvest.Proofs.Import.ExactlyOnce
import Mathlib.Data.Finset.Card
import Mathlib.Data.Finset.SDiff

/-! # Drains do not depend on scheduling

Which of two items of one id is imported, skipped or dropped depends on how the workers interleave.
What a drain has stored in the end does not, and neither does the number of imports.

The key idea is that every outcome is explained by what holds for good: an item whose outcome was
counted has its id stored, or cannot be decoded. A drain ends only after the queue was found empty
with no worker left, so that this is said of every item, and the ids stored are those of the items
that can be decoded.

## Main statements

* `World.Explained.step`: every step of an undisturbed importer keeps the explanation.
* `World.drained_of_run`: what a drain leaves.
* `drain_unaffected_by_schedule`: any two drains from one start agree.
-/

namespace Harvest.Import

/-! ## Undisturbed steps -/

/-- What a worker meets with if the archive does not fail, and each item has a fixed result of
fetching and decoding. -/
def Worker.Meets (result : WorkItem → Option Killmail) (w : Worker) (a : Answer) : Prop :=
  match w.stage, a with
  | .lookup, .fails | .store _ _, .fails => False
  | .fetch, .fetched r => decoded? w.item r = result w.item
  | _, _ => True

/-- Nothing stops the importer, nothing is pushed, and neither the queue nor the archive fails. -/
def Undisturbed (result : WorkItem → Option Killmail) (s : World) : Event → Prop
  | .loop => ¬ (s.loop = .entered ∧ s.queue.spoils = true)
  | .work n a => ∀ w, s.worker? n = some w → w.Meets result a
  | .wake | .interrupt | .setAdmission _ => True
  | .popFails | .crash _ | .push _ _ | .stop => False

theorem Undisturbed.unharmed {result : WorkItem → Option Killmail} {s : World} {e : Event}
    (h : Undisturbed result s e) : Unharmed s e := by
  cases e with
  | loop | crash => exact h
  | _ => trivial

/-! ## Explained workers -/

/-- What a worker has come to is explained by the result for its item and by the ids stored. -/
def Worker.Explained (result : WorkItem → Option Killmail) (ids : List UInt64) (w : Worker) :
    Prop :=
  match w.stage with
  | .store k _ => result w.item = some k ∧ k.id = w.item.id
  | .backup _ _ | .observe _ | .count .imported | .count .skipped => w.item.id ∈ ids
  | .count .dropped => result w.item = none
  | .lookup | .fetch | .leave => True

section moves

variable {result : WorkItem → Option Killmail} {p : Parties} {w : Worker} {d d' : Depot}
  {st : Stage} {a : Answer}

theorem Worker.Explained.mono {ids ids' : List UInt64} (hw : w.Explained result ids)
    (hids : ∀ id ∈ ids, id ∈ ids') : w.Explained result ids' := by
  obtain ⟨n, item, stage⟩ := w
  -- what is explained by an id stored stays so, the rest does not depend on ids
  cases stage with
  | backup | observe => exact hids _ hw
  | count o =>
    cases o with
    | imported | skipped => exact hids _ hw
    | dropped => exact hw
  | store => exact hw
  | lookup | fetch | leave => trivial

/-- A step of a worker is explained by what it meets with. -/
theorem Worker.Explained.move (hw : w.Explained result d.archive.ids)
    (h : w.stage.Move p w.item d a d' st) (ha : w.Meets result a) :
    Worker.Explained result d'.archive.ids { w with stage := st } := by
  obtain ⟨n, item, stage⟩ := w
  -- the archive does not fail, so a handling is dropped only where there is no result
  cases h with
  | known hid => exact hid
  | ask => trivial
  | lookupFails | storeFails => exact ha.elim
  | undelivered hr =>
    show result item = none
    have hsame : decoded? item _ = result item := ha
    rw [← hsame, hr]
  | delivered hr =>
    have hsame : decoded? item _ = result item := ha
    exact ⟨by rw [← hsame, hr], (decoded?_some hr).1⟩
  | @store k body =>
    have hid : item.id ∈ (d.archive.prepend [k]).ids := by
      rw [Archive.mem_ids_prepend]
      exact .inl ⟨k, List.mem_singleton.mpr rfl, hw.2⟩
    rcases p.afterStore_cases k body with h | h | h <;> rw [h] <;> exact hid
  | @duplicate k _ hk =>
    have hid : k.id = item.id := hw.2
    show item.id ∈ d.archive.ids
    rwa [← hid]
  | @backup k => rcases p.afterBackup_cases k with h | h <;> rw [h] <;> exact hw
  | observe => exact hw
  | count => trivial

/-- An outcome that is counted is explained. -/
theorem Worker.Explained.outcomes (hw : w.Explained result d.archive.ids)
    (h : w.stage.Move p w.item d a d' st) {x : WorkItem × Outcome} (hx : x ∈ d'.outcomes) :
    x ∈ d.outcomes ∨ x.1.id ∈ d.archive.ids ∨ result x.1 = none := by
  obtain ⟨n, item, stage⟩ := w
  cases h with
  | @count o =>
    rcases List.mem_cons.mp hx with rfl | hx
    · cases o with
      | imported | skipped => exact .inr (.inl hw)
      | dropped => exact .inr (.inr hw)
    · exact .inl hx
  | _ => exact .inl hx

/-- A killmail that is stored is the result for its item. -/
theorem Worker.Explained.stores (hw : w.Explained result d.archive.ids)
    (h : w.stage.Move p w.item d a d' st) {x : WorkItem × Killmail} (hx : x ∈ d'.stores) :
    x ∈ d.stores ∨ result x.1 = some x.2 := by
  obtain ⟨n, item, stage⟩ := w
  cases h with
  | store =>
    rcases List.mem_cons.mp hx with rfl | hx
    · exact .inr hw.1
    · exact .inl hx
  | _ => exact .inl hx

end moves

/-! ## Explained worlds -/

/-- Places of the loop that it only comes to with an empty queue, unless it is stopped. -/
def Loop.IsPastQueue : Loop → Prop
  | .empty | .joining | .stopped => True
  | _ => False

namespace World

variable {result : WorkItem → Option Killmail} {c : Config} {s t : World} {e : Event}
  {m : Option Mark}

/-- Everything that was done is explained by the results for the items and by the ids stored. -/
structure Explained (result : WorkItem → Option Killmail) (s : World) : Prop where
  going : s.stopping = false
  queue : s.loop.IsPastQueue → s.queue.items = []
  workers : ∀ w ∈ s.workers, w.Explained result s.depot.archive.ids
  outcomes : ∀ x ∈ s.depot.outcomes, x.1.id ∈ s.depot.archive.ids ∨ result x.1 = none
  stores : ∀ x ∈ s.depot.stores, result x.1 = some x.2

theorem Explained.start (q : Queue) (a : Archive) (admission : Admission.State) :
    (World.start q a admission).Explained result where
  going := rfl
  queue h := h.elim
  workers w hw := by cases hw
  outcomes x hx := by cases hx
  stores x hx := by cases hx

/-- A step that leaves the depot and the workers as they are. -/
theorem Explained.quiet (hs : s.Explained result) (hd : t.depot = s.depot)
    (hw : t.workers = s.workers) (hgoing : t.stopping = s.stopping)
    (hqueue : t.loop.IsPastQueue → t.queue.items = []) : t.Explained result :=
  ⟨hgoing ▸ hs.going, hqueue, hd ▸ hw ▸ hs.workers, hd ▸ hs.outcomes, hd ▸ hs.stores⟩

/-- An undisturbed loop turns past the queue only from where it is past it already. -/
theorem Turn.isPastQueue {l : Loop} {n : Nat} (h : s.Turn c e l n) (hs : s.stopping = false)
    (hl : l.IsPastQueue) : s.loop.IsPastQueue := by
  cases h with
  | halt _ hstop => simp [hs] at hstop
  | interrupted hstop => simp [hs] at hstop
  | join h => rw [h]; trivial
  | _ => exact hl.elim

theorem Explained.work (hs : s.Explained result) (ht : s.Tidy c) {n : Nat} {a : Answer}
    {w : Worker} {d : Depot} {st : Stage} (hw : s.worker? n = some w)
    (h : w.stage.Move c.parties w.item s.depot a d st) (ha : w.Meets result a) :
    Explained result ({ s with depot := d }.setStage n st) := by
  have hold := hs.workers w (mem_of_worker? hw).1
  have hids := (Depot.Later.of_move h).ids
  refine ⟨hs.going, hs.queue, ?_, ?_, ?_⟩
  · intro v hv
    rcases ht.mem_setStage hw hv with rfl | hv
    · exact hold.move h ha
    · exact (hs.workers v hv).mono hids
  · intro x hx
    rcases hold.outcomes h hx with hx | hid | hnone
    · exact (hs.outcomes x hx).imp_left (hids _)
    · exact .inl (hids _ hid)
    · exact .inr hnone
  · intro x hx
    rcases hold.stores h hx with hx | hresult
    · exact hs.stores x hx
    · exact hresult

/-- Every step of an undisturbed importer is explained. -/
theorem Explained.step (hs : s.Explained result) (ht : s.Tidy c) (h : s.Step c e m t)
    (hok : Undisturbed result s e) : t.Explained result := by
  cases h with
  | turn h => exact hs.quiet rfl rfl rfl fun hl => hs.queue (h.isPastQueue hs.going hl)
  | enter | take | idle | recover => exact hs.quiet rfl rfl rfl fun hl => hl.elim
  | miss _ hq =>
    -- the queue is seen to be empty here, and nobody pushes from now on
    obtain ⟨heq, hnone⟩ := Queue.items_of_popMin_none hq
    exact hs.quiet rfl rfl rfl fun _ => heq ▸ hnone
  | spoil h hq => exact absurd ⟨h, Queue.spoils_of_popMin hq⟩ hok
  | popFails | crash | pushNew | pushAgain | stop => exact hok.elim
  | @spawn w h =>
    refine ⟨hs.going, fun hl => hl.elim, ?_, hs.outcomes, hs.stores⟩
    intro v hv
    rcases mem_workers_spawn.mp hv with hv | rfl
    · exact hs.workers v hv
    · trivial
  | finish h => exact hs.quiet rfl rfl rfl fun _ => hs.queue (h ▸ trivial)
  | work hw h => exact hs.work ht hw h (hok _ hw)
  | leave hw h =>
    exact ⟨hs.going, hs.queue, fun v hv => hs.workers v (mem_workers_retire.mp hv).1, hs.outcomes,
      hs.stores⟩
  | setAdmission => exact hs.quiet rfl rfl rfl hs.queue

end World

/-! ## What a drain leaves -/

theorem Depot.card_importedIds (d : Depot) : d.importedIds.card = d.summary.imported := by
  unfold importedIds imported summary Summary.ofOutcomes
  rw [Multiset.card_map, Multiset.coe_card]
  induction d.outcomes with
  | nil => rfl
  | cons x os ih =>
    obtain ⟨w, o⟩ := x
    cases o <;> simp [ih]

/-- What a drain leaves of a queue and an archive. -/
structure World.Drained (result : WorkItem → Option Killmail) (p : Parties) (q : Queue)
    (a : Archive) (t : World) : Prop where
  queue : t.queue.items = []
  /-- The ids stored are those stored before, and those of the items that can be decoded. -/
  stored : ∀ id, t.depot.archive.contains id = true ↔
    a.contains id = true ∨ ∃ w ∈ q.items, w.id = id ∧ (result w).isSome
  /-- As many imports were counted as there are new ids. -/
  imported : t.depot.summary.imported = (t.depot.archive.ids.toFinset \ a.ids.toFinset).card
  processed : t.depot.summary.imported + t.depot.summary.skipped + t.depot.summary.dropped = q.size
  /-- An observer that keeps a tally has counted every import. -/
  tallied : p.observer = true → ∀ T : Tally,
    (t.depot.observed.foldr (fun k T => T.observe k) T).total = T.total + t.depot.summary.imported

variable {result : WorkItem → Option Killmail} {c : Config} {q : Queue} {a : Archive}
  {admission : Admission.State} {j : List Mark} {t : World}

theorem explained_of_run
    (h : (importer c).Run (Undisturbed result) (World.start q a admission) j t) :
    t.Tidy c ∧ t.Explained result :=
  run_induction (P := fun _ s => s.Explained result)
    (fun htidy allowed hstep ih => ih.step htidy hstep allowed) h
    (.start q a admission) (.start q a admission)

theorem queuedIn_of_step {s t : World} {e : Event} {m : Option Mark} (h : s.Step c e m t)
    (hok : Undisturbed result s e) : queuedIn m.toList = 0 := by
  cases h with
  | @work n b w d st hw h => exact (w.mark?_untaken s.depot b).1
  | pushNew | pushAgain => exact hok.elim
  | _ => rfl

theorem queuedIn_of_run {s : World} (h : (importer c).Run (Undisturbed result) s j t) :
    queuedIn j = 0 := by
  induction h with
  | nil => rfl
  | snoc _ allowed step ih =>
    rw [queuedIn_append, ih, zero_add]
    exact queuedIn_of_step (World.step_of_next? step) allowed

namespace World

/-- A drain has handled the items that were queued at the start, each once. -/
theorem handled_of_stopped (hq : q.Distinct)
    (h : (importer c).Run (Undisturbed result) (World.start q a admission) j t)
    (hstopped : t.loop = .stopped) : t.queue.items = [] ∧ t.depot.handled = q.items := by
  obtain ⟨htidy, hexplained⟩ := explained_of_run h
  have hbal := (balanced_of_run hq (h.mono fun _ _ => Undisturbed.unharmed)).2
  have hempty : t.queue.items = [] := hexplained.queue (hstopped ▸ trivial)
  -- nothing came in, nothing is queued and nothing is held any more
  have hqueued := hbal.queued
  rw [queuedIn_of_run h, hempty, hbal.taken, held_of_stopped htidy hstopped, add_zero,
    zero_add, Multiset.coe_nil, zero_add] at hqueued
  exact ⟨hempty, by rw [hbal.counted, hqueued]⟩

theorem Grown.ids_eq (ht : t.Grown a) :
    t.depot.archive.ids = (t.depot.stores.map fun x => x.2.id) ++ a.ids := by
  rw [ht.archive, Archive.ids_prepend, List.map_map]
  rfl

/-- The new ids are those of the killmails stored, and none of them twice. -/
theorem Grown.card_newIds (ht : t.Grown a) :
    (t.depot.archive.ids.toFinset \ a.ids.toFinset).card = t.depot.storedIds.card := by
  have hdisjoint : Disjoint (t.depot.stores.map fun x => x.2.id).toFinset a.ids.toFinset := by
    rw [Finset.disjoint_left]
    intro id hid
    rw [List.mem_toFinset] at hid ⊢
    obtain ⟨x, hx, rfl⟩ := List.mem_map.mp hid
    exact ht.new x hx
  rw [ht.ids_eq, List.toFinset_append, Finset.union_sdiff_right, Finset.sdiff_eq_self_of_disjoint
    hdisjoint, List.toFinset_card_of_nodup ht.nodup]
  rfl

/-- Where every item was handled, the new ids are those of the items that can be decoded. -/
theorem Explained.mem_ids_iff (hs : t.Explained result) (ht : t.Grown a)
    (hhandled : t.depot.handled = q.items)
    (hstores : ∀ x ∈ t.depot.stores, (x.1, Outcome.imported) ∈ t.depot.outcomes) {id : UInt64} :
    id ∈ t.depot.archive.ids ↔
      id ∈ a.ids ∨ ∃ w ∈ q.items, w.id = id ∧ (result w).isSome := by
  have hitem : ∀ w, w ∈ q.items ↔ ∃ o, (w, o) ∈ t.depot.outcomes := by
    intro w
    rw [← Multiset.mem_coe, ← hhandled, Depot.mem_handled]
  constructor
  · intro hid
    rw [ht.ids_eq, List.mem_append] at hid
    rcases hid with hid | hid
    · -- whatever was stored was counted as an import, so its item was queued at the start
      obtain ⟨x, hx, rfl⟩ := List.mem_map.mp hid
      refine .inr ⟨x.1, (hitem x.1).mpr ⟨_, hstores x hx⟩, (ht.records x hx).1.symm, ?_⟩
      rw [hs.stores x hx]
      rfl
    · exact .inl hid
  · rintro (hid | ⟨w, hw, rfl, hsome⟩)
    · rw [ht.ids_eq]
      exact List.mem_append_right _ hid
    · -- the item was handled, and its outcome is explained
      obtain ⟨o, ho⟩ := (hitem w).mp hw
      rcases hs.outcomes _ ho with hid | hnone
      · exact hid
      · simp [hnone] at hsome

/-- **What a drain leaves.** The queue is empty, exactly the ids of items that can be decoded have
come to the archive, and every item was counted. -/
theorem drained_of_run (hq : q.Distinct)
    (h : (importer c).Run (Undisturbed result) (World.start q a admission) j t)
    (hstopped : t.loop = .stopped) : t.Drained result c.parties q a := by
  obtain ⟨htidy, hexplained⟩ := explained_of_run h
  obtain ⟨hempty, hhandled⟩ := handled_of_stopped hq h hstopped
  have hgrown := (grown_of_run h).2
  obtain ⟨hids, hobserved, -, hstores⟩ :=
    settled_of_run (fun _ _ hok => hok.unharmed.noCrash) h (htidy.stopped hstopped)
  -- an import was counted for every new id, so counting imports is counting new ids
  refine ⟨hempty, ?_, ?_, ?_, ?_⟩
  · intro id
    rw [Archive.contains_iff, Archive.contains_iff]
    exact hexplained.mem_ids_iff hgrown hhandled hstores
  · rw [hgrown.card_newIds, hids, Depot.card_importedIds]
  · have hprocessed := t.depot.processed_summary
    rw [hhandled, Multiset.coe_card, ← Queue.size_eq] at hprocessed
    exact hprocessed
  · intro hobserver T
    rw [if_pos hobserver] at hobserved
    have hcard : t.depot.observed.length = t.depot.observedIds.card := by
      rw [Depot.observedIds, Multiset.coe_card, List.length_map]
    rw [Tally.total_foldr_observe, hcard, hobserved, Depot.card_importedIds]

end World

/-- **Drains do not depend on scheduling.** Take two runs from one queue and one archive that end
undisturbed, under the same results for the items, but with any numbers of workers, any parties, any
states of admission and any interleaving. What a drain leaves is said of the first, and the second
agrees with it on the queue, on the ids stored and on the number of imports. -/
theorem drain_unaffected_by_schedule {c' : Config} {admission' : Admission.State} {j' : List Mark}
    {t' : World} (hq : q.Distinct)
    (h : (importer c).Run (Undisturbed result) (World.start q a admission) j t)
    (hstopped : t.loop = .stopped)
    (h' : (importer c').Run (Undisturbed result) (World.start q a admission') j' t')
    (hstopped' : t'.loop = .stopped) :
    t.Drained result c.parties q a ∧
      t'.queue.items = t.queue.items ∧
      (∀ id, t'.depot.archive.contains id = t.depot.archive.contains id) ∧
      t'.depot.summary.imported = t.depot.summary.imported := by
  have hd := World.drained_of_run hq h hstopped
  have hd' := World.drained_of_run hq h' hstopped'
  -- what each run leaves is said without its steps, so both leave the same
  have hsame : ∀ id, t'.depot.archive.contains id = t.depot.archive.contains id := by
    intro id
    rw [Bool.eq_iff_iff, hd'.stored, hd.stored]
  have hids : t'.depot.archive.ids.toFinset = t.depot.archive.ids.toFinset := by
    ext id
    rw [List.mem_toFinset, List.mem_toFinset, ← Archive.contains_iff, ← Archive.contains_iff, hsame]
  refine ⟨hd, ?_, hsame, ?_⟩
  · rw [hd.queue, hd'.queue]
  · rw [hd.imported, hd'.imported, hids]

/-! ## Two drains of one queue -/

namespace Rivals

/-- Items of the id 7 are delivered, others are not. -/
def fetch (w : WorkItem) : Except Api.FetchError (List UInt8) :=
  if w.id = 7 then .ok bodyOfSeven else .error ⟨404, ""⟩

def queue : Queue := .table ⟨[⟨⟨7, "a"⟩, 1⟩, ⟨⟨7, "b"⟩, 2⟩, ⟨⟨8, "c"⟩, 3⟩]⟩

def start : World := .start queue (.memory ⟨[]⟩) .green

/-- What comes of fetching and decoding an item. -/
def killmailOf (w : WorkItem) : Option Killmail := decoded? w (fetch w)

/-- Undisturbed steps with what is fetched. -/
def Scripted (s : World) : Event → Prop
  | .loop => ¬ (s.loop = .entered ∧ s.queue.spoils = true)
  | .work n (.fetched r) => ∀ w, s.worker? n = some w → r = fetch w.item
  | .work _ .done | .wake => True
  | _ => False

instance : ∀ (s : World) (e : Event), Decidable (Scripted s e)
  | s, .loop => inferInstanceAs (Decidable (¬ (s.loop = .entered ∧ s.queue.spoils = true)))
  | s, .work n (.fetched r) =>
    inferInstanceAs (Decidable (∀ w, s.worker? n = some w → r = fetch w.item))
  | _, .work _ .done | _, .wake => isTrue trivial
  | _, .work _ .fails | _, .popFails | _, .interrupt | _, .crash _ | _, .push _ _
  | _, .setAdmission _ | _, .stop => isFalse id

theorem Scripted.undisturbed (s : World) (e : Event) (h : Scripted s e) :
    Undisturbed killmailOf s e := by
  cases e with
  | loop => exact h
  | wake => trivial
  | work n b =>
    intro w hw
    unfold Worker.Meets
    split
    · exact h
    · exact h
    · rw [h w hw, killmailOf]
    · trivial
  | _ => exact h.elim

/-- One item after the other. -/
def alone : List Event := [
  List.replicate 5 .loop,
  [.work 0 .done, .work 0 (.fetched (.ok bodyOfSeven)), .work 0 .done, .work 0 .done,
    .work 0 .done],
  List.replicate 5 .loop,
  [.work 1 .done, .work 1 .done, .work 1 .done],
  List.replicate 5 .loop,
  [.work 2 .done, .work 2 (.fetched (.error ⟨404, ""⟩)), .work 2 .done, .work 2 .done],
  List.replicate 5 .loop, [.wake], List.replicate 6 .loop].flatten

/-- All items at once; the second is the first to be stored. -/
def together : List Event := [
  List.replicate 15 .loop,
  [.work 0 .done, .work 1 .done, .work 2 .done, .work 2 (.fetched (.error ⟨404, ""⟩)),
    .work 0 (.fetched (.ok bodyOfSeven)), .work 1 (.fetched (.ok bodyOfSeven)), .work 1 .done,
    .work 0 .done, .work 0 .done, .work 1 .done, .work 1 .done, .work 2 .done, .work 2 .done,
    .work 0 .done, .work 1 .done],
  List.replicate 5 .loop, [.wake], List.replicate 6 .loop].flatten

theorem reaches_alone :
    (importer ⟨0, .drain, ⟨false, false⟩⟩).reaches Scripted start alone (fun t =>
      decide (t.loop = .stopped) && decide ((⟨7, "a"⟩, .imported) ∈ t.depot.outcomes)) = true := by
  decide +kernel

theorem reaches_together :
    (importer ⟨3, .drain, ⟨false, true⟩⟩).reaches Scripted start together (fun t =>
      decide (t.loop = .stopped) && decide ((⟨7, "b"⟩, .imported) ∈ t.depot.outcomes)) = true := by
  decide +kernel

theorem drain_unaffected_of_rivals :
    queue.Distinct ∧ ∃ j t j' t',
      (importer ⟨0, .drain, ⟨false, false⟩⟩).Run (Undisturbed killmailOf) start j t ∧
      (importer ⟨3, .drain, ⟨false, true⟩⟩).Run (Undisturbed killmailOf) start j' t' ∧
      t.loop = .stopped ∧ t'.loop = .stopped ∧ (⟨7, "a"⟩, .imported) ∈ t.depot.outcomes ∧
      (⟨7, "b"⟩, .imported) ∈ t'.depot.outcomes ∧
      t.Drained killmailOf ⟨false, false⟩ queue (.memory ⟨[]⟩) ∧
      t'.queue.items = t.queue.items ∧
      (∀ id, t'.depot.archive.contains id = t.depot.archive.contains id) ∧
      t'.depot.summary.imported = t.depot.summary.imported := by
  have hdistinct : queue.Distinct := by decide +kernel
  obtain ⟨j, t, h, ht⟩ := Machine.exists_run_of_reaches reaches_alone
  obtain ⟨j', t', h', ht'⟩ := Machine.exists_run_of_reaches reaches_together
  simp only [Bool.and_eq_true, decide_eq_true_eq] at ht ht'
  have hrun := h.mono Scripted.undisturbed
  have hrun' := h'.mono Scripted.undisturbed
  exact ⟨hdistinct, j, t, j', t', hrun, hrun', ht.1, ht'.1, ht.2, ht'.2,
    drain_unaffected_by_schedule hdistinct hrun ht.1 hrun' ht'.1⟩

end Rivals

end Harvest.Import
