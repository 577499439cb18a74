import Harvest.Proofs.Import.Accounts

/-! # Each id is imported once

Several workers may find the same id absent and fetch it; only the insertion decides which of them
has imported it. The worker whose insertion stored the killmail goes on to the backup and to the
observer and counts an import, and no other worker does.

The key idea is to follow what was stored. Each id is stored at most once, so what is due for it is
due once; and by the accounts of what is due, nothing else is done, and all of it once no worker is
left.

## Main statements

* `World.Grown.step`: what has been stored since the start.
* `Depot.Later.of_step`: what was stored stays, and is not fetched again.
* `imported_exactly_once`: what a run has stored, counted, backed up, observed and fetched.
-/

namespace Harvest.Import

/-! ## What a depot tells -/

namespace Depot

/-- The ids of the handlings that ended with an import. -/
def importedIds (d : Depot) : Multiset UInt64 := d.imported.map WorkItem.id

/-- The ids of the killmails stored. -/
def storedIds (d : Depot) : Multiset UInt64 := d.stores.map fun x => x.2.id

/-- The ids of the killmails observed. -/
def observedIds (d : Depot) : Multiset UInt64 := d.observed.map Killmail.id

/-- The ids of the items whose body was handed to the backup. -/
def backedUpIds (d : Depot) : Multiset UInt64 := d.backups.map fun b => b.item.id

theorem mem_outcomes_of_imported {d : Depot} {w : WorkItem} (h : w ∈ d.imported) :
    (w, Outcome.imported) ∈ d.outcomes := by
  obtain ⟨⟨v, o⟩, hx, hv⟩ := List.mem_filterMap.mp h
  by_cases ho : o = .imported
  · simp only [ho, if_true, Option.some.injEq] at hv
    rwa [ho, hv] at hx
  · simp [ho] at hv

end Depot

/-! ## What is stored -/

/-- A killmail about to be stored carries the id and the hash of the item. -/
def Worker.Fits (w : Worker) : Prop :=
  match w.stage with
  | .store k _ => k.id = w.item.id ∧ k.hash = w.item.hash
  | _ => True

section moves

variable {p : Parties} {w : Worker} {d d' : Depot} {st : Stage} {a : Answer}

theorem Worker.fits_move (h : w.stage.Move p w.item d a d' st) :
    Worker.Fits { w with stage := st } := by
  obtain ⟨n, item, stage⟩ := w
  cases h with
  -- only a delivery leads to a killmail that is about to be stored
  | delivered hk => exact decoded?_some hk
  | @store k body => rcases p.afterStore_cases k body with h | h | h <;> rw [h] <;> trivial
  | @backup k => rcases p.afterBackup_cases k with h | h <;> rw [h] <;> trivial
  | _ => trivial

/-- A step stores nothing, or one killmail whose id was absent. -/
theorem Worker.stores_move (h : w.stage.Move p w.item d a d' st) (hw : w.Fits) :
    d'.stores = d.stores ∧ d'.archive = d.archive ∨
      ∃ k, k.id ∉ d.archive.ids ∧ (k.id = w.item.id ∧ k.hash = w.item.hash) ∧
        d'.stores = (w.item, k) :: d.stores ∧ d'.archive = d.archive.prepend [k] := by
  obtain ⟨n, item, stage⟩ := w
  cases h with
  | @store k body hk => exact .inr ⟨k, hk, hw, rfl, rfl⟩
  | _ => exact .inl ⟨rfl, rfl⟩

end moves

namespace World

variable {c : Config} {s t : World} {e : Event} {m : Option Mark} {a : Archive}

/-- What has been stored since the importer started on an archive: each id once, none of them stored
before, and each killmail with the id and the hash of its item. -/
structure Grown (a : Archive) (s : World) : Prop where
  archive : s.depot.archive = a.prepend (s.depot.stores.map Prod.snd)
  nodup : (s.depot.stores.map fun x => x.2.id).Nodup
  new : ∀ x ∈ s.depot.stores, x.2.id ∉ a.ids
  records : ∀ x ∈ s.depot.stores, x.2.id = x.1.id ∧ x.2.hash = x.1.hash
  fits : ∀ w ∈ s.workers, w.Fits

theorem Grown.start (q : Queue) (a : Archive) (admission : Admission.State) :
    (World.start q a admission).Grown a where
  archive := a.prepend_nil.symm
  nodup := List.nodup_nil
  new x hx := by cases hx
  records x hx := by cases hx
  fits x hx := by cases hx

/-- A step that stores nothing. -/
theorem Grown.quiet (hs : s.Grown a)
    (hd : t.depot.stores = s.depot.stores ∧ t.depot.archive = s.depot.archive)
    (hw : ∀ w ∈ t.workers, w.Fits) : t.Grown a := by
  obtain ⟨hstores, harchive⟩ := hd
  refine ⟨?_, ?_, ?_, ?_, hw⟩
  · rw [harchive, hstores]
    exact hs.archive
  · rw [hstores]
    exact hs.nodup
  · rw [hstores]
    exact hs.new
  · rw [hstores]
    exact hs.records

theorem Grown.work (hs : s.Grown a) (ht : s.Tidy c) {n : Nat} {b : Answer} {w : Worker}
    {d : Depot} {st : Stage} (hw : s.worker? n = some w)
    (h : w.stage.Move c.parties w.item s.depot b d st) :
    Grown a ({ s with depot := d }.setStage n st) := by
  have hfits : ∀ v ∈ (s.setStage n st).workers, v.Fits := by
    intro v hv
    rcases ht.mem_setStage hw hv with rfl | hv
    · exact Worker.fits_move h
    · exact hs.fits v hv
  rcases Worker.stores_move h (hs.fits w (mem_of_worker? hw).1) with
    hnone | ⟨k, hnew, hfit, hstores, harchive⟩
  · exact hs.quiet hnone hfits
  · rw [hs.archive, Archive.mem_ids_prepend, not_or] at hnew
    refine ⟨?_, ?_, ?_, ?_, hfits⟩
    · show d.archive = a.prepend (d.stores.map Prod.snd)
      rw [harchive, hs.archive, Archive.prepend_prepend, hstores]
      rfl
    · -- what is stored already is found, so the new id is none of those
      show (d.stores.map fun x => x.2.id).Nodup
      rw [hstores, List.map_cons, List.nodup_cons]
      refine ⟨fun hmem => hnew.1 ?_, hs.nodup⟩
      obtain ⟨x, hx, hid⟩ := List.mem_map.mp hmem
      exact ⟨x.2, List.mem_map_of_mem hx, hid⟩
    · show ∀ x ∈ d.stores, x.2.id ∉ a.ids
      rw [hstores]
      exact List.forall_mem_cons.mpr ⟨hnew.2, hs.new⟩
    · show ∀ x ∈ d.stores, x.2.id = x.1.id ∧ x.2.hash = x.1.hash
      rw [hstores]
      exact List.forall_mem_cons.mpr ⟨hfit, hs.records⟩

theorem Grown.step (hs : s.Grown a) (ht : s.Tidy c) (h : s.Step c e m t) : t.Grown a := by
  cases h with
  | @spawn w _ =>
    refine hs.quiet ⟨rfl, rfl⟩ ?_
    intro v hv
    rcases mem_workers_spawn.mp hv with hv | rfl
    · exact hs.fits v hv
    · trivial
  | work hw h => exact hs.work ht hw h
  | leave hw _ | crash hw =>
    exact hs.quiet ⟨rfl, rfl⟩ fun v hv => hs.fits v (mem_workers_retire.mp hv).1
  | _ => exact hs.quiet ⟨rfl, rfl⟩ hs.fits

end World

/-! ## What came before stays -/

/-- A depot at a later time: what was stored is still there, and no item whose id was stored has
been fetched since. -/
structure Depot.Later (d d' : Depot) : Prop where
  ids : ∀ id ∈ d.archive.ids, id ∈ d'.archive.ids
  stores : ∃ new, d'.stores = new ++ d.stores
  fetches : ∀ id ∈ d.archive.ids,
    d'.fetches.filter (·.id = id) = d.fetches.filter (·.id = id)

namespace Depot.Later

variable {c : Config} {s t : World} {e : Event} {m : Option Mark} {d d' d'' : Depot}

theorem refl (d : Depot) : d.Later d := ⟨fun _ h => h, ⟨[], rfl⟩, fun _ _ => rfl⟩

theorem trans (h : d.Later d') (h' : d'.Later d'') : d.Later d'' := by
  obtain ⟨new, hnew⟩ := h.stores
  obtain ⟨new', hnew'⟩ := h'.stores
  refine ⟨fun id hid => h'.ids id (h.ids id hid), ⟨new' ++ new, ?_⟩, ?_⟩
  · rw [hnew', hnew, List.append_assoc]
  · intro id hid
    rw [h'.fetches id (h.ids id hid), h.fetches id hid]

theorem of_move {p : Parties} {w : Worker} {st : Stage} {a : Answer}
    (h : w.stage.Move p w.item d a d' st) : d.Later d' := by
  obtain ⟨n, item, stage⟩ := w
  cases h with
  | ask hw =>
    refine ⟨fun _ hid => hid, ⟨[], rfl⟩, ?_⟩
    intro id hid
    -- the item that is fetched has another id, as its own was not found
    have hne : item.id ≠ id := fun heq => hw (heq ▸ hid)
    simp [hne]
  | @store k =>
    refine ⟨?_, ⟨[(item, k)], rfl⟩, fun _ _ => rfl⟩
    intro id hid
    show id ∈ (d.archive.prepend [k]).ids
    rw [Archive.mem_ids_prepend]
    exact .inr hid
  | _ => exact ⟨fun _ hid => hid, ⟨[], rfl⟩, fun _ _ => rfl⟩

theorem of_step (h : s.Step c e m t) : s.depot.Later t.depot := by
  cases h with
  | work _ h => exact of_move h
  | _ => exact refl _

end Depot.Later

/-! ## Along runs -/

variable {c : Config} {ok : World → Event → Prop} {q : Queue} {a : Archive}
  {admission : Admission.State} {j j' : List Mark} {s t : World}

theorem later_of_run (h : (importer c).Run ok s j t) : s.depot.Later t.depot := by
  induction h with
  | nil => exact .refl _
  | snoc _ _ step ih => exact ih.trans (.of_step (World.step_of_next? step))

theorem grown_of_run (h : (importer c).Run ok (World.start q a admission) j t) :
    t.Tidy c ∧ t.Grown a :=
  run_induction (P := fun _ s => s.Grown a) (fun htidy _ hstep ih => ih.step htidy hstep) h
    (.start q a admission) (.start q a admission)

namespace World

/-- The killmails stored between two states of a run are new to the archive of the first. -/
theorem Grown.since (hs : s.Grown a) (ht : t.Grown a) (h : s.depot.Later t.depot) :
    ∃ ks, t.depot.archive = s.depot.archive.prepend ks ∧ ∀ k ∈ ks, k.id ∉ s.depot.archive.ids := by
  obtain ⟨new, hnew⟩ := h.stores
  -- all ids stored are distinct, so those stored later differ from those stored before
  have hnodup := ht.nodup
  rw [hnew, List.map_append, List.nodup_append] at hnodup
  refine ⟨new.map Prod.snd, ?_, ?_⟩
  · rw [ht.archive, hs.archive, Archive.prepend_prepend, hnew, List.map_append]
  · intro k hk hmem
    obtain ⟨x, hx, rfl⟩ := List.mem_map.mp hk
    rw [hs.archive, Archive.ids_prepend, List.mem_append, List.map_map] at hmem
    rcases hmem with hmem | hmem
    · exact hnodup.2.2 _ (List.mem_map_of_mem hx) _ hmem rfl
    · exact ht.new x (hnew ▸ List.mem_append_left _ hx) hmem

theorem Grown.storedIds_eq (hs : s.Grown a) :
    s.depot.storedIds = (↑(s.depot.stores.map Prod.fst) : Multiset WorkItem).map WorkItem.id := by
  rw [Depot.storedIds, Multiset.map_coe, List.map_map, Multiset.coe_eq_coe]
  refine .of_eq (List.map_congr_left ?_)
  intro x hx
  exact (hs.records x hx).1

/-- No two of the imports counted have one id, as each was stored. -/
theorem Grown.nodup_importedIds (hs : s.Grown a) (hc : imports.Covered s) :
    s.depot.importedIds.Nodup := by
  -- no more imports were counted than killmails stored
  have hle : s.depot.importedIds ≤ s.depot.storedIds := by
    rw [hs.storedIds_eq]
    exact Multiset.map_le_map (le_trans (Multiset.le_add_right _ _) hc)
  exact Multiset.nodup_of_le hle (Multiset.coe_nodup.mpr hs.nodup)

end World

/-- Once no worker is left, whatever was stored was counted, observed and backed up as often. -/
theorem settled_of_run (hok : ∀ s e, ok s e → NoCrash s e)
    (h : (importer c).Run ok (World.start q a admission) j t) (hnone : t.workers = []) :
    t.depot.storedIds = t.depot.importedIds ∧
      t.depot.observedIds = (if c.parties.observer then t.depot.importedIds else 0) ∧
      t.depot.backedUpIds = (if c.parties.backup then t.depot.importedIds else 0) ∧
      ∀ x ∈ t.depot.stores, (x.1, Outcome.imported) ∈ t.depot.outcomes := by
  -- each account is settled, and nobody is left to owe anything
  have himported : ↑(t.depot.stores.map Prod.fst) = t.depot.imported :=
    (Account.settled_of_run (imports_fair c.parties) hok h).due_eq_done hnone
  have hbackups : (if c.parties.backup then ↑(t.depot.stores.map Prod.fst) else 0)
      = (↑(t.depot.backups.map Backup.item) : Multiset WorkItem) :=
    (Account.settled_of_run (backups_fair c.parties) hok h).due_eq_done hnone
  have hobserved : (if c.parties.observer then ↑(t.depot.stores.map Prod.snd) else 0)
      = (t.depot.observed : Multiset Killmail) :=
    (Account.settled_of_run (observations_fair c.parties) hok h).due_eq_done hnone
  have hids : t.depot.storedIds = t.depot.importedIds := by
    rw [(grown_of_run h).2.storedIds_eq, himported]
    rfl
  refine ⟨hids, ?_, ?_, ?_⟩
  · rw [Depot.observedIds, ← hids, ← Multiset.map_coe, ← hobserved]
    split
    · rw [Depot.storedIds, Multiset.map_coe, List.map_map]
      rfl
    · rfl
  · have hbacked : t.depot.backedUpIds
        = (↑(t.depot.backups.map Backup.item) : Multiset WorkItem).map WorkItem.id := by
      rw [Depot.backedUpIds, Multiset.map_coe, List.map_map]
      rfl
    rw [hbacked, ← hbackups, ← hids, (grown_of_run h).2.storedIds_eq]
    split <;> rfl
  · intro x hx
    apply Depot.mem_outcomes_of_imported
    rw [← himported]
    exact List.mem_map_of_mem hx

/-- **Each id is imported once.** However the steps of the workers interleave, and whatever they
meet with, at most one handling of each id ends with an import. If no worker has broken down, then
once none is left each id has been imported as often as it was stored, observed and backed up. What
is stored is not changed later, new killmails carry the id and the hash of their item, and an item
whose id is stored is not fetched. -/
theorem imported_exactly_once (h : (importer c).Run ok (World.start q a admission) j s)
    (h' : (importer c).Run ok s j' t) :
    t.depot.importedIds.Nodup ∧
      ((∀ s e, ok s e → NoCrash s e) → t.workers = [] →
        t.depot.storedIds = t.depot.importedIds ∧
        t.depot.observedIds = (if c.parties.observer then t.depot.importedIds else 0) ∧
        t.depot.backedUpIds = (if c.parties.backup then t.depot.importedIds else 0) ∧
        ∀ x ∈ t.depot.stores, (x.1, Outcome.imported) ∈ t.depot.outcomes) ∧
      (∀ id ∈ s.depot.archive.ids,
        t.depot.archive.find (.withIds [id]) = s.depot.archive.find (.withIds [id])) ∧
      t.depot.archive = a.prepend (t.depot.stores.map Prod.snd) ∧
      (∀ x ∈ t.depot.stores, x.2.id ∉ a.ids ∧ x.2.id = x.1.id ∧ x.2.hash = x.1.hash) ∧
      ∀ id ∈ s.depot.archive.ids,
        t.depot.fetches.filter (·.id = id) = s.depot.fetches.filter (·.id = id) := by
  -- the second run ends a run from the start, too
  have hrun := h.append h'
  have hlater := later_of_run h'
  have hs := (grown_of_run h).2
  have ht := (grown_of_run hrun).2
  refine ⟨?_, ?_, ?_, ht.archive, ?_, hlater.fetches⟩
  · exact ht.nodup_importedIds (Account.covered_of_run (imports_fair c.parties) hrun)
  · intro hok hnone
    exact settled_of_run hok hrun hnone
  · intro id hid
    obtain ⟨ks, hks, hnew⟩ := hs.since ht hlater
    rw [hks, Archive.find_prepend]
    intro k hk hmem
    exact hnew k hk (List.mem_singleton.mp hmem ▸ hid)
  · exact fun x hx => ⟨ht.new x hx, ht.records x hx⟩

/-! ## Two workers on one id -/

namespace Race

def config : Config := ⟨2, .service, ⟨true, true⟩⟩

def start : World :=
  .start (.table ⟨[⟨⟨7, "a"⟩, 1⟩, ⟨⟨7, "b"⟩, 2⟩]⟩) (.memory ⟨[]⟩) .green

/-- Both workers find the id absent, and the second is the first to store its killmail. -/
def before : List Event :=
  List.replicate 10 .loop ++ [.work 0 .done, .work 1 .done, .work 0 (.fetched (.ok bodyOfSeven)),
    .work 1 (.fetched (.ok bodyOfSeven)), .work 1 .done, .work 0 .done]

/-- Another item of that id comes in, and both workers end. -/
def after : List Event :=
  [.work 0 .done, .push ⟨7, "c"⟩ 3, .work 0 .done, .work 1 .fails, .work 1 .done, .work 1 .done,
    .work 1 .done]

theorem reaches_before_after :
    (importer config).reaches NoCrash start before (fun s =>
      decide (7 ∈ s.depot.archive.ids) && (importer config).reaches NoCrash s after (fun t =>
        t.workers.isEmpty && decide (t.depot.stores.map Prod.fst = [⟨7, "b"⟩]))) = true := by
  decide +kernel

/-- Both runs are possible, and what they say of the import is what the theorem says. -/
theorem imported_exactly_once_of_race :
    ∃ j s j' t, (importer config).Run NoCrash start j s ∧ (importer config).Run NoCrash s j' t ∧
      7 ∈ s.depot.archive.ids ∧ t.workers = [] ∧ t.depot.importedIds.Nodup ∧
      t.depot.storedIds = t.depot.importedIds ∧ t.depot.observedIds = t.depot.importedIds ∧
      t.depot.backedUpIds = t.depot.importedIds ∧ (⟨7, "b"⟩, .imported) ∈ t.depot.outcomes := by
  obtain ⟨j, s, h, hs⟩ := Machine.exists_run_of_reaches reaches_before_after
  rw [Bool.and_eq_true, decide_eq_true_eq] at hs
  obtain ⟨j', t, h', ht⟩ := Machine.exists_run_of_reaches hs.2
  rw [Bool.and_eq_true, List.isEmpty_iff, decide_eq_true_eq] at ht
  obtain ⟨hnodup, hsettled, -⟩ := imported_exactly_once h h'
  obtain ⟨hids, hobserved, hbacked, hstores⟩ := hsettled (fun _ _ hok => hok) ht.1
  obtain ⟨x, hx, hitem⟩ : ∃ x ∈ t.depot.stores, x.1 = ⟨7, "b"⟩ := by
    rw [← List.mem_map, ht.2]
    exact List.mem_singleton.mpr rfl
  exact ⟨j, s, j', t, h, h', hs.1, ht.1, hnodup, hids, hobserved, hbacked, hitem ▸ hstores x hx⟩

end Race

end Harvest.Import
