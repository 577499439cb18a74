import Harvest.Proofs.Import.Crew

/-! # How far an item has come

What the journal of a run says of an item is borne out by the state that the run has come to. An
item that was queued is queued still or was taken. An item that was taken is in the hand of the
loop, or with a worker, or its worker has left and the journal tells of its outcome before.

A worker that has left is never heard of again: its number is not given to another. So what it has
stored is in the archive by then, and stays there.

## Main statements

* `queued_or_taken`: an item does not vanish from the queue.
* `recorded_of_run`: what becomes of an item that was taken.
* `World.Recorded.left`: where nothing is in flight, whatever was taken has left.
* `archive_of_run`: what the journal says was stored is in the archive.
* `gone_of_run`: the journal does not speak of a worker that has left.
-/

namespace Harvest.Import

/-! ## Workers that have left -/

/-- The worker that a mark is about. -/
def Mark.number? : Mark → Option Nat
  | .taken n _ | .stored n _ _ | .counted n _ _ | .left n _ => some n
  | .queued _ | .rescored _ => none

theorem Worker.number_of_mark? {w : Worker} {d : Depot} {a : Answer} {m : Mark}
    (h : w.mark? d a = some m) : m.number? = some w.number := by
  unfold Worker.mark? at h
  split at h
  · split at h
    · cases h
    · cases h
      rfl
  · cases h
    rfl
  · cases h
    rfl
  · cases h

namespace World

variable {c : Config} {s t : World} {e : Event} {m : Option Mark} {j : List Mark} {n : Nat}
  {w : WorkItem}

/-- There has been a worker of the number, and it has left. -/
def Gone (n : Nat) (s : World) : Prop := n < s.made ∧ ∀ v ∈ s.workers, v.number ≠ n

/-- Numbers are not given again. -/
theorem Gone.step (hs : s.Gone n) (h : s.Step c e m t) : t.Gone n := by
  obtain ⟨hlt, hnone⟩ := hs
  cases h with
  | @spawn w h =>
    refine ⟨Nat.lt_succ_of_lt hlt, ?_⟩
    intro v hv
    rcases mem_workers_spawn.mp hv with hv | rfl
    · exact hnone v hv
    -- the next number is above all numbers given
    · show s.made ≠ n
      omega
  | work hw h =>
    refine ⟨hlt, ?_⟩
    intro v hv
    obtain ⟨u, hu, heq⟩ := mem_workers_setStage hv
    exact heq ▸ hnone u hu
  | leave hw h | crash hw => exact ⟨hlt, fun v hv => hnone v (mem_workers_retire.mp hv).1⟩
  | _ => exact ⟨hlt, hnone⟩

/-- No step is one of a worker that has left. -/
theorem Gone.number_ne (hs : s.Gone n) (h : s.Step c e m t) : ∀ x ∈ m, x.number? ≠ some n := by
  obtain ⟨hlt, hnone⟩ := hs
  intro x hx
  cases h with
  | take =>
    -- the worker to come gets a number that no worker has had
    cases hx
    intro heq
    have hmade : s.made = n := Option.some.inj heq
    omega
  | work hw h =>
    rw [Worker.number_of_mark? hx]
    intro heq
    exact hnone _ (mem_of_worker? hw).1 (Option.some.inj heq)
  | leave hw h =>
    cases hx
    intro heq
    exact hnone _ (mem_of_worker? hw).1 (Option.some.inj heq)
  | pushNew | pushAgain =>
    cases hx
    simp [Mark.number?]
  | _ => cases hx

end World

/-! ## Items that were taken -/

/-- The journal tells the outcome of a worker that is about to leave. -/
def Worker.Recorded (j : List Mark) (v : Worker) : Prop :=
  match v.stage with
  | .leave => ∃ o, [.taken v.number v.item, .counted v.number v.item o].Sublist j
  | _ => True

theorem Worker.Recorded.append {j : List Mark} {v : Worker} (h : v.Recorded j) (k : List Mark) :
    v.Recorded (j ++ k) := by
  unfold Recorded at *
  split at h
  · obtain ⟨o, ho⟩ := h
    exact ⟨o, ho.trans (List.sublist_append_left j k)⟩
  · trivial

/-- A step that leaves a worker about to leave has counted its outcome. -/
theorem Worker.Recorded.move {p : Parties} {v : Worker} {d d' : Depot} {st : Stage} {a : Answer}
    {j : List Mark} (h : v.stage.Move p v.item d a d' st) (hj : .taken v.number v.item ∈ j) :
    Worker.Recorded (j ++ (v.mark? d a).toList) { v with stage := st } := by
  obtain ⟨n, item, stage⟩ := v
  cases h with
  | @count o => exact ⟨o, (List.singleton_sublist.mpr hj).append (List.Sublist.refl _)⟩
  | @store k body => rcases p.afterStore_cases k body with h | h | h <;> rw [h] <;> trivial
  | @backup k => rcases p.afterBackup_cases k with h | h <;> rw [h] <;> trivial
  | _ => trivial

namespace World

variable {c : Config} {s t : World} {e : Event} {m : Option Mark} {j : List Mark} {n : Nat}
  {w : WorkItem}

/-- What has become of an item that was taken for a worker. -/
inductive Fate (j : List Mark) (n : Nat) (w : WorkItem) (s : World) : Prop where
  | inHand (h : s.loop = .spawning w) (hn : s.made = n)
  | atWork {v : Worker} (hv : v ∈ s.workers) (hn : v.number = n) (hw : v.item = w)
      (h : v.Recorded j)
  | left {o : Outcome} (hn : s.Gone n)
      (h : [.taken n w, .counted n w o, .left n w].Sublist j)

/-- A step that keeps what the loop holds and the workers keeps the fate of an item. -/
theorem Fate.quiet {k : List Mark} (hs : s.Fate j n w)
    (hloop : s.loop = .spawning w → t.loop = .spawning w ∧ t.made = s.made)
    (hworkers : ∀ v ∈ s.workers, v ∈ t.workers) (hgone : s.Gone n → t.Gone n) :
    t.Fate (j ++ k) n w := by
  cases hs with
  | inHand h hn =>
    obtain ⟨hl, hmade⟩ := hloop h
    exact .inHand hl (hmade.trans hn)
  | atWork hv hn hw h => exact .atWork (hworkers _ hv) hn hw (h.append k)
  | left hn h => exact .left (hgone hn) (h.trans (List.sublist_append_left j k))

theorem Fate.spawn {k : List Mark} (hs : s.Fate j n w) {x : WorkItem} (h : s.loop = .spawning x)
    (hgone : s.Gone n → (s.spawn x).Gone n) : (s.spawn x).Fate (j ++ k) n w := by
  cases hs with
  | inHand hl hn =>
    -- what the loop held is with the new worker
    have hx : x = w := Loop.spawning.inj (h.symm.trans hl)
    exact .atWork (mem_workers_spawn.mpr (.inr rfl)) hn hx trivial
  | atWork hv hn hw hrec => exact .atWork (mem_workers_spawn.mpr (.inl hv)) hn hw (hrec.append k)
  | left hn hsub => exact .left (hgone hn) (hsub.trans (List.sublist_append_left j k))

theorem Fate.work (hs : s.Fate j n w) (ht : s.Tidy c) (hj : .taken n w ∈ j) {n' : Nat} {a : Answer}
    {v : Worker} {d : Depot} {st : Stage} (hv : s.worker? n' = some v)
    (h : v.stage.Move c.parties v.item s.depot a d st)
    (hgone : s.Gone n → Gone n ({ s with depot := d }.setStage n' st)) :
    Fate (j ++ (v.mark? s.depot a).toList) n w ({ s with depot := d }.setStage n' st) := by
  obtain ⟨hself, hothers⟩ := ht.setStage_mem hv st
  cases hs with
  | inHand hl hn => exact .inHand hl hn
  | @atWork u hu hn hw hrec =>
    rcases hothers u hu with rfl | hu
    · exact .atWork hself hn hw (.move h (by rwa [hn, hw]))
    · exact .atWork hu hn hw (hrec.append _)
  | left hn hsub => exact .left (hgone hn) (hsub.trans (List.sublist_append_left _ _))

/-- A worker that leaves has had its outcome counted. -/
theorem Fate.leave (hs : s.Fate j n w) (ht : s.Tidy c) {n' : Nat} {v : Worker}
    (hv : s.worker? n' = some v) (h : v.stage = .leave) (hgone : s.Gone n → (s.retire n').Gone n) :
    Fate (j ++ [.left v.number v.item]) n w { s.retire n' with inFlight := s.inFlight - 1 } := by
  obtain ⟨hmem, hnumber⟩ := mem_of_worker? hv
  cases hs with
  | inHand hl hn => exact .inHand hl hn
  | @atWork u hu hn hw hrec =>
    by_cases heq : u.number = n'
    · -- numbers are distinct, so this is the worker that leaves
      have huv : u = v := ht.eq_of_number hu hmem (heq.trans hnumber.symm)
      subst huv
      rw [Worker.Recorded, h] at hrec
      obtain ⟨o, ho⟩ := hrec
      subst hn hw
      refine .left ⟨ht.lt_made u hmem, ?_⟩ (ho.append (List.Sublist.refl _))
      intro x hx
      exact heq ▸ (mem_workers_retire.mp hx).2
    · exact .atWork (mem_workers_retire.mpr ⟨hu, heq⟩) hn hw (hrec.append _)
  | left hn hsub => exact .left (hgone hn) (hsub.trans (List.sublist_append_left _ _))

/-- The journal is borne out: every item that it says was taken has met with its fate. -/
def Recorded (j : List Mark) (s : World) : Prop := ∀ n w, .taken n w ∈ j → s.Fate j n w

theorem inHand_of_taken (h : s.Step c e m t) (hm : .taken n w ∈ m.toList) :
    t.loop = .spawning w ∧ t.made = n := by
  cases h with
  | take =>
    cases List.mem_singleton.mp hm
    exact ⟨rfl, rfl⟩
  | @work _ a v _ _ _ _ =>
    have hmark : v.mark? s.depot a = some (.taken n w) := Option.mem_toList.mp hm
    unfold Worker.mark? at hmark
    split at hmark
    · split at hmark <;> cases hmark
    all_goals cases hmark
  | leave | pushNew | pushAgain => cases List.mem_singleton.mp hm
  | _ => cases hm

/-- Every step bears the journal out. -/
theorem Recorded.step (hs : s.Recorded j) (ht : s.Tidy c) (h : s.Step c e m t)
    (hok : NoCrash s e) : t.Recorded (j ++ m.toList) := by
  intro n w hj
  rcases List.mem_append.mp hj with hold | hnew
  · have hfate := hs n w hold
    have hgone : s.Gone n → t.Gone n := fun hn => hn.step h
    cases h with
    | turn h =>
      refine hfate.quiet ?_ (fun v hv => hv) hgone
      intro hl
      -- the loop has nothing in its hand where it takes a turn
      have hraised := h.raised.1
      rw [hl] at hraised
      cases hraised
    | enter h | take h | miss h | spoil h | popFails h | finish h | idle h | recover h =>
      refine hfate.quiet ?_ (fun v hv => hv) hgone
      intro hl
      rw [h] at hl
      cases hl
    | spawn h => exact hfate.spawn h hgone
    | work hv h => exact hfate.work ht hold hv h hgone
    | leave hv h => exact hfate.leave ht hv h hgone
    | crash => exact hok.elim
    | pushNew | pushAgain | setAdmission | stop =>
      exact hfate.quiet (fun hl => ⟨hl, rfl⟩) (fun v hv => hv) hgone
  · obtain ⟨hl, hn⟩ := inHand_of_taken h hnew
    exact .inHand hl hn

/-- Where nothing is in flight, whatever was taken has left. -/
theorem Recorded.left (hs : s.Recorded j) (hcounted : s.Counted) (hzero : s.inFlight = 0)
    (hj : .taken n w ∈ j) :
    s.Gone n ∧ ∃ o, [.taken n w, .counted n w o, .left n w].Sublist j := by
  unfold Counted at hcounted
  rw [hzero] at hcounted
  -- whoever had the item in hand would be in flight
  cases hs n w hj with
  | inHand h =>
    rw [h] at hcounted
    change 0 = s.crew.card + 1 at hcounted
    omega
  | atWork hv =>
    have hpos : 0 < s.crew.card := Multiset.card_pos_iff_exists_mem.mpr ⟨_, hv⟩
    omega
  | left hn h => exact ⟨hn, _, h⟩

/-! ## Items that are queued -/

/-- An item does not vanish from the queue. -/
theorem queued_or_taken_of_step (h : s.Step c e m t) (hok : Unharmed s e)
    (hw : w ∈ s.queue.items) : w ∈ t.queue.items ∨ ∃ n, .taken n w ∈ m.toList := by
  cases h with
  | take _ hq =>
    rcases (Queue.mem_items_popMin hq).2 w hw with rfl | hrest
    · exact .inr ⟨s.made, List.mem_singleton.mpr rfl⟩
    · exact .inl hrest
  | miss _ hq =>
    rw [← (Queue.items_of_popMin_none hq).1] at hw
    exact .inl hw
  | spoil h hq => exact absurd ⟨h, Queue.spoils_of_popMin hq⟩ hok
  | pushNew | pushAgain => exact .inl (Queue.mem_items_push.mpr (.inr hw))
  | _ => exact .inl hw

/-! ## What was stored -/

/-- An archive only grows, and by what the journal says was stored. -/
theorem archive_of_step (h : s.Step c e m t) :
    ∃ ks, t.depot.archive = s.depot.archive.prepend ks ∧
      ∀ n w k, .stored n w k ∈ m.toList → k ∈ ks := by
  cases h with
  | @work _ a v d st _ h =>
    obtain ⟨number, item, stage⟩ := v
    cases h with
    | @store k body hk =>
      -- the insertion of an absent id is the only step with this mark
      refine ⟨[k], rfl, ?_⟩
      intro n w k' hm
      simp only [Worker.mark?, if_neg hk] at hm
      cases List.mem_singleton.mp hm
      exact List.mem_singleton.mpr rfl
    | @duplicate k _ hk =>
      refine ⟨[], (Archive.prepend_nil _).symm, ?_⟩
      intro n w k' hm
      simp only [Worker.mark?, if_pos hk] at hm
      cases hm
    | count =>
      refine ⟨[], (Archive.prepend_nil _).symm, ?_⟩
      intro n w k' hm
      cases List.mem_singleton.mp hm
    | _ => exact ⟨[], (Archive.prepend_nil _).symm, fun n w k' hm => by cases hm⟩
  | take | leave | pushNew | pushAgain =>
    refine ⟨[], (Archive.prepend_nil _).symm, ?_⟩
    intro n w k' hm
    cases List.mem_singleton.mp hm
  | _ => exact ⟨[], (Archive.prepend_nil _).symm, fun n w k' hm => by cases hm⟩

end World

/-! ## Along runs -/

variable {c : Config} {ok : World → Event → Prop} {s t : World} {j : List Mark} {n : Nat}
  {w : WorkItem}

theorem recorded_of_run (hok : ∀ s e, ok s e → NoCrash s e) (hs : s.Tidy c)
    (h : (importer c).Run ok s j t) : t.Tidy c ∧ t.Recorded j := by
  refine run_induction ?_ h hs fun n w hj => by cases hj
  intro j s e m t htidy allowed hstep hrec
  exact hrec.step htidy hstep (hok _ _ allowed)

theorem queued_or_taken (h : (importer c).Run Unharmed s j t) (hw : w ∈ s.queue.items) :
    w ∈ t.queue.items ∨ ∃ n, .taken n w ∈ j := by
  induction h with
  | nil => exact .inl hw
  | snoc _ allowed step ih =>
    have hstep := World.step_of_next? step
    rcases ih with hqueue | ⟨n, hn⟩
    · rcases World.queued_or_taken_of_step hstep allowed hqueue with h | ⟨n, hn⟩
      · exact .inl h
      · exact .inr ⟨n, List.mem_append_right _ hn⟩
    · exact .inr ⟨n, List.mem_append_left _ hn⟩

/-- The journal does not speak of a worker that has left. -/
theorem gone_of_run (h : (importer c).Run ok s j t) (hs : s.Gone n) :
    t.Gone n ∧ ∀ x ∈ j, x.number? ≠ some n := by
  induction h with
  | nil => exact ⟨hs, fun x hx => by cases hx⟩
  | snoc _ _ step ih =>
    have hstep := World.step_of_next? step
    refine ⟨ih.1.step hstep, ?_⟩
    intro x hx
    rcases List.mem_append.mp hx with hx | hx
    · exact ih.2 x hx
    · exact ih.1.number_ne hstep x (Option.mem_toList.mp hx)

theorem archive_of_run (h : (importer c).Run ok s j t) :
    ∃ ks, t.depot.archive = s.depot.archive.prepend ks ∧
      ∀ n w k, .stored n w k ∈ j → k ∈ ks := by
  induction h with
  | nil => exact ⟨[], (Archive.prepend_nil _).symm, fun n w k hj => by cases hj⟩
  | snoc _ _ step ih =>
    obtain ⟨ks, hks, hj⟩ := ih
    obtain ⟨ls, hls, hm⟩ := World.archive_of_step (World.step_of_next? step)
    refine ⟨ls ++ ks, by rw [hls, hks, Archive.prepend_prepend], ?_⟩
    intro n w k hmem
    rcases List.mem_append.mp hmem with hmem | hmem
    · exact List.mem_append_right _ (hj n w k hmem)
    · exact List.mem_append_left _ (hm n w k hmem)

end Harvest.Import
