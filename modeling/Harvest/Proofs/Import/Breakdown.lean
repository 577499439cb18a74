import Harvest.Proofs.Import.Conservation

/-! # Breakdowns of workers

A worker that breaks down ends where it stands. Its slot is free again and the loop goes on, but the
count of items in flight was to be lowered by the last step of that worker, which is never taken. So
the count stays one too high for each worker that has broken down, as long as the importer lives.

The journal of an importer is silent about breakdowns; here they are noticed, so that what was taken
off the queue can be told to be handled, done with, or given up by a breakdown.

## Main definitions

* `Notice`, `watched`: the importer as a machine whose breakdowns are noticed.
* `World.handling`: the items taken off the queue whose worker has not ended.

## Main statements

* `World.Accounted.step`: what a step does to the account.
* `accounted_of_run`: every item taken is being handled, done with or given up, and the count is the
  number of those being handled and of those given up.
-/

namespace Harvest.Import

/-! ## Notices -/

/-- What is noticed of a step. -/
inductive Notice where
  | mark (m : Mark)
  /-- The worker breaks down. -/
  | broke (n : Nat) (w : WorkItem)

/-- What is noticed of an event, next to what the journal says of it. -/
def World.noticed (s : World) (m : Option Mark) : Event → Option Notice
  | .crash n => (s.worker? n).map fun w => .broke w.number w.item
  | _ => m.map .mark

/-- The importer as a machine whose breakdowns are noticed. -/
def watched (c : Config) : Machine World Event Notice where
  next? s e := s.next? c e
  mark? s e := s.noticed (s.mark? e) e

namespace Notice

/-- The item that is taken off the queue. -/
def taken? : Notice → Option Ticket
  | .mark (.taken n w) => some (n, w)
  | _ => none

/-- The item whose worker leaves. -/
def left? : Notice → Option Ticket
  | .mark (.left n w) => some (n, w)
  | _ => none

/-- The item whose worker breaks down. -/
def broke? : Notice → Option Ticket
  | .broke n w => some (n, w)
  | .mark _ => none

end Notice

/-- What is noticed of items in one way. -/
def gather (f : Notice → Option Ticket) (l : List Notice) : Multiset Ticket := l.filterMap f

theorem gather_append (f : Notice → Option Ticket) (l k : List Notice) :
    gather f (l ++ k) = gather f l + gather f k := by
  rw [gather, List.filterMap_append, ← Multiset.coe_add]
  rfl

/-! ## The account -/

def Worker.ticket (w : Worker) : Ticket := (w.number, w.item)

/-- The loop has raised the count and does not have an item in its hand. -/
def Loop.asking : Loop → Nat
  | .entered | .empty | .broken => 1
  | _ => 0

theorem Loop.raised_eq (l : Loop) (n : Nat) : l.raised = (l.inHand n).card + l.asking := by
  cases l <;> rfl

/-- A worker that takes a step of its handling neither takes an item nor ends. -/
theorem Worker.unnoticed {p : Parties} {w : Worker} {d d' : Depot} {st : Stage} {a : Answer}
    (h : w.stage.Move p w.item d a d' st) :
    gather Notice.taken? ((w.mark? d a).map .mark).toList = 0 ∧
      gather Notice.left? ((w.mark? d a).map .mark).toList = 0 ∧
      gather Notice.broke? ((w.mark? d a).map .mark).toList = 0 := by
  obtain ⟨n, item, stage⟩ := w
  cases h with
  | store hk =>
    simp only [Worker.mark?, if_neg hk]
    exact ⟨rfl, rfl, rfl⟩
  | duplicate hk =>
    simp only [Worker.mark?, if_pos hk]
    exact ⟨rfl, rfl, rfl⟩
  | _ => exact ⟨rfl, rfl, rfl⟩

namespace World

variable {c : Config} {s t : World} {e : Event} {m : Option Mark} {l : List Notice}

/-- The items taken off the queue whose worker has not ended; the worker of the last may be still to
come. -/
def handling (s : World) : Multiset Ticket := s.loop.inHand s.made + s.crew.map Worker.ticket

theorem card_handling (s : World) :
    s.handling.card + s.loop.asking = s.crew.card + s.loop.raised := by
  rw [handling, Multiset.card_add, Multiset.card_map, s.loop.raised_eq s.made]
  omega

/-- What was taken is being handled, done with, or given up, and the count is too high by as many as
were given up. -/
structure Accounted (l : List Notice) (s : World) : Prop where
  taken : gather Notice.taken? l = s.handling + gather Notice.left? l + gather Notice.broke? l
  count : s.Overcounted (gather Notice.broke? l).card

theorem Accounted.start (q : Queue) (a : Archive) (admission : Admission.State) :
    (World.start q a admission).Accounted [] where
  taken := rfl
  count := rfl

/-- One breakdown is noticed for each. -/
theorem Step.card_broke (h : s.Step c e m t) :
    (gather Notice.broke? (s.noticed m e).toList).card = e.breakdowns := by
  cases h with
  | turn h => cases h <;> rfl
  | @work n a w d st hw h => cases hm : w.mark? s.depot a <;> rfl
  | crash hw =>
    rw [noticed, hw]
    rfl
  | _ => rfl

theorem handling_eq (hl : t.loop.inHand t.made = s.loop.inHand s.made) (hc : t.crew = s.crew) :
    t.handling = s.handling := by
  rw [handling, handling, hl, hc]

/-- What a step does to the items that are being handled. -/
theorem Step.handling (ht : s.Tidy c) (h : s.Step c e m t) :
    gather Notice.taken? (s.noticed m e).toList + s.handling =
      t.handling + gather Notice.left? (s.noticed m e).toList +
        gather Notice.broke? (s.noticed m e).toList := by
  -- a step that is noticed for no item leaves what is handled as it is
  have hquiet (k : List Notice) (hheld : t.handling = s.handling)
      (hk : gather Notice.taken? k = 0 ∧ gather Notice.left? k = 0 ∧ gather Notice.broke? k = 0) :
      gather Notice.taken? k + s.handling =
        t.handling + gather Notice.left? k + gather Notice.broke? k := by
    obtain ⟨htaken, hleft, hbroke⟩ := hk
    rw [htaken, hleft, hbroke, hheld, zero_add, add_zero, add_zero]
  cases h with
  | turn h =>
    obtain ⟨hbefore, hafter⟩ := h.raised
    refine hquiet _ (handling_eq ?_ rfl) ?_
    · rw [Loop.inHand_of_raised hbefore, Loop.inHand_of_raised hafter]
    · cases h <;> exact ⟨rfl, rfl, rfl⟩
  | enter h | popFails h | finish h | idle h | recover h | miss h | spoil h =>
    refine hquiet _ (handling_eq ?_ rfl) ⟨rfl, rfl, rfl⟩
    rw [h]
    rfl
  | pushNew | pushAgain | setAdmission | stop =>
    exact hquiet _ rfl ⟨rfl, rfl, rfl⟩
  | @take q w h hq =>
    rw [World.handling, World.handling, h]
    show {(s.made, w)} + (0 + s.crew.map Worker.ticket) =
      {(s.made, w)} + s.crew.map Worker.ticket + 0 + 0
    abel
  | @spawn w h =>
    -- the item goes from the hand of the loop to the new worker
    refine hquiet _ ?_ ⟨rfl, rfl, rfl⟩
    rw [World.handling, World.handling, crew_spawn, Multiset.map_cons, h]
    show 0 + (s.made, w) ::ₘ s.crew.map Worker.ticket = {(s.made, w)} + s.crew.map Worker.ticket
    rw [zero_add, Multiset.singleton_add]
  | @work n a w d st hw h =>
    obtain ⟨rest, hcrew, -, hset⟩ := ht.split hw
    refine hquiet _ ?_ ?_
    · have hafter : World.handling ({ s with depot := d }.setStage n st) =
          s.loop.inHand s.made + (s.setStage n st).crew.map Worker.ticket := rfl
      rw [hafter, World.handling, hset, hcrew, Multiset.map_cons, Multiset.map_cons]
      rfl
    · exact Worker.unnoticed h
  | @leave n a w hw h =>
    obtain ⟨rest, hcrew, hretire, -⟩ := ht.split hw
    have hafter : World.handling { s.retire n with inFlight := s.inFlight - 1 } =
        s.loop.inHand s.made + (s.retire n).crew.map Worker.ticket := rfl
    rw [hafter, World.handling, hretire, hcrew, Multiset.map_cons]
    show 0 + (_ + w.ticket ::ₘ rest.map Worker.ticket) = _ + {w.ticket} + 0
    rw [← Multiset.singleton_add]
    abel
  | @crash n w hw =>
    obtain ⟨rest, hcrew, hretire, -⟩ := ht.split hw
    have hafter : (s.retire n).handling =
        s.loop.inHand s.made + (s.retire n).crew.map Worker.ticket := rfl
    rw [hafter, World.handling, hretire, hcrew, Multiset.map_cons, noticed, hw]
    show 0 + (_ + w.ticket ::ₘ rest.map Worker.ticket) = _ + 0 + {w.ticket}
    rw [← Multiset.singleton_add]
    abel

/-- A step changes both sides of the account alike. -/
theorem Accounted.step (ht : s.Tidy c) (hs : s.Accounted l) (h : s.Step c e m t) :
    t.Accounted (l ++ (s.noticed m e).toList) where
  taken := by
    rw [gather_append, gather_append, gather_append, hs.taken]
    calc s.handling + gather Notice.left? l + gather Notice.broke? l
          + gather Notice.taken? (s.noticed m e).toList
        = (gather Notice.taken? (s.noticed m e).toList + s.handling) + gather Notice.left? l
            + gather Notice.broke? l := by abel
      _ = _ := by rw [h.handling ht]; abel
  count := by
    rw [gather_append, Multiset.card_add, h.card_broke]
    exact hs.count.step ht h

end World

/-! ## Along runs -/

variable {c : Config} {ok : World → Event → Prop} {q : Queue} {a : Archive}
  {admission : Admission.State} {s : World} {l : List Notice}

theorem accounted_of_run (h : (watched c).Run ok (.start q a admission) l s) :
    s.Tidy c ∧ s.Accounted l := by
  induction h with
  | nil => exact ⟨.start q a admission, .start q a admission⟩
  | snoc _ _ step ih =>
    have hstep := World.step_of_next? step
    exact ⟨ih.1.step hstep, ih.2.step ih.1 hstep⟩

/-- The count of items in flight, whatever has become of the workers. -/
theorem inFlight_of_run (h : (watched c).Run ok (.start q a admission) l s) :
    s.inFlight = s.handling.card + (gather Notice.broke? l).card + s.loop.asking := by
  have hcount := (accounted_of_run h).2.count
  rw [World.Overcounted, ← World.card_handling] at hcount
  rw [hcount, Nat.add_right_comm]

theorem handling_of_stopped (h : (watched c).Run ok (.start q a admission) l s)
    (hl : s.loop = .stopped) : s.handling = 0 := by
  have hworkers := (accounted_of_run h).1.stopped hl
  rw [World.handling, World.crew, hworkers, hl]
  rfl

end Harvest.Import
