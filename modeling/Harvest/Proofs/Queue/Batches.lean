import Harvest.Queue.Dispatch
import Harvest.Queue.Faulty

/-! # Batches are one pass

Items that are dispatched in batches are pushed one after another, as they would be without
batches, as long as the clock does not move: then all chunks have the same score. A push that fails
ends the pass within its chunk, and no later chunk is begun. So the size of the batches does not
matter, neither for the queue nor for the answer.

## Main definitions

* `Pushes`: each item of a list is pushed, in its turn.
* `StopsAt`: the same up to an item whose push fails.

## Main statements

* `pushes_or_stopsAt`: a pass reaches the end of the list or is stopped.
* `Pushes.pushChunks_eq`, `StopsAt.pushChunks_eq`: chunks are passed over as one list.
* `dispatch_in_one_pass`: how a dispatch in batches ends, and that their size does not matter.
-/

namespace Harvest

open Calendar

/-- Pushing each item in its turn, with one score, leads from a queue to another. -/
inductive Pushes {σ : Type} (push : Pushing σ) (score : Int) : σ → List WorkItem → σ → Prop where
  | nil (q : σ) : Pushes push score q [] q
  | cons {q q' r : σ} {w : WorkItem} {ws : List WorkItem} (first : push q w score = .ok q')
      (rest : Pushes push score q' ws r) : Pushes push score q (w :: ws) r

/-- Pushing each item in its turn, with one score, leads to a queue on which the push of the next
item fails. -/
def StopsAt {σ : Type} (push : Pushing σ) (score : Int) (q : σ) (ws : List WorkItem) (q' : σ)
    (e : QueueError) : Prop :=
  ∃ before w after, ws = before ++ w :: after ∧ Pushes push score q before q' ∧
    push q' w score = .error e

variable {σ : Type} {push : Pushing σ} {score : Int} {clock : Nat → Instant} {now : Instant}
  {q q' r : σ} {vs ws : List WorkItem} {w : WorkItem} {e : QueueError} {n : Nat}

/-! ## Passing over a list -/

theorem pushes_append_iff :
    Pushes push score q (vs ++ ws) r ↔
      ∃ q', Pushes push score q vs q' ∧ Pushes push score q' ws r := by
  induction vs generalizing q with
  | nil =>
    constructor
    · exact fun h => ⟨q, .nil q, h⟩
    · rintro ⟨_, hnil, h⟩
      cases hnil
      exact h
  | cons v vs ih =>
    constructor
    · intro h
      cases h with
      | cons first rest =>
        obtain ⟨q', hvs, hws⟩ := ih.mp rest
        exact ⟨q', .cons first hvs, hws⟩
    · rintro ⟨q', hvs, hws⟩
      cases hvs with
      | cons first rest => exact .cons first (ih.mpr ⟨q', rest, hws⟩)

theorem not_stopsAt_nil : ¬ StopsAt push score q [] r e := by
  rintro ⟨before, w, after, hnil, -⟩
  cases before <;> cases hnil

/-- A pass stops at its first item, or is stopped on the rest. -/
theorem stopsAt_cons_iff : StopsAt push score q (w :: ws) r e ↔
    push q w score = .error e ∧ r = q ∨
      ∃ q', push q w score = .ok q' ∧ StopsAt push score q' ws r e := by
  constructor
  · rintro ⟨before, v, after, heq, hbefore, herror⟩
    cases hbefore with
    | nil =>
      cases heq
      exact .inl ⟨herror, rfl⟩
    | cons first rest =>
      cases heq
      exact .inr ⟨_, first, _, v, after, rfl, rest, herror⟩
  · rintro (⟨herror, rfl⟩ | ⟨q', first, before, v, after, rfl, hbefore, herror⟩)
    · exact ⟨[], w, ws, rfl, .nil _, herror⟩
    · exact ⟨w :: before, v, after, rfl, .cons first hbefore, herror⟩

theorem stopsAt_append_iff : StopsAt push score q (vs ++ ws) r e ↔
    StopsAt push score q vs r e ∨
      ∃ q', Pushes push score q vs q' ∧ StopsAt push score q' ws r e := by
  -- the item whose push fails is in the first list, or all of that list is pushed
  induction vs generalizing q with
  | nil =>
    rw [List.nil_append, or_iff_right not_stopsAt_nil]
    constructor
    · exact fun h => ⟨q, .nil q, h⟩
    · rintro ⟨_, hnil, h⟩
      cases hnil
      exact h
  | cons v vs ih =>
    rw [List.cons_append, stopsAt_cons_iff, stopsAt_cons_iff]
    constructor
    · rintro (h | ⟨q', first, h⟩)
      · exact .inl (.inl h)
      · rcases ih.mp h with h | ⟨q'', hvs, h⟩
        · exact .inl (.inr ⟨q', first, h⟩)
        · exact .inr ⟨q'', .cons first hvs, h⟩
    · rintro ((h | ⟨q', first, h⟩) | ⟨q'', hvs, h⟩)
      · exact .inl h
      · exact .inr ⟨q', first, ih.mpr (.inl h)⟩
      · cases hvs with
        | cons first rest => exact .inr ⟨_, first, ih.mpr (.inr ⟨q'', rest, h⟩)⟩

/-- A pass reaches the end of the list or is stopped. -/
theorem pushes_or_stopsAt (push : Pushing σ) (score : Int) (q : σ) (ws : List WorkItem) :
    (∃ r, Pushes push score q ws r) ∨ ∃ r e, StopsAt push score q ws r e := by
  induction ws generalizing q with
  | nil => exact .inl ⟨q, .nil q⟩
  | cons w ws ih =>
    cases first : push q w score with
    | error e => exact .inr ⟨q, e, stopsAt_cons_iff.mpr (.inl ⟨first, rfl⟩)⟩
    | ok q' =>
      rcases ih q' with ⟨r, h⟩ | ⟨r, e, h⟩
      · exact .inl ⟨r, .cons first h⟩
      · exact .inr ⟨r, e, stopsAt_cons_iff.mpr (.inr ⟨q', first, h⟩)⟩

theorem Pushes.pushAll_eq (h : Pushes push score q ws r) :
    pushAll push score q ws = (r, .ok ws.length) := by
  induction h with
  | nil => rfl
  | cons first _ ih => simp only [pushAll, first, ih, List.length_cons]

theorem StopsAt.pushAll_eq (h : StopsAt push score q ws r e) :
    pushAll push score q ws = (r, .error e) := by
  induction ws generalizing q with
  | nil => exact absurd h not_stopsAt_nil
  | cons w ws ih =>
    rcases stopsAt_cons_iff.mp h with ⟨herror, rfl⟩ | ⟨q', first, hrest⟩
    · simp only [pushAll, herror]
    · simp only [pushAll, first, ih hrest]

/-! ## Passing over chunks -/

theorem Pushes.pushChunks_eq {cs : List (List WorkItem)} (hstill : ∀ i, clock i = now)
    (h : Pushes push (dispatchScore now) q cs.flatten r) :
    pushChunks push clock q cs = (r, .ok cs.flatten.length) := by
  -- each chunk is left a clock whose first reading is gone, which does not move either
  induction cs generalizing q clock with
  | nil => cases h; rfl
  | cons c cs ih =>
    obtain ⟨q', hc, hcs⟩ := pushes_append_iff.mp h
    simp only [pushChunks, hstill 0, hc.pushAll_eq, ih (fun i => hstill (i + 1)) hcs,
      List.flatten_cons, List.length_append]

/-- No chunk behind the one that holds the item is begun. -/
theorem StopsAt.pushChunks_eq {cs : List (List WorkItem)} (hstill : ∀ i, clock i = now)
    (h : StopsAt push (dispatchScore now) q cs.flatten r e) :
    pushChunks push clock q cs = (r, .error e) := by
  induction cs generalizing q clock with
  | nil => exact absurd h not_stopsAt_nil
  | cons c cs ih =>
    rcases stopsAt_append_iff.mp h with hc | ⟨q', hc, hcs⟩
    · simp only [pushChunks, hstill 0, hc.pushAll_eq]
    · simp only [pushChunks, hstill 0, hc.pushAll_eq, ih (fun i => hstill (i + 1)) hcs]

theorem Pushes.dispatchBatches_eq (hstill : ∀ i, clock i = now)
    (h : Pushes push (dispatchScore now) q ws r) (batch : Nat) :
    dispatchBatches push clock q ws batch = (r, .ok ws.length) := by
  rw [← flatten_chunksOf batch ws] at h
  rw [dispatchBatches, h.pushChunks_eq hstill, flatten_chunksOf]

theorem StopsAt.dispatchBatches_eq (hstill : ∀ i, clock i = now)
    (h : StopsAt push (dispatchScore now) q ws r e) (batch : Nat) :
    dispatchBatches push clock q ws batch = (r, .error e) := by
  rw [← flatten_chunksOf batch ws] at h
  rw [dispatchBatches, h.pushChunks_eq hstill]

/-! ## How a dispatch ends -/

theorem dispatchBatches_eq_ok_iff (hstill : ∀ i, clock i = now) (batch : Nat) :
    dispatchBatches push clock q ws batch = (r, .ok n) ↔
      Pushes push (dispatchScore now) q ws r ∧ n = ws.length := by
  constructor
  · intro heq
    rcases pushes_or_stopsAt push (dispatchScore now) q ws with ⟨r', h⟩ | ⟨r', e, h⟩
    · cases (h.dispatchBatches_eq hstill batch).symm.trans heq
      exact ⟨h, rfl⟩
    · cases (h.dispatchBatches_eq hstill batch).symm.trans heq
  · rintro ⟨h, rfl⟩
    exact h.dispatchBatches_eq hstill batch

theorem dispatchBatches_eq_error_iff (hstill : ∀ i, clock i = now) (batch : Nat) :
    dispatchBatches push clock q ws batch = (r, .error e) ↔
      StopsAt push (dispatchScore now) q ws r e := by
  constructor
  · intro heq
    rcases pushes_or_stopsAt push (dispatchScore now) q ws with ⟨r', h⟩ | ⟨r', e', h⟩
    · cases (h.dispatchBatches_eq hstill batch).symm.trans heq
    · cases (h.dispatchBatches_eq hstill batch).symm.trans heq
      exact h
  · exact fun h => h.dispatchBatches_eq hstill batch

/-- **Batches are one pass.** Dispatch items in batches by a clock that does not move. The answer is
a number if and only if each item was pushed, once and in its turn; then it is the number of items.
It is an error if and only if that is the error of the first push that failed; then the items before
it were pushed, and nothing behind it. Either way the queue is what these pushes lead to, and it is
the same for batches of any size, zero included. -/
theorem dispatch_in_one_pass (hstill : ∀ i, clock i = now) (q : σ) (ws : List WorkItem)
    (batch : Nat) :
    (∀ r n, dispatchBatches push clock q ws batch = (r, .ok n) ↔
      Pushes push (dispatchScore now) q ws r ∧ n = ws.length) ∧
    (∀ r e, dispatchBatches push clock q ws batch = (r, .error e) ↔
      StopsAt push (dispatchScore now) q ws r e) ∧
    ∀ batch', dispatchBatches push clock q ws batch' = dispatchBatches push clock q ws batch := by
  refine ⟨fun _ _ => dispatchBatches_eq_ok_iff hstill batch,
    fun _ _ => dispatchBatches_eq_error_iff hstill batch, ?_⟩
  intro batch'
  -- what the pass comes to does not mention a size
  rcases pushes_or_stopsAt push (dispatchScore now) q ws with ⟨r, h⟩ | ⟨r, e, h⟩
  · exact (h.dispatchBatches_eq hstill batch').trans (h.dispatchBatches_eq hstill batch).symm
  · exact (h.dispatchBatches_eq hstill batch').trans (h.dispatchBatches_eq hstill batch).symm

/-! ## A queue that refuses an item -/

namespace Refusal

/-- A queue that refuses the items of id 3. -/
def start : FaultyQueue := ⟨.table .empty, ⟨[3], 0, false, "full"⟩⟩

def first : WorkItem := ⟨1, "a"⟩

def second : WorkItem := ⟨2, "b"⟩

def refused : WorkItem := ⟨3, "c"⟩

/-- One item is there twice, and one comes behind the refused one. -/
def items : List WorkItem := [first, second, first, refused, ⟨4, "d"⟩]

/-- What is pushed before the refused item. -/
def stopped : FaultyQueue :=
  { start with queue := .table ⟨[⟨first.rowKey, 0⟩, ⟨second.rowKey, 0⟩]⟩ }

theorem stopsAt_refused :
    StopsAt FaultyQueue.push (dispatchScore .epoch) start items stopped (.backend "full") := by
  have hbefore : Pushes FaultyQueue.push (dispatchScore .epoch) start [first, second, first]
      stopped := .cons rfl (.cons rfl (.cons rfl (.nil _)))
  exact ⟨[first, second, first], refused, [⟨4, "d"⟩], rfl, hbefore, rfl⟩

theorem stopped_in_second_batch : (∀ i : Nat, (fun _ => Instant.epoch) i = .epoch) ∧
    dispatchBatches FaultyQueue.push (fun _ => .epoch) start items 2 =
      (stopped, .error (.backend "full")) ∧
    dispatchBatches FaultyQueue.push (fun _ => .epoch) start items 0 =
      (stopped, .error (.backend "full")) := by
  have hstill : ∀ i : Nat, (fun _ => Instant.epoch) i = .epoch := fun _ => rfl
  obtain ⟨-, herror, hsame⟩ :=
    @dispatch_in_one_pass _ FaultyQueue.push _ .epoch hstill start items 2
  have htwo := (herror _ _).mpr stopsAt_refused
  exact ⟨hstill, htwo, (hsame 0).trans htwo⟩

end Refusal

end Harvest
