import Harvest.Proofs.Queue.Items
import Harvest.Proofs.Run
import Harvest.Proofs.Text.Digits

/-! # The ledger of a queue

Whoever calls a queue can keep a ledger: the items pushed and not given back since. In memory a
queue holds what its ledger says. In a table it does so up to ids of `2 ^ 63` and more. Their rows
turn out corrupt as they are popped, when they are gone already, so a pop that fails loses an item.
The error names that item, and a ledger that writes it off is right again.

## Main definitions

* `Queue.counter`: a queue as a machine that takes calls.
* `Queue.awaited`: the items pushed and not given back since.
* `Queue.held`: the same without the items that failed pops name.
* `WorkItem.reading`: what the pop of an item gives.

## Main statements

* `WorkItem.spoilt_inj`: an error names one item.
* `Queue.table_ledger`: what a table holds, loses and gives back.
* `Queue.memory_ledger`: in memory nothing is lost.
-/

namespace Harvest

open Harvest.Text

/-! ## What becomes of an item in a table -/

namespace WorkItem

/-- The id is no less than zero as a signed word. -/
def Signable (w : WorkItem) : Prop := w.id.toNat < twoTo 63

instance (w : WorkItem) : Decidable w.Signable := inferInstanceAs (Decidable (_ < _))

/-- The error that gives up an item. -/
def spoilt (w : WorkItem) : QueueError :=
  .corrupt (showInt w.id.toInt64.toInt ++ ":" ++ w.hash)

/-- What the pop of an item off a table gives. -/
def reading (w : WorkItem) : Except QueueError WorkItem :=
  if w.Signable then .ok w else .error w.spoilt

/-- The error names the item: its text is told apart at the first colon. -/
theorem spoilt_inj {v w : WorkItem} (h : v.spoilt = w.spoilt) : v = w := by
  have htext : intDigits v.id.toInt64.toInt ++ ':' :: v.hash.toList =
      intDigits w.id.toInt64.toInt ++ ':' :: w.hash.toList := by
    have h := congrArg String.toList (QueueError.corrupt.inj h)
    simpa [showInt] using h
  have hcolon : ∀ n : Int, ':' ∉ intDigits n := fun n => not_mem_intDigits (by decide) (by decide)
  obtain ⟨hid, hhash⟩ := split_inj (hcolon _) (hcolon _) htext
  have hid : v.id = w.id := by
    have := Int64.toInt_inj.mp (intDigits_inj hid)
    rw [← UInt64.toUInt64_toInt64 v.id, this, UInt64.toUInt64_toInt64]
  have hhash : v.hash = w.hash := String.toList_inj.mp hhash
  rw [← show WorkItem.mk v.id v.hash = v from rfl, hid, hhash]

theorem signable_iff {w : WorkItem} : w.Signable ↔ 0 ≤ w.id.toInt64.toInt := by
  have h : w.id.toInt64.toInt = w.id.toBitVec.toInt := rfl
  have htwo : twoTo 63 = 9223372036854775808 := rfl
  have hlt := w.id.toNat_lt
  rw [h, BitVec.toInt_eq_toNat_cond, UInt64.toNat_toBitVec, Signable, htwo]
  split <;> omega

theorem toItem_rowKey (w : WorkItem) : w.rowKey.toItem = w.reading := by
  unfold RowKey.toItem reading
  by_cases h : w.Signable
  · rw [if_pos h, if_pos (show 0 ≤ w.rowKey.id.toInt from signable_iff.mp h)]
    exact congrArg Except.ok (RowKey.item_rowKey w)
  · rw [if_neg h, if_neg (show ¬ 0 ≤ w.rowKey.id.toInt from fun h' => h (signable_iff.mpr h'))]
    rfl

end WorkItem

namespace Queue

/-! ## One pop -/

variable {q q' : Queue} {v w : WorkItem} {e : QueueError}

theorem giving_table (q : TableQueue) : (Queue.table q).giving = WorkItem.reading :=
  funext WorkItem.toItem_rowKey

theorem eq_of_giving_ok (h : q.giving w = .ok v) : v = w := by
  cases q with
  | memory q => exact (Except.ok.inj h).symm
  | table q =>
    rw [giving_table, WorkItem.reading] at h
    split at h
    · exact (Except.ok.inj h).symm
    · cases h

theorem of_giving_error (h : q.giving w = .error e) : ¬ w.Signable ∧ e = w.spoilt := by
  cases q with
  | memory q => cases h
  | table q =>
    rw [giving_table, WorkItem.reading] at h
    split at h
    · cases h
    · rename_i hw
      exact ⟨hw, (Except.error.inj h).symm⟩

/-- A pop that fails loses an item of an id of `2 ^ 63` or more, and names it. -/
theorem lost_of_popMin_error (hq : q.Distinct) (h : q.popMin = (q', .error e)) :
    ∃ w, ¬ w.Signable ∧ e = w.spoilt ∧ (w :: q'.items).Perm q.items := by
  rcases popMin_cases hq with ⟨hnone, -⟩ | ⟨w, hgives, hperm⟩
  · rw [h] at hnone
    cases hnone
  · rw [h] at hgives hperm
    cases hw : q.giving w with
    | ok v =>
      rw [hw] at hgives
      cases hgives
    | error e' =>
      rw [hw] at hgives
      cases hgives
      obtain ⟨hbig, heq⟩ := of_giving_error hw
      exact ⟨w, hbig, heq, hperm⟩

/-- Popping as often as there are items empties the queue and gives of each what the pop of it
gives. -/
theorem drain_gives {n : Nat} (hq : q.Distinct) (hn : q.items.length = n) :
    (q.drain n).1.items = [] ∧ (q.drain n).2.Perm (q.items.map q.giving) := by
  induction n generalizing q with
  | zero =>
    rw [List.length_eq_zero_iff.mp hn]
    exact ⟨List.length_eq_zero_iff.mp hn, .refl _⟩
  | succ n ih =>
    rcases popMin_cases hq with ⟨-, hnil⟩ | ⟨w, hgives, hperm⟩
    · rw [hnil] at hn
      cases hn
    · have hlength : q.popMin.1.items.length = n := by
        have := hperm.length_eq
        rw [List.length_cons] at this
        omega
      obtain ⟨hempty, hrest⟩ := ih hq.popMin_fst hlength
      rw [giving_popMin] at hrest
      have hdrain : q.drain (n + 1) =
          ((q.popMin.1.drain n).1, q.giving w :: (q.popMin.1.drain n).2) := by
        have hpop : q.popMin = (q.popMin.1, (q.giving w).map some) := Prod.ext rfl hgives
        rw [drain]
        cases hw : q.giving w with
        | ok v =>
          rw [hw] at hpop
          rw [hpop]
          rfl
        | error e =>
          rw [hw] at hpop
          rw [hpop]
          rfl
      rw [hdrain]
      refine ⟨hempty, (hrest.cons _).trans ?_⟩
      exact hperm.map q.giving

/-! ## Calls and their ledger -/

/-- A call of a queue. -/
inductive Call where
  | push (w : WorkItem) (score : Int)
  | pop

/-- A call and what came of it. -/
inductive Deed where
  | pushed (w : WorkItem)
  | popped (r : Except QueueError (Option WorkItem))

/-- A queue as a machine that takes every call. -/
def counter : Machine Queue Call Deed where
  next? q
    | .push w score => some (q.push w score)
    | .pop => some q.popMin.1
  mark? q
    | .push w _ => some (.pushed w)
    | .pop => some (.popped q.popMin.2)

namespace Deed

/-- Enters a call into a ledger. A pop that fails changes nothing. -/
def enter (l : List WorkItem) : Deed → List WorkItem
  | .pushed w => if w ∈ l then l else w :: l
  | .popped (.ok (some w)) => l.filter (· ≠ w)
  | .popped (.ok none) => l
  | .popped (.error _) => l

/-- Enters a call into a ledger. The item that a failed pop names is written off. -/
def writeOff (l : List WorkItem) : Deed → List WorkItem
  | .popped (.error e) => l.filter (·.spoilt ≠ e)
  | d => d.enter l

end Deed

/-- The items pushed and not given back since. -/
def awaited (j : List Deed) : List WorkItem := j.foldl Deed.enter []

/-- The items pushed, not given back since, and not lost since. -/
def held (j : List Deed) : List WorkItem := j.foldl Deed.writeOff []

section ledgers

variable {j : List Deed} {d : Deed} {l : List WorkItem} {x : WorkItem}

theorem awaited_append : awaited (j ++ [d]) = d.enter (awaited j) := by
  rw [awaited, List.foldl_append]
  rfl

theorem held_append : held (j ++ [d]) = d.writeOff (held j) := by
  rw [held, List.foldl_append]
  rfl

theorem mem_enter_pushed : x ∈ Deed.enter l (.pushed w) ↔ x = w ∨ x ∈ l := by
  show x ∈ (if w ∈ l then l else w :: l) ↔ _
  split
  · rename_i hw
    constructor
    · exact Or.inr
    · rintro (rfl | hx)
      · exact hw
      · exact hx
  · exact List.mem_cons

/-- An item that comes off a queue comes off what is held, given back or lost. -/
theorem writeOff_giving (q : Queue) (w : WorkItem) (l : List WorkItem) :
    Deed.writeOff l (.popped ((q.giving w).map some)) = l.filter (· ≠ w) := by
  cases hw : q.giving w with
  | ok v =>
    rw [eq_of_giving_ok hw]
    rfl
  | error e =>
    obtain ⟨-, rfl⟩ := of_giving_error hw
    show l.filter (·.spoilt ≠ w.spoilt) = l.filter (· ≠ w)
    apply List.filter_congr
    intro y _
    have hiff : y.spoilt ≠ w.spoilt ↔ y ≠ w :=
      not_congr ⟨WorkItem.spoilt_inj, congrArg WorkItem.spoilt⟩
    exact decide_eq_decide.mpr hiff

/-- It comes off what is awaited if it is given back. -/
theorem mem_enter_giving : x ∈ Deed.enter l (.popped ((q.giving w).map some)) ↔
    x ∈ l ∧ (x = w → ∃ e, q.giving w = .error e) := by
  cases hw : q.giving w with
  | ok v =>
    rw [eq_of_giving_ok hw]
    show x ∈ l.filter (· ≠ w) ↔ _
    simp
  | error e =>
    show x ∈ l ↔ _
    simp

/-- Without a failed pop the two ledgers are one. -/
theorem held_eq_awaited (h : ∀ e, .popped (.error e) ∉ j) : held j = awaited j := by
  apply List.foldl_ext
  intro l d hd
  unfold Deed.writeOff
  split
  · rename_i e
    exact absurd hd (h e)
  · rfl

end ledgers

/-! ## Along runs -/

/-- How a queue stands to the journal of its calls. -/
structure Books (s : Queue) (j : List Deed) (q : Queue) : Prop where
  kind : q.giving = s.giving
  distinct : q.Distinct
  items : q.items.Perm (held j)
  /-- What is held is awaited. -/
  owed : ∀ w ∈ held j, w ∈ awaited j
  /-- What is awaited but not held has an id that turns negative. -/
  short : ∀ w ∈ awaited j, w.Signable → w ∈ held j
  pushed : ∀ w ∈ awaited j, .pushed w ∈ j
  /-- A pop failed only for an item that was pushed. -/
  failed : ∀ e, .popped (.error e) ∈ j → ∃ w, .pushed w ∈ j ∧ s.giving w = .error e

namespace Books

variable {s : Queue} {j : List Deed}

theorem empty (hs : s.items = []) : s.Books [] s where
  kind := rfl
  distinct := by rw [Distinct, hs]; exact List.nodup_nil
  items := by rw [hs]; exact .refl _
  owed := by intro w hw; cases hw
  short := by intro w hw; cases hw
  pushed := by intro w hw; cases hw
  failed := by intro e he; cases he

theorem failed_append {d : Deed} (h : s.Books j q)
    (hd : ∀ e, d = .popped (.error e) → ∃ w, .pushed w ∈ j ∧ s.giving w = .error e) :
    ∀ e, .popped (.error e) ∈ j ++ [d] → ∃ w, .pushed w ∈ j ++ [d] ∧ s.giving w = .error e := by
  intro e he
  have hmem : ∃ w, .pushed w ∈ j ∧ s.giving w = .error e := by
    rcases List.mem_append.mp he with he | he
    · exact h.failed e he
    · exact hd e (List.mem_singleton.mp he).symm
  obtain ⟨w, hw, hgives⟩ := hmem
  exact ⟨w, List.mem_append_left _ hw, hgives⟩

theorem push (h : s.Books j q) (w : WorkItem) (score : Int) :
    s.Books (j ++ [.pushed w]) (q.push w score) where
  kind := (giving_push q w score).trans h.kind
  distinct := h.distinct.push w score
  items := by
    rw [held_append]
    refine (q.perm_items_push w score).trans ?_
    show (if w ∈ q.items then q.items else w :: q.items).Perm
      (if w ∈ held j then held j else w :: held j)
    by_cases hw : w ∈ q.items
    · rw [if_pos hw, if_pos (h.items.mem_iff.mp hw)]
      exact h.items
    · rw [if_neg hw, if_neg fun hw' => hw (h.items.mem_iff.mpr hw')]
      exact h.items.cons w
  owed := by
    intro x hx
    rw [held_append] at hx
    rw [awaited_append, mem_enter_pushed]
    exact (mem_enter_pushed.mp hx).imp_right (h.owed x)
  short := by
    intro x hx hsign
    rw [awaited_append, mem_enter_pushed] at hx
    rw [held_append]
    exact mem_enter_pushed.mpr (hx.imp_right fun hx => h.short x hx hsign)
  pushed := by
    intro x hx
    rw [awaited_append, mem_enter_pushed] at hx
    rw [List.mem_append, List.mem_singleton]
    rcases hx with rfl | hx
    · exact .inr rfl
    · exact .inl (h.pushed x hx)
  failed := h.failed_append nofun

/-- A pop that finds nothing changes neither ledger. -/
theorem nothing (h : s.Books j q) : s.Books (j ++ [.popped (.ok none)]) q where
  kind := h.kind
  distinct := h.distinct
  items := by rw [held_append]; exact h.items
  owed := by rw [held_append, awaited_append]; exact h.owed
  short := by rw [held_append, awaited_append]; exact h.short
  pushed := by
    rw [awaited_append]
    exact fun x hx => List.mem_append_left _ (h.pushed x hx)
  failed := h.failed_append nofun

/-- An item that comes off the queue comes off what is held, and off what is awaited unless it is
lost. -/
theorem off (h : s.Books j q) (hgives : q.popMin.2 = (q.giving w).map some)
    (hperm : (w :: q.popMin.1.items).Perm q.items) :
    s.Books (j ++ [.popped q.popMin.2]) q.popMin.1 := by
  have hw : w ∈ held j := h.items.subset (hperm.subset List.mem_cons_self)
  have hheld : held (j ++ [.popped q.popMin.2]) = (held j).filter (· ≠ w) := by
    rw [held_append, hgives, writeOff_giving]
  have hawaited : ∀ x, x ∈ awaited (j ++ [.popped q.popMin.2]) ↔
      x ∈ awaited j ∧ (x = w → ∃ e, q.giving w = .error e) := by
    intro x
    rw [awaited_append, hgives, mem_enter_giving]
  refine ⟨(giving_popMin q).trans h.kind, h.distinct.popMin_fst, ?_, ?_, ?_, ?_, ?_⟩
  · rw [hheld]
    exact (perm_filter_ne hperm h.distinct).trans (h.items.filter _)
  · intro x hx
    rw [hheld, List.mem_filter] at hx
    exact (hawaited x).mpr ⟨h.owed x hx.1, fun heq => absurd heq (of_decide_eq_true hx.2)⟩
  · intro x hx hsign
    obtain ⟨hx, hgone⟩ := (hawaited x).mp hx
    rw [hheld, List.mem_filter]
    refine ⟨h.short x hx hsign, decide_eq_true ?_⟩
    rintro rfl
    obtain ⟨e, he⟩ := hgone rfl
    exact (of_giving_error he).1 hsign
  · intro x hx
    exact List.mem_append_left _ (h.pushed x ((hawaited x).mp hx).1)
  · -- if the pop fails, it fails for this item, which was pushed
    apply h.failed_append
    intro e he
    refine ⟨w, h.pushed w (h.owed w hw), ?_⟩
    rw [hgives] at he
    rw [← h.kind]
    cases hgiving : q.giving w with
    | ok v =>
      rw [hgiving] at he
      cases he
    | error e' =>
      rw [hgiving] at he
      cases he
      rfl

theorem pop (h : s.Books j q) : s.Books (j ++ [.popped q.popMin.2]) q.popMin.1 := by
  rcases popMin_cases h.distinct with ⟨hnone, -⟩ | ⟨w, hgives, hperm⟩
  · rw [hnone]
    exact h.nothing
  · exact h.off hgives hperm

theorem of_run {ok : Queue → Call → Prop} (hs : s.items = []) (h : counter.Run ok s j q) :
    s.Books j q := by
  induction h with
  | nil => exact .empty hs
  | @snoc j t u c _ _ step ih =>
    cases c with
    | push w score =>
      cases step
      exact ih.push w score
    | pop =>
      cases step
      exact ih.pop

theorem drain (h : s.Books j q) :
    (q.drain q.size).1.items = [] ∧ (q.drain q.size).2.Perm ((held j).map s.giving) := by
  obtain ⟨hempty, hgives⟩ := drain_gives h.distinct q.size_eq.symm
  rw [h.kind] at hgives
  exact ⟨hempty, hgives.trans (h.items.map _)⟩

end Books

variable {j : List Deed}

/-- **What a table loses.** Take any calls of an empty queue in a table. It holds the items pushed,
not given back since, and not named by a failed pop since, each once. A pop that fails loses an
item, which it names and whose id is `2 ^ 63` or more. Popping until the queue is empty gives back
each held item once, with its own id, or loses it, by its id. So an item that is awaited but not
held has such an id, and where no such id is pushed the queue holds what is awaited. -/
theorem table_ledger (h : counter.Run (fun _ _ => True) (.table .empty) j q) :
    (held j).Nodup ∧ q.items.Perm (held j) ∧
    (∀ q' e, q.popMin = (q', .error e) →
      ∃ w, ¬ w.Signable ∧ e = w.spoilt ∧ (w :: q'.items).Perm q.items) ∧
    (q.drain q.size).1.items = [] ∧
    (q.drain q.size).2.Perm ((held j).map WorkItem.reading) ∧
    (∀ w ∈ held j, w ∈ awaited j) ∧ (∀ w ∈ awaited j, w.Signable → w ∈ held j) ∧
    ((∀ w, .pushed w ∈ j → w.Signable) → held j = awaited j) := by
  have hbooks := Books.of_run rfl h
  obtain ⟨hempty, hgives⟩ := hbooks.drain
  rw [giving_table] at hgives
  refine ⟨hbooks.items.nodup_iff.mp hbooks.distinct, hbooks.items, ?_, hempty, hgives,
    hbooks.owed, hbooks.short, ?_⟩
  · intro q' e hpop
    exact lost_of_popMin_error hbooks.distinct hpop
  · intro hsign
    apply held_eq_awaited
    intro e he
    obtain ⟨w, hw, hgiving⟩ := hbooks.failed e he
    exact (of_giving_error hgiving).1 (hsign w hw)

/-! ## An item that is lost -/

namespace Overlarge

def small : WorkItem := ⟨7, "a"⟩

def large : WorkItem := ⟨9223372036854775808, "b"⟩

/-- Of three pushes the table loses one. -/
def calls : List Call := [.push small 2, .push large 1, .pop]

def deeds : List Deed := [.pushed small, .pushed large, .popped (.error large.spoilt)]

theorem follow_calls : counter.follow (fun _ _ => True) (.table .empty) calls =
    some (deeds, .table ⟨[⟨small.rowKey, 2⟩]⟩) := by
  rfl

theorem loses_large :
    counter.Run (fun _ _ => True) (.table .empty) deeds (.table ⟨[⟨small.rowKey, 2⟩]⟩) ∧
    awaited deeds = [large, small] ∧ held deeds = [small] ∧
    ((Queue.table ⟨[⟨small.rowKey, 2⟩]⟩).drain 1).2.Perm [.ok small] := by
  have hrun := Machine.run_of_follow follow_calls
  have hheld : held deeds = [small] := by decide +kernel
  obtain ⟨-, -, -, -, hgives, -⟩ := table_ledger hrun
  rw [hheld] at hgives
  exact ⟨hrun, by decide +kernel, hheld, hgives⟩

end Overlarge

/-- In memory no pop fails and nothing is lost. -/
theorem memory_ledger (h : counter.Run (fun _ _ => True) (.memory .empty) j q) :
    (∀ e, q.popMin.2 ≠ .error e) ∧ q.items.Perm (awaited j) ∧
    (q.drain q.size).1.items = [] ∧ (q.drain q.size).2.Perm ((awaited j).map .ok) := by
  have hbooks := Books.of_run rfl h
  have heq : held j = awaited j := by
    apply held_eq_awaited
    intro e he
    obtain ⟨w, -, hgiving⟩ := hbooks.failed e he
    cases hgiving
  obtain ⟨hempty, hgives⟩ := hbooks.drain
  rw [heq] at hgives
  refine ⟨?_, heq ▸ hbooks.items, hempty, hgives⟩
  intro e hpop
  rcases popMin_cases hbooks.distinct with ⟨hnone, -⟩ | ⟨w, hgives, -⟩
  · rw [hnone] at hpop
    cases hpop
  · rw [hgives, hbooks.kind] at hpop
    cases hpop

end Queue

end Harvest
