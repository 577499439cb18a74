import Harvest.Killmail.WorkItem
import Harvest.Queue.MinMaxHeap

/-! # Work queues

A work queue holds each item at most once, with a score; pushing a queued item again gives it a
new score. The item of the least score comes out first, of equal scores the one of the least id.

There are two queues. `MemoryQueue` keeps items as they are, in a heap. `TableQueue` keeps rows
whose id is a signed word: an id with its highest bit set turns negative, sorts first, and comes out
as a corrupt entry.

## Main definitions

* `MemoryQueue`, `TableQueue`: the two queues.
* `Queue`: either of them.
-/

namespace Harvest

open Harvest.Text

/-- What can go wrong with a queue. -/
inductive QueueError where
  | backend (cause : String)
  | corrupt (entry : String)
deriving DecidableEq

def QueueError.message : QueueError → String
  | .backend cause => "Queue backend error: " ++ cause
  | .corrupt entry => "Queue entry is corrupt: " ++ entry

/-! ## Entries -/

/-- A queued thing with its score. -/
structure Scored (α : Type) where
  item : α
  score : Int
deriving DecidableEq

namespace Scored

variable {α : Type} [DecidableEq α]

/-- Gives a queued thing a new score, or queues it last. -/
def put (x : α) (score : Int) : List (Scored α) → List (Scored α)
  | [] => [⟨x, score⟩]
  | e :: es => if e.item = x then ⟨x, score⟩ :: es else e :: put x score es

/-- Whether one entry comes out before another, by score and then by rank. -/
def before (rank : α → Int) (a b : Scored α) : Bool :=
  a.score < b.score || (a.score == b.score && rank a.item < rank b.item)

/-- The first of the entries that no other comes out before. -/
def least? (rank : α → Int) : List (Scored α) → Option (Scored α)
  | [] => none
  | e :: es =>
    match least? rank es with
    | none => some e
    | some m => if before rank m e then some m else some e

/-- Takes a thing out. -/
def remove (x : α) (es : List (Scored α)) : List (Scored α) := es.filter (·.item ≠ x)

/-- The number of entries with a score within bounds. -/
def countBetween (low high : Int) (es : List (Scored α)) : Nat :=
  es.countP fun e => decide (low ≤ e.score) && decide (e.score ≤ high)

/-- The score of a queued thing. -/
def scoreOf? (x : α) (es : List (Scored α)) : Option Int :=
  (es.find? (·.item = x)).map Scored.score

theorem put_of_findIdx? {x : α} {es : List (Scored α)} {i : Nat}
    (h : es.findIdx? (·.item = x) = some i) (score : Int) :
    put x score es = es.set i ⟨x, score⟩ := by
  induction es generalizing i with
  | nil => simp at h
  | cons e es ih =>
    rw [List.findIdx?_cons] at h
    by_cases he : e.item = x
    · simp only [he, decide_true, if_true, Option.some.injEq] at h
      simp [put, he, ← h]
    · simp only [he, decide_false, Bool.false_eq_true, if_false, Option.map_eq_some_iff] at h
      obtain ⟨j, hj, rfl⟩ := h
      simp [put, he, ih hj]

theorem put_of_not_queued {x : α} {es : List (Scored α)}
    (h : es.findIdx? (·.item = x) = none) (score : Int) :
    put x score es = es ++ [⟨x, score⟩] := by
  induction es with
  | nil => rfl
  | cons e es ih =>
    simp only [List.findIdx?_eq_none_iff, List.mem_cons, decide_eq_false_iff_not] at h ih
    simp only [put, h e (.inl rfl), if_false, List.cons_append]
    rw [ih fun y hy => h y (.inr hy)]

omit [DecidableEq α] in
theorem mem_of_least? {rank : α → Int} {es : List (Scored α)} {e : Scored α}
    (h : least? rank es = some e) : e ∈ es := by
  induction es generalizing e with
  | nil => simp [least?] at h
  | cons x xs ih =>
    simp only [least?] at h
    split at h
    · simp_all
    · rename_i m hm
      split at h
      · simp only [Option.some.injEq] at h
        exact .tail _ (h ▸ ih hm)
      · simp_all

end Scored

/-! ## A queue in memory -/

/-- A queue that keeps items as they are. The entries lie in a min-max heap, which decides between
items of one score and one id. -/
structure MemoryQueue where
  entries : List (Scored WorkItem)

namespace MemoryQueue

def empty : MemoryQueue := ⟨[]⟩

/-- Items of one score come out by id. -/
def rank (w : WorkItem) : Int := w.id.toNat

/-- The order of the heap. -/
def before : Scored WorkItem → Scored WorkItem → Bool := Scored.before rank

def push (q : MemoryQueue) (w : WorkItem) (score : Int) : MemoryQueue :=
  match q.entries.findIdx? (·.item = w) with
  | some i => ⟨MinMaxHeap.replace before q.entries i ⟨w, score⟩⟩
  | none => ⟨MinMaxHeap.push before q.entries ⟨w, score⟩⟩

def popMin (q : MemoryQueue) : MemoryQueue × Option WorkItem :=
  match Scored.least? rank q.entries with
  | none => (q, none)
  | some e => (⟨MinMaxHeap.remove before q.entries (q.entries.idxOf e)⟩, some e.item)

def countBetween (q : MemoryQueue) (low high : Int) : Nat := Scored.countBetween low high q.entries

def size (q : MemoryQueue) : Nat := q.entries.length

def scoreOf? (q : MemoryQueue) (w : WorkItem) : Option Int := Scored.scoreOf? w q.entries

/-- Up to order, a push sets the score of the item. -/
theorem perm_push (q : MemoryQueue) (w : WorkItem) (score : Int) :
    (q.push w score).entries.Perm (Scored.put w score q.entries) := by
  unfold push
  split
  · rename_i i h
    exact (MinMaxHeap.perm_replace _ _ _ _).trans (.of_eq (Scored.put_of_findIdx? h score).symm)
  · rename_i h
    exact (MinMaxHeap.perm_push _ _ _).trans (.of_eq (Scored.put_of_not_queued h score).symm)

/-- A pop takes out the least entry. -/
theorem perm_popMin (q : MemoryQueue) {e : Scored WorkItem}
    (h : Scored.least? rank q.entries = some e) :
    (e :: q.popMin.1.entries).Perm q.entries := by
  have hi : q.entries.idxOf e < q.entries.length :=
    List.idxOf_lt_length_iff.2 (Scored.mem_of_least? h)
  have he : q.entries[q.entries.idxOf e] = e := by simp
  simp only [popMin, h]
  refine List.Perm.trans ((MinMaxHeap.perm_remove _ _ _).cons e) ?_
  have := MinMaxHeap.perm_vacate hi
  rwa [he] at this

end MemoryQueue

/-! ## A queue in a table -/

/-- The key of a row: the id as a signed word, and the hash. -/
structure RowKey where
  id : Int64
  hash : String
deriving DecidableEq

/-- The key under which an item is kept. -/
def WorkItem.rowKey (w : WorkItem) : RowKey := ⟨w.id.toInt64, w.hash⟩

namespace RowKey

/-- Rows of one score come out by signed id. -/
def rank (k : RowKey) : Int := k.id.toInt

/-- The item of a row, unless its id is negative. -/
def toItem (k : RowKey) : Except QueueError WorkItem :=
  if 0 ≤ k.id.toInt then .ok ⟨k.id.toUInt64, k.hash⟩
  else .error (.corrupt (showInt k.id.toInt ++ ":" ++ k.hash))

end RowKey

/-- A queue that keeps rows of a table. -/
structure TableQueue where
  rows : List (Scored RowKey)

namespace TableQueue

def empty : TableQueue := ⟨[]⟩

def push (q : TableQueue) (w : WorkItem) (score : Int) : TableQueue :=
  ⟨Scored.put w.rowKey score q.rows⟩

/-- Takes out the least row; it is gone even if it turns out to be corrupt. -/
def popMin (q : TableQueue) : TableQueue × Except QueueError (Option WorkItem) :=
  match Scored.least? RowKey.rank q.rows with
  | none => (q, .ok none)
  | some r => (⟨Scored.remove r.item q.rows⟩, r.item.toItem.map some)

def countBetween (q : TableQueue) (low high : Int) : Nat := Scored.countBetween low high q.rows

def size (q : TableQueue) : Nat := q.rows.length

end TableQueue

/-! ## Either queue -/

/-- A work queue. -/
inductive Queue where
  | memory (q : MemoryQueue)
  | table (q : TableQueue)

namespace Queue

instance : Inhabited Queue := ⟨.memory .empty⟩

def push (q : Queue) (w : WorkItem) (score : Int) : Queue :=
  match q with
  | .memory q => .memory (q.push w score)
  | .table q => .table (q.push w score)

def popMin (q : Queue) : Queue × Except QueueError (Option WorkItem) :=
  match q with
  | .memory q =>
    let (q, w) := q.popMin
    (.memory q, .ok w)
  | .table q =>
    let (q, r) := q.popMin
    (.table q, r)

def countBetween (q : Queue) (low high : Int) : Nat :=
  match q with
  | .memory q => q.countBetween low high
  | .table q => q.countBetween low high

def size (q : Queue) : Nat :=
  match q with
  | .memory q => q.size
  | .table q => q.size

/-- Pops at most `n` times, until the queue is empty. -/
def drain (q : Queue) : Nat → Queue × List (Except QueueError WorkItem)
  | 0 => (q, [])
  | n + 1 =>
    match q.popMin with
    | (q, .ok none) => (q, [])
    | (q, .ok (some w)) =>
      let (q, rest) := q.drain n
      (q, .ok w :: rest)
    | (q, .error e) =>
      let (q, rest) := q.drain n
      (q, .error e :: rest)

end Queue

end Harvest
