import Harvest.Queue.Basic
import Mathlib.Data.List.Perm.Basic
import Mathlib.Data.List.Nodup

/-! # The items of a queue

What a queue holds, whichever queue it is: a list of items, of which only the contents matter. A
push of an item that is not queued adds it and any other push adds nothing. A pop takes out the item
that it gives, or finds nothing.

The table gives out an item by its key and removes every row of that key, so a pop is exact only
where each item is queued once. A queue that starts empty stays so.

## Main statements

* `Queue.perm_items_push`: what a push does.
* `Queue.items_of_popMin_none`, `Queue.perm_items_popMin`, `Queue.mem_items_popMin`: what a pop
  does.
* `Queue.popMin_cases`: what a pop takes out, and what it gives.
* `Queue.Distinct.push`, `Queue.Distinct.popMin`: each item is queued at most once.
-/

namespace Harvest

/-! ## Entries -/

namespace Scored

variable {α : Type} [DecidableEq α]

/-- The queued things. -/
def items (es : List (Scored α)) : List α := es.map Scored.item

omit [DecidableEq α] in
@[simp] theorem items_nil : items ([] : List (Scored α)) = [] := rfl

omit [DecidableEq α] in
@[simp] theorem items_cons (e : Scored α) (es : List (Scored α)) :
    items (e :: es) = e.item :: items es := rfl

/-- A thing that is queued already only gets a new score. -/
theorem items_put_of_mem {x : α} {es : List (Scored α)} (h : x ∈ items es) (score : Int) :
    items (put x score es) = items es := by
  induction es with
  | nil => simp at h
  | cons e es ih =>
    by_cases he : e.item = x
    · simp [put, he]
    · have hx : x ∈ items es := by
        rcases List.mem_cons.mp h with rfl | hx
        · exact absurd rfl he
        · exact hx
      simp [put, he, ih hx]

/-- A thing that is not queued comes last. -/
theorem items_put_of_not_mem {x : α} {es : List (Scored α)} (h : x ∉ items es) (score : Int) :
    items (put x score es) = items es ++ [x] := by
  induction es with
  | nil => rfl
  | cons e es ih =>
    rw [items_cons, List.mem_cons, not_or] at h
    simp [put, Ne.symm h.1, ih h.2]

theorem items_remove (x : α) (es : List (Scored α)) :
    items (remove x es) = (items es).filter (· ≠ x) := by
  rw [remove, items, items, List.filter_map]
  rfl

omit [DecidableEq α] in
theorem least?_eq_none {rank : α → Int} {es : List (Scored α)} (h : least? rank es = none) :
    es = [] := by
  cases es with
  | nil => rfl
  | cons e es =>
    rw [least?] at h
    split at h
    · simp at h
    · split at h <;> simp at h

end Scored

/-- Taking out all of a thing that is there once takes out that thing. -/
theorem perm_cons_filter_ne {α : Type} [DecidableEq α] {x : α} {xs : List α} (hx : x ∈ xs)
    (h : xs.Nodup) : (x :: xs.filter (· ≠ x)).Perm xs := by
  have herase : xs.filter (fun y => decide (y ≠ x)) = xs.erase x := by
    rw [h.erase_eq_filter]
    apply List.filter_congr
    intro y _
    by_cases hy : y = x <;> simp [hy]
  -- taking out all of a thing is taking it out once
  rw [herase]
  exact (List.perm_cons_erase hx).symm

/-- What is left when a thing that was there once is taken out. -/
theorem perm_filter_ne {α : Type} [DecidableEq α] {x : α} {xs ys : List α}
    (h : (x :: xs).Perm ys) (hys : ys.Nodup) : xs.Perm (ys.filter (· ≠ x)) := by
  have hx : x ∉ xs := (List.nodup_cons.mp (h.nodup_iff.mpr hys)).1
  have hrest : (x :: xs).filter (· ≠ x) = xs := by
    rw [List.filter_cons_of_neg (by simp), List.filter_eq_self]
    intro y hy
    exact decide_eq_true fun heq => hx (heq ▸ hy)
  rw [← hrest]
  exact h.filter _

/-! ## Keys of rows -/

namespace RowKey

/-- The item that a row stands for. -/
def item (k : RowKey) : WorkItem := ⟨k.id.toUInt64, k.hash⟩

@[simp] theorem item_rowKey (w : WorkItem) : w.rowKey.item = w := by
  simp [item, WorkItem.rowKey]

@[simp] theorem rowKey_item (k : RowKey) : k.item.rowKey = k := by
  simp [item, WorkItem.rowKey]

theorem item_injective : Function.Injective item := by
  intro k k' h
  rw [← rowKey_item k, h, rowKey_item]

theorem item_of_toItem {k : RowKey} {w : WorkItem} (h : k.toItem = .ok w) : k.item = w := by
  unfold toItem at h
  split at h
  · simpa [item] using h
  · simp at h

end RowKey

/-! ## Both queues -/

namespace MemoryQueue

def items (q : MemoryQueue) : List WorkItem := Scored.items q.entries

theorem perm_items_push (q : MemoryQueue) (w : WorkItem) (score : Int) :
    (q.push w score).items.Perm (if w ∈ q.items then q.items else w :: q.items) := by
  -- the place of an entry in the heap does not matter for what is queued
  have h : (q.push w score).items.Perm (Scored.items (Scored.put w score q.entries)) :=
    (q.perm_push w score).map Scored.item
  by_cases hw : w ∈ q.items
  · rw [if_pos hw]
    rwa [Scored.items_put_of_mem hw] at h
  · rw [if_neg hw]
    rw [Scored.items_put_of_not_mem hw] at h
    exact h.trans (List.perm_append_singleton w _)

theorem items_of_popMin_none {q q' : MemoryQueue} (h : q.popMin = (q', none)) :
    q' = q ∧ q.items = [] := by
  unfold popMin at h
  split at h
  · rename_i hnone
    simp only [Prod.mk.injEq] at h
    exact ⟨h.1.symm, by rw [items, Scored.least?_eq_none hnone]; rfl⟩
  · simp at h

theorem perm_items_popMin {q q' : MemoryQueue} {w : WorkItem} (h : q.popMin = (q', some w)) :
    (w :: q'.items).Perm q.items := by
  cases he : Scored.least? rank q.entries with
  | none => simp [popMin, he] at h
  | some e =>
    -- the entries are those of before but for the one given
    have hperm := (q.perm_popMin he).map Scored.item
    have hw : e.item = w := by simpa [popMin, he] using congrArg Prod.snd h
    rw [h, List.map_cons, hw] at hperm
    exact hperm

end MemoryQueue

namespace TableQueue

def items (q : TableQueue) : List WorkItem := (Scored.items q.rows).map RowKey.item

theorem rowKey_mem {q : TableQueue} {w : WorkItem} :
    w.rowKey ∈ Scored.items q.rows ↔ w ∈ q.items := by
  constructor
  · intro h
    have hw := List.mem_map_of_mem (f := RowKey.item) h
    rwa [RowKey.item_rowKey] at hw
  · intro h
    obtain ⟨k, hk, rfl⟩ := List.mem_map.mp h
    rwa [RowKey.rowKey_item]

theorem perm_items_push (q : TableQueue) (w : WorkItem) (score : Int) :
    (q.push w score).items.Perm (if w ∈ q.items then q.items else w :: q.items) := by
  by_cases hw : w ∈ q.items
  · rw [if_pos hw, push, items, Scored.items_put_of_mem (rowKey_mem.mpr hw)]
    rfl
  · rw [if_neg hw, push, items, Scored.items_put_of_not_mem (fun h => hw (rowKey_mem.mp h)),
      List.map_append, List.map_singleton, RowKey.item_rowKey]
    exact List.perm_append_singleton w _

theorem items_of_popMin_none {q q' : TableQueue} (h : q.popMin = (q', .ok none)) :
    q' = q ∧ q.items = [] := by
  unfold popMin at h
  split at h
  · rename_i hnone
    simp only [Prod.mk.injEq] at h
    exact ⟨h.1.symm, by rw [items, Scored.least?_eq_none hnone]; rfl⟩
  · rename_i r _
    cases hr : r.item.toItem <;> simp [hr, Except.map] at h

/-- A pop takes out every row of one key, whether or not it gives an item. -/
theorem items_popMin_of_least {q : TableQueue} {r : Scored RowKey}
    (h : Scored.least? RowKey.rank q.rows = some r) :
    r.item.item ∈ q.items ∧ q.popMin.1.items = q.items.filter (· ≠ r.item.item) := by
  have hq : q.popMin.1 = ⟨Scored.remove r.item q.rows⟩ := by simp only [popMin, h]
  refine ⟨?_, ?_⟩
  · exact List.mem_map_of_mem (List.mem_map_of_mem (Scored.mem_of_least? h))
  · -- rows are removed by key, and a key is told by its item
    rw [hq, items, items, Scored.items_remove, List.filter_map]
    apply congrArg
    apply List.filter_congr
    intro k _
    by_cases hk : k = r.item
    · simp [hk]
    · have : k.item ≠ r.item.item := fun h => hk (RowKey.item_injective h)
      simp [hk, this]

/-- The key is that of the item that the pop gives. -/
theorem items_popMin {q q' : TableQueue} {w : WorkItem} (h : q.popMin = (q', .ok (some w))) :
    w ∈ q.items ∧ q'.items = q.items.filter (· ≠ w) := by
  cases he : Scored.least? RowKey.rank q.rows with
  | none => simp [popMin, he] at h
  | some r =>
    have hitems := items_popMin_of_least he
    simp only [popMin, he, Prod.mk.injEq] at h hitems
    obtain ⟨hq, hw⟩ := h
    have hr : r.item.item = w := by
      cases hi : r.item.toItem with
      | error e => simp [hi, Except.map] at hw
      | ok v =>
        simp only [hi, Except.map, Except.ok.injEq, Option.some.injEq] at hw
        exact hw ▸ RowKey.item_of_toItem hi
    rwa [hq, hr] at hitems

end TableQueue

/-! ## Either queue -/

namespace Queue

/-- The queued items. -/
def items : Queue → List WorkItem
  | .memory q => q.items
  | .table q => q.items

/-- Each item is queued at most once. -/
def Distinct (q : Queue) : Prop := q.items.Nodup

instance (q : Queue) : Decidable q.Distinct := inferInstanceAs (Decidable q.items.Nodup)

theorem size_eq (q : Queue) : q.size = q.items.length := by
  cases q with
  | memory q => simp [size, MemoryQueue.size, items, MemoryQueue.items, Scored.items]
  | table q => simp [size, TableQueue.size, items, TableQueue.items, Scored.items]

/-- Up to order, a push adds the item unless it is queued. -/
theorem perm_items_push (q : Queue) (w : WorkItem) (score : Int) :
    (q.push w score).items.Perm (if w ∈ q.items then q.items else w :: q.items) := by
  cases q with
  | memory q => exact q.perm_items_push w score
  | table q => exact q.perm_items_push w score

theorem mem_items_push {q : Queue} {w x : WorkItem} {score : Int} :
    x ∈ (q.push w score).items ↔ x = w ∨ x ∈ q.items := by
  rw [(q.perm_items_push w score).mem_iff]
  by_cases hw : w ∈ q.items
  · rw [if_pos hw]
    constructor
    · exact Or.inr
    · rintro (rfl | hx)
      · exact hw
      · exact hx
  · rw [if_neg hw, List.mem_cons]

/-- The next pop takes out an entry without giving an item. -/
def spoils (q : Queue) : Bool :=
  match q.popMin.2 with
  | .ok _ => false
  | .error _ => true

theorem spoils_of_popMin {q q' : Queue} {e : QueueError} (h : q.popMin = (q', .error e)) :
    q.spoils = true := by
  rw [spoils, h]

/-- A pop that finds nothing leaves an empty queue as it is. -/
theorem items_of_popMin_none {q q' : Queue} (h : q.popMin = (q', .ok none)) :
    q' = q ∧ q.items = [] := by
  cases q with
  | memory q =>
    simp only [popMin, Prod.mk.injEq, Except.ok.injEq] at h
    obtain ⟨hq, hitems⟩ := MemoryQueue.items_of_popMin_none (Prod.ext rfl h.2)
    exact ⟨h.1.symm.trans (congrArg memory hq), hitems⟩
  | table q =>
    simp only [popMin, Prod.mk.injEq] at h
    obtain ⟨hq, hitems⟩ := TableQueue.items_of_popMin_none (Prod.ext rfl h.2)
    exact ⟨h.1.symm.trans (congrArg table hq), hitems⟩

/-- A pop gives an item that was queued, and takes out no other. -/
theorem mem_items_popMin {q q' : Queue} {w : WorkItem} (h : q.popMin = (q', .ok (some w))) :
    w ∈ q.items ∧ ∀ x ∈ q.items, x = w ∨ x ∈ q'.items := by
  cases q with
  | memory q =>
    simp only [popMin, Prod.mk.injEq, Except.ok.injEq] at h
    have hperm := MemoryQueue.perm_items_popMin (Prod.ext rfl h.2)
    refine ⟨hperm.subset (List.mem_cons_self), ?_⟩
    intro x hx
    rw [← h.1]
    exact List.mem_cons.mp (hperm.symm.subset hx)
  | table q =>
    simp only [popMin, Prod.mk.injEq] at h
    obtain ⟨hw, hitems⟩ := TableQueue.items_popMin (Prod.ext rfl h.2)
    refine ⟨hw, ?_⟩
    intro x hx
    rw [← h.1, items, hitems, List.mem_filter]
    by_cases hxw : x = w
    · exact .inl hxw
    · exact .inr ⟨hx, by simpa using hxw⟩

/-- A pop brings no item into the queue. -/
theorem mem_of_mem_popMin {q q' : Queue} {w x : WorkItem} (h : q.popMin = (q', .ok (some w)))
    (hx : x ∈ q'.items) : x ∈ q.items := by
  cases q with
  | memory q =>
    simp only [popMin, Prod.mk.injEq, Except.ok.injEq] at h
    rw [← h.1] at hx
    exact (MemoryQueue.perm_items_popMin (Prod.ext rfl h.2)).subset (List.mem_cons_of_mem w hx)
  | table q =>
    simp only [popMin, Prod.mk.injEq] at h
    rw [← h.1, items, (TableQueue.items_popMin (Prod.ext rfl h.2)).2] at hx
    exact (List.mem_filter.mp hx).1

/-- Where each item is queued once, a pop takes out the item that it gives. -/
theorem perm_items_popMin {q q' : Queue} {w : WorkItem} (hq : q.Distinct)
    (h : q.popMin = (q', .ok (some w))) : (w :: q'.items).Perm q.items := by
  cases q with
  | memory q =>
    simp only [popMin, Prod.mk.injEq, Except.ok.injEq] at h
    rw [← h.1]
    exact MemoryQueue.perm_items_popMin (Prod.ext rfl h.2)
  | table q =>
    simp only [popMin, Prod.mk.injEq] at h
    obtain ⟨hw, hitems⟩ := TableQueue.items_popMin (Prod.ext rfl h.2)
    rw [← h.1, items, hitems]
    exact perm_cons_filter_ne hw hq

/-- What the pop of an item gives: a table reads it back from its row. -/
def giving : Queue → WorkItem → Except QueueError WorkItem
  | .memory _ => .ok
  | .table _ => fun w => w.rowKey.toItem

@[simp] theorem giving_push (q : Queue) (w : WorkItem) (score : Int) :
    (q.push w score).giving = q.giving := by
  cases q <;> rfl

@[simp] theorem giving_popMin (q : Queue) : q.popMin.1.giving = q.giving := by
  cases q <;> rfl

/-- Where each item is queued once, a pop finds nothing or takes out one item, whatever it gives. -/
theorem popMin_cases {q : Queue} (hq : q.Distinct) : (q.popMin = (q, .ok none) ∧ q.items = []) ∨
    ∃ w, q.popMin.2 = (q.giving w).map some ∧ (w :: q.popMin.1.items).Perm q.items := by
  cases q with
  | memory q =>
    cases hpop : q.popMin with
    | mk q' w? =>
      simp only [popMin, hpop]
      cases w? with
      | none =>
        obtain ⟨rfl, hnil⟩ := MemoryQueue.items_of_popMin_none hpop
        exact .inl ⟨rfl, hnil⟩
      | some w => exact .inr ⟨w, rfl, MemoryQueue.perm_items_popMin hpop⟩
  | table q =>
    cases he : Scored.least? RowKey.rank q.rows with
    | none =>
      have hpop : (Queue.table q).popMin = (.table q, .ok none) := by
        simp only [popMin, TableQueue.popMin, he]
      exact .inl ⟨hpop, (items_of_popMin_none hpop).2⟩
    | some r =>
      -- a corrupt row is taken out like any other
      obtain ⟨hr, hitems⟩ := TableQueue.items_popMin_of_least he
      refine .inr ⟨r.item.item, ?_, ?_⟩
      · show q.popMin.2 = r.item.item.rowKey.toItem.map some
        rw [RowKey.rowKey_item]
        simp only [TableQueue.popMin, he]
      · show (r.item.item :: q.popMin.1.items).Perm q.items
        rw [hitems]
        exact perm_cons_filter_ne hr hq

theorem perm_popMin {q : Queue} (hq : q.Distinct) :
    ∃ gone : List WorkItem, gone.length ≤ 1 ∧ (gone ++ q.popMin.1.items).Perm q.items := by
  rcases popMin_cases hq with ⟨hnone, -⟩ | ⟨w, -, hperm⟩
  · rw [hnone]
    exact ⟨[], Nat.zero_le _, .refl _⟩
  · exact ⟨[w], Nat.le_refl _, hperm⟩

theorem Distinct.popMin_fst {q : Queue} (hq : q.Distinct) : q.popMin.1.Distinct := by
  obtain ⟨gone, -, hperm⟩ := perm_popMin hq
  exact (List.nodup_append.mp (hperm.nodup_iff.mpr hq)).2.1

theorem Distinct.push {q : Queue} (hq : q.Distinct) (w : WorkItem) (score : Int) :
    (q.push w score).Distinct := by
  rw [Distinct, (q.perm_items_push w score).nodup_iff]
  by_cases hw : w ∈ q.items
  · rw [if_pos hw]
    exact hq
  · rw [if_neg hw]
    exact List.nodup_cons.mpr ⟨hw, hq⟩

theorem Distinct.popMin {q q' : Queue} {w : WorkItem} (hq : q.Distinct)
    (h : q.popMin = (q', .ok (some w))) : q'.Distinct := by
  have hdistinct := hq.popMin_fst
  rwa [h] at hdistinct

end Queue

end Harvest
