import Harvest.Proofs.Queue.Ledger

/-! # The entries of a queue

What a queue holds with the scores: of either kind a list of items and scores, whose order does not
matter. A push puts an entry in, in place of the one of the same item, and a pop takes out an entry
that no other comes before.

Which entry comes before another depends on the kind of the queue only through ids that turn
negative in the table, as what a pop gives does.

## Main statements

* `Queue.mem_entries_push`: the entries after a push.
* `Queue.popMin_entries`: what a pop takes out, and what it leaves.
* `Queue.rank_of_signable`, `Queue.giving_of_signable`: how either kind deals with an id below
  `2 ^ 63`.
-/

namespace Harvest

namespace Scored

variable {α β : Type} [DecidableEq α] {rank : α → Int} {x : α} {score : Int}
  {e m : Scored α} {es : List (Scored α)}

omit [DecidableEq α] in
theorem mem_items_of_mem (h : e ∈ es) : e.item ∈ items es := List.mem_map_of_mem h

theorem mem_put (hes : (items es).Nodup) :
    e ∈ put x score es ↔ e = ⟨x, score⟩ ∨ e.item ≠ x ∧ e ∈ es := by
  induction es with
  | nil => simp [put]
  | cons a es ih =>
    obtain ⟨ha, hes⟩ := List.nodup_cons.mp hes
    rw [put]
    by_cases hx : a.item = x
    · -- the entry that is replaced is the only one of its item
      have hne : e ∈ es → e.item ≠ x := fun he heq => ha (hx ▸ heq ▸ mem_items_of_mem he)
      rw [if_pos hx, List.mem_cons, List.mem_cons]
      constructor
      · exact Or.imp_right fun he => ⟨hne he, .inr he⟩
      · rintro (h | ⟨h, rfl | he⟩)
        · exact .inl h
        · exact absurd hx h
        · exact .inr he
    · rw [if_neg hx, List.mem_cons, List.mem_cons, ih hes]
      constructor
      · rintro (rfl | h | ⟨h, he⟩)
        · exact .inr ⟨hx, .inl rfl⟩
        · exact .inl h
        · exact .inr ⟨h, .inr he⟩
      · rintro (h | ⟨h, rfl | he⟩)
        · exact .inr (.inl h)
        · exact .inl rfl
        · exact .inr (.inr ⟨h, he⟩)

theorem map_put [DecidableEq β] {f : α → β} (hf : Function.Injective f) :
    (put x score es).map (fun e => ⟨f e.item, e.score⟩) =
      put (f x) score (es.map fun e => ⟨f e.item, e.score⟩) := by
  induction es with
  | nil => rfl
  | cons a es ih =>
    by_cases hx : a.item = x
    · simp [put, hx]
    · simp [put, hx, hf.ne hx, ih]

omit [DecidableEq α] in
theorem before_iff : before rank e m = true ↔
    e.score < m.score ∨ e.score = m.score ∧ rank e.item < rank m.item := by
  simp [before]

omit [DecidableEq α] in
theorem not_before_least? (h : least? rank es = some m) (he : e ∈ es) :
    ¬ before rank e m = true := by
  induction es generalizing m with
  | nil => cases he
  | cons a es ih =>
    rw [least?] at h
    split at h
    · rename_i hnone
      rw [least?_eq_none hnone, List.mem_singleton] at he
      cases Option.some.inj h
      rw [he, before_iff]
      omega
    · rename_i l hl
      -- the least of the others is compared with the first
      have hrest : e ∈ es → ¬ before rank e l = true := fun he => ih hl he
      split at h
      · rename_i hla
        cases Option.some.inj h
        rcases List.mem_cons.mp he with rfl | he
        · rw [before_iff] at hla ⊢
          omega
        · exact hrest he
      · rename_i hla
        cases Option.some.inj h
        rcases List.mem_cons.mp he with rfl | he
        · rw [before_iff]
          omega
        · have hel := hrest he
          rw [before_iff] at hla hel ⊢
          omega

end Scored

namespace Queue

open Scored (before least? put)

/-- The queued items with their scores. -/
def entries : Queue → List (Scored WorkItem)
  | .memory q => q.entries
  | .table q => q.rows.map fun r => ⟨r.item.item, r.score⟩

/-- By what entries of one score are ordered. -/
def rank : Queue → WorkItem → Int
  | .memory _ => MemoryQueue.rank
  | .table _ => fun w => w.rowKey.rank

variable {q q' : Queue} {w : WorkItem} {e : Scored WorkItem}

theorem items_entries (q : Queue) : Scored.items q.entries = q.items := by
  cases q with
  | memory q => rfl
  | table q => simp [entries, items, TableQueue.items, Scored.items, Function.comp_def]

theorem rank_of_signable (q : Queue) (h : w.Signable) : q.rank w = w.id.toNat := by
  cases q with
  | memory q => rfl
  | table q =>
    have hpos : 0 ≤ w.id.toBitVec.toInt := WorkItem.signable_iff.mp h
    show w.id.toBitVec.toInt = w.id.toBitVec.toNat
    rw [BitVec.toInt_eq_toNat_cond] at hpos ⊢
    split
    · rfl
    · rename_i hbig
      rw [if_neg hbig] at hpos
      omega

theorem giving_of_signable (q : Queue) (h : w.Signable) : q.giving w = .ok w := by
  cases q with
  | memory q => rfl
  | table q => rw [giving_table, WorkItem.reading, if_pos h]

theorem countBetween_eq (q : Queue) (low high : Int) :
    q.countBetween low high = Scored.countBetween low high q.entries := by
  cases q with
  | memory q => rfl
  | table q =>
    simp only [countBetween, TableQueue.countBetween, Scored.countBetween, entries,
      List.countP_map]
    rfl

theorem perm_entries_push (q : Queue) (w : WorkItem) (score : Int) :
    (q.push w score).entries.Perm (put w score q.entries) := by
  cases q with
  | memory q => exact q.perm_push w score
  | table q =>
    simp only [push, TableQueue.push, entries]
    rw [Scored.map_put RowKey.item_injective, RowKey.item_rowKey]

theorem mem_entries_push (hq : q.Distinct) {score : Int} :
    e ∈ (q.push w score).entries ↔ e = ⟨w, score⟩ ∨ e.item ≠ w ∧ e ∈ q.entries := by
  rw [(q.perm_entries_push w score).mem_iff]
  exact Scored.mem_put (by rw [items_entries]; exact hq)

/-- A pop finds nothing, or takes out an entry that no other comes before. -/
theorem popMin_entries (hq : q.Distinct) : (q.entries = [] ∧ q.popMin = (q, .ok none)) ∨
    ∃ m ∈ q.entries, (∀ e ∈ q.entries, ¬ before q.rank e m = true) ∧
      q.popMin.2 = (q.giving m.item).map some ∧
      ∀ e, e ∈ q.popMin.1.entries ↔ e.item ≠ m.item ∧ e ∈ q.entries := by
  cases q with
  | memory q =>
    cases hm : least? MemoryQueue.rank q.entries with
    | none =>
      refine .inl ⟨Scored.least?_eq_none hm, ?_⟩
      simp only [popMin, MemoryQueue.popMin, hm]
    | some m =>
      have hperm := q.perm_popMin hm
      have hnodup : (Scored.items (m :: q.popMin.1.entries)).Nodup :=
        (hperm.map Scored.item).nodup_iff.mpr hq
      -- what is left is known up to the order, which the heap may change
      refine .inr ⟨m, Scored.mem_of_least? hm, fun e => Scored.not_before_least? hm, ?_, ?_⟩
      · simp only [popMin, MemoryQueue.popMin, hm]
        rfl
      · intro e
        show e ∈ q.popMin.1.entries ↔ e.item ≠ m.item ∧ e ∈ q.entries
        rw [← hperm.mem_iff, List.mem_cons]
        constructor
        · intro he
          refine ⟨fun heq => (List.nodup_cons.mp hnodup).1 ?_, .inr he⟩
          exact heq ▸ Scored.mem_items_of_mem he
        · rintro ⟨hne, rfl | he⟩
          · exact absurd rfl hne
          · exact he
  | table q =>
    cases hm : least? RowKey.rank q.rows with
    | none =>
      refine .inl ⟨by rw [entries, Scored.least?_eq_none hm]; rfl, ?_⟩
      simp only [popMin, TableQueue.popMin, hm]
    | some r =>
      have hr := Scored.mem_of_least? hm
      refine .inr ⟨⟨r.item.item, r.score⟩, List.mem_map_of_mem hr, ?_, ?_, ?_⟩
      · intro e he
        obtain ⟨r', hr', rfl⟩ := List.mem_map.mp he
        have hleast := Scored.not_before_least? hm hr'
        rw [Scored.before_iff] at hleast ⊢
        simpa only [rank, RowKey.rowKey_item] using hleast
      · simp only [popMin, TableQueue.popMin, hm, giving, RowKey.rowKey_item]
      · intro e
        simp only [popMin, TableQueue.popMin, hm, entries, Scored.remove, List.mem_map,
          List.mem_filter, decide_eq_true_eq]
        constructor
        · rintro ⟨r', ⟨hr', hne⟩, rfl⟩
          exact ⟨fun heq => hne (RowKey.item_injective heq), r', hr', rfl⟩
        · rintro ⟨hne, r', hr', rfl⟩
          exact ⟨r', ⟨hr', fun heq => hne (congrArg RowKey.item heq)⟩, rfl⟩

end Queue

end Harvest
