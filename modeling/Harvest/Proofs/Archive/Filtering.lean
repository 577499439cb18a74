import Harvest.Proofs.Archive.Records
import Harvest.Proofs.Calendar.Instants
import Harvest.Proofs.Json.Reading
import Mathlib.Data.List.Nodup
import Mathlib.Data.List.Perm.Basic

/-! # What a filter finds

An archive in memory counts and finds what matches a filter. A table is asked for a long list of ids
in chunks, and what it counts or finds for the chunks is put together. So it gives a killmail once
for each chunk that the id lies in, and agrees with memory where no id lies in two chunks.

## Main definitions

* `Filter.copies`: how often a table gives a killmail.
* `Filter.AsksOnce`: no killmail is given twice.

## Main statements

* `Archive.count_table`, `Archive.find_table`: what a table counts and finds.
* `Archive.count_memory`, `Archive.find_memory`: what an archive in memory counts and finds.
* `Filter.asksOnce_of_nodup`, `Filter.asksOnce_of_length`: lists of ids without repetition, and
  short ones.
* `Archive.filter_in_table_and_memory`: how they compare.
-/

namespace Harvest

open Harvest.Calendar Harvest.Json Harvest.Text

/-! ## Counting twice -/

section lists

variable {α β : Type}

theorem totalOf_add (f g : α → Nat) (xs : List α) :
    totalOf (fun x => f x + g x) xs = totalOf f xs + totalOf g xs := by
  induction xs with
  | nil => rfl
  | cons x xs ih =>
    rw [totalOf_cons, totalOf_cons, totalOf_cons, ih]
    omega

theorem countP_eq_totalOf (p : α → Bool) (xs : List α) :
    xs.countP p = totalOf (fun x => if p x then 1 else 0) xs := by
  induction xs with
  | nil => rfl
  | cons x xs ih =>
    rw [List.countP_cons, totalOf_cons, ih, Nat.add_comm]

/-- Answers can be counted by questions or by what is given. -/
theorem totalOf_countP (p : β → α → Bool) (qs : List β) (xs : List α) :
    totalOf (fun q => xs.countP (p q)) qs = totalOf (fun x => qs.countP (p · x)) xs := by
  induction qs with
  | nil =>
    induction xs with
    | nil => rfl
    | cons x xs ih => exact ih.trans (Nat.zero_add _).symm
  | cons q qs ih =>
    have hsplit : (fun x => (q :: qs).countP (p · x)) =
        fun x => qs.countP (p · x) + if p q x then 1 else 0 := by
      funext x
      rw [List.countP_cons]
    rw [totalOf_cons, ih, hsplit, totalOf_add, countP_eq_totalOf, Nat.add_comm]

theorem filter_eq_flatMap (p : α → Bool) (xs : List α) :
    xs.filter p = xs.flatMap fun x => if p x then [x] else [] := by
  induction xs with
  | nil => rfl
  | cons x xs ih =>
    rw [List.filter_cons, List.flatMap_cons, ih]
    split <;> rfl

/-- Answers can be listed by questions or by what is given. -/
theorem perm_flatMap_filter (p : β → α → Bool) (qs : List β) (xs : List α) :
    (qs.flatMap fun q => xs.filter (p q)).Perm
      (xs.flatMap fun x => List.replicate (qs.countP (p · x)) x) := by
  induction qs with
  | nil =>
    have hnone : (xs.flatMap fun x => List.replicate (([] : List β).countP (p · x)) x) = [] :=
      List.flatMap_eq_nil_iff.mpr fun x _ => rfl
    rw [hnone]
    exact .refl _
  | cons q qs ih =>
    have hsplit : (fun x => List.replicate ((q :: qs).countP (p · x)) x) =
        fun x => (if p q x then [x] else []) ++ List.replicate (qs.countP (p · x)) x := by
      funext x
      rw [List.countP_cons]
      split <;> simp [List.replicate_succ]
    rw [List.flatMap_cons, hsplit, filter_eq_flatMap]
    exact (ih.append_left _).trans (List.flatMap_append_perm xs _ _)

end lists

/-! ## Whole seconds -/

namespace Calendar

/-- An instant without a part of a second. -/
def Instant.IsWhole (t : Instant) : Prop := t.nano = 0

/-- A range between whole seconds. -/
structure Range.IsWhole (r : Range) : Prop where
  start : r.start.IsWhole
  stop : r.stop.IsWhole

instance (t : Instant) : Decidable t.IsWhole := inferInstanceAs (Decidable (_ = _))

theorem Instant.IsWhole.le_iff {s t : Instant} (hs : s.IsWhole) (ht : t.IsWhole) :
    s ≤ t ↔ s.second ≤ t.second := by
  have hs : s.nano = 0 := hs
  have ht : t.nano = 0 := ht
  rw [Instant.le_def, hs, ht]
  omega

theorem Range.IsWhole.contains_eq {r : Range} {t : Instant} (hr : r.IsWhole) (ht : t.IsWhole) :
    r.contains t = (decide (r.start.second ≤ t.second) && decide (t.second ≤ r.stop.second)) := by
  rw [Range.contains, decide_eq_decide.mpr (hr.start.le_iff ht),
    decide_eq_decide.mpr (ht.le_iff hr.stop)]

end Calendar

/-! ## What a question selects -/

namespace Filter

variable {f : Filter} {k : Killmail} {ks : List Killmail}

/-- How often a table gives a killmail: once for each chunk of ids that it lies in. -/
def copies (f : Filter) (k : Killmail) : Nat :=
  if f.range.all (·.contains k.time) then
    match f.ids with
    | none => 1
    | some ids => (chunksOf idChunk ids).countP (·.contains k.id)
  else 0

/-- The range of a filter is one between whole seconds. -/
def IsWhole (f : Filter) : Prop := ∀ r, f.range = some r → r.IsWhole

/-- None of the killmails is given twice. -/
def AsksOnce (f : Filter) (ks : List Killmail) : Prop :=
  ∀ k ∈ ks, f.matches_ k = true → f.copies k = 1

theorem selects_row (hf : f.IsWhole) (hk : k.time.IsWhole) (ids : Option (List UInt64)) :
    Query.selects ⟨f.range.map fun r => (r.start.second, r.stop.second),
      ids.map (·.map UInt64.toInt64)⟩ k.row =
        (f.range.all (·.contains k.time) && ids.all (·.contains k.id)) := by
  unfold Query.selects
  congr 1
  · cases hr : f.range with
    | none => rfl
    | some r => exact ((hf r hr).contains_eq hk).symm
  · cases ids with
    | none => rfl
    | some ids =>
      -- different ids are different signed words
      show (ids.map UInt64.toInt64).contains k.id.toInt64 = ids.contains k.id
      rw [Bool.eq_iff_iff, List.contains_iff_mem, List.contains_iff_mem]
      constructor
      · intro h
        obtain ⟨id, hid, heq⟩ := List.mem_map.mp h
        exact toInt64_inj heq ▸ hid
      · exact List.mem_map_of_mem

theorem countP_selects (hf : f.IsWhole) (hk : k.time.IsWhole) :
    (Query.ofFilter f).countP (·.selects k.row) = f.copies k := by
  unfold Query.ofFilter copies
  cases hids : f.ids with
  | none =>
    have hrow := selects_row hf hk none
    simp only [Option.map_none, Option.all_none, Bool.and_true] at hrow
    simp only [List.countP_cons, List.countP_nil, hrow, Nat.zero_add]
  | some ids =>
    have hrow : ∀ c : List UInt64, Query.selects ⟨f.range.map fun r =>
        (r.start.second, r.stop.second), some (c.map UInt64.toInt64)⟩ k.row =
          (f.range.all (·.contains k.time) && c.contains k.id) :=
      fun c => selects_row hf hk (some c)
    simp only [List.countP_map, Function.comp_def, hrow]
    by_cases hrange : f.range.all (·.contains k.time) = true
    · simp only [hrange, Bool.true_and, if_true]
    · simp [hrange]

/-! ## How often -/

theorem copies_of_not_matches (h : f.matches_ k = false) : f.copies k = 0 := by
  unfold copies
  split
  · rename_i hrange
    rw [matches_, hrange, Bool.true_and] at h
    cases hids : f.ids with
    | none => rw [hids] at h; cases h
    | some ids =>
      -- an id that is not asked for lies in no chunk
      rw [hids] at h
      rw [List.countP_eq_zero]
      intro c hc hkc
      have hmem : k.id ∈ ids := Archive.mem_of_mem_chunksOf hc (List.contains_iff_mem.mp hkc)
      rw [Option.all_some, List.contains_iff_mem.mpr hmem] at h
      cases h
  · rfl

theorem copies_pos (h : f.matches_ k = true) : 1 ≤ f.copies k := by
  rw [matches_, Bool.and_eq_true] at h
  rw [copies, if_pos h.1]
  cases hids : f.ids with
  | none => exact Nat.le_refl 1
  | some ids =>
    have hmem : k.id ∈ (chunksOf idChunk ids).flatten := by
      rw [flatten_chunksOf]
      rw [hids] at h
      exact List.contains_iff_mem.mp h.2
    obtain ⟨c, hc, hkc⟩ := List.mem_flatten.mp hmem
    exact List.countP_pos_iff.mpr ⟨c, hc, List.contains_iff_mem.mpr hkc⟩

theorem AsksOnce.copies_eq (h : f.AsksOnce ks) (hk : k ∈ ks) :
    f.copies k = if f.matches_ k then 1 else 0 := by
  split
  · rename_i hmatch
    exact h k hk hmatch
  · rename_i hmatch
    exact copies_of_not_matches (Bool.eq_false_iff.mpr hmatch)

/-- Whether killmails are given twice shows in their number. -/
theorem asksOnce_iff : f.AsksOnce ks ↔ totalOf f.copies ks = ks.countP f.matches_ := by
  induction ks with
  | nil => simp [AsksOnce]
  | cons k ks ih =>
    have hle : ks.countP f.matches_ ≤ totalOf f.copies ks := by
      rw [countP_eq_totalOf]
      apply Archive.totalOf_le_totalOf
      intro x
      split
      · rename_i hx
        exact copies_pos hx
      · exact Nat.zero_le _
    have hcons : f.AsksOnce (k :: ks) ↔ (f.matches_ k = true → f.copies k = 1) ∧ f.AsksOnce ks :=
      List.forall_mem_cons
    rw [hcons, ih, totalOf_cons, List.countP_cons]
    cases hk : f.matches_ k with
    | true =>
      have hpos := copies_pos hk
      simp only [forall_const, if_true]
      omega
    | false =>
      rw [copies_of_not_matches hk]
      simp

theorem countP_contains_le_one {cs : List (List UInt64)} (h : cs.flatten.Nodup) (id : UInt64) :
    cs.countP (·.contains id) ≤ 1 := by
  induction cs with
  | nil => exact Nat.zero_le 1
  | cons c cs ih =>
    rw [List.flatten_cons, List.nodup_append] at h
    rw [List.countP_cons]
    split
    · -- what lies in one chunk lies in no other
      rename_i hc
      have hnone : cs.countP (·.contains id) = 0 := by
        rw [List.countP_eq_zero]
        intro c' hc' hid
        have hflat : id ∈ cs.flatten := List.mem_flatten.mpr ⟨c', hc', List.contains_iff_mem.mp hid⟩
        exact h.2.2 id (List.contains_iff_mem.mp hc) id hflat rfl
      omega
    · exact ih h.2.1

/-- An id of a list without repetition lies in one chunk. -/
theorem asksOnce_of_nodup {ids : List UInt64} (hids : f.ids = some ids) (h : ids.Nodup)
    (ks : List Killmail) : f.AsksOnce ks := by
  intro k _ hk
  have hpos := copies_pos hk
  rw [matches_, Bool.and_eq_true] at hk
  simp only [copies, hk.1, if_true, hids] at hpos ⊢
  rw [← flatten_chunksOf idChunk ids] at h
  exact Nat.le_antisymm (countP_contains_le_one h k.id) hpos

theorem chunksOf_of_length {α : Type} {size : Nat} {x : α} {xs : List α}
    (h : xs.length < size) : chunksOf size (x :: xs) = [x :: xs] := by
  have hle : xs.length ≤ size.pred := by
    rw [Nat.pred_eq_sub_one]
    omega
  rw [chunksOf, List.take_of_length_le hle, List.drop_eq_nil_of_le hle, chunksOf]

/-- A short list of ids makes one chunk, whatever it repeats. -/
theorem asksOnce_of_length {ids : List UInt64} (hids : f.ids = some ids)
    (h : ids.length ≤ idChunk) (ks : List Killmail) : f.AsksOnce ks := by
  intro k _ hk
  have hpos := copies_pos hk
  rw [matches_, Bool.and_eq_true] at hk
  simp only [copies, hk.1, if_true, hids] at hpos ⊢
  cases ids with
  | nil => exact absurd hpos (by simp [chunksOf])
  | cons id ids =>
    rw [chunksOf_of_length (show ids.length < idChunk from h)] at hpos ⊢
    exact Nat.le_antisymm List.countP_le_length hpos

theorem asksOnce_of_all (hids : f.ids = none) (ks : List Killmail) : f.AsksOnce ks := by
  intro k _ hk
  rw [matches_, Bool.and_eq_true] at hk
  simp only [copies, hk.1, if_true, hids]

end Filter

namespace Archive

variable {f : Filter} {ks : List Killmail}

/-! ## In memory -/

theorem count_memory (ks : List Killmail) (f : Filter) :
    (prepend ks (.memory .empty)).count f = ks.countP f.matches_ := by
  show (ks ++ []).countP f.matches_ = _
  rw [List.append_nil]

theorem pairwise_id (ks : List Killmail) :
    (ks.mergeSort fun x y => x.id ≤ y.id).Pairwise fun x y => x.id ≤ y.id := by
  have htrans : ∀ x y z : Killmail, decide (x.id ≤ y.id) → decide (y.id ≤ z.id) →
      decide (x.id ≤ z.id) := by
    intro x y z hxy hyz
    exact decide_eq_true (UInt64.le_trans (of_decide_eq_true hxy) (of_decide_eq_true hyz))
  have htotal : ∀ x y : Killmail, decide (x.id ≤ y.id) || decide (y.id ≤ x.id) := by
    intro x y
    simpa using UInt64.le_total x.id y.id
  exact (List.pairwise_mergeSort htrans htotal ks).imp of_decide_eq_true

theorem find_memory (ks : List Killmail) (f : Filter) : ∃ found,
    (prepend ks (.memory .empty)).find f = .ok found ∧
    found.Pairwise (fun x y => x.id ≤ y.id) ∧ found.Perm (ks.filter f.matches_) := by
  refine ⟨(ks.filter f.matches_).mergeSort fun x y => x.id ≤ y.id, ?_, pairwise_id _,
    List.mergeSort_perm _ _⟩
  show Except.ok (MemoryArchive.find ⟨ks ++ []⟩ f) = _
  rw [List.append_nil, MemoryArchive.find]

/-! ## In a table -/

/-- A table counts the answers to its questions. -/
theorem count_table_queries (ks : List Killmail) (f : Filter) :
    (prepend ks (.table .empty)).count f =
      totalOf (fun k => (Query.ofFilter f).countP (·.selects k.row)) ks := by
  show totalOf (fun q => (ks.map Killmail.row ++ []).countP q.selects) (Query.ofFilter f) = _
  rw [List.append_nil]
  simp only [List.countP_map]
  exact totalOf_countP (fun q => q.selects ∘ Killmail.row) (Query.ofFilter f) ks

theorem count_table (hf : f.IsWhole) (hks : ∀ k ∈ ks, k.time.IsWhole) :
    (prepend ks (.table .empty)).count f = totalOf f.copies ks := by
  rw [count_table_queries]
  exact totalOf_congr fun k hk => Filter.countP_selects hf (hks k hk)

/-- The rows that answer a question are those of killmails. -/
theorem select_map_row (ks : List Killmail) (q : Query) :
    ∃ ls : List Killmail, TableArchive.select ⟨ks.map Killmail.row⟩ q = ls.map Killmail.row ∧
      ls.Perm (ks.filter fun k => q.selects k.row) := by
  refine ⟨(ks.filter fun k => q.selects k.row).mergeSort
    fun x y => x.row.id.toInt ≤ y.row.id.toInt, ?_, List.mergeSort_perm _ _⟩
  rw [TableArchive.select, List.filter_map]
  exact (List.map_mergeSort (f := Killmail.row)
    (s := fun x y => decide (x.id.toInt ≤ y.id.toInt)) fun _ _ _ _ => rfl).symm

theorem flatMap_select (ks : List Killmail) (qs : List Query) :
    ∃ ls : List Killmail,
      qs.flatMap (TableArchive.select ⟨ks.map Killmail.row⟩) = ls.map Killmail.row ∧
      ls.Perm (qs.flatMap fun q => ks.filter fun k => q.selects k.row) := by
  induction qs with
  | nil => exact ⟨[], rfl, .refl _⟩
  | cons q qs ih =>
    obtain ⟨ls, hls, hperm⟩ := ih
    obtain ⟨ms, hms, hperm'⟩ := select_map_row ks q
    refine ⟨ms ++ ls, ?_, ?_⟩
    · rw [List.flatMap_cons, hms, hls, List.map_append]
    · rw [List.flatMap_cons]
      exact hperm'.append hperm

theorem mapM_read? {ls : List Killmail} (h : ∀ k ∈ ls, Killmail.read? k.write = some k) :
    (ls.map Killmail.row).mapM (fun r => Killmail.read? r.record) = some ls :=
  mapM_map_of_forall h

theorem find_table (hf : f.IsWhole) (hks : ∀ k ∈ ks, k.time.IsWhole)
    (hread : ∀ k ∈ ks, Killmail.read? k.write = some k) : ∃ found,
    (prepend ks (.table .empty)).find f = .ok found ∧
    found.Pairwise (fun x y => x.id ≤ y.id) ∧
    found.Perm (ks.flatMap fun k => List.replicate (f.copies k) k) := by
  obtain ⟨ls, hls, hselect⟩ := flatMap_select ks (Query.ofFilter f)
  have hcopies : (ks.flatMap fun k => List.replicate
      ((Query.ofFilter f).countP (·.selects k.row)) k) =
        ks.flatMap fun k => List.replicate (f.copies k) k := by
    apply List.flatMap_congr
    intro k hk
    rw [Filter.countP_selects hf (hks k hk)]
  have hperm : ls.Perm (ks.flatMap fun k => List.replicate (f.copies k) k) := by
    have hlist := perm_flatMap_filter (fun (q : Query) (k : Killmail) => q.selects k.row)
      (Query.ofFilter f) ks
    rw [← hcopies]
    exact hselect.trans hlist
  -- whatever is given is stored, so it reads back
  have hreads : ∀ k ∈ ls, Killmail.read? k.write = some k := by
    intro k hk
    obtain ⟨k', hk', hmem⟩ := List.mem_flatMap.mp (hperm.subset hk)
    rw [List.eq_of_mem_replicate hmem]
    exact hread k' hk'
  refine ⟨ls.mergeSort fun x y => x.id ≤ y.id, ?_, pairwise_id ls,
    (List.mergeSort_perm _ _).trans hperm⟩
  show TableArchive.find ⟨ks.map Killmail.row ++ []⟩ f = _
  rw [List.append_nil, TableArchive.find, hls]
  simp only [mapM_read? hreads]

/-! ## Side by side -/

theorem length_flatMap_replicate {α : Type} (f : α → Nat) (xs : List α) :
    (xs.flatMap fun x => List.replicate (f x) x).length = totalOf f xs := by
  induction xs with
  | nil => rfl
  | cons x xs ih =>
    rw [List.flatMap_cons, List.length_append, List.length_replicate, ih, totalOf_cons]

/-- Killmails of different ids are in one order by id. -/
theorem eq_of_pairwise_id {xs ys : List Killmail} (hxs : xs.Pairwise fun x y => x.id ≤ y.id)
    (hys : ys.Pairwise fun x y => x.id ≤ y.id) (hperm : xs.Perm ys)
    (hids : (xs.map Killmail.id).Nodup) : xs = ys := by
  refine List.Perm.eq_of_pairwise ?_ hxs hys hperm
  intro x y hx hy hxy hyx
  exact List.inj_on_of_nodup_map hids hx (hperm.symm.subset hy) (UInt64.le_antisymm hxy hyx)

theorem lt_of_pairwise_id {xs : List Killmail} (hxs : xs.Pairwise fun x y => x.id ≤ y.id)
    (hids : (xs.map Killmail.id).Nodup) : xs.Pairwise fun x y => x.id < y.id := by
  refine hxs.imp₂ ?_ (List.pairwise_map.mp hids)
  intro x y hle hne
  exact UInt64.lt_of_le_of_ne hle hne

theorem nodup_ids_filter (ks : List Killmail) (p : Killmail → Bool) :
    (((firsts ks).filter p).map Killmail.id).Nodup :=
  (nodup_ids_firsts ks).sublist (List.filter_sublist.map _)

theorem flatMap_copies (h : f.AsksOnce ks) :
    (ks.flatMap fun k => List.replicate (f.copies k) k) = ks.filter f.matches_ := by
  rw [filter_eq_flatMap]
  apply List.flatMap_congr
  intro k hk
  rw [h.copies_eq hk]
  split <;> rfl

/-- **What a filter finds.** Fill a table and an archive in memory with the same killmails, with
stored times and a filter of whole seconds, and texts that read back. In memory what matches the
filter is counted, and found by increasing id, each once. The table counts and finds each of these
once for every chunk of 500 that its id lies in. So the two agree if and only if no id that is found
is asked for in two chunks, as it cannot be in a list of 500 or without repetition. -/
theorem filter_in_table_and_memory (hf : f.IsWhole) (hks : ∀ k ∈ firsts ks, k.time.IsWhole)
    (hread : ∀ k ∈ firsts ks, Killmail.read? k.write = some k) :
    ((insertAll (.memory .empty) ks).count f = (firsts ks).countP f.matches_ ∧
      ∃ found, (insertAll (.memory .empty) ks).find f = .ok found ∧
        found.Pairwise (fun x y => x.id < y.id) ∧ found.Perm ((firsts ks).filter f.matches_)) ∧
    ((insertAll (.table .empty) ks).count f = totalOf f.copies (firsts ks) ∧
      ∃ found, (insertAll (.table .empty) ks).find f = .ok found ∧
        found.Pairwise (fun x y => x.id ≤ y.id) ∧
        found.Perm ((firsts ks).flatMap fun k => List.replicate (f.copies k) k)) ∧
    ((insertAll (.table .empty) ks).count f = (insertAll (.memory .empty) ks).count f ↔
      f.AsksOnce (firsts ks)) ∧
    ((insertAll (.table .empty) ks).find f = (insertAll (.memory .empty) ks).find f ↔
      f.AsksOnce (firsts ks)) ∧
    ((∀ ids, f.ids = some ids → ids.Nodup ∨ ids.length ≤ 500) → f.AsksOnce (firsts ks)) := by
  rw [insertAll_eq rfl, insertAll_eq rfl]
  have hmemory := count_memory (firsts ks) f
  have htable := count_table hf hks
  obtain ⟨xs, hxs, hxsorted, hxperm⟩ := find_memory (firsts ks) f
  obtain ⟨ys, hys, hysorted, hyperm⟩ := find_table hf hks hread
  have hids : (xs.map Killmail.id).Nodup :=
    ((hxperm.map _).nodup_iff).mpr (nodup_ids_filter ks f.matches_)
  have hcount : totalOf f.copies (firsts ks) = (firsts ks).countP f.matches_ ↔
      f.AsksOnce (firsts ks) := Filter.asksOnce_iff.symm
  refine ⟨⟨hmemory, xs, hxs, lt_of_pairwise_id hxsorted hids, hxperm⟩,
    ⟨htable, ys, hys, hysorted, hyperm⟩, ?_, ?_, ?_⟩
  · rw [hmemory, htable]
    exact hcount
  · rw [hxs, hys, Except.ok.injEq, ← hcount]
    constructor
    · -- what is found is as long as what is counted
      intro heq
      rw [← length_flatMap_replicate, ← hyperm.length_eq, heq, hxperm.length_eq,
        List.countP_eq_length_filter]
    · intro heq
      rw [flatMap_copies (hcount.mp heq)] at hyperm
      exact (eq_of_pairwise_id hxsorted hysorted (hxperm.trans hyperm.symm) hids).symm
  · intro h
    cases hf : f.ids with
    | none => exact Filter.asksOnce_of_all hf _
    | some ids =>
      rcases h ids hf with hnodup | hlength
      · exact Filter.asksOnce_of_nodup hf hnodup _
      · exact Filter.asksOnce_of_length hf hlength _

/-! ## An id in two chunks -/

namespace Repeated

/-- A killmail of noon of 1 March 2024. -/
def loss : Killmail where
  id := 1
  hash := "h1"
  time := ⟨1709294400, 0, by decide⟩
  solarSystem := 30000142
  moon := none
  war := none
  npc := false
  solo := false
  victim := ⟨none, none, none, none, 0, 587, none, []⟩
  attackers := []

/-- It is asked for in front of a chunk and behind it. -/
def asked : List UInt64 := 1 :: List.replicate 499 2 ++ [1]

theorem read?_loss : Killmail.read? loss.write = some loss := by
  -- the text is read as it is written, character by character
  show Tree.read? (glyphsOf (String.ofList loss.toValue.chars)) >>= Killmail.decode maxDepth = _
  rw [glyphsOf, String.toList_ofList]
  decide +kernel

theorem given_twice :
    (insertAll (.memory .empty) [loss]).count (.withIds asked) = 1 ∧
    (insertAll (.table .empty) [loss]).count (.withIds asked) = 2 ∧
    (insertAll (.table .empty) [loss]).find (.withIds asked) = .ok [loss, loss] := by
  have hloss : ∀ k ∈ firsts [loss], k = loss := fun k hk => List.mem_singleton.mp hk
  have hwhole : ∀ k ∈ firsts [loss], k.time.IsWhole := by
    intro k hk
    rw [hloss k hk]
    exact rfl
  have hread : ∀ k ∈ firsts [loss], Killmail.read? k.write = some k := by
    intro k hk
    rw [hloss k hk]
    exact read?_loss
  have hrange : (Filter.withIds asked).IsWhole := by
    intro r hr
    cases hr
  obtain ⟨⟨hmemory, -⟩, ⟨htable, found, hfind, -, hperm⟩, -⟩ :=
    filter_in_table_and_memory hrange hwhole hread
  have hmatches : (firsts [loss]).countP (Filter.withIds asked).matches_ = 1 := by decide +kernel
  have hcopies : totalOf (Filter.withIds asked).copies (firsts [loss]) = 2 := by decide +kernel
  have hfound : ((firsts [loss]).flatMap fun k =>
      List.replicate ((Filter.withIds asked).copies k) k) = List.replicate 2 loss := by
    decide +kernel
  rw [hfound] at hperm
  rw [List.perm_replicate.mp hperm] at hfind
  exact ⟨hmemory.trans hmatches, htable.trans hcopies, hfind⟩

end Repeated

end Archive

end Harvest
