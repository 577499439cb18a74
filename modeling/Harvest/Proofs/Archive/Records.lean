import Harvest.Archive.Basic
import Mathlib.Data.List.Basic

/-! # The records of an archive

An archive only ever grows at the front, by records whose id it does not hold. So what an archive
has become is said by the killmails put in front of it: `Archive.prepend`.

## Main statements

* `Archive.insert_eq`: an insertion puts the killmail in front, or changes nothing.
* `Archive.insertAll_eq`, `Archive.mem_firsts`: an archive that is filled keeps the first killmail
  of each id.
* `Archive.mem_ids_prepend`: the ids of an archive that has grown.
* `Archive.Holds.count_le`: what an archive holds it counts.
* `Archive.find_prepend`: records found by id do not change by others put in front.
-/

namespace Harvest

open Harvest.Calendar

theorem toInt64_inj {a b : UInt64} (h : a.toInt64 = b.toInt64) : a = b := by
  rw [← UInt64.toUInt64_toInt64 a, h, UInt64.toUInt64_toInt64]

namespace Archive

/-- An archive with killmails put in front. -/
def prepend (ks : List Killmail) : Archive → Archive
  | .memory a => .memory ⟨ks ++ a.killmails⟩
  | .table a => .table ⟨ks.map Killmail.row ++ a.rows⟩

/-- The ids of the records. -/
def ids : Archive → List UInt64
  | .memory a => a.killmails.map Killmail.id
  | .table a => a.rows.map fun r => r.id.toUInt64

/-- The killmail is one of those that the archive keeps. -/
def Holds (k : Killmail) : Archive → Prop
  | .memory a => k ∈ a.killmails
  | .table a => k.row ∈ a.rows

@[simp] theorem prepend_nil (a : Archive) : a.prepend [] = a := by
  cases a <;> rfl

theorem prepend_prepend (a : Archive) (ks ls : List Killmail) :
    (a.prepend ks).prepend ls = a.prepend (ls ++ ks) := by
  cases a <;> simp [prepend]

@[simp] theorem ids_prepend (a : Archive) (ks : List Killmail) :
    (a.prepend ks).ids = ks.map Killmail.id ++ a.ids := by
  cases a with
  | memory a => simp [prepend, ids]
  | table a => simp [prepend, ids, Killmail.row, Function.comp_def]

theorem mem_ids_prepend {a : Archive} {ks : List Killmail} {id : UInt64} :
    id ∈ (a.prepend ks).ids ↔ (∃ k ∈ ks, k.id = id) ∨ id ∈ a.ids := by
  rw [ids_prepend, List.mem_append, List.mem_map]

theorem contains_iff {a : Archive} {id : UInt64} : a.contains id = true ↔ id ∈ a.ids := by
  cases a with
  | memory a => simp [contains, MemoryArchive.contains, ids]
  | table a =>
    simp only [contains, TableArchive.contains, ids, List.any_eq_true, decide_eq_true_eq,
      List.mem_map]
    -- a table keeps ids as signed numbers, and both conversions undo each other
    constructor
    · rintro ⟨r, hr, h⟩
      exact ⟨r, hr, by rw [h, UInt64.toUInt64_toInt64]⟩
    · rintro ⟨r, hr, rfl⟩
      exact ⟨r, hr, (Int64.toInt64_toUInt64 r.id).symm⟩

/-- An insertion puts the killmail in front, or changes nothing. -/
theorem insert_eq (a : Archive) (k : Killmail) :
    a.insert k = if k.id ∈ a.ids then (a, .duplicate) else (a.prepend [k], .inserted) := by
  have hk : (k.id ∈ a.ids) = (a.contains k.id = true) := propext contains_iff.symm
  simp only [hk]
  cases a with
  | memory a =>
    by_cases h : a.contains k.id = true
    · simp [insert, MemoryArchive.insert, contains, h]
    · simp [insert, MemoryArchive.insert, contains, h, prepend]
  | table a =>
    by_cases h : a.contains k.id = true
    · simp [insert, TableArchive.insert, contains, h]
    · simp [insert, TableArchive.insert, contains, h, prepend]

/-! ## Many insertions -/

/-- Inserts killmails one after another. -/
def insertAll (a : Archive) (ks : List Killmail) : Archive := ks.foldl (fun a k => (a.insert k).1) a

/-- Takes in a killmail, the latest first, unless one of its id is there. -/
def enroll (fs : List Killmail) (k : Killmail) : List Killmail :=
  if k.id ∈ fs.map Killmail.id then fs else k :: fs

/-- The first killmail of each id, the latest first. -/
def firsts (ks : List Killmail) : List Killmail := ks.foldl enroll []

/-- An archive that is filled keeps the first killmail of each id. -/
theorem insertAll_eq {a : Archive} (ha : a.ids = []) (ks : List Killmail) :
    a.insertAll ks = a.prepend (firsts ks) := by
  have hfrom : ∀ fs, (a.prepend fs).insertAll ks = a.prepend (ks.foldl enroll fs) := by
    induction ks with
    | nil => exact fun fs => rfl
    | cons k ks ih =>
      intro fs
      have hinsert : ((a.prepend fs).insert k).1 = a.prepend (enroll fs k) := by
        rw [insert_eq, ids_prepend, ha, List.append_nil, enroll]
        split
        · rfl
        · exact prepend_prepend a fs [k]
      show insertAll ((a.prepend fs).insert k).1 ks = _
      rw [hinsert, ih]
      rfl
  have hnil := hfrom []
  rwa [prepend_nil] at hnil

theorem mem_foldl_enroll {fs ks : List Killmail} {k : Killmail} : k ∈ ks.foldl enroll fs ↔
    k ∈ fs ∨ k.id ∉ fs.map Killmail.id ∧ ks.find? (·.id = k.id) = some k := by
  induction ks generalizing fs with
  | nil => simp
  | cons x ks ih =>
    rw [List.foldl_cons, ih, List.find?_cons, enroll]
    -- the next one is of the same id or of another, and is taken in or not
    by_cases heq : x.id = k.id <;> by_cases hx : x.id ∈ fs.map Killmail.id
    · have hk : k.id ∈ fs.map Killmail.id := heq ▸ hx
      rw [if_pos hx]
      simp only [hk, not_true_eq_false, false_and]
    · have hk : k.id ∉ fs.map Killmail.id := heq ▸ hx
      rw [if_neg hx]
      simp only [List.mem_cons, List.map_cons, heq, not_true_eq_false, false_and,
        or_false, hk, not_false_eq_true, decide_true, Option.some.injEq, true_and]
      rw [or_comm, eq_comm]
    · rw [if_pos hx]
      simp only [heq, decide_false]
    · have hne : k ≠ x := fun h => heq (h ▸ rfl)
      rw [if_neg hx]
      simp only [List.mem_cons, List.map_cons, hne, false_or, Ne.symm heq, heq, decide_false]

/-- A killmail is kept if it is the first of its id. -/
theorem mem_firsts {ks : List Killmail} {k : Killmail} :
    k ∈ firsts ks ↔ ks.find? (·.id = k.id) = some k := by
  rw [firsts, mem_foldl_enroll]
  simp

theorem nodup_ids_firsts (ks : List Killmail) : ((firsts ks).map Killmail.id).Nodup := by
  have hfrom : ∀ fs : List Killmail, (fs.map Killmail.id).Nodup →
      ((ks.foldl enroll fs).map Killmail.id).Nodup := by
    induction ks with
    | nil => exact fun fs hfs => hfs
    | cons k ks ih =>
      intro fs hfs
      apply ih
      rw [enroll]
      split
      · exact hfs
      · rename_i hk
        exact List.nodup_cons.mpr ⟨hk, hfs⟩
  exact hfrom [] List.nodup_nil

theorem Holds.prepend {a : Archive} {k : Killmail} (h : a.Holds k) (ks : List Killmail) :
    (a.prepend ks).Holds k := by
  cases a with
  | memory a => exact List.mem_append_right ks h
  | table a => exact List.mem_append_right (ks.map Killmail.row) h

theorem holds_prepend_of_mem (a : Archive) {k : Killmail} {ks : List Killmail} (h : k ∈ ks) :
    (a.prepend ks).Holds k := by
  cases a with
  | memory a => exact List.mem_append_left _ h
  | table a => exact List.mem_append_left _ (List.mem_map_of_mem h)

/-! ## Counting -/

/-- An archive of the same kind with the given killmails only. -/
def only (ks : List Killmail) : Archive → Archive
  | .memory _ => .memory ⟨ks⟩
  | .table _ => .table ⟨ks.map Killmail.row⟩

theorem totalOf_le_totalOf {α : Type} {f g : α → Nat} (h : ∀ x, f x ≤ g x) (xs : List α) :
    totalOf f xs ≤ totalOf g xs := by
  induction xs with
  | nil => exact Nat.le_refl 0
  | cons x xs ih =>
    rw [totalOf_cons, totalOf_cons]
    have hx := h x
    omega

theorem totalOf_congr {α : Type} {f g : α → Nat} {xs : List α} (h : ∀ x ∈ xs, f x = g x) :
    totalOf f xs = totalOf g xs := by
  induction xs with
  | nil => rfl
  | cons x xs ih =>
    rw [totalOf_cons, totalOf_cons, h x List.mem_cons_self,
      ih fun y hy => h y (List.mem_cons_of_mem _ hy)]

/-- An archive counts what it holds. -/
theorem Holds.count_le {a : Archive} {k : Killmail} (h : a.Holds k) (f : Filter) :
    (a.only [k]).count f ≤ a.count f := by
  cases a with
  | memory a =>
    have hsub : [k].Sublist a.killmails := List.singleton_sublist.mpr h
    exact hsub.countP_le
  | table a =>
    -- each of the queries that the filter is split into counts no fewer rows
    have hsub : [k.row].Sublist a.rows := List.singleton_sublist.mpr h
    exact totalOf_le_totalOf (fun q => hsub.countP_le) _

/-! ## Finding by id -/

theorem mem_of_mem_chunksOf {α : Type} {size : Nat} {xs c : List α} {x : α}
    (hc : c ∈ chunksOf size xs) (hx : x ∈ c) : x ∈ xs := by
  rw [← flatten_chunksOf size xs]
  exact List.mem_flatten.mpr ⟨c, hc, hx⟩

/-- A question for ids is not answered by the row of a killmail with another id. -/
theorem selects_withIds_row {ids : List UInt64} {k : Killmail} (hk : k.id ∉ ids) {q : Query}
    (hq : q ∈ Query.ofFilter (.withIds ids)) : q.selects k.row = false := by
  simp only [Query.ofFilter, Filter.withIds, List.mem_map, Option.map_none] at hq
  obtain ⟨c, hc, rfl⟩ := hq
  have hkc : k.id.toInt64 ∉ c.map UInt64.toInt64 := by
    intro h
    obtain ⟨id, hid, heq⟩ := List.mem_map.mp h
    exact hk (toInt64_inj heq ▸ mem_of_mem_chunksOf hc hid)
  simpa [Query.selects, Killmail.row] using hkc

/-- What is found by id is not changed by killmails of other ids. -/
theorem find_prepend (a : Archive) {ks : List Killmail} {ids : List UInt64}
    (h : ∀ k ∈ ks, k.id ∉ ids) :
    (a.prepend ks).find (.withIds ids) = a.find (.withIds ids) := by
  cases a with
  | memory a =>
    have hnone : ks.filter (Filter.withIds ids).matches_ = [] := by
      rw [List.filter_eq_nil_iff]
      intro k hk
      simp [Filter.matches_, Filter.withIds, h k hk]
    simp only [prepend, find, MemoryArchive.find, List.filter_append, hnone, List.nil_append]
  | table a =>
    -- the question may be split into several queries, and none of them selects a new row
    have hsame : (Query.ofFilter (.withIds ids)).flatMap
        (TableArchive.select ⟨ks.map Killmail.row ++ a.rows⟩)
          = (Query.ofFilter (.withIds ids)).flatMap a.select := by
      apply List.flatMap_congr
      intro q hq
      have hnone : (ks.map Killmail.row).filter q.selects = [] := by
        rw [List.filter_eq_nil_iff]
        intro r hr
        obtain ⟨k, hk, rfl⟩ := List.mem_map.mp hr
        rw [selects_withIds_row (h k hk) hq]
        exact Bool.false_ne_true
      simp only [TableArchive.select, List.filter_append, hnone, List.nil_append]
    simp only [prepend, find, TableArchive.find, hsame]

end Archive

end Harvest
