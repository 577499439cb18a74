import Harvest.Backup.Basic
import Harvest.Proofs.Archive.Filtering
import Harvest.Proofs.Archive.Tallies

/-! # The days of an archive

A killmail belongs to the date of its time, on which it is tallied and under which its body is
backed up. A table that is asked for a date counts the killmails that belong to it: it compares
whole seconds, and the range of a date has all of them. So each killmail is counted on one day. An
archive in memory compares to the nanosecond, and the range ends with the last whole second. So it
counts a killmail that is later than that on no day.

## Main statements

* `Archive.count_day_table`, `Archive.count_day_memory`: what is counted of a date.
* `Archive.totalOf_dates`: each killmail belongs to one date.
* `Archive.days_of_archive`: how these compare.
-/

namespace Harvest.Archive

open Harvest.Calendar

/-! ## Counting a date -/

/-- The question to a table for a date. -/
def dayQuery (d : Date) : Query :=
  ⟨some ((Range.day d).start.second, (Range.day d).stop.second), none⟩

theorem selects_dayQuery (k : Killmail) (d : Date) :
    (dayQuery d).selects k.row = decide (k.time.date = d) := by
  rw [Query.selects, dayQuery, Option.all_none, Bool.and_true, Option.all_some, Bool.eq_iff_iff,
    Bool.and_eq_true, decide_eq_true_eq, decide_eq_true_eq, decide_eq_true_eq]
  exact Range.seconds_day_iff

theorem count_day_table (ks : List Killmail) (d : Date) :
    (prepend ks (.table .empty)).count (.within (.day d)) = ks.countP fun k => k.time.date = d := by
  have hqueries : Query.ofFilter (.within (.day d)) = [dayQuery d] := rfl
  rw [count_table_queries, hqueries, countP_eq_totalOf]
  apply totalOf_congr
  intro k _
  rw [List.countP_cons, List.countP_nil, Nat.zero_add, selects_dayQuery]

theorem count_day_memory (ks : List Killmail) (d : Date) :
    (prepend ks (.memory .empty)).count (.within (.day d)) =
      ks.countP fun k => k.time.date = d && !decide k.time.IsLate := by
  rw [count_memory]
  apply List.countP_congr
  intro k _
  rw [Filter.matches_, Filter.within, Option.all_some, Option.all_none, Bool.and_true,
    Range.contains_day_iff]
  simp

/-! ## Counting all dates -/

theorem totalOf_one (ks : List Killmail) : totalOf (fun _ => 1) ks = ks.length := by
  induction ks with
  | nil => rfl
  | cons k ks ih => rw [totalOf_cons, ih, List.length_cons, Nat.add_comm]

/-- Each killmail belongs to one date. -/
theorem totalOf_dates {ks : List Killmail} {ds : List Date} (hds : ds.Nodup)
    (hall : ∀ k ∈ ks, k.time.date ∈ ds) :
    totalOf (fun d => ks.countP fun k => k.time.date = d) ds = ks.length := by
  have hone : ∀ k ∈ ks, ds.countP (fun d => k.time.date = d) = 1 := by
    intro k hk
    rw [← List.count_eq_one_of_mem hds (hall k hk), List.count]
    apply List.countP_congr
    intro d _
    rw [decide_eq_true_iff, beq_iff_eq, eq_comm]
  rw [totalOf_countP (fun d (k : Killmail) => decide (k.time.date = d)), totalOf_congr hone,
    totalOf_one]

theorem countP_and_eq_iff {α : Type} (p q : α → Bool) (xs : List α) :
    xs.countP (fun x => p x && q x) = xs.countP p ↔ ∀ x ∈ xs, p x = true → q x = true := by
  induction xs with
  | nil => simp
  | cons x xs ih =>
    have hle : xs.countP (fun x => p x && q x) ≤ xs.countP p :=
      List.countP_mono_left fun x _ h => (Bool.and_eq_true _ _ ▸ h).1
    rw [List.forall_mem_cons, ← ih, List.countP_cons, List.countP_cons]
    cases p x <;> cases q x <;> simp
    omega

/-- The directory of a backup names the date. -/
theorem directory_iff {d e : Date} {w : WorkItem} :
    (Backup.location e w).1.head? = some d.key ↔ e = d := by
  rw [Backup.location, List.head?_cons, Option.some.injEq]
  exact ⟨Date.key_inj, congrArg Date.key⟩

/-- **The days of an archive.** Fill a table and an archive in memory with the same killmails, of
times of any precision. For every date the table counts the stored killmails of the date, which is
also what a tally of them has for it, and a backup of a killmail is put into the directory of the
date if it belongs to it. Over dates without repetition that include those of all killmails, the
counts of the table come to the number of killmails. The archive in memory counts those of the date
that are not later than its last whole second, and so agrees with the table if and only if none
is. -/
theorem days_of_archive (ks : List Killmail) (d : Date) :
    (insertAll (.table .empty) ks).count (.within (.day d)) =
      (firsts ks).countP (fun k => k.time.date = d) ∧
    (((firsts ks).foldr (fun k t => t.observe k) Tally.empty).day d).total =
      (insertAll (.table .empty) ks).count (.within (.day d)) ∧
    (∀ k ∈ firsts ks, ∀ w,
      (Backup.location k.time.date w).1.head? = some d.key ↔ k.time.date = d) ∧
    (∀ ds : List Date, ds.Nodup → (∀ k ∈ firsts ks, k.time.date ∈ ds) →
      totalOf (fun d => (insertAll (.table .empty) ks).count (.within (.day d))) ds =
        (firsts ks).length) ∧
    (insertAll (.memory .empty) ks).count (.within (.day d)) =
      (firsts ks).countP (fun k => k.time.date = d && !decide k.time.IsLate) ∧
    ((insertAll (.memory .empty) ks).count (.within (.day d)) =
        (insertAll (.table .empty) ks).count (.within (.day d)) ↔
      ∀ k ∈ firsts ks, k.time.date = d → ¬ k.time.IsLate) := by
  rw [insertAll_eq rfl, insertAll_eq rfl]
  have htable := count_day_table (firsts ks)
  have hmemory := count_day_memory (firsts ks) d
  refine ⟨htable d, ?_, fun k _ w => directory_iff, ?_, hmemory, ?_⟩
  · rw [htable, Tally.day_foldr_observe]
  · intro ds hds hall
    rw [totalOf_congr fun d _ => htable d]
    exact totalOf_dates hds hall
  · rw [hmemory, htable, countP_and_eq_iff]
    simp

/-! ## A killmail that is late -/

namespace Late

/-- A killmail of half a second before the end of 1 March 2024. -/
def loss : Killmail := { Repeated.loss with time := ⟨1709337599, 500000000, by decide⟩ }

def firstOfMarch : Date := ⟨2024, 3, 1, by decide⟩

theorem missed_in_memory :
    (insertAll (.table .empty) [loss]).count (.within (.day firstOfMarch)) = 1 ∧
    (insertAll (.memory .empty) [loss]).count (.within (.day firstOfMarch)) = 0 := by
  obtain ⟨htable, -, -, -, hmemory, -⟩ := days_of_archive [loss] firstOfMarch
  rw [htable, hmemory]
  decide +kernel

end Late

end Harvest.Archive
