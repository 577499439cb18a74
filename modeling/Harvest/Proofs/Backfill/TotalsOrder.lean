import Harvest.Backfill.Source
import Harvest.Proofs.Calendar.DayKeys
import Harvest.Proofs.Calendar.DayTables

/-! # Totals in any order

The counts by day are made from entries that come in any order. An entry whose key names no day is
passed over, and of several entries for a day the last one counts. So the order matters exactly if
two entries are for one day and have different counts; then each of the counts is what some order
leads to.

Keys of eight digits name different days if they differ, so for them the order does not matter. But
every key of a day has others beside it, such as the one with a blank in front.

## Main definitions

* `Totals.Disputed`: two entries for one day that have different counts.

## Main statements

* `Totals.day?_ofEntries`: the last entry for a day counts.
* `Totals.exists_order_iff`: the counts that some order leads to.
* `Totals.ofEntries_perm_iff`: the order matters if a day is disputed.
* `Totals.not_disputed_of_eightDigits`: different keys of eight digits dispute no day.
* `Totals.totals_in_order`: the totals of entries with different keys.
-/

namespace Harvest.Backfill.Totals

open Calendar Text

variable {entries order : List (String × UInt64)} {e : String × UInt64} {d : Date} {n : Nat}

/-! ## One entry after another -/

theorem put_eq_alter (d : Date) (n : Nat) (days : List (Date × Nat)) :
    put d n days = DayTable.alter d (fun _ => n) days := by
  induction days with
  | nil => rfl
  | cons x rest ih =>
    obtain ⟨e, m⟩ := x
    rw [put, DayTable.alter, ih]

/-- Takes an entry into a table of counts. -/
def enter (days : List (Date × Nat)) (e : String × UInt64) : List (Date × Nat) :=
  match Date.ofKey? e.1 with
  | some d => put d e.2.toNat days
  | none => days

theorem days_concat (entries : List (String × UInt64)) (e : String × UInt64) :
    (ofEntries (entries ++ [e])).days = enter (ofEntries entries).days e := by
  rw [ofEntries, List.foldl_append]
  rfl

theorem inOrder_ofEntries (entries : List (String × UInt64)) :
    DayTable.InOrder (ofEntries entries).days := by
  induction entries using List.reverseRecOn with
  | nil => exact .nil
  | append_singleton entries e ih =>
    rw [days_concat, enter]
    split
    · rw [put_eq_alter]
      exact ih.alter
    · exact ih

/-- An entry counts for the day that its key names. -/
theorem day?_concat (entries : List (String × UInt64)) (e : String × UInt64) (d : Date) :
    (ofEntries (entries ++ [e])).day? d =
      if Date.ofKey? e.1 = some d then some e.2.toNat else (ofEntries entries).day? d := by
  rw [day?, days_concat, enter]
  split
  · rename_i d' hd'
    rw [put_eq_alter, DayTable.lookup_alter (inOrder_ofEntries entries)]
    simp only [hd', Option.some.injEq]
    rfl
  · rename_i hnone
    rw [hnone, if_neg nofun]
    rfl

/-- The last entry for a day counts. -/
theorem day?_ofEntries (entries : List (String × UInt64)) (d : Date) :
    (ofEntries entries).day? d =
      (entries.filter fun e => Date.ofKey? e.1 = some d).getLast?.map fun e => e.2.toNat := by
  induction entries using List.reverseRecOn with
  | nil => rfl
  | append_singleton entries e ih =>
    rw [day?_concat, List.filter_append]
    by_cases hd : Date.ofKey? e.1 = some d
    · have hone : [e].filter (fun e => Date.ofKey? e.1 = some d) = [e] :=
        List.filter_cons_of_pos (decide_eq_true hd)
      rw [if_pos hd, hone, List.getLast?_concat, Option.map_some]
    · have hnone : [e].filter (fun e => Date.ofKey? e.1 = some d) = [] :=
        List.filter_cons_of_neg (by simpa using hd)
      rw [if_neg hd, hnone, List.append_nil, ih]

/-- Totals that have the same for every day are the same. -/
theorem ofEntries_ext (h : ∀ d, (ofEntries order).day? d = (ofEntries entries).day? d) :
    ofEntries order = ofEntries entries :=
  congrArg Totals.mk ((inOrder_ofEntries order).ext (inOrder_ofEntries entries) h)

/-! ## The counts of a day -/

/-- What counts for a day is the count of one of its entries. -/
theorem exists_entry (h : (ofEntries entries).day? d = some n) :
    ∃ e ∈ entries, Date.ofKey? e.1 = some d ∧ e.2.toNat = n := by
  rw [day?_ofEntries] at h
  obtain ⟨e, hlast, hn⟩ := Option.map_eq_some_iff.mp h
  obtain ⟨hmem, hd⟩ := List.mem_filter.mp (List.mem_of_getLast? hlast)
  exact ⟨e, hmem, of_decide_eq_true hd, hn⟩

/-- An entry comes last in some order. -/
theorem exists_order_concat (he : e ∈ entries) : ∃ front, (front ++ [e]).Perm entries := by
  obtain ⟨front, behind, rfl⟩ := List.append_of_mem he
  refine ⟨front ++ behind, ?_⟩
  exact (List.perm_append_singleton e (front ++ behind)).trans List.perm_middle.symm

/-- The counts that some order leads to are those of the entries for the day. -/
theorem exists_order_iff : (∃ order, order.Perm entries ∧ (ofEntries order).day? d = some n) ↔
    ∃ e ∈ entries, Date.ofKey? e.1 = some d ∧ e.2.toNat = n := by
  constructor
  · rintro ⟨order, hperm, hcount⟩
    obtain ⟨e, he, hd, hn⟩ := exists_entry hcount
    exact ⟨e, hperm.mem_iff.mp he, hd, hn⟩
  · rintro ⟨e, he, hd, rfl⟩
    obtain ⟨front, hperm⟩ := exists_order_concat he
    refine ⟨front ++ [e], hperm, ?_⟩
    rw [day?_concat, if_pos hd]

/-! ## When the order matters -/

/-- Two entries for one day that have different counts. -/
def Disputed (entries : List (String × UInt64)) : Prop :=
  ∃ d, ∃ e ∈ entries, ∃ e' ∈ entries,
    Date.ofKey? e.1 = some d ∧ Date.ofKey? e'.1 = some d ∧ e.2 ≠ e'.2

/-- If no day is disputed, every entry has what counts for its day. -/
theorem day?_eq_some_iff (h : ¬ Disputed entries) :
    (ofEntries entries).day? d = some n ↔
      ∃ e ∈ entries, Date.ofKey? e.1 = some d ∧ e.2.toNat = n := by
  constructor
  · exact exists_entry
  · rintro ⟨e, he, hd, rfl⟩
    have hmem : e ∈ entries.filter fun e => Date.ofKey? e.1 = some d :=
      List.mem_filter.mpr ⟨he, decide_eq_true hd⟩
    -- the last entry for the day need not be this one, but has the same count
    obtain ⟨last, hlast⟩ : ∃ last, (entries.filter fun e => Date.ofKey? e.1 = some d).getLast? =
        some last := ⟨_, List.getLast?_eq_some_getLast (List.ne_nil_of_mem hmem)⟩
    obtain ⟨hlast', hd'⟩ := List.mem_filter.mp (List.mem_of_getLast? hlast)
    have hcount : last.2 = e.2 := by
      by_contra hne
      exact h ⟨d, last, hlast', e, he, of_decide_eq_true hd', hd, hne⟩
    rw [day?_ofEntries, hlast, Option.map_some, hcount]

theorem Disputed.of_perm (h : Disputed order) (hperm : order.Perm entries) : Disputed entries := by
  obtain ⟨d, e, he, e', he', hd, hd', hne⟩ := h
  exact ⟨d, e, hperm.mem_iff.mp he, e', hperm.mem_iff.mp he', hd, hd', hne⟩

/-- The order matters exactly if a day is disputed. -/
theorem ofEntries_perm_iff :
    (∀ order, order.Perm entries → ofEntries order = ofEntries entries) ↔ ¬ Disputed entries := by
  constructor
  · rintro hsame ⟨d, e, he, e', he', hd, hd', hne⟩
    have hcount : ∀ {e}, e ∈ entries → Date.ofKey? e.1 = some d →
        (ofEntries entries).day? d = some e.2.toNat := by
      intro e he hd
      obtain ⟨front, hperm⟩ := exists_order_concat he
      rw [← hsame _ hperm, day?_concat, if_pos hd]
    have heq := (hcount he hd).symm.trans (hcount he' hd')
    exact hne (UInt64.toNat_inj.mp (Option.some.inj heq))
  · intro hagreed order hperm
    have hagreed' : ¬ Disputed order := fun h => hagreed (h.of_perm hperm)
    refine ofEntries_ext fun d => Option.ext fun n => ?_
    rw [day?_eq_some_iff hagreed, day?_eq_some_iff hagreed']
    simp only [hperm.mem_iff]

/-- Different keys dispute no day if those that name one are of eight digits. -/
theorem not_disputed_of_eightDigits (hkeys : (entries.map Prod.fst).Nodup)
    (h : ∀ e ∈ entries, ∀ d, Date.ofKey? e.1 = some d → EightDigits e.1) : ¬ Disputed entries := by
  rintro ⟨d, e, he, e', he', hd, hd', hne⟩
  -- eight digits are the key of the day that they name
  have hkey := (Date.ofKey?_eq_some_iff (h e he d hd)).mp hd
  have hkey' := (Date.ofKey?_eq_some_iff (h e' he' d hd')).mp hd'
  have heq : e = e' := List.inj_on_of_nodup_map hkeys he he' (hkey.symm.trans hkey')
  exact hne (congrArg Prod.snd heq)

/-- Beside every key of a day there is another one. -/
theorem exists_other_key {key : String} (hd : Date.ofKey? key = some d) :
    ∃ other, other ≠ key ∧ Date.ofKey? other = some d := by
  refine ⟨String.ofList (' ' :: key.toList), ?_, ?_⟩
  · intro heq
    have hlength := congrArg (fun s : String => s.toList.length) heq
    simp at hlength
  · rw [Date.ofKey?_blank rfl, hd]

/-- **Totals in any order.** Take entries with different keys, as a document has them. In the order
in which they are read, the last entry for a day counts. What some order leads to for a day are
exactly the counts of its entries. So every order leads to the same totals if and only if no two
entries for one day have different counts, and therefore if all keys that name a day are of eight
digits. But beside every key that names a day there is another one for the same day, and two entries
with these keys and different counts lead to different totals in the two orders. -/
theorem totals_in_order (hkeys : (entries.map Prod.fst).Nodup) :
    (∀ d, (ofEntries entries).day? d =
      (entries.filter fun e => Date.ofKey? e.1 = some d).getLast?.map fun e => e.2.toNat) ∧
    (∀ d n, (∃ order, order.Perm entries ∧ (ofEntries order).day? d = some n) ↔
      ∃ e ∈ entries, Date.ofKey? e.1 = some d ∧ e.2.toNat = n) ∧
    ((∀ order, order.Perm entries → ofEntries order = ofEntries entries) ↔ ¬ Disputed entries) ∧
    ((∀ e ∈ entries, ∀ d, Date.ofKey? e.1 = some d → EightDigits e.1) →
      ∀ order, order.Perm entries → ofEntries order = ofEntries entries) ∧
    ∀ key d, Date.ofKey? key = some d → ∃ other, other ≠ key ∧
      ∀ m n, m ≠ n → ofEntries [(key, m), (other, n)] ≠ ofEntries [(other, n), (key, m)] := by
  refine ⟨day?_ofEntries entries, fun d n => exists_order_iff, ofEntries_perm_iff, ?_, ?_⟩
  · intro hdigits
    exact ofEntries_perm_iff.mpr (not_disputed_of_eightDigits hkeys hdigits)
  · intro key d hd
    obtain ⟨other, hne, hother⟩ := exists_other_key hd
    refine ⟨other, hne, fun m n hmn heq => ?_⟩
    -- each order ends with its own count of the day
    have hfirst := day?_concat [(key, m)] (other, n) d
    have hsecond := day?_concat [(other, n)] (key, m) d
    rw [if_pos hother] at hfirst
    rw [if_pos hd] at hsecond
    have hcount := hsecond.symm.trans ((congrArg (day? · d) heq).symm.trans hfirst)
    exact hmn (UInt64.toNat_inj.mp (Option.some.inj hcount))

/-! ## Two keys for one day -/

namespace Spelling

/-- 9 January, with its key and with one that lacks a zero. -/
def entriesOfDay : List (String × UInt64) := [("20240109", 1), ("2024019", 2)]

def date : Date := ⟨2024, 1, 9, rfl⟩

theorem counts_by_order : (entriesOfDay.map Prod.fst).Nodup ∧
    (∃ order, order.Perm entriesOfDay ∧ (ofEntries order).day? date = some 1) ∧
    (∃ order, order.Perm entriesOfDay ∧ (ofEntries order).day? date = some 2) ∧
    ¬ ∀ order, order.Perm entriesOfDay → ofEntries order = ofEntries entriesOfDay := by
  have hkeys : (entriesOfDay.map Prod.fst).Nodup := by decide
  have hfull : Date.ofKey? "20240109" = some date := by decide +kernel
  have hshort : Date.ofKey? "2024019" = some date := by decide +kernel
  have hone : ("20240109", 1) ∈ entriesOfDay := List.mem_cons_self
  have htwo : ("2024019", 2) ∈ entriesOfDay := List.mem_cons_of_mem _ List.mem_cons_self
  obtain ⟨-, hcounts, hsame, -⟩ := totals_in_order hkeys
  refine ⟨hkeys, ?_, ?_, ?_⟩
  · exact (hcounts date 1).mpr ⟨_, hone, hfull, rfl⟩
  · exact (hcounts date 2).mpr ⟨_, htwo, hshort, rfl⟩
  · intro hall
    exact hsame.mp hall ⟨date, _, hone, _, htwo, hfull, hshort, by decide⟩

end Spelling

end Harvest.Backfill.Totals
