import Mathlib.Data.List.Infix
import Harvest.Backfill.Walk

/-! # Gaps in the totals

A gap is a stretch of days in a row without a total. A walk that goes over days one by one sees
whether it has come to the end of a gap from the number of days that it has just skipped: what it
has gone over ends in as many days without a total, with a day before them that has one, or none.

## Main definitions

* `Totals.HasGap`, `Totals.EndsIn`: a gap among days, and days without a total at the end.
* `Verdict`: what a walk over days comes to.

## Main statements

* `Totals.not_hasGap_concat`: one more day makes no gap unless the days end in one.
* `Totals.EndsIn.lt`: days without a gap end in less.
-/

namespace Harvest.Backfill

open Harvest.Calendar

/-! ## Gaps -/

namespace Totals

variable {ts : Totals} {l : List Date} {d : Date} {k m : Nat}

/-- As many days in a row have no total. -/
def HasGap (ts : Totals) (m : Nat) (l : List Date) : Prop :=
  ∃ gap, gap <:+: l ∧ gap.length = m ∧ ∀ d ∈ gap, ts.day? d = none

/-- The last days, as many, have no total, and the day before them has one if it is there. -/
def EndsIn (ts : Totals) (l : List Date) (k : Nat) : Prop :=
  ∃ pre gap, l = pre ++ gap ∧ gap.length = k ∧ (∀ d ∈ gap, ts.day? d = none) ∧
    ∀ d, pre.getLast? = some d → ts.day? d ≠ none

theorem endsIn_nil : ts.EndsIn [] 0 :=
  ⟨[], [], rfl, rfl, by simp, by simp⟩

theorem EndsIn.lacking (h : ts.EndsIn l k) (hd : ts.day? d = none) :
    ts.EndsIn (l ++ [d]) (k + 1) := by
  obtain ⟨pre, gap, rfl, rfl, hgap, hpre⟩ := h
  refine ⟨pre, gap ++ [d], List.append_assoc _ _ _, List.length_append, ?_, hpre⟩
  intro e he
  rcases List.mem_append.mp he with he | he
  · exact hgap e he
  · exact List.mem_singleton.mp he ▸ hd

theorem endsIn_counted (hd : ts.day? d ≠ none) : ts.EndsIn (l ++ [d]) 0 := by
  refine ⟨l ++ [d], [], (List.append_nil _).symm, rfl, by simp, ?_⟩
  intro e he
  rw [List.getLast?_append, List.getLast?_singleton, Option.some_or] at he
  exact Option.some.inj he ▸ hd

/-- Days without a total that end a list are not more than it ends in. -/
theorem EndsIn.length_le (h : ts.EndsIn l k) {gap : List Date} (hsuffix : gap <:+ l)
    (hgap : ∀ d ∈ gap, ts.day? d = none) : gap.length ≤ k := by
  obtain ⟨pre, last, rfl, rfl, hlast, hpre⟩ := h
  by_contra hlong
  rcases List.eq_nil_or_concat pre with rfl | ⟨front, d, rfl⟩
  · exact hlong hsuffix.length_le
  · -- a longer one reaches back to the day before, which has a total
    have hreach : d :: last <:+ gap := by
      refine List.suffix_of_suffix_length_le ?_ hsuffix (Nat.lt_of_not_le hlong)
      exact ⟨front, by rw [List.concat_eq_append, List.append_assoc, List.singleton_append]⟩
    refine hpre d ?_ (hgap d (hreach.subset List.mem_cons_self))
    rw [List.concat_eq_append, List.getLast?_append, List.getLast?_singleton, Option.some_or]

theorem not_hasGap_nil (hm : 0 < m) : ¬ ts.HasGap m [] := by
  rintro ⟨gap, hinfix, hlength, -⟩
  rw [List.infix_nil.mp hinfix] at hlength
  exact absurd hlength (Nat.ne_of_lt hm)

/-- One more day makes no gap unless the list ends in one. -/
theorem not_hasGap_concat (hl : ¬ ts.HasGap m l) (hend : ts.EndsIn (l ++ [d]) k) (hk : k < m) :
    ¬ ts.HasGap m (l ++ [d]) := by
  rintro ⟨gap, hinfix, hlength, hgap⟩
  rcases List.infix_concat_iff.mp hinfix with hsuffix | hinfix
  · have := hend.length_le hsuffix hgap
    omega
  · exact hl ⟨gap, hinfix, hlength, hgap⟩

/-- Without a gap the list ends in less. -/
theorem EndsIn.lt (h : ts.EndsIn l k) (hl : ¬ ts.HasGap m l) : k < m := by
  obtain ⟨pre, gap, rfl, rfl, hgap, -⟩ := h
  by_contra hle
  -- the last days of the gap are as many as there may not be
  refine hl ⟨gap.drop (gap.length - m), ?_, ?_, fun d hd => hgap d (List.mem_of_mem_drop hd)⟩
  · exact ((List.drop_suffix _ _).trans (List.suffix_append _ _)).isInfix
  · rw [List.length_drop]
    omega

end Totals

/-! ## What a walk comes to -/

/-- So many days in a row without a total end a walk. -/
def Config.tolerance (c : Config) : Nat := max 1 c.maxMissingDates

theorem Config.tolerance_pos (c : Config) : 0 < c.tolerance := Nat.le_max_left _ _

/-- The days of a list that have no total. -/
def Totals.lacking (ts : Totals) (l : List Date) : List Date := l.filter fun d => ts.day? d = none

/-- The days of a list that have a total, with it. -/
def Totals.counted (ts : Totals) (l : List Date) : List (Date × Nat) :=
  l.filterMap fun d => (ts.day? d).map fun n => (d, n)

/-- A gap is made of days without a total. -/
theorem Totals.HasGap.le_lacking {ts : Totals} {l : List Date} {m : Nat} (h : ts.HasGap m l) :
    m ≤ (ts.lacking l).length := by
  obtain ⟨gap, hinfix, rfl, hgap⟩ := h
  have hall : ts.lacking gap = gap := by
    rw [lacking, List.filter_eq_self]
    intro d hd
    exact decide_eq_true (hgap d hd)
  have hsub : (ts.lacking gap).Sublist (ts.lacking l) := hinfix.sublist.filter _
  rw [hall] at hsub
  exact hsub.length_le

/-- The day and the total of a report. -/
def DayReport.head (day : DayReport) : Date × Nat := (day.date, day.total)

/-- What a walk over days comes to: it ends with the last day of the first gap, or, where there is
none, with a report of all days. -/
inductive Verdict (c : Config) (ts : Totals) (days : List Date) : Except Abort Report → Prop where
  | missing {before gap after : List Date} {last : Date}
      (hdays : days = before ++ (gap ++ [last]) ++ after)
      (hlength : (gap ++ [last]).length = c.tolerance)
      (hgap : ∀ d ∈ gap ++ [last], ts.day? d = none)
      (hfirst : ¬ ts.HasGap c.tolerance (before ++ gap)) :
      Verdict c ts days (.error (.missingDates c.tolerance last))
  | toured {report : Report} (hnone : ¬ ts.HasGap c.tolerance days)
      (hreport : report.days.map DayReport.head = ts.counted days)
      (hskipped : report.skipped = ts.lacking days) :
      Verdict c ts days (.ok report)

/-! ## One day more -/

section append

variable {ts : Totals} {l : List Date} {d : Date} {n : Nat}

theorem Totals.lacking_append (h : ts.day? d = none) :
    ts.lacking (l ++ [d]) = ts.lacking l ++ [d] := by
  simp [lacking, h]

theorem Totals.lacking_append_counted (h : ts.day? d = some n) :
    ts.lacking (l ++ [d]) = ts.lacking l := by
  simp [lacking, h]

theorem Totals.counted_append (h : ts.day? d = some n) :
    ts.counted (l ++ [d]) = ts.counted l ++ [(d, n)] := by
  simp [counted, h]

theorem Totals.counted_append_lacking (h : ts.day? d = none) :
    ts.counted (l ++ [d]) = ts.counted l := by
  simp [counted, h]

end append

end Harvest.Backfill
