import Harvest.Proofs.Calendar.Instants
import Harvest.Proofs.Queue.Entries
import Harvest.Queue.Dispatch

/-! # The order of dispatch

An item dispatched later gets no lower score, but for two joints. A leap second counts on past
`10 ^ 9` nanoseconds, and the second after it starts from its own beginning, so the nanoseconds of
the one come again in the other. And an instant whose nanoseconds are beyond the scores is scored by
its whole seconds. That is the greatest score once the second starts beyond the scores; in the last
second that starts within them it is the score of its beginning, which may be over by then.

An entry keeps the score of the latest dispatch of its item. So what comes off a queue was
dispatched no later than what stays, but for these joints and for ties, which the ids decide.

## Main definitions

* `Instant.LeapsPast`, `Instant.FallsBack`: the two joints.
* `Queue.desk`: a queue to which items are dispatched by a clock.
* `Queue.lastReading`: when an item was last dispatched.

## Main statements

* `dispatchScore_eq`: the score of an instant.
* `dispatchScore_lt_iff`: when a later instant has a lower score.
* `Queue.Dated`: entries have the scores of the latest dispatches, kept by every step.
* `Queue.popped_in_order`: what comes off a queue before what.
-/

namespace Harvest

open Calendar

/-! ## Scores of instants -/

namespace Calendar.Instant

/-- Nanoseconds from 1970. Those of a leap second come again in the second after it. -/
def nanos (t : Instant) : Int := t.second * 1000000000 + t.nano

/-- The nanoseconds are a score, and before 1970 so is the end of the second. -/
def Counted (t : Instant) : Prop :=
  minScore ≤ t.nanos ∧ t.nanos ≤ maxScore ∧
    (t.second < 0 → minScore ≤ (t.second + 1) * 1000000000)

instance (t : Instant) : Decidable t.Counted := inferInstanceAs (Decidable (_ ∧ _ ∧ _))

/-- The first instant is further into a leap second than the other is into the second after it. -/
def LeapsPast (a b : Instant) : Prop :=
  a.Counted ∧ b.second = a.second + 1 ∧ b.nano + 1000000000 < a.nano

/-- The other instant is beyond the scores, in a second that starts before the first instant, which
is within them. -/
def FallsBack (a b : Instant) : Prop :=
  a.Counted ∧ maxScore < b.nanos ∧ b.second * 1000000000 < a.nanos

instance (a b : Instant) : Decidable (a.LeapsPast b) := inferInstanceAs (Decidable (_ ∧ _ ∧ _))

instance (a b : Instant) : Decidable (a.FallsBack b) := inferInstanceAs (Decidable (_ ∧ _ ∧ _))

end Calendar.Instant

theorem minScore_eq : minScore = -9223372036854775808 := rfl

theorem maxScore_eq : maxScore = 9223372036854775807 := rfl

theorem isScore_iff {n : Int} : isScore n = true ↔ minScore ≤ n ∧ n ≤ maxScore := by
  rw [isScore, Bool.and_eq_true, decide_eq_true_iff, decide_eq_true_iff]

theorem nanosScore?_eq (t : Instant) :
    nanosScore? t = if t.Counted then some t.nanos else none := by
  have hnano := t.nano_lt
  unfold nanosScore? Instant.Counted Instant.nanos
  simp only [Bool.and_eq_true, isScore_iff, minScore_eq, maxScore_eq]
  by_cases hneg : t.second < 0
  · -- the whole seconds up to the end of the second, and what is missing of it
    have hnanos : (t.second + 1) * 1000000000 + ((t.nano : Int) - 1000000000) =
        t.second * 1000000000 + t.nano := by omega
    simp only [hneg, if_true, hnanos, true_implies]
    apply if_congr _ rfl rfl
    omega
  · simp only [hneg, if_false, false_implies, and_true]
    apply if_congr _ rfl rfl
    omega

/-- Nanoseconds, or whole seconds brought within bounds. -/
theorem dispatchScore_eq (t : Instant) : dispatchScore t =
    if t.Counted then t.nanos else clampScore (t.second * 1000000000) := by
  rw [dispatchScore, nanosScore?_eq]
  split <;> rfl

namespace Calendar.Instant

variable {a b : Instant}

/-- A later instant has fewer nanoseconds only from a leap second to the second after it. -/
theorem nanos_lt_iff (h : a ≤ b) :
    b.nanos < a.nanos ↔ b.second = a.second + 1 ∧ b.nano + 1000000000 < a.nano := by
  have ha := a.nano_lt
  rw [le_def] at h
  unfold nanos
  omega

theorem LeapsPast.counted (h : a.LeapsPast b) : b.Counted := by
  obtain ⟨hcounted, hsecond, hnano⟩ := h
  have ha := a.nano_lt
  unfold Counted nanos at *
  rw [minScore_eq, maxScore_eq] at *
  omega

end Calendar.Instant

section scores

variable {a b : Instant}

/-- Whole seconds are in order, and those of an instant beyond the scores are at the bounds. -/
theorem dispatchScore_le_of_not_counted (h : a ≤ b) (ha : ¬ a.Counted) :
    dispatchScore a ≤ dispatchScore b := by
  have hsecond := Instant.second_le_of_le h
  have hnano := a.nano_lt
  rw [dispatchScore_eq, dispatchScore_eq, if_neg ha]
  split
  · rename_i hb
    unfold Instant.Counted Instant.nanos at *
    rw [Instant.le_def] at h
    rw [clampScore, minScore_eq, maxScore_eq] at *
    omega
  · unfold clampScore
    omega

/-- A later instant has a lower score at the two joints only. -/
theorem dispatchScore_lt_iff (h : a ≤ b) :
    dispatchScore b < dispatchScore a ↔ a.LeapsPast b ∨ a.FallsBack b := by
  by_cases ha : a.Counted
  · rw [dispatchScore_eq a, if_pos ha]
    by_cases hb : b.Counted
    · -- both scores are nanoseconds, so only a leap second can be in the way
      have hnot : ¬ a.FallsBack b := fun hfalls => Int.not_lt.mpr hb.2.1 hfalls.2.1
      rw [dispatchScore_eq, if_pos hb, Instant.nanos_lt_iff h, or_iff_left hnot]
      exact (and_iff_right ha).symm
    · have hnot : ¬ a.LeapsPast b := fun hleaps => hb hleaps.counted
      rw [dispatchScore_eq, if_neg hb, or_iff_right hnot, Instant.FallsBack, and_iff_right ha]
      -- what is later than a score is not below the scores
      unfold Instant.Counted Instant.nanos at *
      rw [Instant.le_def] at h
      rw [clampScore, minScore_eq, maxScore_eq] at *
      have := a.nano_lt
      have := b.nano_lt
      omega
  · -- neither joint begins beyond the scores
    refine iff_of_false (Int.not_lt.mpr (dispatchScore_le_of_not_counted h ha)) ?_
    rintro (hleaps | hfalls)
    · exact ha hleaps.1
    · exact ha hfalls.1

end scores

namespace Queue

/-! ## A queue with a clock -/

/-- What is done with a queue: an item is dispatched at a reading of the clock, or one popped. -/
inductive Use where
  | dispatch (now : Instant) (w : WorkItem)
  | popMin

/-- A queue to which items are dispatched by a clock. -/
def desk : Machine Queue Use Use where
  next? q
    | .dispatch now w => some (q.push w (dispatchScore now))
    | .popMin => some q.popMin.1
  mark? _ u := some u

/-- The reading at which an item is dispatched. -/
def Use.reading? (w : WorkItem) : Use → Option Instant
  | .dispatch now v => if v = w then some now else none
  | .popMin => none

/-- The reading at which an item was last dispatched. -/
def lastReading (j : List Use) (w : WorkItem) : Option Instant :=
  (j.filterMap (Use.reading? w)).getLast?

variable {s q : Queue} {j : List Use} {w : WorkItem} {now t : Instant}

theorem lastReading_append (j : List Use) (u : Use) (w : WorkItem) :
    lastReading (j ++ [u]) w = (u.reading? w).or (lastReading j w) := by
  rw [lastReading, lastReading, List.filterMap_append, List.getLast?_append]
  cases hu : u.reading? w with
  | none => rw [List.filterMap_cons_none hu]; rfl
  | some t => rw [List.filterMap_cons_some hu]; rfl

/-- Each item is queued once, with the score of its latest dispatch. -/
structure Dated (j : List Use) (q : Queue) : Prop where
  distinct : q.Distinct
  dated : ∀ e ∈ q.entries, ∃ t, lastReading j e.item = some t ∧ e.score = dispatchScore t

namespace Dated

theorem empty (hs : s.items = []) : Dated [] s where
  distinct := by rw [Distinct, hs]; exact List.nodup_nil
  dated := by
    intro e he
    have hmem := Scored.mem_items_of_mem he
    rw [items_entries, hs] at hmem
    cases hmem

theorem dispatch (h : Dated j q) (now : Instant) (w : WorkItem) :
    Dated (j ++ [.dispatch now w]) (q.push w (dispatchScore now)) where
  distinct := h.distinct.push w _
  dated := by
    intro e he
    rw [lastReading_append, Use.reading?]
    -- the entry of the item is replaced, the others are not dispatched here
    rcases (mem_entries_push h.distinct).mp he with rfl | ⟨hne, he⟩
    · exact ⟨now, by rw [if_pos rfl]; rfl, rfl⟩
    · rw [if_neg (Ne.symm hne)]
      exact h.dated e he

theorem popMin (h : Dated j q) : Dated (j ++ [.popMin]) q.popMin.1 where
  distinct := h.distinct.popMin_fst
  dated := by
    intro e he
    rw [lastReading_append]
    rcases popMin_entries h.distinct with ⟨-, hnone⟩ | ⟨m, -, -, -, hrest⟩
    · rw [hnone] at he
      exact h.dated e he
    · exact h.dated e ((hrest e).mp he).2

theorem of_run (hs : s.items = []) (h : desk.Run (fun _ _ => True) s j q) : Dated j q := by
  induction h with
  | nil => exact .empty hs
  | @snoc j t u e _ _ step ih =>
    cases e with
    | dispatch now w =>
      cases step
      exact ih.dispatch now w
    | popMin =>
      cases step
      exact ih.popMin

/-- What a pop gives has the least score, and of equal scores the least rank. -/
theorem popped (h : Dated j q) (hpop : q.popMin.2 = .ok (some w)) {v : WorkItem}
    (hv : v ∈ q.items) : ∃ a b, lastReading j v = some a ∧ lastReading j w = some b ∧
      (dispatchScore b < dispatchScore a ∨
        dispatchScore a = dispatchScore b ∧ q.rank w ≤ q.rank v) := by
  rcases popMin_entries h.distinct with ⟨-, hnone⟩ | ⟨m, hm, hleast, hgives, -⟩
  · rw [hnone] at hpop
    cases hpop
  · -- the least entry is that of the item given, as what it gives is no error
    have hitem : m.item = w := by
      cases hgiving : q.giving m.item with
      | ok x =>
        rw [hgives, hgiving] at hpop
        cases hpop
        exact (eq_of_giving_ok hgiving).symm
      | error e =>
        rw [hgives, hgiving] at hpop
        cases hpop
    rw [← items_entries] at hv
    obtain ⟨e, he, rfl⟩ := List.mem_map.mp hv
    obtain ⟨a, ha, hscore⟩ := h.dated e he
    obtain ⟨b, hb, hscore'⟩ := h.dated m hm
    refine ⟨a, b, ha, hitem ▸ hb, ?_⟩
    have hnot := hleast e he
    rw [Scored.before_iff, hscore, hscore', hitem] at hnot
    omega

end Dated

/-- **The order of dispatch.** The score of an instant is no lower than that of any earlier one,
except at two joints: from a leap second to the second after it, and from within the scores to an
instant beyond them whose second starts within them. Take any dispatches to an empty queue and any
pops, by a clock that may be set as one likes. What a pop gives was last dispatched no later than
what stays, except at these joints and with equal scores, where its id is no greater; and at the
joints it is never what was dispatched earlier. -/
theorem popped_in_order (hs : s.items = []) (h : desk.Run (fun _ _ => True) s j q) :
    (∀ a b : Instant, a ≤ b →
      (dispatchScore a ≤ dispatchScore b ↔ ¬ a.LeapsPast b ∧ ¬ a.FallsBack b)) ∧
    ∀ v w, q.popMin.2 = .ok (some w) → v ∈ q.items →
      ∃ a b, lastReading j v = some a ∧ lastReading j w = some b ∧
        (a ≤ b → a.LeapsPast b ∨ a.FallsBack b ∨
          dispatchScore a = dispatchScore b ∧ q.rank w ≤ q.rank v) ∧
        (b ≤ a → ¬ b.LeapsPast a ∧ ¬ b.FallsBack a) := by
  have hdated := Dated.of_run hs h
  refine ⟨?_, ?_⟩
  · intro a b hab
    rw [← Int.not_lt, dispatchScore_lt_iff hab, not_or]
  · intro v w hpop hv
    obtain ⟨a, b, ha, hb, hscores⟩ := hdated.popped hpop hv
    refine ⟨a, b, ha, hb, ?_, ?_⟩
    · intro hab
      rw [dispatchScore_lt_iff hab] at hscores
      exact or_assoc.mp hscores
    · intro hba
      rw [← not_or, ← dispatchScore_lt_iff hba]
      omega

/-! ## The last nanosecond, and a leap second -/

namespace Brim

/-- The last nanosecond that is a score, and the one after it. -/
def within : Instant := ⟨9223372036, 854775807, by decide⟩

def beyond : Instant := ⟨9223372036, 854775808, by decide⟩

/-- The last nanosecond of the leap second at the end of 2016, and the start of 2017. -/
def leap : Instant := ⟨1483228799, 1999999999, by decide⟩

def newYear : Instant := ⟨1483228800, 0, by decide⟩

def earlier : WorkItem := ⟨1, "a"⟩

def later : WorkItem := ⟨2, "b"⟩

def uses : List Use := [.dispatch within earlier, .dispatch beyond later]

/-- What is dispatched a nanosecond later gets a score that is lower by most of a second. -/
def full : Queue :=
  .table ⟨[⟨earlier.rowKey, 9223372036854775807⟩, ⟨later.rowKey, 9223372036000000000⟩]⟩

theorem follow_uses : desk.follow (fun _ _ => True) (.table .empty) uses = some (uses, full) := by
  rfl

theorem later_popped_first : desk.Run (fun _ _ => True) (.table .empty) uses full ∧
    full.popMin.2 = .ok (some later) ∧ earlier ∈ full.items ∧
    within ≤ beyond ∧ ¬ dispatchScore within ≤ dispatchScore beyond ∧ within.FallsBack beyond ∧
    leap ≤ newYear ∧ ¬ dispatchScore leap ≤ dispatchScore newYear := by
  have hrun := Machine.run_of_follow follow_uses
  have hpop : full.popMin.2 = .ok (some later) := by rfl
  have hqueued : earlier ∈ full.items := by decide +kernel
  obtain ⟨hscores, hpopped⟩ := popped_in_order rfl hrun
  obtain ⟨a, b, ha, hb, hlater, -⟩ := hpopped earlier later hpop hqueued
  have hedge : within ≤ beyond := by decide
  have hleap : leap ≤ newYear := by decide
  refine ⟨hrun, hpop, hqueued, hedge, ?_, ?_, hleap, ?_⟩
  · rw [hscores _ _ hedge]
    decide +kernel
  · cases ha
    cases hb
    rcases hlater hedge with hleaps | hfalls | ⟨hscore, -⟩
    · exact absurd hleaps (by decide +kernel)
    · exact hfalls
    · exact absurd hscore (by decide +kernel)
  · rw [hscores _ _ hleap]
    decide +kernel

end Brim

end Queue

end Harvest
