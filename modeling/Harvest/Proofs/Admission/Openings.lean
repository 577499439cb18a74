import Harvest.Admission.Gate
import Mathlib.Data.List.TakeWhile

/-! # When the gate opens

A waiter who arrives at a time passes at the first instant from then on at which the state is not
blocking, or after the penalty if the state is yellow at that instant. Neither the time between two
looks nor what happens to the state during the penalty counts.

`Gate.clearance?` follows a waiter from look to look. The key idea is that nothing happens to the
state between two looks, so that the first opening from one look on is the first one from the next.

## Main definitions

* `Timeline.OpensAt`: the first opening from a time on.
* `Timeline.Clears`: when a waiter who arrives at a time passes.

## Main statements

* `Gate.clearance?_eq_some_iff`: what is found look by look is the time of `Timeline.Clears`.
-/

namespace Harvest.Admission

namespace Timeline

/-! ## States over time -/

section changes

variable {s : State} {cs ds : List (Nat × State)} {t : Nat}

theorem lastOf_append (s : State) (cs ds : List (Nat × State)) :
    lastOf s (cs ++ ds) = lastOf (lastOf s cs) ds := by
  unfold lastOf
  rw [List.getLast?_append]
  cases ds.getLast? <;> rfl

/-- Once all changes have come, the last of them counts. -/
theorem stateAt_of_le (h : ∀ c ∈ cs, c.1 ≤ t) : stateAt ⟨s, cs⟩ t = lastOf s cs := by
  have hall : cs.takeWhile (fun c => decide (c.1 ≤ t)) = cs := by
    rw [List.takeWhile_eq_self_iff]
    intro c hc
    exact decide_eq_true (h c hc)
  unfold stateAt
  rw [hall]

/-- Changes that come later do not count yet. -/
theorem stateAt_append_of_lt (h : ∀ d ∈ ds, t < d.1) :
    stateAt ⟨s, cs ++ ds⟩ t = stateAt ⟨s, cs⟩ t := by
  have hsame : (cs ++ ds).takeWhile (fun c => decide (c.1 ≤ t))
      = cs.takeWhile fun c => decide (c.1 ≤ t) := by
    induction cs with
    | nil =>
      cases ds with
      | nil => rfl
      | cons d ds =>
        have hd : ¬ d.1 ≤ t := Nat.not_le.mpr (h d List.mem_cons_self)
        simp [hd]
    | cons c cs ih =>
      rw [List.cons_append, List.takeWhile_cons, List.takeWhile_cons, ih]
  unfold stateAt
  rw [hsame]

end changes

variable {tl : Timeline} {time t T : Nat}

theorem le_of_mem_past {c : Nat × State}
    (h : c ∈ tl.changes.takeWhile fun c => decide (c.1 ≤ time)) : c.1 ≤ time := by
  simpa using List.mem_takeWhile_imp h

/-- The state at a time follows from the state at an earlier one and the changes since. -/
theorem stateAt_of_ge (h : time ≤ t) :
    tl.stateAt t
      = lastOf (tl.stateAt time) ((tl.later time).takeWhile fun c => decide (c.1 ≤ t)) := by
  have hsplit : tl.changes.takeWhile (fun c => decide (c.1 ≤ t))
      = tl.changes.takeWhile (fun c => decide (c.1 ≤ time))
        ++ (tl.later time).takeWhile fun c => decide (c.1 ≤ t) := by
    rw [← List.takeWhile_append_of_pos, later, List.takeWhile_append_dropWhile]
    intro c hc
    exact decide_eq_true (Nat.le_trans (le_of_mem_past hc) h)
  unfold stateAt
  rw [hsplit, lastOf_append]

/-- The changes after a time are among those after an earlier one. -/
theorem later_of_ge (h : time ≤ t) :
    tl.later t = (tl.later time).dropWhile fun c => decide (c.1 ≤ t) := by
  have hpast : ∀ c ∈ tl.changes.takeWhile (fun c => decide (c.1 ≤ time)),
      decide (c.1 ≤ t) = true := by
    intro c hc
    exact decide_eq_true (Nat.le_trans (le_of_mem_past hc) h)
  calc tl.later t
    _ = (tl.changes.takeWhile (fun c => decide (c.1 ≤ time)) ++ tl.later time).dropWhile
          fun c => decide (c.1 ≤ t) := by rw [later, later, List.takeWhile_append_dropWhile]
    _ = (tl.later time).dropWhile fun c => decide (c.1 ≤ t) := List.dropWhile_append_of_pos hpast

/-- The first of the changes after a time comes after it. -/
theorem lt_of_later {c : Nat × State} {later : List (Nat × State)}
    (h : tl.later time = c :: later) : time < c.1 := by
  have hhead := List.head?_dropWhile_not (fun c : Nat × State => decide (c.1 ≤ time)) tl.changes
  change tl.changes.dropWhile _ = _ at h
  rw [h] at hhead
  simpa using hhead

/-- Up to the next change the state stays as it is. -/
theorem stateAt_of_lt_next {c : Nat × State} {later : List (Nat × State)}
    (h : tl.later time = c :: later) (hle : time ≤ t) (hlt : t < c.1) :
    tl.stateAt t = tl.stateAt time ∧ tl.later t = c :: later := by
  have hc : ¬ c.1 ≤ t := Nat.not_le.mpr hlt
  refine ⟨?_, ?_⟩
  · rw [stateAt_of_ge hle, h, List.takeWhile_cons_of_neg (by simpa using hc)]
    rfl
  · rw [later_of_ge hle, h, List.dropWhile_cons_of_neg (by simpa using hc)]

/-! ## The first opening -/

/-- The state is blocking from a time on until before another one. -/
def Closed (tl : Timeline) (arrival time : Nat) : Prop :=
  ∀ t, arrival ≤ t → t < time → (tl.stateAt t).isBlocking = true

/-- The first instant from a time on at which the state is not blocking. -/
structure OpensAt (tl : Timeline) (arrival T : Nat) : Prop where
  arrived : arrival ≤ T
  isOpen : (tl.stateAt T).isBlocking = false
  closed : tl.Closed arrival T

/-- The time that a state costs whoever passes. -/
def toll (penalty : Nat) (s : State) : Nat := if s = .yellow then penalty else 0

/-- A waiter who arrives at a time passes at another: at the first opening if the state is green
then, and after the penalty if it is yellow. -/
def Clears (tl : Timeline) (penalty arrival time : Nat) : Prop :=
  ∃ T, tl.OpensAt arrival T ∧ time = T + toll penalty (tl.stateAt T)

theorem OpensAt.unique {arrival T U : Nat} (hT : tl.OpensAt arrival T) (hU : tl.OpensAt arrival U) :
    T = U := by
  rcases Nat.lt_trichotomy T U with hlt | heq | hgt
  · have hblocked := hU.closed T hT.arrived hlt
    rw [hT.isOpen] at hblocked
    cases hblocked
  · exact heq
  · have hblocked := hT.closed U hU.arrived hgt
    rw [hU.isOpen] at hblocked
    cases hblocked

/-- Whoever finds the state open passes there. -/
theorem clears_of_open {penalty p : Nat} (h : (tl.stateAt time).isBlocking = false) :
    tl.Clears penalty time p ↔ p = time + toll penalty (tl.stateAt time) := by
  have hnow : tl.OpensAt time time :=
    ⟨Nat.le_refl _, h, fun t hle hlt => absurd hlt (Nat.not_lt.mpr hle)⟩
  constructor
  · rintro ⟨T, hT, rfl⟩
    rw [hT.unique hnow]
  · rintro rfl
    exact ⟨time, hnow, rfl⟩

/-- Whoever arrives while the state is blocking may as well arrive later. -/
theorem clears_of_closed {penalty arrival p : Nat} (hle : arrival ≤ time)
    (h : tl.Closed arrival time) : tl.Clears penalty arrival p ↔ tl.Clears penalty time p := by
  constructor
  · rintro ⟨T, hT, rfl⟩
    have hlate : time ≤ T := by
      rcases Nat.lt_or_ge T time with hlt | hge
      · have hblocked := h T hT.arrived hlt
        rw [hT.isOpen] at hblocked
        cases hblocked
      · exact hge
    refine ⟨T, ⟨hlate, hT.isOpen, ?_⟩, rfl⟩
    intro t ht hlt
    exact hT.closed t (Nat.le_trans hle ht) hlt
  · rintro ⟨T, hT, rfl⟩
    refine ⟨T, ⟨Nat.le_trans hle hT.arrived, hT.isOpen, ?_⟩, rfl⟩
    intro t ht hlt
    rcases Nat.lt_or_ge t time with hbefore | hafter
    · exact h t ht hbefore
    · exact hT.closed t hafter hlt

/-- Once no change is to come, a blocking state stays blocking. -/
theorem not_clears_of_no_later {penalty p : Nat} (h : (tl.stateAt time).isBlocking = true)
    (hlater : tl.later time = []) : ¬ tl.Clears penalty time p := by
  rintro ⟨T, hT, -⟩
  have hsame : tl.stateAt T = tl.stateAt time := by
    rw [stateAt_of_ge hT.arrived, hlater]
    rfl
  have hopen := hT.isOpen
  rw [hsame, h] at hopen
  cases hopen

end Timeline

/-! ## From look to look -/

namespace Gate

variable {g : Gate} {tl : Timeline} {s : State} {time p : Nat}

theorem passage?_of_blocking (h : s.isBlocking = true) : g.passage? s time = none := by
  rw [passage?, if_pos h]

theorem blocking_of_passage? (h : g.passage? s time = none) : s.isBlocking = true := by
  unfold passage? at h
  split at h
  · assumption
  · split at h <;> cases h

theorem passage?_of_open (h : s.isBlocking = false) :
    g.passage? s time = some (time + Timeline.toll g.penalty s) := by
  rw [passage?, if_neg (by rw [h]; exact Bool.false_ne_true), Timeline.toll]
  split <;> rfl

/-- A look at an open state gives the time of the passage. -/
theorem passage?_eq_some_iff (h : (tl.stateAt time).isBlocking = false) :
    g.passage? (tl.stateAt time) time = some p ↔ tl.Clears g.penalty time p := by
  rw [passage?_of_open h, Timeline.clears_of_open h, Option.some.injEq]
  exact eq_comm

theorem await_eq_some_iff {later : List (Nat × State)} (hs : tl.stateAt time = s)
    (hlater : tl.later time = later) :
    g.await s time later = some p ↔ tl.Clears g.penalty time p := by
  -- the induction goes from each look to the next
  induction s, time, later using Gate.await.induct g with
  | case1 s time =>
    subst hs
    rw [await]
    cases hopen : (tl.stateAt time).isBlocking with
    | false => exact passage?_eq_some_iff hopen
    | true =>
      rw [passage?_of_blocking hopen]
      exact iff_of_false (by simp) (Timeline.not_clears_of_no_later hopen hlater)
  | case2 s time t s' later passed hpassed =>
    subst hs
    have hawait : g.await (tl.stateAt time) time ((t, s') :: later)
        = g.passage? (tl.stateAt time) time := by
      rw [await, hpassed]
    cases hopen : (tl.stateAt time).isBlocking with
    | false =>
      rw [hawait]
      exact passage?_eq_some_iff hopen
    | true =>
      rw [passage?_of_blocking hopen] at hpassed
      cases hpassed
  | case3 s time t s' later hpassed hlt ih =>
    -- the next look comes before the next change
    subst hs
    have hclosed : tl.Closed time (time + max 1 g.poll) := by
      intro u hu hlt'
      rw [(Timeline.stateAt_of_lt_next hlater hu (Nat.lt_trans hlt' hlt)).1]
      exact blocking_of_passage? hpassed
    obtain ⟨hstate, hrest⟩ := Timeline.stateAt_of_lt_next hlater (Nat.le_add_right _ _) hlt
    rw [await, hpassed]
    simp only [if_pos hlt]
    rw [ih hstate hrest, ← Timeline.clears_of_closed (Nat.le_add_right _ _) hclosed]
  | case4 s time t s' later hpassed hge ih =>
    -- the next change wakes the waiter
    subst hs
    have hlt : time < t := Timeline.lt_of_later hlater
    have hclosed : tl.Closed time t := by
      intro u hu hlt'
      rw [(Timeline.stateAt_of_lt_next hlater hu hlt').1]
      exact blocking_of_passage? hpassed
    have hstate : tl.stateAt t
        = Timeline.lastOf s' (later.takeWhile fun c => decide (c.1 ≤ t)) := by
      rw [Timeline.stateAt_of_ge (Nat.le_of_lt hlt), hlater,
        List.takeWhile_cons_of_pos (by simp)]
      exact Timeline.lastOf_append _ [(t, s')] _
    have hrest : tl.later t = later.dropWhile fun c => decide (c.1 ≤ t) := by
      rw [Timeline.later_of_ge (Nat.le_of_lt hlt), hlater, List.dropWhile_cons_of_pos (by simp)]
    rw [await, hpassed]
    simp only [if_neg hge]
    rw [ih hstate hrest, ← Timeline.clears_of_closed (Nat.le_of_lt hlt) hclosed]

/-- What is found look by look is the time at which the waiter passes. -/
theorem clearance?_eq_some_iff {arrival : Nat} :
    g.clearance? tl arrival = some p ↔ tl.Clears g.penalty arrival p := await_eq_some_iff rfl rfl

end Gate

end Harvest.Admission
