/-! # Runs of a machine

A machine takes steps at events. Some steps leave a mark in the journal of a run, so that what a
run has done can be told from its journal without the states in between.

A run is told with a side condition on its steps: which events are allowed in which states. What is
said of all runs is said with the condition that always holds.

## Main definitions

* `Machine`: states, events, and what the journal says of them.
* `Machine.Run`: from one state to another by allowed events, with a journal.
* `Machine.follow`: the run of given events, if they are possible and allowed.
-/

namespace Harvest

/-- A machine that takes steps. -/
structure Machine (σ ε μ : Type) where
  /-- The state after an event, if the event is possible. -/
  next? : σ → ε → Option σ
  /-- What the journal says of an event in a state. -/
  mark? : σ → ε → Option μ

namespace Machine

variable {σ ε μ : Type} {m : Machine σ ε μ} {ok ok' : σ → ε → Prop} {s t u : σ} {j k : List μ}

/-- Allowed events lead from a state to another; the journal lists their marks. -/
inductive Run (m : Machine σ ε μ) (ok : σ → ε → Prop) (s : σ) : List μ → σ → Prop where
  | nil : Run m ok s [] s
  | snoc {j : List μ} {t u : σ} {e : ε} (h : Run m ok s j t) (allowed : ok t e)
      (step : m.next? t e = some u) : Run m ok s (j ++ (m.mark? t e).toList) u

namespace Run

theorem single {e : ε} (allowed : ok s e) (step : m.next? s e = some t) :
    m.Run ok s (m.mark? s e).toList t := by
  have h : m.Run ok s ([] ++ (m.mark? s e).toList) t := Run.nil.snoc allowed step
  rwa [List.nil_append] at h

/-- Runs can be joined, and so can their journals. -/
theorem append (h : m.Run ok s j t) (h' : m.Run ok t k u) : m.Run ok s (j ++ k) u := by
  -- runs grow at their end, so the induction is on the second
  induction h' with
  | nil => rw [List.append_nil]; exact h
  | snoc _ allowed step ih => rw [← List.append_assoc]; exact ih.snoc allowed step

theorem mono (hok : ∀ s e, ok s e → ok' s e) (h : m.Run ok s j t) : m.Run ok' s j t := by
  induction h with
  | nil => exact .nil
  | snoc _ allowed step ih => exact ih.snoc (hok _ _ allowed) step

/-- What every allowed step keeps, a run keeps. -/
theorem invariant {P : σ → Prop}
    (hstep : ∀ {t e u}, ok t e → m.next? t e = some u → P t → P u)
    (h : m.Run ok s j t) (hs : P s) : P t := by
  induction h with
  | nil => exact hs
  | snoc _ allowed step ih => exact hstep allowed step ih

theorem snoc_silent {e : ε} (h : m.Run ok s j t) (allowed : ok t e) (step : m.next? t e = some u)
    (hmark : m.mark? t e = none) : m.Run ok s j u := by
  have hnext := h.snoc allowed step
  rwa [hmark, Option.toList_none, List.append_nil] at hnext

theorem snoc_mark {e : ε} {x : μ} (h : m.Run ok s j t) (allowed : ok t e)
    (step : m.next? t e = some u) (hmark : m.mark? t e = some x) : m.Run ok s (j ++ [x]) u := by
  have hnext := h.snoc allowed step
  rwa [hmark, Option.toList_some] at hnext

/-- Each mark in the journal of a run was left by one of its steps. -/
theorem exists_step_of_mark {x : μ} (h : m.Run ok s (j ++ x :: k) t) :
    ∃ u e v, m.Run ok s j u ∧ ok u e ∧ m.next? u e = some v ∧ m.mark? u e = some x ∧
      m.Run ok v k t := by
  -- runs grow at their end, so what follows the mark varies in the induction
  generalize hl : j ++ x :: k = l at h
  induction h generalizing k with
  | nil => simp at hl
  | @snoc l t w e h allowed step ih =>
    cases hmark : m.mark? t e with
    | none =>
      rw [hmark, Option.toList_none, List.append_nil] at hl
      obtain ⟨u, e', v, hbefore, allowed', step', hx, hafter⟩ := ih hl
      exact ⟨u, e', v, hbefore, allowed', step', hx, hafter.snoc_silent allowed step hmark⟩
    | some y =>
      rw [hmark, Option.toList_some] at hl
      rcases List.eq_nil_or_concat k with rfl | ⟨k, z, rfl⟩
      · -- the mark is that of the last step
        obtain ⟨rfl, hy⟩ := List.append_inj' hl rfl
        obtain rfl : x = y := by simpa using hy
        exact ⟨t, e, w, h, allowed, step, hmark, .nil⟩
      · have hsnoc : (j ++ x :: k) ++ [z] = l ++ [y] := by simpa using hl
        obtain ⟨hl', hy⟩ := List.append_inj' hsnoc rfl
        obtain rfl : z = y := by simpa using hy
        obtain ⟨u, e', v, hbefore, allowed', step', hx, hafter⟩ := ih hl'
        rw [List.concat_eq_append]
        exact ⟨u, e', v, hbefore, allowed', step', hx, hafter.snoc_mark allowed step hmark⟩

end Run

/-! ## Following events -/

variable [∀ s e, Decidable (ok s e)]

/-- Takes the steps of given events: the journal and the last state. -/
def follow (m : Machine σ ε μ) (ok : σ → ε → Prop) [∀ s e, Decidable (ok s e)] (s : σ) :
    List ε → Option (List μ × σ)
  | [] => some ([], s)
  | e :: es =>
    if ok s e then
      match m.next? s e with
      | some t => (m.follow ok t es).map fun (j, u) => ((m.mark? s e).toList ++ j, u)
      | none => none
    else none

theorem run_of_follow {l : List ε} (h : m.follow ok s l = some (j, t)) : m.Run ok s j t := by
  induction l generalizing s j with
  | nil =>
    simp only [follow, Option.some.injEq, Prod.mk.injEq] at h
    obtain ⟨rfl, rfl⟩ := h
    exact .nil
  | cons e l ih =>
    rw [follow] at h
    split at h
    · rename_i allowed
      split at h
      · -- the first step, and a run of the others from where it leads
        rename_i u step
        simp only [Option.map_eq_some_iff, Prod.mk.injEq, Prod.exists] at h
        obtain ⟨k, v, hk, rfl, rfl⟩ := h
        exact (Run.single allowed step).append (ih hk)
      · simp at h
    · simp at h

/-- The given events can be followed to a state of some kind. -/
def reaches (m : Machine σ ε μ) (ok : σ → ε → Prop) [∀ s e, Decidable (ok s e)] (s : σ)
    (l : List ε) (p : σ → Bool) : Bool :=
  (m.follow ok s l).any fun r => p r.2

theorem exists_run_of_reaches {l : List ε} {p : σ → Bool} (h : m.reaches ok s l p = true) :
    ∃ j t, m.Run ok s j t ∧ p t = true := by
  obtain ⟨⟨j, t⟩, hr, hp⟩ := (Option.any_eq_true _ _).mp h
  exact ⟨j, t, run_of_follow hr, hp⟩

end Machine

end Harvest
