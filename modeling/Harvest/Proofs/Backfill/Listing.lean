import Mathlib.Data.Nat.Find
import Mathlib.Order.Bounds.Basic
import Harvest.Backfill.Rehearsal
import Harvest.Proofs.Backfill.Passes

/-! # Asking for a listing

A walk asks for the listing of a day until it is given, until an error comes that another attempt
will not change, or until it has asked as often as it may, which is once at least. Between two
attempts it rests. A walk that is told to stop while it rests gives up there.

The answers are numbered as they come: what a run has seen is compared with a sequence of answers.
Others may act between any two steps of the walk.

## Main definitions

* `Config.Ends`: the walk does not ask again after an answer.
* `asking`, `Heeds`: the walk from its first attempt until it is done with the listing.
* `tries`: all attempts of a walk, with the rests between them.
* `Asked`: where the walk stands, by what it has done.
* `Script.Turns`, `Rehearsed`: the turns of a rehearsal, and the run that they are.

## Main statements

* `Asked.step`: the walk stands where its journal says, after every step.
* `rehearsed_of_turns`: the turns of a rehearsal are a run of this machine.
* `asked_of_turns`: where a walk stands in a rehearsal.
* `listing_of_answers`: how often a listing is asked for, and what comes of it.
-/

namespace Harvest.Backfill

open Harvest.Calendar

/-! ## The machine -/

namespace Walk

/-- The walk asks for a listing. -/
def asks (w : Walk) : Bool :=
  match w.stage with
  | .list _ _ => true
  | _ => false

/-- The walk rests before it asks again. -/
def backsOff (w : Walk) : Bool :=
  match w.stage with
  | .backoff _ _ => true
  | _ => false

variable {w : Walk}

theorem stage_of_asks (h : w.asks = true) : ∃ day attempt, w.stage = .list day attempt := by
  unfold asks at h
  split at h
  · rename_i day attempt hst
    exact ⟨day, attempt, hst⟩
  · cases h

theorem stage_of_backsOff (h : w.backsOff = true) :
    ∃ day attempt, w.stage = .backoff day attempt := by
  unfold backsOff at h
  split at h
  · rename_i day attempt hst
    exact ⟨day, attempt, hst⟩
  · cases h

variable {day : DayReport} {attempt : Nat}

theorem asks_of_list (h : w.stage = .list day attempt) : w.asks = true := by
  unfold asks
  rw [h]

theorem backsOff_of_backoff (h : w.stage = .backoff day attempt) : w.backsOff = true := by
  unfold backsOff
  rw [h]

theorem waits_of_backoff (h : w.stage = .backoff day attempt) : w.waits = true := by
  unfold waits
  rw [h]

end Walk

/-- What is seen of a walk that asks for a listing. -/
inductive Try where
  | asked (date : Date) (answer : Except SourceError (List WorkItem))
  /-- The walk goes on after a rest. -/
  | rested (rest : Rest)

/-- What is seen of an event. -/
def World.tried? (c : Script) (s : World) : Event → Option Try
  | .walk _ (.listing answer) =>
    match s.walk.stage with
    | .list day _ => some (.asked day.date answer)
    | _ => none
  | .wake => some (.rested (c.restOfWalk s.walk))
  | _ => none

/-- A walk amid others, as a machine whose journal tells the attempts. -/
def asking (c : Script) : Machine World Happening Try where
  next? := (amid c.importer.config c.config c.request).next?
  mark? s
    | .event e => s.tried? c e
    | .stores _ => none

/-- The walk goes on until it is done with the listing, and a rest is given up once the walk is to
stop. Ties are left out: where a rest is over at the moment at which the walk is told to stop, either
may be seen first, and only runs that see the signal first are meant. Others do what they like. -/
def Heeds (s : World) : Happening → Prop
  | .event (.walk _ _) => s.walk.asks = true
  | .event .wake => s.walk.backsOff = true ∧ s.walk.cancelled = false
  | .event .interrupt => s.walk.backsOff = true
  | .event .cancel | .event (.importer _) | .stores _ => True

instance : ∀ (s : World) (e : Happening), Decidable (Heeds s e)
  | s, .event (.walk _ _) => inferInstanceAs (Decidable (s.walk.asks = true))
  | s, .event .wake =>
    inferInstanceAs (Decidable (s.walk.backsOff = true ∧ s.walk.cancelled = false))
  | s, .event .interrupt => inferInstanceAs (Decidable (s.walk.backsOff = true))
  | _, .event .cancel | _, .event (.importer _) | _, .stores _ => isTrue trivial

section walking

variable {c : Script} {s t : World} {day : DayReport} {attempt : Nat}

theorem next?_listing (hst : s.walk.stage = .list day attempt) (now : Instant)
    (answer : Except SourceError (List WorkItem)) :
    (asking c).next? s (.event (.walk now (.listing answer)))
      = some { s with walk := s.walk.receive c.config day attempt answer } := by
  show ((s.walk.step? c.config c.request now s.importer (.listing answer)).map _) = _
  unfold Walk.step?
  rw [hst]
  rfl

theorem mark?_listing (hst : s.walk.stage = .list day attempt) (now : Instant)
    (answer : Except SourceError (List WorkItem)) :
    (asking c).mark? s (.event (.walk now (.listing answer))) = some (.asked day.date answer) := by
  show s.tried? c (.walk now (.listing answer)) = _
  unfold World.tried?
  rw [hst]

/-- A walk that asks takes an answer to its question only. -/
theorem listing_of_next? (hst : s.walk.stage = .list day attempt) {now : Instant} {a : Answer}
    (step : (asking c).next? s (.event (.walk now a)) = some t) :
    ∃ answer, a = .listing answer := by
  obtain ⟨⟨i, v⟩, hstep, -⟩ := Option.map_eq_some_iff.mp step
  unfold Walk.step? at hstep
  rw [hst] at hstep
  cases a with
  | listing answer => exact ⟨answer, rfl⟩
  | _ => cases hstep

theorem next?_wake (hst : s.walk.stage = .backoff day attempt) :
    (asking c).next? s (.event .wake)
      = some { s with walk := { s.walk with stage := .list day (attempt + 1) } } := by
  show (s.walk.wake?.map _) = _
  unfold Walk.wake?
  rw [hst]
  rfl

/-- Only a walk that is to stop gives up a rest. -/
theorem cancelled_of_next? (step : (asking c).next? s (.event .interrupt) = some t) :
    s.walk.cancelled = true := by
  have hstep : s.Step c.importer.config c.config c.request .interrupt t :=
    World.step_of_next? step
  cases hstep with
  | interrupt hc _ => exact hc

theorem next?_interrupt (hst : s.walk.stage = .backoff day attempt)
    (hc : s.walk.cancelled = true) :
    (asking c).next? s (.event .interrupt) = some { s with walk := s.walk.give .cancelled } := by
  show (s.walk.interrupt?.map _) = _
  unfold Walk.interrupt?
  rw [hc, Walk.waits_of_backoff hst]
  rfl

/-! ## The attempts -/

/-- After the answer to an attempt the walk does not ask again: the listing is given, another
attempt would not change the error, or no more are allowed. -/
def Config.Ends (c : Config) (r : Nat → Except SourceError (List WorkItem)) (i : Nat) : Prop :=
  1 ≤ i ∧ ((∃ l, r i = .ok l) ∨ (∃ e, r i = .error e ∧ e.isRetryable = false) ∨
    i = max 1 c.dayAttempts)

/-- The last attempt that is allowed ends the asking, so that some attempt is the first to. -/
theorem Config.exists_isLeast_ends (c : Config) (r : Nat → Except SourceError (List WorkItem)) :
    ∃ n, IsLeast {i | c.Ends r i} n := by
  have hlast : ∃ i, c.Ends r i := ⟨max 1 c.dayAttempts, by omega, .inr (.inr rfl)⟩
  classical
  exact ⟨Nat.find hlast, Nat.find_spec hlast, fun i hi => Nat.find_min' hlast hi⟩

/-- Where the last attempt leads. -/
def outcome (day : DayReport) (n : Nat) : Except SourceError (List WorkItem) → Stage
  | .ok listed => .lookup day listed
  | .error e => .ended (.error (.day day.date n e))

/-- The answers in a journal, in their order. -/
def answers (j : List Try) : List (Except SourceError (List WorkItem)) :=
  j.filterMap fun
    | .asked _ answer => some answer
    | .rested _ => none

theorem answers_append (j l : List Try) : answers (j ++ l) = answers j ++ answers l :=
  List.filterMap_append

/-- The source answers the attempts with a sequence of answers, as far as it has been asked. -/
def Told (r : Nat → Except SourceError (List WorkItem)) (j : List Try) : Prop :=
  ∀ i answer, (answers j)[i]? = some answer → answer = r (i + 1)

section tries

variable (c : Script) (date : Date) (r : Nat → Except SourceError (List WorkItem))

/-- Some attempts, with a rest after each of them. -/
def rounds (k : Nat) : List Try :=
  (List.range' 1 k).flatMap fun i => [.asked date (r i), .rested (.sleep c.pace.dayBackoff)]

/-- Some attempts, with a rest between any two of them. -/
def tries (n : Nat) : List Try := rounds c date r (n - 1) ++ [.asked date (r n)]

theorem rounds_succ (k : Nat) : rounds c date r (k + 1) =
    rounds c date r k ++ [.asked date (r (k + 1)), .rested (.sleep c.pace.dayBackoff)] := by
  unfold rounds
  rw [List.range'_concat, List.flatMap_append, List.flatMap_singleton]
  simp only [Nat.one_mul, Nat.add_comm 1 k]

theorem tries_succ (k : Nat) :
    tries c date r (k + 1) = rounds c date r k ++ [.asked date (r (k + 1))] := rfl

theorem length_answers_rounds (k : Nat) : (answers (rounds c date r k)).length = k := by
  induction k with
  | zero => rfl
  | succ k ih =>
    rw [rounds_succ, answers_append, List.length_append, ih]
    rfl

theorem length_answers_tries (k : Nat) : (answers (tries c date r (k + 1))).length = k + 1 := by
  rw [tries_succ, answers_append, List.length_append, length_answers_rounds]
  rfl

theorem rounds_mono {k m : Nat} (h : k ≤ m) : rounds c date r k <+: rounds c date r m := by
  induction h with
  | refl => exact List.prefix_rfl
  | step _ ih =>
    rw [rounds_succ]
    exact ih.trans (List.prefix_append _ _)

/-- An attempt and the rest after it come before all later ones. -/
theorem tries_mono {k n : Nat} (h : k < n) : tries c date r (k + 1) <+: tries c date r n := by
  obtain ⟨m, rfl⟩ : ∃ m, n = m + 1 := ⟨n - 1, by omega⟩
  by_cases hlast : k = m
  · rw [hlast]
  · have hround : tries c date r (k + 1) <+: rounds c date r (k + 1) := by
      rw [tries_succ, rounds_succ]
      exact ⟨[.rested (.sleep c.pace.dayBackoff)], by simp⟩
    have hlater := rounds_mono c date r (show k + 1 ≤ m by omega)
    exact (hround.trans hlater).trans (List.prefix_append _ _)

end tries

theorem Told.of_append {r : Nat → Except SourceError (List WorkItem)} {j l : List Try}
    (h : Told r (j ++ l)) : Told r j := by
  intro i answer hi
  apply h i answer
  obtain ⟨hlt, -⟩ := List.getElem?_eq_some_iff.mp hi
  rw [answers_append, List.getElem?_append_left hlt]
  exact hi

/-- The answer after some attempts is the next of the sequence. -/
theorem Told.next {r : Nat → Except SourceError (List WorkItem)} {j : List Try} {date : Date}
    {answer : Except SourceError (List WorkItem)} (h : Told r (j ++ [.asked date answer])) {k : Nat}
    (hk : (answers j).length = k) : answer = r (k + 1) := by
  apply h k answer
  rw [answers_append, List.getElem?_append_right (Nat.le_of_eq hk), hk, Nat.sub_self]
  rfl

theorem Told.ask {r : Nat → Except SourceError (List WorkItem)} {j : List Try} (h : Told r j)
    {k : Nat} (hk : (answers j).length = k) (date : Date) :
    Told r (j ++ [.asked date (r (k + 1))]) := by
  intro i answer hi
  rw [answers_append] at hi
  by_cases hlt : i < (answers j).length
  · rw [List.getElem?_append_left hlt] at hi
    exact h i answer hi
  · -- the answer is the one to the new attempt
    rw [List.getElem?_append_right (Nat.le_of_not_lt hlt)] at hi
    obtain ⟨hlast, hi⟩ := List.getElem?_eq_some_iff.mp hi
    have hlength : i - (answers j).length < 1 := hlast
    obtain rfl : i = k := by omega
    simp only [hk, Nat.sub_self] at hi
    exact hi.symm

theorem Told.rest {r : Nat → Except SourceError (List WorkItem)} {j : List Try} (h : Told r j)
    (rest : Rest) : Told r (j ++ [.rested rest]) := by
  intro i answer hi
  rw [answers_append] at hi
  exact h i answer ((List.append_nil (answers j)) ▸ hi)

/-! ## Where the walk stands -/

/-- Where a walk stands, by what it has done, if the asking ends with attempt number `n`. -/
inductive Asked (c : Script) (day : DayReport) (r : Nat → Except SourceError (List WorkItem))
    (n : Nat) : List Try → Walk → Prop where
  | ready {w : Walk} {k : Nat} (hk : k < n) (hst : w.stage = .list day (k + 1)) :
      Asked c day r n (rounds c day.date r k) w
  | resting {w : Walk} {k : Nat} (hk : k + 1 < n) (hst : w.stage = .backoff day (k + 1)) :
      Asked c day r n (tries c day.date r (k + 1)) w
  | done {w : Walk} (hst : w.stage = outcome day n (r n)) :
      Asked c day r n (tries c day.date r n) w
  /-- The walk was told to stop while it rested. -/
  | givenUp {w : Walk} {k : Nat} (hk : k + 1 < n) (hc : w.cancelled = true)
      (hst : w.stage = .ended (.error .cancelled)) : Asked c day r n (tries c day.date r (k + 1)) w

section standing

variable {r : Nat → Except SourceError (List WorkItem)} {n k : Nat} {j : List Try} {w : Walk}
  {e : Happening}

/-- An attempt that is not the last is followed by a rest. -/
theorem stage_receive (hn : IsLeast {i | c.config.Ends r i} n) (hk : k < n) :
    (w.receive c.config day (k + 1) (r (k + 1))).stage
      = if k + 1 < n then .backoff day (k + 1) else outcome day n (r n) := by
  obtain ⟨⟨hpos, hend⟩, hfirst⟩ := hn
  have hmax : n ≤ max 1 c.config.dayAttempts := hfirst ⟨by omega, .inr (.inr rfl)⟩
  by_cases hlast : k + 1 < n
  · have hgoes : ¬ c.config.Ends r (k + 1) := fun h => absurd (hfirst h) (Nat.not_le.mpr hlast)
    rw [if_pos hlast]
    cases hr : r (k + 1) with
    | ok l => exact absurd ⟨by omega, .inl ⟨l, hr⟩⟩ hgoes
    | error e =>
      have hretry : e.isRetryable = true := by
        by_contra hfinal
        exact hgoes ⟨by omega, .inr (.inl ⟨e, hr, eq_false_of_ne_true hfinal⟩)⟩
      rw [Walk.receive, if_pos ⟨hretry, by omega⟩]
  · obtain rfl : n = k + 1 := by omega
    rw [if_neg hlast]
    cases hr : r (k + 1) with
    | ok l => rfl
    | error e =>
      have hfinal : ¬ (e.isRetryable = true ∧ k + 1 < max 1 c.config.dayAttempts) := by
        rintro ⟨hretry, hmore⟩
        rcases hend with ⟨l, hl⟩ | ⟨e', he', hfinal⟩ | hend
        · rw [hl] at hr
          cases hr
        · obtain rfl : e' = e := Except.error.inj (he'.symm.trans hr)
          rw [hretry] at hfinal
          cases hfinal
        · omega
      rw [Walk.receive, if_neg hfinal]
      rfl

theorem asks_of_outcome (h : w.stage = outcome day n (r n)) : w.asks = false := by
  unfold Walk.asks outcome at *
  rw [h]
  cases r n <;> rfl

theorem backsOff_of_outcome (h : w.stage = outcome day n (r n)) : w.backsOff = false := by
  unfold Walk.backsOff outcome at *
  rw [h]
  cases r n <;> rfl

namespace Asked

theorem of_asks (h : Asked c day r n j w) (ha : w.asks = true) :
    ∃ k, k < n ∧ w.stage = .list day (k + 1) ∧ j = rounds c day.date r k := by
  obtain ⟨_, _, hlist⟩ := Walk.stage_of_asks ha
  cases h with
  | ready hk hst => exact ⟨_, hk, hst, rfl⟩
  | resting _ hst | givenUp _ _ hst => cases hst.symm.trans hlist
  | done hst =>
    rw [asks_of_outcome hst] at ha
    cases ha

theorem of_backsOff (h : Asked c day r n j w) (hb : w.backsOff = true) :
    ∃ k, k + 1 < n ∧ w.stage = .backoff day (k + 1) ∧ j = tries c day.date r (k + 1) := by
  obtain ⟨_, _, hbackoff⟩ := Walk.stage_of_backsOff hb
  cases h with
  | resting hk hst => exact ⟨_, hk, hst, rfl⟩
  | ready _ hst | givenUp _ _ hst => cases hst.symm.trans hbackoff
  | done hst =>
    rw [backsOff_of_outcome hst] at hb
    cases hb

/-- To be told to stop moves no walk. -/
theorem cancel (h : Asked c day r n j w) :
    Asked c day r n j { w with cancelled := true } := by
  cases h with
  | ready hk hst => exact .ready hk hst
  | resting hk hst => exact .resting hk hst
  | done hst => exact .done hst
  | givenUp hk _ hst => exact .givenUp hk rfl hst

/-- After an attempt the walk rests, or it is done. -/
theorem ask (hn : IsLeast {i | c.config.Ends r i} n) (hk : k < n) :
    Asked c day r n (tries c day.date r (k + 1))
      (w.receive c.config day (k + 1) (r (k + 1))) := by
  have hst : (w.receive c.config day (k + 1) (r (k + 1))).stage
      = if k + 1 < n then .backoff day (k + 1) else outcome day n (r n) := stage_receive hn hk
  by_cases hlast : k + 1 < n
  · rw [if_pos hlast] at hst
    exact .resting hlast hst
  · rw [if_neg hlast] at hst
    obtain rfl : n = k + 1 := by omega
    exact .done hst

/-- The walk stands where its journal says, after every step. -/
theorem step (hn : IsLeast {i | c.config.Ends r i} n) (h : Asked c day r n j s.walk)
    (heeds : Heeds s e) (step : (asking c).next? s e = some t)
    (told : Told r (j ++ ((asking c).mark? s e).toList)) :
    Asked c day r n (j ++ ((asking c).mark? s e).toList) t.walk := by
  cases e with
  | stores i =>
    obtain rfl := Option.some.inj step
    exact (List.append_nil j).symm ▸ h
  | event e =>
    cases e with
    | walk now a =>
      obtain ⟨k, hk, hst, rfl⟩ := h.of_asks heeds
      obtain ⟨answer, rfl⟩ := listing_of_next? hst step
      rw [next?_listing hst] at step
      obtain rfl := Option.some.inj step
      rw [mark?_listing hst] at told ⊢
      obtain rfl := told.next (length_answers_rounds c day.date r k)
      exact ask hn hk
    | wake =>
      obtain ⟨k, hk, hst, rfl⟩ := h.of_backsOff heeds.1
      rw [next?_wake hst] at step
      obtain rfl := Option.some.inj step
      have hmark : (asking c).mark? s (.event .wake)
          = some (.rested (.sleep c.pace.dayBackoff)) := by
        show some (Try.rested (c.restOfWalk s.walk)) = _
        unfold Script.restOfWalk
        rw [hst]
      rw [hmark, tries_succ, List.append_assoc]
      have hnext : Asked c day r n (rounds c day.date r (k + 1))
          { s.walk with stage := .list day (k + 1 + 1) } := .ready hk rfl
      rw [rounds_succ] at hnext
      exact hnext
    | interrupt =>
      obtain ⟨k, hk, hst, rfl⟩ := h.of_backsOff heeds
      have hc := cancelled_of_next? step
      rw [next?_interrupt hst hc] at step
      obtain rfl := Option.some.inj step
      exact (List.append_nil _).symm ▸ .givenUp hk hc rfl
    | cancel =>
      obtain rfl := Option.some.inj step
      exact (List.append_nil j).symm ▸ h.cancel
    | importer f =>
      obtain ⟨i, -, rfl⟩ := Option.map_eq_some_iff.mp step
      exact (List.append_nil j).symm ▸ h

/-- A walk that begins to ask stands where its journal says throughout. -/
theorem run (hn : IsLeast {i | c.config.Ends r i} n) (hs : s.walk.stage = .list day 1)
    (h : (asking c).Run Heeds s j t) (told : Told r j) : Asked c day r n j t.walk := by
  induction h with
  | nil => exact .ready hn.1.1 hs
  | snoc _ allowed step ih => exact (ih told.of_append).step hn allowed step told

/-- What has been done so far is the beginning of all attempts. -/
theorem prefix_tries (h : Asked c day r n j w) (hn : 1 ≤ n) : j <+: tries c day.date r n := by
  cases h with
  | ready hk _ => exact (rounds_mono c day.date r (by omega)).trans (List.prefix_append _ _)
  | resting hk _ | givenUp hk _ _ => exact tries_mono c day.date r (by omega)
  | done _ => exact List.prefix_rfl

/-- As long as the walk asks or rests there is a step for it to take, which is an attempt, a rest,
or to give up. -/
theorem progress (h : Asked c day r n j s.walk) (told : Told r j)
    (hgoes : s.walk.asks = true ∨ s.walk.backsOff = true) :
    ∃ e u, Heeds s (.event e) ∧ (asking c).next? s (.event e) = some u ∧
      Told r (j ++ ((asking c).mark? s (.event e)).toList) ∧
      ((∃ x, (asking c).mark? s (.event e) = some x) ∨
        u.walk.stage = .ended (.error .cancelled)) := by
  rcases hgoes with hasks | hbacks
  · obtain ⟨k, hk, hst, rfl⟩ := h.of_asks hasks
    have hmark := mark?_listing (c := c) hst .epoch (r (k + 1))
    refine ⟨.walk .epoch (.listing (r (k + 1))), _, hasks, next?_listing hst _ _, ?_, ?_⟩
    · rw [hmark]
      exact told.ask (length_answers_rounds c day.date r k) day.date
    · exact .inl ⟨_, hmark⟩
  · obtain ⟨k, hk, hst, rfl⟩ := h.of_backsOff hbacks
    by_cases hc : s.walk.cancelled = true
    · refine ⟨.interrupt, _, hbacks, next?_interrupt hst hc, ?_, .inr rfl⟩
      exact (List.append_nil (tries c day.date r (k + 1))).symm ▸ told
    · refine ⟨.wake, _, ⟨hbacks, eq_false_of_ne_true hc⟩, next?_wake hst, ?_, .inl ⟨_, rfl⟩⟩
      exact told.rest _

/-- A walk that neither asks nor rests is done with all attempts, or it has given up. -/
theorem of_end (h : Asked c day r n j w) (ha : w.asks = false) (hb : w.backsOff = false) :
    j = tries c day.date r n ∧ w.stage = outcome day n (r n) ∨
      w.cancelled = true ∧ (answers j).length < n ∧ w.stage = .ended (.error .cancelled) := by
  cases h with
  | ready _ hst =>
    rw [Walk.asks_of_list hst] at ha
    cases ha
  | resting _ hst =>
    rw [Walk.backsOff_of_backoff hst] at hb
    cases hb
  | done hst => exact .inl ⟨rfl, hst⟩
  | givenUp hk hc hst =>
    refine .inr ⟨hc, ?_, hst⟩
    rw [length_answers_tries]
    exact hk

end Asked

/-- A walk that is to stop while it rests asks no more, and can do nothing but give up. -/
theorem run_of_cancelled (hb : s.walk.backsOff = true) (hc : s.walk.cancelled = true)
    (h : (asking c).Run Heeds s j t) : j = [] ∧ t.walk.cancelled = true ∧
      (t.walk.stage = s.walk.stage ∨ t.walk.stage = .ended (.error .cancelled)) := by
  obtain ⟨day, attempt, hst⟩ := Walk.stage_of_backsOff hb
  induction h with
  | nil => exact ⟨rfl, hc, .inl rfl⟩
  | @snoc j t u e _ heeds step ih =>
    obtain ⟨rfl, htc, hstage⟩ := ih
    have hasks : t.walk.asks = false := by
      unfold Walk.asks
      rcases hstage with hstage | hstage
      · rw [hstage, hst]
      · rw [hstage]
    cases e with
    | stores i =>
      obtain rfl := Option.some.inj step
      exact ⟨rfl, htc, hstage⟩
    | event e =>
      cases e with
      | walk now a =>
        -- the walk does not ask while it rests
        have hasking : t.walk.asks = true := heeds
        rw [hasks] at hasking
        cases hasking
      | wake =>
        have hgoes : t.walk.cancelled = false := heeds.2
        rw [htc] at hgoes
        cases hgoes
      | interrupt =>
        obtain ⟨day', attempt', hst'⟩ := Walk.stage_of_backsOff heeds
        rw [next?_interrupt hst' htc] at step
        obtain rfl := Option.some.inj step
        exact ⟨rfl, htc, .inr rfl⟩
      | cancel =>
        obtain rfl := Option.some.inj step
        exact ⟨rfl, rfl, hstage⟩
      | importer f =>
        obtain ⟨i, -, rfl⟩ := Option.map_eq_some_iff.mp step
        exact ⟨rfl, htc, hstage⟩

end standing

/-! ## The turns of a rehearsal -/

section turns

variable {sc u : Scene}

/-- What a scene shows of the walk and its stores. -/
def Scene.world (sc : Scene) : World := ⟨sc.crew.world, sc.walk⟩

/-- The answers of a script to the attempts at a listing, the failures first. -/
def Script.replies (c : Script) (day : DayReport) (failures : List SourceError) (i : Nat) :
    Except SourceError (List WorkItem) :=
  match failures[i - 1]? with
  | some e => .error e
  | none => c.day day.date

/-- Agents take turns, in any order and at any times, while the walk asks or rests. -/
inductive Script.Turns (c : Script) (sc : Scene) : Scene → Prop where
  | nil : Turns c sc sc
  | snoc {u : Scene} (h : Turns c sc u) (hgoes : u.walk.asks = true ∨ u.walk.backsOff = true)
      (now : Nat) (a : Agent) : Turns c sc (c.act now a u).state

/-- Wherever a walk arrives, it rests as the place demands. -/
theorem arrive_spec (now : Nat) (sc : Scene) (w : Walk) :
    (c.arrive now sc w).state.walk = w ∧
      (c.arrive now sc w).state.dayFailures = sc.dayFailures ∧
      (c.arrive now sc w).rest = c.restOfWalk (c.arrive now sc w).state.walk := by
  unfold Script.arrive
  cases hresult : w.result? with
  | none => exact ⟨rfl, rfl, rfl⟩
  | some r =>
    refine ⟨rfl, rfl, ?_⟩
    unfold Walk.result? at hresult
    split at hresult
    · rename_i hst
      unfold Script.restOfWalk
      rw [hst]
    · cases hresult

/-- A walk that asks takes the next answer of the script. -/
theorem walkerTurn_of_list (now : Nat) (hst : sc.walk.stage = .list day attempt) :
    (c.walkerTurn now sc).state.walk
        = sc.walk.receive c.config day attempt (c.replies day sc.dayFailures 1) ∧
      (c.walkerTurn now sc).state.dayFailures = sc.dayFailures.tail ∧
      (c.walkerTurn now sc).rest = c.restOfWalk (c.walkerTurn now sc).state.walk := by
  have hanswer : c.answer sc = .listing (c.replies day sc.dayFailures 1) := by
    unfold Script.answer Script.replies
    rw [hst]
    cases sc.dayFailures <;> rfl
  have hwaits : sc.walk.waits = false := by
    unfold Walk.waits
    rw [hst]
  unfold Script.walkerTurn Walk.step?
  rw [hwaits, hst, hanswer]
  exact arrive_spec now
    { sc with dayFailures := sc.dayFailures.tail, dayCalls := (now, day.date) :: sc.dayCalls } _

/-- A walk that has rested asks again, or gives up if it is to stop. -/
theorem walkerTurn_of_backoff (now : Nat) (hst : sc.walk.stage = .backoff day attempt) :
    (c.walkerTurn now sc).state.walk
        = (if sc.walk.cancelled then sc.walk.give .cancelled
          else { sc.walk with stage := .list day (attempt + 1) }) ∧
      (c.walkerTurn now sc).state.dayFailures = sc.dayFailures ∧
      (c.walkerTurn now sc).rest = c.restOfWalk (c.walkerTurn now sc).state.walk := by
  have hwaits : sc.walk.waits = true := Walk.waits_of_backoff hst
  have hgoes : (if sc.walk.cancelled then sc.walk.interrupt? else sc.walk.wake?)
      = some (if sc.walk.cancelled then sc.walk.give .cancelled
        else { sc.walk with stage := .list day (attempt + 1) }) := by
    cases hc : sc.walk.cancelled with
    | true =>
      unfold Walk.interrupt?
      rw [hc, hwaits]
      rfl
    | false =>
      unfold Walk.wake?
      rw [hst]
      rfl
  unfold Script.walkerTurn
  rw [if_pos hwaits, hgoes]
  exact arrive_spec now sc _

/-- A turn of another agent, or of a walk that has not started, is a silent step. -/
theorem step_of_act {now : Nat} {a : Agent} (ha : ¬ (a = .walker ∧ now ≠ 0)) :
    ∃ e, Heeds u.world e ∧ (asking c).next? u.world e = some (c.act now a u).state.world ∧
      (asking c).mark? u.world e = none ∧ (c.act now a u).state.dayFailures = u.dayFailures := by
  cases a with
  | crew a => exact ⟨.stores _, trivial, rfl, rfl, rfl⟩
  | walker =>
    have hnow : now = 0 := by simpa using ha
    have hact : (c.act now .walker u).state = u := by
      rw [Script.act, if_pos hnow]
    rw [hact]
    exact ⟨.stores u.crew.world, trivial, rfl, rfl, rfl⟩
  | canceller =>
    unfold Script.act
    cases c.cancelAt with
    | none => exact ⟨.stores u.crew.world, trivial, rfl, rfl, rfl⟩
    | some time =>
      dsimp only
      split
      · exact ⟨.stores u.crew.world, trivial, rfl, rfl, rfl⟩
      · exact ⟨.event .cancel, trivial, rfl, rfl, rfl⟩

theorem replies_drop (failures : List SourceError) (k : Nat) :
    c.replies day (failures.drop k) 1 = c.replies day failures (k + 1) := by
  unfold Script.replies
  rw [Nat.sub_self, List.getElem?_drop, Nat.add_zero, Nat.add_sub_cancel]

/-- What has become of a scene is a run of the machine, for the answers of the script, and so many
failures are used up. -/
structure Rehearsed (c : Script) (day : DayReport) (sc : Scene) (j : List Try) (u : Scene) :
    Prop where
  run : (asking c).Run Heeds sc.world j u.world
  told : Told (c.replies day sc.dayFailures) j
  failures : u.dayFailures = sc.dayFailures.drop (answers j).length

namespace Rehearsed

variable {k : Nat} {j : List Try} {now : Nat}

/-- A walk that has ended tells the importer to stop, which is a change of the stores. -/
theorem arrive {w : Walk} (hwalk : (c.walkerTurn now u).state.walk = w)
    (h : (asking c).Run Heeds sc.world j ⟨u.crew.world, w⟩) :
    (asking c).Run Heeds sc.world j (c.walkerTurn now u).state.world := by
  subst hwalk
  have heeds : Heeds ⟨u.crew.world, (c.walkerTurn now u).state.walk⟩
      (.stores (c.walkerTurn now u).state.crew.world) := trivial
  exact h.snoc_silent heeds rfl rfl

theorem ask (h : Rehearsed c day sc j u) (hst : u.walk.stage = .list day (k + 1))
    (hk : (answers j).length = k) : Rehearsed c day sc
      (j ++ [.asked day.date (c.replies day sc.dayFailures (k + 1))])
      (c.walkerTurn now u).state := by
  obtain ⟨hwalk, hfailures, -⟩ := walkerTurn_of_list (c := c) now hst
  have hused : u.dayFailures = sc.dayFailures.drop k := hk ▸ h.failures
  rw [hused, replies_drop] at hwalk
  have heeds : Heeds u.world
      (.event (.walk c.clock (.listing (c.replies day sc.dayFailures (k + 1))))) :=
    Walk.asks_of_list hst
  have hrun := h.run.snoc_mark heeds (next?_listing hst _ _) (mark?_listing hst _ _)
  refine ⟨arrive hwalk hrun, h.told.ask hk day.date, ?_⟩
  rw [hfailures, hused, answers_append, List.length_append, hk, List.tail_drop]
  rfl

/-- A walk that rests asks again or gives up. -/
theorem rest (h : Rehearsed c day sc j u) (hst : u.walk.stage = .backoff day (k + 1)) :
    ∃ j', Rehearsed c day sc j' (c.walkerTurn now u).state := by
  obtain ⟨hwalk, hfailures, -⟩ := walkerTurn_of_backoff (c := c) now hst
  have hbacks : u.walk.backsOff = true := Walk.backsOff_of_backoff hst
  by_cases hc : u.walk.cancelled = true
  · -- a walk that is to stop gives up, whether the rest is over or not
    rw [if_pos hc] at hwalk
    have heeds : Heeds u.world (.event .interrupt) := hbacks
    have hrun := h.run.snoc_silent heeds (next?_interrupt hst hc) rfl
    exact ⟨_, arrive hwalk hrun, h.told, hfailures.trans h.failures⟩
  · rw [if_neg hc] at hwalk
    have heeds : Heeds u.world (.event .wake) := ⟨hbacks, eq_false_of_ne_true hc⟩
    have hrun := h.run.snoc_mark heeds (next?_wake hst) rfl
    refine ⟨_, arrive hwalk hrun, h.told.rest _, ?_⟩
    have hanswers : answers (j ++ [.rested (c.restOfWalk u.walk)]) = answers j :=
      (answers_append j _).trans (List.append_nil _)
    exact hanswers.symm ▸ hfailures.trans h.failures

end Rehearsed

/-- The turns of a rehearsal in which a walk asks for a listing are a run of the machine. -/
theorem rehearsed_of_turns (hs : sc.walk.stage = .list day 1) (h : c.Turns sc u) :
    ∃ j, Rehearsed c day sc j u := by
  obtain ⟨n, hn⟩ := c.config.exists_isLeast_ends (c.replies day sc.dayFailures)
  induction h with
  | nil =>
    have hnone : Told (c.replies day sc.dayFailures) [] := fun _ _ h => by cases h
    exact ⟨[], .nil, hnone, rfl⟩
  | @snoc u _ hgoes now a ih =>
    obtain ⟨j, hu⟩ := ih
    have hasked : Asked c day (c.replies day sc.dayFailures) n j u.walk :=
      Asked.run hn hs hu.run hu.told
    by_cases ha : a = .walker ∧ now ≠ 0
    · -- where the walk stands tells how many failures are used up, and so what it is answered
      obtain ⟨rfl, hnow⟩ := ha
      rw [show c.act now .walker u = c.walkerTurn now u from if_neg hnow]
      rcases hgoes with hasks | hbacks
      · obtain ⟨k, -, hst, rfl⟩ := hasked.of_asks hasks
        exact ⟨_, hu.ask hst (length_answers_rounds c day.date _ k)⟩
      · obtain ⟨k, -, hst, -⟩ := hasked.of_backsOff hbacks
        exact hu.rest hst
    · obtain ⟨e, heeds, step, hmark, hsame⟩ := step_of_act (c := c) (u := u) ha
      exact ⟨j, hu.run.snoc_silent heeds step hmark, hu.told, hsame.trans hu.failures⟩

/-- Where a walk stands in a rehearsal is told by the answers of the script, and a turn of the walk
ends in the rest that the place it leads to demands. -/
theorem asked_of_turns (hs : sc.walk.stage = .list day 1) (h : c.Turns sc u) :
    ∃ n, IsLeast {i | c.config.Ends (c.replies day sc.dayFailures) i} n ∧
      (∃ j, Rehearsed c day sc j u ∧ Asked c day (c.replies day sc.dayFailures) n j u.walk) ∧
      (u.walk.asks = true ∨ u.walk.backsOff = true → ∀ now,
        (c.walkerTurn now u).rest = c.restOfWalk (c.walkerTurn now u).state.walk) := by
  obtain ⟨n, hn⟩ := c.config.exists_isLeast_ends (c.replies day sc.dayFailures)
  obtain ⟨j, hu⟩ := rehearsed_of_turns hs h
  refine ⟨n, hn, ⟨j, hu, Asked.run hn hs hu.run hu.told⟩, ?_⟩
  rintro (hasks | hbacks) now
  · obtain ⟨_, _, hst⟩ := Walk.stage_of_asks hasks
    exact (walkerTurn_of_list now hst).2.2
  · obtain ⟨_, _, hst⟩ := Walk.stage_of_backsOff hbacks
    exact (walkerTurn_of_backoff now hst).2.2

end turns

/-! ## How often a listing is asked for -/

/-- **A listing is asked for as often as it takes.** Take any settings, any sequence of answers of
the source, and a walk that begins to ask for the listing of a day, whatever others do meanwhile.
Some attempt is the first after which the walk does not ask again, be it that the listing is given,
that the error is final, or that it is the last of the attempts allowed, of which there is at least
one. In every run the walk has made a beginning of the attempts up to that one, each but the last
with a rest of the set length after it. As long as it asks or rests, its next step is possible: an
attempt, a rest, or to give up. When it does neither, it has made all these attempts and the answer
to the last one decides: it goes on with the listing, or it ends with the date, the number of the
attempts and the error. If not, it was told to stop, has made fewer attempts and ends as cancelled.
Whenever it rests and is to stop, it can give up, and it neither asks again nor does anything else.
Runs in which a rest ends at the moment of the signal and the walk asks once more are left out. -/
theorem listing_of_answers (c : Script) (day : DayReport) (s : World)
    (hs : s.walk.stage = .list day 1) (r : Nat → Except SourceError (List WorkItem)) :
    ∃ n, IsLeast {i | c.config.Ends r i} n ∧
      ∀ j t, (asking c).Run Heeds s j t → Told r j →
        j <+: tries c day.date r n ∧
        (t.walk.asks = true ∨ t.walk.backsOff = true →
          ∃ e u, Heeds t (.event e) ∧ (asking c).next? t (.event e) = some u ∧
            Told r (j ++ ((asking c).mark? t (.event e)).toList) ∧
            ((∃ x, (asking c).mark? t (.event e) = some x) ∨
              u.walk.stage = .ended (.error .cancelled))) ∧
        (t.walk.asks = false → t.walk.backsOff = false →
          j = tries c day.date r n ∧ t.walk.stage = outcome day n (r n) ∨
            t.walk.cancelled = true ∧ (answers j).length < n ∧
              t.walk.stage = .ended (.error .cancelled)) ∧
        (t.walk.backsOff = true → t.walk.cancelled = true →
          (asking c).next? t (.event .interrupt)
            = some { t with walk := { t.walk with stage := .ended (.error .cancelled) } } ∧
          ∀ l u, (asking c).Run Heeds t l u → l = [] ∧
            (u.walk.stage = t.walk.stage ∨ u.walk.stage = .ended (.error .cancelled))) := by
  obtain ⟨n, hn⟩ := c.config.exists_isLeast_ends r
  refine ⟨n, hn, ?_⟩
  intro j t hrun told
  have hstands := Asked.run hn hs hrun told
  refine ⟨hstands.prefix_tries hn.1.1, hstands.progress told, hstands.of_end, ?_⟩
  intro hb hc
  obtain ⟨day', attempt', hst⟩ := Walk.stage_of_backsOff hb
  refine ⟨next?_interrupt hst hc, ?_⟩
  intro l u hrest
  obtain ⟨hnone, -, hstage⟩ := run_of_cancelled hb hc hrest
  exact ⟨hnone, hstage⟩

end walking

/-! ## Three attempts -/

namespace Stubborn

def date : Date := ⟨2024, 3, 1, Eq.refl true⟩

def day : DayReport := { DayReport.opened date 2 0 with passes := 1 }

/-- Three attempts are allowed, with ten seconds between them. -/
def script : Script :=
  { config := ⟨3, 3, 2, 250, true⟩, pace := ⟨10000, 1000, 500⟩, request := .day date
    clock := .epoch, totals := .ok .empty, day := fun _ => .ok [], cancelAt := none
    importer :=
      { config := ⟨1, .service, ⟨false, false⟩⟩, pace := ⟨50, 2000⟩, gate := ⟨1000, 250⟩
        fetch := fun _ => ⟨0, none⟩, backupFails := false, archiveFaults := .none } }

/-- The source does not give the listing until it is asked a fourth time. -/
def replies : Nat → Except SourceError (List WorkItem)
  | 1 => .error (.transport "reset")
  | 2 => .error (.emptyBody "listing")
  | 3 => .error (.status 503 "listing")
  | _ => .ok []

def start : World :=
  ⟨.start (.memory .empty) (.memory ⟨[]⟩) .green, { Walk.start with stage := .list day 1 }⟩

/-- An attempt that is answered. -/
def attempt (i : Nat) : Happening := .event (.walk .epoch (.listing (replies i)))

def happenings : List Happening :=
  [attempt 1, .event .wake, attempt 2, .event .wake, attempt 3]

def last : World :=
  { start with
    walk := { Walk.start with stage := .ended (.error (.day date 3 (.status 503 "listing"))) } }

theorem run_last : (asking script).Run Heeds start (tries script date replies 3) last :=
  Machine.run_of_follow (l := happenings) rfl

theorem told_last : Told replies (tries script date replies 3) := by
  have hnone : Told replies [] := fun _ _ h => by cases h
  exact ((((hnone.ask rfl date).rest _).ask rfl date).rest _).ask rfl date

/-- The third refusal is the last, though the source would answer a fourth attempt. -/
theorem refused_thrice : start.walk.stage = .list day 1 ∧
    ∃ j t, (asking script).Run Heeds start j t ∧ Told replies j ∧ (answers j).length = 3 ∧
      t.walk.stage = .ended (.error (.day date 3 (.status 503 "listing"))) ∧
      IsLeast {i | script.config.Ends replies i} 3 := by
  obtain ⟨n, hn, hruns⟩ := listing_of_answers script day start rfl replies
  obtain ⟨-, -, hend, -⟩ := hruns _ _ run_last told_last
  rcases hend rfl rfl with ⟨htries, -⟩ | ⟨hcancelled, -⟩
  · have hpos : 1 ≤ n := hn.1.1
    have hlength := congrArg (fun j => (answers j).length) htries
    obtain ⟨k, rfl⟩ : ∃ k, n = k + 1 := ⟨n - 1, by omega⟩
    rw [length_answers_tries, show day.date = date from rfl, length_answers_tries] at hlength
    obtain rfl : k = 2 := by omega
    exact ⟨rfl, _, _, run_last, told_last, rfl, rfl, hn⟩
  · cases hcancelled

end Stubborn

end Harvest.Backfill
