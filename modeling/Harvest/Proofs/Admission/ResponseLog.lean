import Harvest.Proofs.Admission.Moves
import Harvest.Proofs.Calendar.Instants
import Mathlib.Data.List.TakeWhile
import Mathlib.Data.Multiset.Bind
import Mathlib.Data.Multiset.Filter

/-! # The log of responses as a multiset

Responses may be recorded in any order, and old ones are forgotten from time to time. What the log
says of them at any time is what a multiset of responses would say: how many there are of a class or
of all since an instant, and how many are forgotten.

The log looks for the place of a new response from the end, counts from the end, and forgets from
the front. Each of these is right only because the instants of a class are in order, and recording
keeps them so. Then a log is told by its multiset, and the order of recording is lost.

## Main definitions

* `Log.responses`: the multiset of a log.
* `Log.Call`, `Log.after`, `kept`: calls, and what they leave of the log and of the multiset.

## Main statements

* `Log.sorted_after`, `Log.responses_after`: the order of a log, and what it holds.
* `Log.eq_of_responses`: a log in order is told by its multiset.
* `tracked_responses`: what the log says after any calls, and after a tick.
-/

namespace Harvest.Admission

open Harvest.Calendar

/-- A response, by its class and its instant. -/
abbrev Response := StatusClass × Instant

/-! ## Lists in order -/

section instants

variable {t : Instant} {xs : List Instant}

theorem insertAt_cons (t x : Instant) (xs : List Instant) :
    Log.insertAt t (x :: xs) = if x ≤ t then x :: Log.insertAt t xs else t :: x :: xs := by
  unfold Log.insertAt
  by_cases h : x ≤ t
  · simp [h]
  · simp [h]

theorem insertAt_perm (t : Instant) (xs : List Instant) : (Log.insertAt t xs).Perm (t :: xs) := by
  unfold Log.insertAt
  refine List.perm_middle.trans ?_
  rw [List.takeWhile_append_dropWhile]

theorem pairwise_insertAt (h : xs.Pairwise (· ≤ ·)) : (Log.insertAt t xs).Pairwise (· ≤ ·) := by
  induction xs with
  | nil => exact List.pairwise_singleton _ t
  | cons x xs ih =>
    obtain ⟨hx, hxs⟩ := List.pairwise_cons.mp h
    rw [insertAt_cons]
    split
    · rename_i hle
      refine List.pairwise_cons.mpr ⟨fun y hy => ?_, ih hxs⟩
      rcases List.mem_cons.mp ((insertAt_perm t xs).mem_iff.mp hy) with rfl | hy
      · exact hle
      · exact hx y hy
    · rename_i hlt
      have htx : t ≤ x := Instant.le_of_lt (Instant.not_le.mp hlt)
      refine List.pairwise_cons.mpr ⟨fun y hy => ?_, h⟩
      rcases List.mem_cons.mp hy with rfl | hy
      · exact htx
      · exact Instant.le_trans htx (hx y hy)

/-- An instant is put into a list right behind the last one that is not later, which is where a
search from the end of the list stops. -/
def PutBehind (t : Instant) (xs ys : List Instant) : Prop :=
  ∃ front back, xs = front ++ back ∧ ys = front ++ t :: back ∧
    (∀ x ∈ front.getLast?, x ≤ t) ∧ ∀ x ∈ back, t < x

theorem putBehind_insertAt (h : xs.Pairwise (· ≤ ·)) : PutBehind t xs (Log.insertAt t xs) := by
  refine ⟨xs.takeWhile (· ≤ t), xs.dropWhile (· ≤ t), List.takeWhile_append_dropWhile.symm, rfl,
    fun x hx => ?_, fun x hx => ?_⟩
  · have hmem := List.mem_takeWhile_imp (List.mem_of_getLast? hx)
    exact of_decide_eq_true hmem
  · -- the first of the rest is later, and the others are no earlier
    cases hback : xs.dropWhile (· ≤ t) with
    | nil =>
      rw [hback] at hx
      cases hx
    | cons y ys =>
      have hy : ¬ y ≤ t := by
        have hhead := List.head?_dropWhile_not (fun x => decide (x ≤ t)) xs
        rw [hback] at hhead
        simpa using hhead
      have hsorted : (y :: ys).Pairwise (· ≤ ·) := hback ▸ h.sublist (List.dropWhile_sublist _)
      rw [hback] at hx
      rcases List.mem_cons.mp hx with rfl | hx
      · exact Instant.not_le.mp hy
      · exact Instant.lt_of_lt_of_le (Instant.not_le.mp hy)
          ((List.pairwise_cons.mp hsorted).1 x hx)

/-- In a list in order, what is before an instant comes first. -/
theorem dropWhile_lt (h : xs.Pairwise (· ≤ ·)) (cutoff : Instant) :
    xs.dropWhile (fun t => decide (t < cutoff)) = xs.filter (fun t => decide (cutoff ≤ t)) := by
  induction xs with
  | nil => rfl
  | cons x xs ih =>
    obtain ⟨hx, hxs⟩ := List.pairwise_cons.mp h
    by_cases hlt : x < cutoff
    · rw [List.dropWhile_cons_of_pos (by simpa using hlt), ih hxs,
        List.filter_cons_of_neg (by simpa using Instant.not_le.mpr hlt)]
    · -- this one stays, and so do all behind it
      have hle : cutoff ≤ x := Instant.not_lt.mp hlt
      rw [List.dropWhile_cons_of_neg (by simpa using hlt), eq_comm, List.filter_eq_self]
      intro y hy
      rcases List.mem_cons.mp hy with rfl | hy
      · exact decide_eq_true hle
      · exact decide_eq_true (Instant.le_trans hle (hx y hy))

/-- In a list in order, what is not before an instant comes last. -/
theorem length_takeWhile_reverse (h : xs.Pairwise (· ≤ ·)) (since : Instant) :
    (xs.reverse.takeWhile fun t => decide (since ≤ t)).length
      = xs.countP fun t => decide (since ≤ t) := by
  induction xs with
  | nil => rfl
  | cons x xs ih =>
    obtain ⟨hx, hxs⟩ := List.pairwise_cons.mp h
    rw [List.reverse_cons, List.takeWhile_append]
    by_cases hle : since ≤ x
    · -- with the first one all others are counted
      have hall : xs.countP (fun t => decide (since ≤ t)) = xs.length :=
        List.countP_eq_length.mpr fun y hy => decide_eq_true (Instant.le_trans hle (hx y hy))
      simp [ih hxs, hall, hle]
    · have hnone : [x].takeWhile (fun t => decide (since ≤ t)) = [] := by simp [hle]
      rw [List.countP_cons_of_neg (by simpa using hle), hnone, List.append_nil]
      split
      · rename_i hall
        rw [← ih hxs, hall]
      · exact ih hxs

end instants

/-! ## The multiset of a log -/

theorem StatusClass.mem_all (c : StatusClass) : c ∈ StatusClass.all := by
  cases c <;> decide

namespace Log

/-- The responses of a class. -/
def ofClass (l : Log) (c : StatusClass) : Multiset Response :=
  (l.entries c : Multiset Instant).map fun t => (c, t)

/-- The responses that a log holds. -/
def responses (l : Log) : Multiset Response :=
  (StatusClass.all : Multiset StatusClass).bind l.ofClass

/-- The instants of each class are in order. -/
def Sorted (l : Log) : Prop := ∀ c, (l.entries c).Pairwise (· ≤ ·)

variable {l l' : Log} {c : StatusClass} {t cutoff since : Instant}

/-- Whatever is counted of a log is counted class by class. -/
theorem countP_responses (l : Log) (p : Response → Prop) [DecidablePred p] :
    l.responses.countP p
      = totalOf (fun c => (l.entries c).countP fun t => decide (p (c, t))) StatusClass.all := by
  have hclass : ∀ c, (l.ofClass c).countP p = (l.entries c).countP fun t => decide (p (c, t)) := by
    intro c
    rw [ofClass, Multiset.countP_map, ← Multiset.countP_eq_card_filter, Multiset.coe_countP]
  simp only [responses, StatusClass.all, ← Multiset.cons_coe, Multiset.coe_nil,
    Multiset.cons_bind, Multiset.zero_bind, Multiset.countP_add, Multiset.countP_zero, hclass,
    totalOf_cons, totalOf_nil]

theorem card_responses (l : Log) : l.responses.card = l.size := by
  have hcount := l.countP_responses fun _ => True
  simpa [size] using hcount

/-- Of one class there is what its list has. -/
theorem countP_class (l : Log) (c : StatusClass) (p : Instant → Prop) [DecidablePred p] :
    l.responses.countP (fun r => r.1 = c ∧ p r.2) = (l.entries c).countP fun t => decide (p t) := by
  rw [countP_responses]
  cases c <;> simp [StatusClass.all]

/-- A log in order is told by its multiset. -/
theorem eq_of_responses (h : l.Sorted) (h' : l'.Sorted) (heq : l.responses = l'.responses) :
    l = l' := by
  have hentries : ∀ c, l.entries c = l'.entries c := by
    intro c
    have hcount : ∀ (l : Log) t, (l.entries c).count t
        = l.responses.countP fun r => r.1 = c ∧ r.2 = t := by
      intro l t
      exact (l.countP_class c (· = t)).symm
    have hperm : (l.entries c).Perm (l'.entries c) := by
      rw [List.perm_iff_count]
      intro t
      rw [hcount, hcount, heq]
    exact hperm.eq_of_pairwise (fun _ _ _ _ => Instant.le_antisymm) (h c) (h' c)
  cases l
  cases l'
  exact congrArg Log.mk (funext hentries)

/-! ### What calls do to it -/

theorem sorted_empty : empty.Sorted := fun _ => List.Pairwise.nil

theorem Sorted.record (h : l.Sorted) (c : StatusClass) (t : Instant) : (l.record c t).Sorted := by
  intro c'
  by_cases hc : c' = c
  · subst hc
    rw [entries_record_self]
    exact pairwise_insertAt (h c')
  · rw [entries_record_ne l t hc]
    exact h c'

theorem Sorted.prune (h : l.Sorted) (cutoff : Instant) : (l.prune cutoff).Sorted :=
  fun c => (h c).sublist (List.dropWhile_sublist _)

theorem responses_record (l : Log) (c : StatusClass) (t : Instant) :
    (l.record c t).responses = (c, t) ::ₘ l.responses := by
  have hself : (l.record c t).ofClass c = (c, t) ::ₘ l.ofClass c := by
    rw [ofClass, entries_record_self, Multiset.coe_eq_coe.mpr (insertAt_perm t _),
      ← Multiset.cons_coe, Multiset.map_cons, ofClass]
  have hsplit : c ::ₘ (StatusClass.all : Multiset StatusClass).erase c = StatusClass.all :=
    Multiset.cons_erase (Multiset.mem_coe.mpr c.mem_all)
  have hnodup : (StatusClass.all : Multiset StatusClass).Nodup := Multiset.coe_nodup.mpr (by decide)
  -- the other classes keep what they have
  have hothers : ∀ c' ∈ (StatusClass.all : Multiset StatusClass).erase c,
      (l.record c t).ofClass c' = l.ofClass c' := by
    intro c' hc'
    rw [ofClass, entries_record_ne l t (hnodup.mem_erase_iff.mp hc').1, ofClass]
  rw [responses, responses, ← hsplit, Multiset.cons_bind, Multiset.cons_bind, hself,
    Multiset.cons_add, Multiset.bind_congr hothers]

theorem responses_prune (h : l.Sorted) (cutoff : Instant) :
    (l.prune cutoff).responses = l.responses.filter fun r => cutoff ≤ r.2 := by
  rw [responses, responses, Multiset.filter_bind]
  refine Multiset.bind_congr fun c _ => ?_
  rw [ofClass, ofClass, Multiset.filter_map, Multiset.filter_coe]
  exact congrArg (fun xs : List Instant => (xs : Multiset Instant).map _)
    (dropWhile_lt (h c) cutoff)

/-! ### What it is asked -/

theorem countSince_eq (h : l.Sorted) (c : StatusClass) (since : Instant) :
    l.countSince c since = l.responses.countP fun r => r.1 = c ∧ since ≤ r.2 := by
  rw [countP_class]
  exact length_takeWhile_reverse (h c) since

theorem total_snapshot (h : l.Sorted) (since : Instant) :
    (l.snapshot since).total = l.responses.countP fun r => since ≤ r.2 := by
  rw [countP_responses, Snapshot.total]
  refine congrArg (totalOf · StatusClass.all) (funext fun c => ?_)
  exact length_takeWhile_reverse (h c) since

theorem pruned_eq (h : l.Sorted) (cutoff : Instant) :
    l.pruned cutoff = l.responses.countP fun r => r.2 < cutoff := by
  have hparts := Multiset.card_eq_countP_add_countP (fun r : Response => cutoff ≤ r.2) l.responses
  simp only [Instant.not_le] at hparts
  rw [pruned, ← card_responses, ← card_responses, responses_prune h,
    ← Multiset.countP_eq_card_filter, hparts, Nat.add_sub_cancel_left]

/-- A log holds a multiset of responses, in order, and says what the multiset says. -/
structure Tells (l : Log) (m : Multiset Response) : Prop where
  sorted : ∀ c, (l.entries c).Pairwise (· ≤ ·)
  responses : l.responses = m
  countSince : ∀ c since, l.countSince c since = m.countP fun r => r.1 = c ∧ since ≤ r.2
  pruned : ∀ cutoff, l.pruned cutoff = m.countP fun r => r.2 < cutoff
  size : l.size = m.card
  total : ∀ since, (l.snapshot since).total = m.countP fun r => since ≤ r.2
  /-- The next response of a class goes where a search from the end finds its place. -/
  place : ∀ c t, PutBehind t (l.entries c) ((l.record c t).entries c)

theorem Sorted.tells (h : l.Sorted) : l.Tells l.responses where
  sorted := h
  responses := rfl
  countSince := countSince_eq h
  pruned := pruned_eq h
  size := l.card_responses.symm
  total := total_snapshot h
  place := fun c t => by
    rw [entries_record_self]
    exact putBehind_insertAt (h c)

/-! ## Calls -/

/-- What changes a log. -/
inductive Call where
  | record (r : Response)
  | prune (cutoff : Instant)

/-- What a call makes of a log. -/
def call (l : Log) : Call → Log
  | .record r => l.record r.1 r.2
  | .prune cutoff => l.prune cutoff

/-- What a call makes of the responses that were kept. -/
def Call.keep (m : Multiset Response) : Call → Multiset Response
  | .record r => r ::ₘ m
  | .prune cutoff => m.filter fun r => cutoff ≤ r.2

/-- The log after calls. -/
def after (calls : List Call) : Log := calls.foldl call empty

/-- The responses that were recorded and not forgotten since. -/
def kept (calls : List Call) : Multiset Response := calls.foldl Call.keep 0

theorem Sorted.call (h : l.Sorted) (a : Call) : (l.call a).Sorted := by
  cases a with
  | record r => exact h.record r.1 r.2
  | prune cutoff => exact h.prune cutoff

theorem responses_call (h : l.Sorted) (a : Call) : (l.call a).responses = a.keep l.responses := by
  cases a with
  | record r => exact l.responses_record r.1 r.2
  | prune cutoff => exact responses_prune h cutoff

theorem foldl_call (h : l.Sorted) (calls : List Call) : (calls.foldl call l).Sorted ∧
    (calls.foldl call l).responses = calls.foldl Call.keep l.responses := by
  induction calls generalizing l with
  | nil => exact ⟨h, rfl⟩
  | cons a calls ih =>
    rw [List.foldl_cons, List.foldl_cons, ← responses_call h]
    exact ih (h.call a)

theorem sorted_after (calls : List Call) : (after calls).Sorted :=
  (foldl_call sorted_empty calls).1

theorem responses_after (calls : List Call) : (after calls).responses = kept calls :=
  (foldl_call sorted_empty calls).2

theorem keep_records (m : Multiset Response) (rs : List Response) :
    (rs.map Call.record).foldl Call.keep m = rs + m := by
  induction rs generalizing m with
  | nil => exact (Multiset.zero_add m).symm
  | cons r rs ih =>
    rw [List.map_cons, List.foldl_cons, ih, Call.keep, Multiset.add_cons, ← Multiset.cons_coe,
      Multiset.cons_add]

/-- The order in which responses are recorded does not matter. -/
theorem after_perm {rs rs' : List Response} (h : rs.Perm rs') (calls : List Call) :
    after (calls ++ rs.map .record) = after (calls ++ rs'.map .record) := by
  refine eq_of_responses (sorted_after _) (sorted_after _) ?_
  rw [responses_after, responses_after, kept, kept, List.foldl_append, List.foldl_append,
    keep_records, keep_records, Multiset.coe_eq_coe.mpr h]

end Log

/-! ## Along runs -/

open Log (kept)

section runs

variable {c : TrackerConfig} {now : Instant} {j : List Mark} {s : Station}

@[simp] theorem Monitor.log_apply (m : Monitor) (t : Transition) : (m.apply t).log = m.log := by
  unfold Monitor.apply
  split <;> rfl

theorem Health.log_tick (h : Health) (c : TrackerConfig) (now : Instant) :
    (h.tick c now).1.monitor.log = match now.sub? c.retention with
      | some cutoff => h.monitor.log.prune cutoff
      | none => h.monitor.log := by
  unfold Health.tick
  cases now.sub? c.retention with
  | some cutoff => exact congrArg (Log.prune · cutoff) (Monitor.log_apply _ _)
  | none => exact Monitor.log_apply _ _

theorem sorted_next (h : s.health.monitor.log.Sorted) (e : Event) :
    (s.next c e).health.monitor.log.Sorted := by
  cases e with
  | tick =>
    show (s.health.tick c s.clock).1.monitor.log.Sorted
    rw [Health.log_tick]
    split
    · exact h.prune _
    · exact h
  | recordStatus status t => exact h.record status t
  | prune cutoff => exact h.prune cutoff
  | apply t =>
    show (s.health.monitor.apply t).log.Sorted
    rwa [Monitor.log_apply]
  | setClock | publishLoad | recordBudget | setState => exact h

theorem sorted_of_run (h : (station c).Run (fun _ _ => True) (.start now) j s) :
    s.health.monitor.log.Sorted := by
  refine h.invariant (P := fun s => s.health.monitor.log.Sorted) ?_ Log.sorted_empty
  intro s e t _ step hs
  cases step
  exact sorted_next hs e

end runs

/-- **The log of responses is a multiset.** After any calls, with responses in any order, the log
holds the responses that were recorded and not forgotten since, each class in order. It says how
many of them there are: of a class or of all since an instant, before an instant, and altogether.
The order in which responses are recorded between two other calls is lost, for the log and for all
that it says later. In any run of a station, a tick leaves just the responses that are not older
than the time of retention; if there is no such instant as the cutoff, the tick breaks and forgets
none. -/
theorem tracked_responses {c : TrackerConfig} {now : Instant} {j : List Mark} {s : Station}
    (calls later : List Log.Call) {rs rs' : List Response} (hrs : rs.Perm rs')
    (h : (station c).Run (fun _ _ => True) (.start now) j s) :
    (Log.after calls).Tells (kept calls) ∧
      Log.after (calls ++ rs.map .record ++ later) = Log.after (calls ++ rs'.map .record ++ later) ∧
      (∀ cutoff, s.clock.sub? c.retention = some cutoff →
        (s.next c .tick).health.monitor.log.Tells
          (s.health.monitor.log.responses.filter fun r => cutoff ≤ r.2)) ∧
      (s.clock.sub? c.retention = none → (s.health.tick c s.clock).2 = .overflow ∧
        (s.next c .tick).health.monitor.log = s.health.monitor.log) := by
  have hsorted := sorted_of_run h
  have hlog : (s.next c .tick).health.monitor.log = _ := s.health.log_tick c s.clock
  refine ⟨?_, ?_, fun cutoff hcutoff => ?_, fun hnone => ⟨?_, ?_⟩⟩
  · rw [← Log.responses_after]
    exact (Log.sorted_after calls).tells
  · have hsame := Log.after_perm hrs calls
    unfold Log.after at hsame ⊢
    rw [List.foldl_append, hsame, ← List.foldl_append]
  · rw [hcutoff] at hlog
    rw [hlog, ← Log.responses_prune hsorted]
    exact (hsorted.prune cutoff).tells
  · rw [Health.tick, hnone]
  · rw [hlog, hnone]

/-! ## Three responses out of order -/

namespace Backlog

/-- Some seconds after noon of 1 January 2024. -/
def noon (n : Nat) (h : validInstant (1704110400 + n) 0 = true) : Instant := ⟨1704110400 + n, 0, h⟩

def early : Response := (.ok, noon 0 (by decide))

def middle : Response := (.ok, noon 240 (by decide))

def late : Response := (.serverError, noon 300 (by decide))

/-- Ten minutes later, when responses are kept for six. -/
def cutoff : Instant := noon 240 (by decide)

def events : List Event := [.recordStatus middle.1 middle.2, .recordStatus early.1 early.2,
  .recordStatus late.1 late.2, .setClock (noon 600 (by decide))]

theorem reaches_cutoff :
    (station .standard).reaches (fun _ _ => True) (.start early.2) events (fun s =>
      s.clock.sub? TrackerConfig.standard.retention = some cutoff &&
        s.health.monitor.log.size = 3 &&
        (s.next .standard .tick).health.monitor.log.countSince .ok .epoch = 1) = true := by
  decide +kernel

/-- The response at the cutoff is kept, the one before it is not. -/
theorem one_forgotten :
    ∃ j s, (station .standard).Run (fun _ _ => True) (.start early.2) j s ∧
      s.health.monitor.log.responses.card = 3 ∧
      (s.health.monitor.log.responses.filter fun r => cutoff ≤ r.2).countP
        (fun r => r.1 = .ok ∧ Instant.epoch ≤ r.2) = 1 ∧
      Log.after [.record early, .record late] = Log.after [.record late, .record early] := by
  obtain ⟨j, s, hrun, hs⟩ := Machine.exists_run_of_reaches reaches_cutoff
  simp only [Bool.and_eq_true, decide_eq_true_eq] at hs
  obtain ⟨⟨hcutoff, hsize⟩, hcount⟩ := hs
  obtain ⟨-, hsame, htick, -⟩ :=
    tracked_responses [] [] (List.Perm.swap early late []) hrun
  refine ⟨j, s, hrun, ?_, ?_, hsame.symm⟩
  · rw [Log.card_responses, hsize]
  · rw [← (htick cutoff hcutoff).countSince, hcount]

end Backlog

end Harvest.Admission
