import Harvest.Proofs.Import.Journal

/-! # The moves of an importer

What a step can do, said once: a constructor for each thing that can happen, with what it needs and
what it changes. Everything proved of steps is proved by cases on these relations.

## Main statements

* `Stage.move_of_step?`: the steps of a handling are its moves.
* `World.step_of_next?`: the steps of an importer, with their marks, are the steps listed here.
-/

namespace Harvest.Import

open Harvest.Admission Harvest.Api

/-! ## Handlings -/

/-- The killmail that comes of a fetched body, if fetching and decoding succeed. -/
def decoded? (w : WorkItem) : Except FetchError (List UInt8) → Option Killmail
  | .error _ => none
  | .ok body => (w.decodeBody body).toOption

theorem decodeBody_ok {w : WorkItem} {body : List UInt8} {k : Killmail}
    (h : w.decodeBody body = .ok k) : k.id = w.id ∧ k.hash = w.hash := by
  unfold WorkItem.decodeBody at h
  split at h
  · rename_i p _
    unfold WorkItem.accept at h
    split at h
    · rename_i hid
      simp only [Except.ok.injEq] at h
      subst h
      exact ⟨hid, rfl⟩
    · simp at h
  · simp at h

/-- A decoded killmail carries the id and the hash of the work item. -/
theorem decoded?_some {w : WorkItem} {r : Except FetchError (List UInt8)} {k : Killmail}
    (h : decoded? w r = some k) : k.id = w.id ∧ k.hash = w.hash := by
  cases r with
  | error e => cases h
  | ok body =>
    cases hk : w.decodeBody body with
    | error e => simp [decoded?, hk, Except.toOption] at h
    | ok k' =>
      simp only [decoded?, hk, Except.toOption, Option.some.injEq] at h
      exact h ▸ decodeBody_ok hk

/-- A body that decodes for the items of id 7. -/
def bodyOfSeven : List UInt8 :=
  Text.bytesOf "[7,\"2024-01-01T00:00:00Z\",1,null,null,[null,null,null,null,0,1]]"

example : (decoded? ⟨7, "a"⟩ (.ok bodyOfSeven)).isSome = true := by decide +kernel

/-- The stages that may come after a killmail has been stored. -/
theorem Parties.afterStore_cases (p : Parties) (k : Killmail) (body : List UInt8) :
    p.afterStore k body = .backup k body ∨ p.afterStore k body = .observe k ∨
      p.afterStore k body = .count .imported := by
  unfold Parties.afterStore
  by_cases hb : p.backup = true
  · exact .inl (if_pos hb)
  · rw [if_neg hb]
    by_cases ho : p.observer = true
    · exact .inr (.inl (if_pos ho))
    · exact .inr (.inr (if_neg ho))

/-- The stages that may come after the backup. -/
theorem Parties.afterBackup_cases (p : Parties) (k : Killmail) :
    p.afterBackup k = .observe k ∨ p.afterBackup k = .count .imported := by
  unfold Parties.afterBackup
  by_cases ho : p.observer = true
  · exact .inl (if_pos ho)
  · exact .inr (if_neg ho)

/-- What a step of a handling can do. -/
inductive Stage.Move (p : Parties) (w : WorkItem) (d : Depot) :
    Stage → Answer → Depot → Stage → Prop where
  | known (h : w.id ∈ d.archive.ids) : Move p w d .lookup .done d (.count .skipped)
  | ask (h : w.id ∉ d.archive.ids) :
      Move p w d .lookup .done { d with fetches := w :: d.fetches } .fetch
  | lookupFails : Move p w d .lookup .fails d (.count .dropped)
  /-- The body cannot be fetched, or is no killmail of the item. -/
  | undelivered {r : Except FetchError (List UInt8)} (h : decoded? w r = none) :
      Move p w d .fetch (.fetched r) d (.count .dropped)
  | delivered {k : Killmail} {body : List UInt8} (h : decoded? w (.ok body) = some k) :
      Move p w d .fetch (.fetched (.ok body)) d (.store k body)
  | store {k : Killmail} {body : List UInt8} (h : k.id ∉ d.archive.ids) :
      Move p w d (.store k body) .done
        { d with archive := d.archive.prepend [k], stores := (w, k) :: d.stores }
        (p.afterStore k body)
  /-- Another worker has stored a killmail of that id meanwhile. -/
  | duplicate {k : Killmail} {body : List UInt8} (h : k.id ∈ d.archive.ids) :
      Move p w d (.store k body) .done d (.count .skipped)
  | storeFails {k : Killmail} {body : List UInt8} :
      Move p w d (.store k body) .fails d (.count .dropped)
  | backup {k : Killmail} {body : List UInt8} {a : Answer} (kept : Bool) :
      Move p w d (.backup k body) a { d with backups := ⟨k, w, body, kept⟩ :: d.backups }
        (p.afterBackup k)
  | observe {k : Killmail} :
      Move p w d (.observe k) .done { d with observed := k :: d.observed } (.count .imported)
  | count {o : Outcome} :
      Move p w d (.count o) .done { d with outcomes := (w, o) :: d.outcomes } .leave

theorem Stage.move_of_step? {p : Parties} {w : WorkItem} {d d' : Depot} {st st' : Stage}
    {a : Answer} (h : st.step? p w d a = some (d', st')) : st.Move p w d a d' st' := by
  unfold Stage.step? at h
  -- the cases are those of the definition: lookup, fetch, insertion, backup, observer, outcome
  split at h
  · split at h
    · rename_i hk
      cases h
      exact .known (Archive.contains_iff.mp hk)
    · rename_i hk
      cases h
      exact .ask fun hmem => hk (Archive.contains_iff.mpr hmem)
  · cases h
    exact .lookupFails
  · rename_i r
    cases h
    cases r with
    | error e => exact .undelivered rfl
    | ok body =>
      cases hk : w.decodeBody body with
      | error e =>
        simp only [Stage.ofFetched, hk]
        exact .undelivered (by simp [decoded?, hk, Except.toOption])
      | ok k =>
        simp only [Stage.ofFetched, hk]
        exact .delivered (by simp [decoded?, hk, Except.toOption])
  · rename_i k body
    rw [Archive.insert_eq] at h
    by_cases hk : k.id ∈ d.archive.ids
    · simp only [if_pos hk] at h
      cases h
      exact .duplicate hk
    · simp only [if_neg hk] at h
      cases h
      exact .store hk
  · cases h
    exact .storeFails
  · cases h
    exact .backup true
  · cases h
    exact .backup false
  · cases h
    exact .observe
  · cases h
    exact .count
  · simp at h

/-! ## The loop and its surroundings -/

namespace World

/-- Turns of the loop that touch neither the queue nor the count of items in flight: the place that
the loop goes to, and the number of ended workers that it has not seen. -/
inductive Turn (c : Config) (s : World) : Event → Loop → Nat → Prop where
  | halt (h : s.loop = .top) (hs : s.stopping = true) : Turn c s .loop .joining s.ended
  | free (h : s.loop = .top) (hs : s.stopping = false) (hw : s.workers.length < c.slots) :
      Turn c s .loop .held 0
  | busy (h : s.loop = .top) (hs : s.stopping = false) (hw : c.slots ≤ s.workers.length) :
      Turn c s .loop (.pausing .busy) 0
  | blocked (h : s.loop = .held) (ha : s.admission.isBlocking = true) :
      Turn c s .loop .held s.ended
  | degraded (h : s.loop = .held) (ha : s.admission = .yellow) : Turn c s .loop .penalty s.ended
  | clear (h : s.loop = .held) (ha : s.admission.isBlocking = false) (hy : s.admission ≠ .yellow) :
      Turn c s .loop .cleared s.ended
  | served (h : s.loop = .penalty) : Turn c s .wake .cleared s.ended
  | woken {p : Pause} (h : s.loop = .pausing p) : Turn c s .wake .top s.ended
  | interrupted (hs : s.stopping = true)
      (h : s.loop = .held ∨ s.loop = .penalty ∨ ∃ p, s.loop = .pausing p) :
      Turn c s .interrupt .joining s.ended
  | join (h : s.loop = .joining) (hw : s.workers = []) : Turn c s .loop .stopped 0

/-- What a step of an importer can do, and what the journal says of it. -/
inductive Step (c : Config) (s : World) : Event → Option Mark → World → Prop where
  | turn {e : Event} {l : Loop} {n : Nat} (h : s.Turn c e l n) :
      Step c s e none { s with loop := l, ended := n }
  | enter (h : s.loop = .cleared) :
      Step c s .loop none { s with inFlight := s.inFlight + 1, loop := .entered }
  | take {q : Queue} {w : WorkItem} (h : s.loop = .entered)
      (hq : s.queue.popMin = (q, .ok (some w))) :
      Step c s .loop (some (.taken s.made w))
        { s with queue := q, loop := .spawning w, wasIdle := false }
  | miss {q : Queue} (h : s.loop = .entered) (hq : s.queue.popMin = (q, .ok none)) :
      Step c s .loop none { s with queue := q, loop := .empty }
  /-- The queue gives out a corrupt entry. -/
  | spoil {q : Queue} {e : QueueError} (h : s.loop = .entered)
      (hq : s.queue.popMin = (q, .error e)) :
      Step c s .loop none { s with queue := q, loop := .broken }
  | popFails (h : s.loop = .entered) : Step c s .popFails none { s with loop := .broken }
  | spawn {w : WorkItem} (h : s.loop = .spawning w) : Step c s .loop none (s.spawn w)
  /-- The second empty queue in a row, with no worker left in between. -/
  | finish (h : s.loop = .empty) (hmode : c.mode = .drain) (hw : s.workers = [])
      (hidle : s.wasIdle = true) :
      Step c s .loop none { s with inFlight := s.inFlight - 1, loop := .joining }
  | idle (h : s.loop = .empty) :
      Step c s .loop none
        { s with inFlight := s.inFlight - 1, wasIdle := s.settled, loop := .pausing .idle }
  | recover (h : s.loop = .broken) :
      Step c s .loop none { s with inFlight := s.inFlight - 1, loop := .pausing .failed }
  | work {n : Nat} {a : Answer} {w : Worker} {d : Depot} {st : Stage} (hw : s.worker? n = some w)
      (h : w.stage.Move c.parties w.item s.depot a d st) :
      Step c s (.work n a) (w.mark? s.depot a) ({ s with depot := d }.setStage n st)
  | leave {n : Nat} {a : Answer} {w : Worker} (hw : s.worker? n = some w) (h : w.stage = .leave) :
      Step c s (.work n a) (some (.left w.number w.item))
        { s.retire n with inFlight := s.inFlight - 1 }
  | crash {n : Nat} {w : Worker} (hw : s.worker? n = some w) :
      Step c s (.crash n) none (s.retire n)
  | pushNew {w : WorkItem} (score : Int) (h : w ∉ s.queue.items) :
      Step c s (.push w score) (some (.queued w)) { s with queue := s.queue.push w score }
  | pushAgain {w : WorkItem} (score : Int) (h : w ∈ s.queue.items) :
      Step c s (.push w score) (some (.rescored w)) { s with queue := s.queue.push w score }
  | setAdmission (a : State) : Step c s (.setAdmission a) none { s with admission := a }
  | stop : Step c s .stop none { s with stopping := true }

section inversion

variable {c : Config} {s t : World} {e : Event}

theorem mark?_loop (h : s.loop ≠ .entered) : s.mark? .loop = none := by
  simp only [mark?]
  split
  · rename_i hl _
    exact absurd hl h
  · rfl

theorem turn_of_beginRound (hl : s.loop = .top) :
    ∃ l n, s.Turn c .loop l n ∧ s.beginRound c = { s with loop := l, ended := n } := by
  unfold beginRound
  by_cases hs : s.stopping = true
  · rw [if_pos hs]
    exact ⟨_, _, .halt hl hs, rfl⟩
  · rw [if_neg hs]
    have hs' : s.stopping = false := by simpa using hs
    by_cases hw : s.workers.length < c.slots
    · exact ⟨_, _, .free hl hs' hw, by simp only [if_pos hw]⟩
    · exact ⟨_, _, .busy hl hs' (Nat.le_of_not_lt hw), by simp only [if_neg hw]⟩

theorem turn_of_askAdmission (hl : s.loop = .held) :
    ∃ l n, s.Turn c .loop l n ∧ s.askAdmission = { s with loop := l, ended := n } := by
  unfold askAdmission
  by_cases ha : s.admission.isBlocking = true
  · rw [if_pos ha]
    exact ⟨_, _, .blocked hl ha, by rw [← hl]⟩
  · rw [if_neg ha]
    by_cases hy : s.admission = .yellow
    · rw [if_pos hy]
      exact ⟨_, _, .degraded hl hy, rfl⟩
    · rw [if_neg hy]
      exact ⟨_, _, .clear hl (by simpa using ha) hy, rfl⟩

theorem step_of_pop (hl : s.loop = .entered) : s.Step c .loop (s.mark? .loop) s.pop := by
  unfold pop
  split
  · rename_i q w hq
    have hmark : s.mark? .loop = some (.taken s.made w) := by simp only [mark?, hl, hq]
    rw [hmark]
    exact .take hl hq
  · rename_i hq
    have hmark : s.mark? .loop = none := by simp only [mark?, hl, hq]
    rw [hmark]
    exact .miss hl hq
  · rename_i hq
    have hmark : s.mark? .loop = none := by simp only [mark?, hl, hq]
    rw [hmark]
    exact .spoil hl hq

theorem step_of_rest (hl : s.loop = .empty) : s.Step c .loop none (s.rest c) := by
  -- settled is asked of the state before the count is lowered, which it does not look at
  by_cases h : c.mode = .drain ∧ s.settled = true ∧ s.wasIdle = true
  · have hrest : s.rest c = { s with inFlight := s.inFlight - 1, loop := .joining } := if_pos h
    have hsettled := h.2.1
    simp only [settled, Bool.and_eq_true, List.isEmpty_iff] at hsettled
    rw [hrest]
    exact .finish hl h.1 hsettled.1 h.2.2
  · have hrest : s.rest c = { s with inFlight := s.inFlight - 1, wasIdle := s.settled
                                     loop := .pausing .idle } := if_neg h
    rw [hrest]
    exact .idle hl

theorem step_of_advance? (h : s.advance? c = some t) : s.Step c .loop (s.mark? .loop) t := by
  -- only where the loop is about to take an item does the mark depend on the queue
  cases hl : s.loop with
  | entered =>
    simp only [advance?, hl, Option.some.injEq] at h
    exact h ▸ step_of_pop hl
  | top =>
    simp only [advance?, hl, Option.some.injEq] at h
    obtain ⟨l, n, hturn, heq⟩ := turn_of_beginRound (c := c) hl
    rw [mark?_loop (by simp [hl]), ← h, heq]
    exact .turn hturn
  | held =>
    simp only [advance?, hl, Option.some.injEq] at h
    obtain ⟨l, n, hturn, heq⟩ := turn_of_askAdmission (c := c) hl
    rw [mark?_loop (by simp [hl]), ← h, heq]
    exact .turn hturn
  | cleared =>
    simp only [advance?, hl, Option.some.injEq] at h
    rw [mark?_loop (by simp [hl]), ← h]
    exact .enter hl
  | spawning w =>
    simp only [advance?, hl, Option.some.injEq] at h
    rw [mark?_loop (by simp [hl]), ← h]
    exact .spawn hl
  | empty =>
    simp only [advance?, hl, Option.some.injEq] at h
    rw [mark?_loop (by simp [hl]), ← h]
    exact step_of_rest hl
  | broken =>
    simp only [advance?, hl, Option.some.injEq] at h
    rw [mark?_loop (by simp [hl]), ← h]
    exact .recover hl
  | joining =>
    simp only [advance?, hl, Option.ite_none_right_eq_some, Option.some.injEq] at h
    rw [mark?_loop (by simp [hl]), ← h.2]
    exact .turn (.join hl (List.isEmpty_iff.mp h.1))
  | penalty | pausing p | stopped => simp [advance?, hl] at h

theorem step_of_work? {n : Nat} {a : Answer} (h : s.work? c n a = some t) :
    s.Step c (.work n a) (s.mark? (.work n a)) t := by
  unfold work? at h
  cases hw : s.worker? n with
  | none => simp [hw] at h
  | some w =>
    simp only [hw, Option.bind_eq_bind, Option.bind_some] at h
    simp only [mark?, hw, Option.bind_some]
    -- a worker that is about to leave takes no step of a handling any more
    split at h
    · rename_i hst
      have hmark : w.mark? s.depot a = some (.left w.number w.item) := by
        simp only [Worker.mark?, hst]
      rw [hmark, ← Option.some.inj h]
      exact .leave hw hst
    · cases hm : w.stage.step? c.parties w.item s.depot a with
      | none => simp [hm] at h
      | some r =>
        simp only [hm, Option.bind_some, Option.pure_def, Option.some.injEq] at h
        rw [← h]
        exact .work hw (Stage.move_of_step? hm)

/-- Every step of an importer is one of those listed. -/
theorem step_of_next? (h : s.next? c e = some t) : s.Step c e (s.mark? e) t := by
  cases e with
  | loop => exact step_of_advance? h
  | work n a => exact step_of_work? h
  | popFails =>
    simp only [next?, Option.ite_none_right_eq_some, Option.some.injEq] at h
    rw [← h.2]
    exact .popFails h.1
  | wake =>
    simp only [next?] at h
    split at h
    · rename_i hl
      rw [← Option.some.inj h]
      exact .turn (.served hl)
    · rename_i hl
      rw [← Option.some.inj h]
      exact .turn (.woken hl)
    · cases h
  | interrupt =>
    simp only [next?] at h
    split at h
    · rename_i hs hl
      rw [← Option.some.inj h]
      exact .turn (.interrupted hs (.inl hl))
    · rename_i hs hl
      rw [← Option.some.inj h]
      exact .turn (.interrupted hs (.inr (.inl hl)))
    · rename_i hs hl
      rw [← Option.some.inj h]
      exact .turn (.interrupted hs (.inr (.inr ⟨_, hl⟩)))
    · cases h
  | crash n =>
    simp only [next?, Option.map_eq_some_iff] at h
    obtain ⟨w, hw, rfl⟩ := h
    exact .crash hw
  | push w score =>
    rw [← Option.some.inj h]
    by_cases hw : w ∈ s.queue.items
    · rw [mark?, if_pos hw]
      exact .pushAgain score hw
    · rw [mark?, if_neg hw]
      exact .pushNew score hw
  | setAdmission a => exact Option.some.inj h ▸ .setAdmission a
  | stop => exact Option.some.inj h ▸ .stop

end inversion

end World

end Harvest.Import
