import Harvest.Api.Failure
import Harvest.Archive.Basic
import Harvest.Archive.Tally
import Harvest.Killmail.Decode

/-! # Handling a work item

A worker takes one work item through its stages: it asks the archive whether the id is stored,
fetches the body, decodes it, stores the killmail, keeps a backup of the body, lets the killmail be
observed, and counts the outcome. Any failure up to storing ends the handling at once; the item is
not queued again.

A stage is one step, so that the steps of several workers can be interleaved in any way. What a
step meets with outside of the archive is its answer.

## Main definitions

* `Depot`: what all workers share, with a record of what they did to it.
* `Stage`, `Answer`: where a handling stands, and what its next step meets with.
* `Stage.step?`: the next step of a handling.
-/

namespace Harvest.Import

open Harvest.Api Harvest.Json

/-! ## Outcomes -/

/-- How a handling ends. -/
inductive Outcome where
  | imported
  /-- The id was stored already. -/
  | skipped
  /-- Something failed. -/
  | dropped
deriving DecidableEq, Repr

/-- How many handlings ended in each way. -/
structure Summary where
  imported : Nat
  skipped : Nat
  dropped : Nat
deriving DecidableEq, Repr, Inhabited

namespace Summary

def processed (s : Summary) : Nat := s.imported + s.skipped + s.dropped

def toValue (s : Summary) : Value :=
  .object [("imported", .whole s.imported), ("skipped", .whole s.skipped),
    ("dropped", .whole s.dropped), ("processed", .whole s.processed)]

/-- The summary of a list of outcomes. -/
def ofOutcomes (os : List Outcome) : Summary :=
  { imported := os.count .imported, skipped := os.count .skipped, dropped := os.count .dropped }

end Summary

/-! ## What workers share -/

/-- One body handed to the backup. -/
structure Backup where
  killmail : Killmail
  item : WorkItem
  body : List UInt8
  kept : Bool

/-- The archive, with a record of what workers did, the latest first. -/
structure Depot where
  archive : Archive
  fetches : List WorkItem
  stores : List (WorkItem × Killmail)
  backups : List Backup
  observed : List Killmail
  outcomes : List (WorkItem × Outcome)

namespace Depot

/-- A depot in which nothing has been done. -/
def ofArchive (a : Archive) : Depot := ⟨a, [], [], [], [], []⟩

instance : Inhabited Depot := ⟨.ofArchive default⟩

def summary (d : Depot) : Summary := Summary.ofOutcomes (d.outcomes.map Prod.snd)

/-- The killmails observed, tallied by day. -/
def tally (d : Depot) : Tally := d.observed.foldr (fun k t => t.observe k) .empty

end Depot

/-! ## Stages -/

/-- Which of the parties that hear of an imported killmail there are. -/
structure Parties where
  backup : Bool
  observer : Bool
deriving DecidableEq

/-- Where a handling stands: what its next step does. -/
inductive Stage where
  | lookup
  | fetch
  | store (k : Killmail) (body : List UInt8)
  | backup (k : Killmail) (body : List UInt8)
  | observe (k : Killmail)
  | count (o : Outcome)
  /-- All is done; the worker ends. -/
  | leave

/-- What a step meets with. -/
inductive Answer where
  /-- Whatever the step asks for is done. -/
  | done
  /-- The archive or the backup fails; nothing changes. -/
  | fails
  /-- The body that was fetched, or the failure to fetch it. -/
  | fetched (r : Except FetchError (List UInt8))

/-- The stage after a killmail has been stored. -/
def Parties.afterStore (p : Parties) (k : Killmail) (body : List UInt8) : Stage :=
  if p.backup then .backup k body
  else if p.observer then .observe k
  else .count .imported

/-- The stage after the backup. -/
def Parties.afterBackup (p : Parties) (k : Killmail) : Stage :=
  if p.observer then .observe k else .count .imported

namespace Stage

/-- The stage that a fetched body leads to. -/
def ofFetched (w : WorkItem) : Except FetchError (List UInt8) → Stage
  | .error _ => .count .dropped
  | .ok body =>
    match w.decodeBody body with
    | .ok k => .store k body
    | .error _ => .count .dropped

/-- The next step of the handling of an item; none if the answer does not fit the stage. -/
def step? (p : Parties) (w : WorkItem) (d : Depot) : Stage → Answer → Option (Depot × Stage)
  | .lookup, .done =>
    if d.archive.contains w.id then some (d, .count .skipped)
    else some ({ d with fetches := w :: d.fetches }, .fetch)
  | .lookup, .fails => some (d, .count .dropped)
  | .fetch, .fetched r => some (d, ofFetched w r)
  | .store k body, .done =>
    match d.archive.insert k with
    | (a, .inserted) =>
      some ({ d with archive := a, stores := (w, k) :: d.stores }, p.afterStore k body)
    | (_, .duplicate) => some (d, .count .skipped)
  | .store _ _, .fails => some (d, .count .dropped)
  | .backup k body, .done =>
    some ({ d with backups := ⟨k, w, body, true⟩ :: d.backups }, p.afterBackup k)
  | .backup k body, .fails =>
    some ({ d with backups := ⟨k, w, body, false⟩ :: d.backups }, p.afterBackup k)
  | .observe k, .done => some ({ d with observed := k :: d.observed }, .count .imported)
  | .count o, .done => some ({ d with outcomes := (w, o) :: d.outcomes }, .leave)
  | _, _ => none

/-- How many steps are left at most. -/
def rank : Stage → Nat
  | .lookup => 6
  | .fetch => 5
  | .store _ _ => 4
  | .backup _ _ => 3
  | .observe _ => 2
  | .count _ => 1
  | .leave => 0

theorem rank_ofFetched (w : WorkItem) (r : Except FetchError (List UInt8)) :
    (ofFetched w r).rank ≤ 4 := by
  unfold ofFetched
  split
  · simp [rank]
  · split <;> simp [rank]

theorem rank_afterStore (p : Parties) (k : Killmail) (body : List UInt8) :
    (p.afterStore k body).rank ≤ 3 := by
  unfold Parties.afterStore
  split
  · simp [rank]
  · split <;> simp [rank]

theorem rank_afterBackup (p : Parties) (k : Killmail) : (p.afterBackup k).rank ≤ 2 := by
  unfold Parties.afterBackup
  split <;> simp [rank]

/-- Every step brings a handling nearer to its end. -/
theorem rank_lt_of_step? {p : Parties} {w : WorkItem} {d d' : Depot} {s s' : Stage} {a : Answer}
    (h : s.step? p w d a = some (d', s')) : s'.rank < s.rank := by
  have hf := rank_ofFetched w
  have hs := rank_afterStore p
  have hb := rank_afterBackup p
  unfold step? at h
  split at h
  · split at h
    all_goals
      simp only [Option.some.injEq, Prod.mk.injEq] at h
      obtain ⟨_, rfl⟩ := h
      simp [rank]
  · simp only [Option.some.injEq, Prod.mk.injEq] at h; obtain ⟨_, rfl⟩ := h; simp [rank]
  · rename_i r
    simp only [Option.some.injEq, Prod.mk.injEq] at h; obtain ⟨_, rfl⟩ := h
    exact Nat.lt_succ_of_le (hf r)
  · rename_i k body
    split at h
    · simp only [Option.some.injEq, Prod.mk.injEq] at h; obtain ⟨_, rfl⟩ := h
      exact Nat.lt_succ_of_le (hs k body)
    · simp only [Option.some.injEq, Prod.mk.injEq] at h; obtain ⟨_, rfl⟩ := h; simp [rank]
  · simp only [Option.some.injEq, Prod.mk.injEq] at h; obtain ⟨_, rfl⟩ := h; simp [rank]
  · rename_i k body
    simp only [Option.some.injEq, Prod.mk.injEq] at h; obtain ⟨_, rfl⟩ := h
    exact Nat.lt_succ_of_le (hb k)
  · rename_i k body
    simp only [Option.some.injEq, Prod.mk.injEq] at h; obtain ⟨_, rfl⟩ := h
    exact Nat.lt_succ_of_le (hb k)
  · simp only [Option.some.injEq, Prod.mk.injEq] at h; obtain ⟨_, rfl⟩ := h; simp [rank]
  · simp only [Option.some.injEq, Prod.mk.injEq] at h; obtain ⟨_, rfl⟩ := h; simp [rank]
  · exact absurd h (by simp)

end Stage

end Harvest.Import
