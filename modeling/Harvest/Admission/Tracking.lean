import Harvest.Admission.Signal
import Harvest.Total

/-! # The log of responses

For each class of responses the log holds their instants, oldest first. Responses may arrive out
of order; the log stays sorted.

## Main definitions

* `Log.record`, `Log.prune`: add a response, forget old ones.
* `Log.snapshot`: how many responses of each class there were since an instant.
-/

namespace Harvest.Admission

open Harvest.Calendar Harvest.Text

/-- The instants of the responses of each class, oldest first. -/
structure Log where
  entries : StatusClass → List Instant

namespace Log

def empty : Log := ⟨fun _ => []⟩

instance : Inhabited Log := ⟨empty⟩

/-- Inserts an instant after the last one that is not later. -/
def insertAt (t : Instant) (xs : List Instant) : List Instant :=
  xs.takeWhile (fun x => decide (x ≤ t)) ++ t :: xs.dropWhile (fun x => decide (x ≤ t))

/-- Adds a response. -/
def record (l : Log) (c : StatusClass) (t : Instant) : Log :=
  ⟨fun c' => if c' = c then insertAt t (l.entries c') else l.entries c'⟩

/-- The number of responses of a class at or after an instant. -/
def countSince (l : Log) (c : StatusClass) (since : Instant) : Nat :=
  ((l.entries c).reverse.takeWhile fun t => decide (since ≤ t)).length

/-- Forgets the responses before an instant. -/
def prune (l : Log) (cutoff : Instant) : Log :=
  ⟨fun c => (l.entries c).dropWhile fun t => decide (t < cutoff)⟩

/-- The number of responses. -/
def size (l : Log) : Nat := totalOf (fun c => (l.entries c).length) StatusClass.all

def isEmpty (l : Log) : Bool := l.size == 0

/-- The number of responses that `prune` forgets. -/
def pruned (l : Log) (cutoff : Instant) : Nat := l.size - (l.prune cutoff).size

@[simp] theorem entries_record_self (l : Log) (c : StatusClass) (t : Instant) :
    (l.record c t).entries c = insertAt t (l.entries c) := by simp [record]

@[simp] theorem entries_record_ne (l : Log) {c c' : StatusClass} (t : Instant) (h : c' ≠ c) :
    (l.record c t).entries c' = l.entries c' := by simp [record, h]

end Log

/-! ## Snapshots -/

/-- How many responses there were of each class. -/
structure Snapshot where
  count : StatusClass → Nat

/-- The responses at or after an instant. -/
def Log.snapshot (l : Log) (since : Instant) : Snapshot := ⟨fun c => l.countSince c since⟩

namespace Snapshot

def total (s : Snapshot) : Nat := totalOf s.count StatusClass.all

/-- The counts of all classes, each after its label. -/
def text (s : Snapshot) : String :=
  String.intercalate " " (StatusClass.all.map fun c => c.label ++ "=" ++ showNat (s.count c))

end Snapshot

end Harvest.Admission
