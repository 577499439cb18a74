import Harvest.Queue.Basic

/-! # A queue with faults

A queue whose backend fails on command: the pushes of chosen ids, the first pops, or all counts.
-/

namespace Harvest

/-- The faults of a queue. -/
structure QueueFaults where
  /-- Pushes of these ids fail. -/
  pushes : List UInt64
  /-- This many pops fail. -/
  pops : Nat
  /-- Counts fail. -/
  counts : Bool
  /-- The text of the failures. -/
  cause : String
deriving Inhabited

namespace QueueFaults

def none : QueueFaults := ⟨[], 0, false, ""⟩

/-- Whether the push of an item fails. -/
def refuses (f : QueueFaults) (w : WorkItem) : Bool := f.pushes.contains w.id

end QueueFaults

/-- A queue with faults. -/
structure FaultyQueue where
  queue : Queue
  faults : QueueFaults

namespace FaultyQueue

instance : Inhabited FaultyQueue := ⟨default, .none⟩

/-- A queue without faults. -/
def sound (q : Queue) : FaultyQueue := ⟨q, .none⟩

def push (q : FaultyQueue) (w : WorkItem) (score : Int) : Except QueueError FaultyQueue :=
  if q.faults.refuses w then .error (.backend q.faults.cause)
  else .ok { q with queue := q.queue.push w score }

def popMin (q : FaultyQueue) : FaultyQueue × Except QueueError (Option WorkItem) :=
  match q.faults.pops with
  | n + 1 => ({ q with faults := { q.faults with pops := n } }, .error (.backend q.faults.cause))
  | 0 =>
    let (queue, r) := q.queue.popMin
    ({ q with queue }, r)

def countBetween (q : FaultyQueue) (low high : Int) : Except QueueError Nat :=
  if q.faults.counts then .error (.backend q.faults.cause) else .ok (q.queue.countBetween low high)

/-- Pops until the queue is empty; every pop takes away a fault or an entry. -/
def drain (q : FaultyQueue) : FaultyQueue × List (Except QueueError WorkItem) :=
  let failed := List.replicate q.faults.pops (.error (.backend q.faults.cause))
  let (queue, popped) := q.queue.drain q.queue.size
  ({ queue, faults := { q.faults with pops := 0 } }, failed ++ popped)

end FaultyQueue

end Harvest
