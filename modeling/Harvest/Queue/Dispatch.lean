import Harvest.Calendar.Instant
import Harvest.Chunks
import Harvest.Power
import Harvest.Queue.Basic

/-! # Dispatching work

Dispatched items are scored by the time of dispatch, in nanoseconds from 1970, so that earlier ones
come out first. A batch is pushed in chunks; all items of a chunk get the same score.
-/

namespace Harvest

open Harvest.Calendar

/-- The bounds of a score. -/
def minScore : Int := -(twoTo 63 : Int)

def maxScore : Int := (twoTo 63 : Int) - 1

/-- Whether a number is within the bounds of a score. -/
def isScore (n : Int) : Bool := minScore ≤ n && n ≤ maxScore

/-- Brings a score within its bounds. -/
def clampScore (n : Int) : Int := max minScore (min maxScore n)

/-- Nanoseconds from 1970, if they are a score. Before 1970 the nanoseconds of a second are counted
back from its end, which has to be a score as well. -/
def nanosScore? (t : Instant) : Option Int :=
  let base := if t.second < 0 then t.second + 1 else t.second
  let rest : Int := if t.second < 0 then t.nano - 1000000000 else t.nano
  let nanos := base * 1000000000 + rest
  if isScore (base * 1000000000) && isScore nanos then some nanos else none

/-- The score of an item dispatched at an instant: nanoseconds, or whole seconds brought within
bounds where nanoseconds do not fit. -/
def dispatchScore (now : Instant) : Int :=
  (nanosScore? now).getD (clampScore (now.second * 1000000000))

/-- A queue on which pushes may fail. -/
abbrev Pushing (σ : Type) := σ → WorkItem → Int → Except QueueError σ

/-- Pushes all items with one score, up to the first failure. -/
def pushAll {σ : Type} (push : Pushing σ) (score : Int) (q : σ) :
    List WorkItem → σ × Except QueueError Nat
  | [] => (q, .ok 0)
  | w :: ws =>
    match push q w score with
    | .error e => (q, .error e)
    | .ok q =>
      match pushAll push score q ws with
      | (q, .ok n) => (q, .ok (n + 1))
      | (q, .error e) => (q, .error e)

/-- Pushes chunks one after another, up to the first failure. The clock is read once for each. -/
def pushChunks {σ : Type} (push : Pushing σ) (clock : Nat → Instant) (q : σ) :
    List (List WorkItem) → σ × Except QueueError Nat
  | [] => (q, .ok 0)
  | c :: cs =>
    match pushAll push (dispatchScore (clock 0)) q c with
    | (q, .error e) => (q, .error e)
    | (q, .ok n) =>
      match pushChunks push (fun i => clock (i + 1)) q cs with
      | (q, .ok m) => (q, .ok (n + m))
      | (q, .error e) => (q, .error e)

/-- Dispatches items in batches, by the readings of a clock. -/
def dispatchBatches {σ : Type} (push : Pushing σ) (clock : Nat → Instant) (q : σ)
    (items : List WorkItem) (batch : Nat) : σ × Except QueueError Nat :=
  pushChunks push clock q (chunksOf batch items)

/-- Dispatches items in batches at an instant that does not pass meanwhile. -/
def dispatchBatch {σ : Type} (push : Pushing σ) (now : Instant) (q : σ) (items : List WorkItem)
    (batch : Nat) : σ × Except QueueError Nat :=
  dispatchBatches push (fun _ => now) q items batch

end Harvest
