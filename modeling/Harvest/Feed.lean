import Harvest.Json.Encoder
import Harvest.Queue.Dispatch

/-! # The live feed

The source announces killmails on a channel that is subscribed to. Every announcement that names
an id and a hash is dispatched; other messages are passed over. A connection that is lost or
refused is made again.

## Main definitions

* `announced?`: the work item of a message.
* `Listener.hear`, `Listener.attend`: a message, and a whole connection.
-/

namespace Harvest.Feed

open Harvest.Calendar Harvest.Json

/-! ## Messages -/

/-- What an announcement names. -/
def announcement : Decoder (Option UInt64 × Option String) :=
  Decoder.record ["killID", "hash"] fun m => do
    return (← m.optional "killID" Decoder.uint64, ← m.optional "hash" Decoder.text)

/-- The work item that a message announces. -/
def announced? (message : String) : Option WorkItem :=
  match announcement.runString message with
  | some (some id, some hash) => some { id, hash }
  | _ => none

/-- The message that subscribes to a channel. -/
def subscription (channel : String) : Value :=
  .object [("action", .text "sub"), ("channel", .text channel)]

/-! ## Connections -/

/-- What is received on a connection. -/
inductive Frame where
  | text (message : String)
  /-- Anything else, which says nothing. -/
  | other
deriving DecidableEq

/-- An attempt to connect. -/
inductive Connection where
  | refused
  /-- Established, and lost again after some frames. -/
  | established (frames : List Frame)
deriving DecidableEq

/-- A listener with the queue it dispatches to. -/
structure Listener (σ : Type) where
  queue : σ
  /-- Items put on the queue. -/
  dispatched : Nat
  /-- Connections established. -/
  sessions : Nat

namespace Listener

variable {σ : Type}

/-- A listener that has heard nothing yet. -/
def start (queue : σ) : Listener σ := ⟨queue, 0, 0⟩

/-- Dispatches what a frame announces. An item that cannot be queued is lost. -/
def hear (push : Pushing σ) (now : Instant) (l : Listener σ) (f : Frame) : Listener σ :=
  match f with
  | .other => l
  | .text message =>
    match announced? message with
    | none => l
    | some w =>
      match push l.queue w (dispatchScore now) with
      | .ok queue => { l with queue, dispatched := l.dispatched + 1 }
      | .error _ => l

/-- Attends to a connection until it is lost. -/
def attend (push : Pushing σ) (now : Instant) (l : Listener σ) (c : Connection) : Listener σ :=
  match c with
  | .refused => l
  | .established frames => frames.foldl (hear push now) { l with sessions := l.sessions + 1 }

end Listener

end Harvest.Feed
