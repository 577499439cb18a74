import Harvest.Admission.Gate
import Harvest.Admission.Monitor

/-! # The lobby before the gate

Waiters stand before the gate and act one at a time. A waiter looks at the state that the monitor
has published. While the state is blocking, it waits for another publication than the last one it
has seen, and looks again after a fixed time at the latest. Once it has seen a state that is not
blocking, it passes, after a penalty if the state was yellow.

Time is counted in milliseconds and is virtual: it passes only when no waiter can act. In between,
waiters may act in any order, others may arrive, and states may be published.

## Main definitions

* `Place.next?`: the next act of a waiter.
* `Lobby`, `Lobby.next?`: the waiters before the gate, and what can happen there.
* `Lobby.rehearse`: what happens when changes and arrivals come at given times.
-/

namespace Harvest.Admission

/-! ## Publications -/

/-- What publishes a state. -/
inductive Change where
  /-- A state is forced. -/
  | force (s : State)
  /-- The outcome of an evaluation is published, if it is a change. -/
  | outcome (t : Transition)

/-- The state that is published, if one is. -/
def Change.published? : Change → Option State
  | .force s => some s
  | .outcome t => if t.isChange then some t.target else none

def Monitor.change (m : Monitor) : Change → Monitor
  | .force s => m.setState s
  | .outcome t => m.apply t

/-! ## Waiters -/

/-- Where a waiter stands. -/
inductive Place where
  /-- It is about to look at the state. -/
  | looking
  /-- It waits for another publication than the one seen, or for a time. -/
  | holding (seen deadline : Nat)
  /-- It sits out the penalty, until a time. -/
  | paying (deadline : Nat)
  | passed (time : Nat)
deriving DecidableEq, Repr

/-- Where the next act leads a waiter; none if it has to wait or has passed. -/
def Place.next? (g : Gate) (m : Monitor) (now : Nat) : Place → Option Place
  | .looking =>
    if m.state.isBlocking then some (.holding m.publications (now + g.poll))
    else if m.state = .yellow then some (.paying (now + g.penalty))
    else some (.passed now)
  | .holding seen deadline =>
    if m.publications ≠ seen ∨ deadline ≤ now then some .looking else none
  | .paying deadline => if deadline ≤ now then some (.passed now) else none
  | .passed _ => none

/-- A waiter with the time at which it arrived. -/
structure Waiter where
  arrival : Nat
  place : Place
deriving DecidableEq, Repr

/-! ## The lobby -/

/-- The waiters before the gate, in order of arrival, with the monitor that they look at. -/
structure Lobby where
  now : Nat
  monitor : Monitor
  waiters : List Waiter

namespace Lobby

/-- What can happen in a lobby. -/
inductive Event where
  /-- States are published, one right after the other. -/
  | publish (cs : List Change)
  | arrive
  /-- The waiter of a number acts. -/
  | act (i : Nat)
  /-- Time passes. -/
  | pass

/-- A lobby in which nobody waits. -/
def start (s : State) : Lobby := ⟨0, { Monitor.initial with state := s }, []⟩

/-- No waiter can act. -/
def isQuiet (g : Gate) (l : Lobby) : Bool :=
  l.waiters.all fun w => (w.place.next? g l.monitor l.now).isNone

/-- The lobby after an event, if the event is possible. -/
def next? (g : Gate) (l : Lobby) : Event → Option Lobby
  | .publish cs => some { l with monitor := cs.foldl Monitor.change l.monitor }
  | .arrive => some { l with waiters := l.waiters ++ [⟨l.now, .looking⟩] }
  | .act i => do
    let w ← l.waiters[i]?
    let place ← w.place.next? g l.monitor l.now
    return { l with waiters := l.waiters.set i { w with place } }
  | .pass => if l.isQuiet g then some { l with now := l.now + 1 } else none

/-! ## Rehearsals -/

/-- Lets a waiter act, at most some times. -/
def letAct (g : Gate) (i : Nat) : Nat → Lobby → Lobby
  | 0, l => l
  | times + 1, l =>
    match l.next? g (.act i) with
    | some l => letAct g i times l
    | none => l

/-- All that happens at the present time, and the passing of it. Waiters act after the changes and
the arrivals; none acts more than three times. -/
def moment (g : Gate) (changes : List (Nat × State)) (arrivals : List Nat) (l : Lobby) : Lobby :=
  let due := (changes.filter (·.1 = l.now)).map fun c => Change.force c.2
  let events := .publish due :: (arrivals.filter (· = l.now)).map fun _ => .arrive
  let l := events.foldl (fun l e => (l.next? g e).getD l) l
  let l := (List.range l.waiters.length).foldl (fun l i => letAct g i 3 l) l
  (l.next? g .pass).getD l

/-- What has happened after some time, when changes and arrivals come at given times. -/
def rehearse (g : Gate) (changes : List (Nat × State)) (arrivals : List Nat) :
    Nat → Lobby → Lobby
  | 0, l => l
  | time + 1, l => rehearse g changes arrivals time (l.moment g changes arrivals)

/-- When the first waiter who arrived at a time passed, if it has. -/
def passedAt? (l : Lobby) (arrival : Nat) : Option Nat :=
  match (l.waiters.find? (·.arrival = arrival)).map Waiter.place with
  | some (.passed time) => some time
  | _ => none

end Lobby

end Harvest.Admission
