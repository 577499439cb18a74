import Harvest.Admission.State

/-! # The admission gate

Whoever is about to do work waits at the gate. While the admission state is blocking, the waiter
looks again at every change of it, and after a fixed time at the latest. Once the state is not
blocking, the waiter passes: at once if it is green, and after a penalty if it is yellow, whatever
happens to the state meanwhile.

## Main definitions

* `Timeline`: the admission states over time.
* `Gate.clearance?`: when a waiter passes.
-/

namespace Harvest.Admission

/-! ## States over time -/

/-- The admission states over time: a first state, and changes in order of time. -/
structure Timeline where
  initial : State
  changes : List (Nat × State)

namespace Timeline

/-- The last of some states, or the given one if there is none. -/
def lastOf (s : State) (changes : List (Nat × State)) : State :=
  (changes.getLast?.map Prod.snd).getD s

/-- The state at a time; of several changes at one time the last counts. -/
def stateAt (tl : Timeline) (time : Nat) : State :=
  lastOf tl.initial (tl.changes.takeWhile fun c => decide (c.1 ≤ time))

/-- The changes after a time. -/
def later (tl : Timeline) (time : Nat) : List (Nat × State) :=
  tl.changes.dropWhile fun c => decide (c.1 ≤ time)

end Timeline

/-! ## Waiting -/

/-- The settings of the gate, in milliseconds. -/
structure Gate where
  /-- The longest time between two looks at the state. -/
  poll : Nat
  /-- The penalty of a yellow state. -/
  penalty : Nat
deriving DecidableEq, Repr

namespace Gate

def standard : Gate := ⟨1000, 250⟩

/-- When a waiter passes who finds a state at a time. -/
def passage? (g : Gate) (s : State) (time : Nat) : Option Nat :=
  if s.isBlocking then none
  else if s = .yellow then some (time + g.penalty)
  else some time

/-- When a waiter passes who looks at the state `s` at a time, given the changes after it. -/
def await (g : Gate) (s : State) (time : Nat) : List (Nat × State) → Option Nat
  | [] => g.passage? s time
  | (t, s') :: later =>
    match g.passage? s time with
    | some passed => some passed
    | none =>
      if time + max 1 g.poll < t then g.await s (time + max 1 g.poll) ((t, s') :: later)
      else
        g.await (Timeline.lastOf s' (later.takeWhile fun c => decide (c.1 ≤ t))) t
          (later.dropWhile fun c => decide (c.1 ≤ t))
termination_by later => (later.length, (later.head?.map Prod.fst).getD 0 - time)
decreasing_by
  · simp only [List.head?_cons, Option.map_some, Option.getD_some]
    apply Prod.Lex.right
    omega
  · apply Prod.Lex.left
    have := (List.dropWhile_sublist (l := later) fun c => decide (c.1 ≤ t)).length_le
    simp only [List.length_cons]
    omega

/-- When a waiter passes who arrives at a time. -/
def clearance? (g : Gate) (tl : Timeline) (arrival : Nat) : Option Nat :=
  g.await (tl.stateAt arrival) arrival (tl.later arrival)

end Gate

end Harvest.Admission
