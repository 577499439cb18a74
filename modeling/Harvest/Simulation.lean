/-! # Simulation in virtual time

Several agents act on a common state. An agent acts in turns: after a turn it goes on at once, goes
on after some time, or waits for another agent to wake it. Time passes only when no agent is ready.
Agents that become ready at the same time act in the order in which they fell asleep.

Time counts milliseconds.

## Main definitions

* `Turn`: what the turn of an agent leads to.
* `Simulation.next?`: one turn, or one passing of time.
* `Simulation.run`: turns until an end.
-/

namespace Harvest

/-- What an agent does after a turn. -/
inductive Rest where
  /-- It goes on at once. -/
  | none
  /-- It goes on after some time. -/
  | sleep (time : Nat)
  /-- It waits to be woken. -/
  | wait
deriving DecidableEq, Repr

/-- What a turn leads to. -/
structure Turn (σ ι : Type) where
  state : σ
  rest : Rest
  /-- Agents woken, in order. -/
  woken : List ι

/-- The state of a simulation. -/
structure Simulation (σ ι : Type) where
  now : Nat
  state : σ
  /-- Agents ready to act, in order. -/
  ready : List ι
  /-- Agents asleep with the times of their waking, in the order in which they fell asleep. -/
  asleep : List (Nat × ι)

namespace Simulation

variable {σ ι : Type} [DecidableEq ι]

/-- A simulation about to start with agents in order. -/
def start (state : σ) (agents : List ι) : Simulation σ ι := ⟨0, state, agents, []⟩

/-- Brings an agent to the turn that it has had. -/
def follow (s : Simulation σ ι) (a : ι) (others : List ι) (t : Turn σ ι) : Simulation σ ι :=
  let woken := t.woken.filter fun b => !others.contains b
  let asleep := s.asleep.filter fun (_, b) => !woken.contains b
  match t.rest with
  | .none => { s with state := t.state, ready := a :: others ++ woken, asleep }
  | .sleep time =>
    { s with state := t.state, ready := others ++ woken, asleep := asleep ++ [(s.now + time, a)] }
  | .wait => { s with state := t.state, ready := others ++ woken, asleep }

/-- Lets time pass until the first agent wakes. -/
def pass? (s : Simulation σ ι) : Option (Simulation σ ι) :=
  match (s.asleep.map Prod.fst).min? with
  | some time =>
    some { s with now := time
                  ready := (s.asleep.filter (·.1 = time)).map Prod.snd
                  asleep := s.asleep.filter (·.1 ≠ time) }
  | none => none

/-- One turn of the first agent that is ready, or a passing of time if none is. -/
def next? (act : Nat → ι → σ → Turn σ ι) (s : Simulation σ ι) : Option (Simulation σ ι) :=
  match s.ready with
  | a :: others => some (s.follow a others (act s.now a s.state))
  | [] => s.pass?

/-- At most `fuel` turns, until the state is an end or nothing is left to do. -/
def run (act : Nat → ι → σ → Turn σ ι) (isEnd : σ → Bool) : Nat → Simulation σ ι → Simulation σ ι
  | 0, s => s
  | fuel + 1, s =>
    if isEnd s.state then s
    else
      match s.next? act with
      | some s => run act isEnd fuel s
      | none => s

end Simulation

end Harvest
