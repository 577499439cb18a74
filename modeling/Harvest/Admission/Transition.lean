import Harvest.Admission.Signal
import Harvest.Admission.State
import Harvest.Admission.Window

/-! # Transitions of the admission state

The next state follows from the present one and the latest signals: first the load of the source,
then the daily window, then a new count of errors, then bands of the remaining budget. The bands
overlap, so that a budget near a boundary does not make the state swing.

## Main definitions

* `Signals`, `Policy`: what an evaluation depends on.
* `evaluate`: the next state and the reason for it.
-/

namespace Harvest.Admission

open Harvest.Calendar Harvest.Text

/-- The fixed thresholds. -/
structure Policy where
  /-- With fewer active players the source counts as down. -/
  minActiveCount : Int
  window : Window
deriving DecidableEq

def Policy.standard : Policy := ⟨100, Window.standard⟩

/-- The signals of one evaluation; one that is missing or stale is `none`. -/
structure Signals where
  load : Option Load
  budget : Option Budget
  now : Instant
deriving DecidableEq

/-- Why a state was chosen. -/
inductive Reason where
  | noLoad
  | lowActiveCount (count : Int)
  | maintenance
  | windowOpen
  | windowClosed
  | budgetReset
  | budget (remaining : Int)
deriving DecidableEq

def Reason.message : Reason → String
  | .noLoad => "no load signal"
  | .lowActiveCount n => "active count " ++ showInt n ++ " below threshold"
  | .maintenance => "upstream in VIP mode"
  | .windowOpen => "scheduled downtime window"
  | .windowClosed => "downtime over"
  | .budgetReset => "error budget reset"
  | .budget n => "error budget remaining " ++ showInt n

/-- A step from one state to the next; staying needs no reason. -/
structure Transition where
  source : State
  target : State
  reason : Option Reason
deriving DecidableEq

namespace Transition

def isChange (t : Transition) : Bool := t.source ≠ t.target

def stay (s : State) : Transition := ⟨s, s, none⟩

def into (source target : State) (reason : Reason) : Transition := ⟨source, target, some reason⟩

end Transition

/-! ## Evaluation -/

/-- Why the source counts as down, by its load. -/
def Policy.outage (p : Policy) : Option Load → Option Reason
  | none => some .noLoad
  | some l =>
    if l.maintenance then some .maintenance
    else if l.activeCount < p.minActiveCount then some (.lowActiveCount l.activeCount)
    else none

/-- The state that the remaining budget asks for. Leaving a state takes more than its neighbour
takes to be entered. -/
def band (current : State) (remaining : Int) : State :=
  match current with
  | .red => if 20 < remaining then .green else if 10 ≤ remaining then .yellow else .red
  | .yellow => if remaining < 10 then .red else if 20 ≤ remaining then .green else .yellow
  | .green => if remaining ≤ 10 then .red else if remaining ≤ 20 then .yellow else .green
  | .downtime => .downtime

/-- The step that the budget asks for, outside downtime. -/
def budgetStep (current : State) (budget : Budget) (now : Instant) : Transition :=
  if current.isDegraded && budget.hasReset now then .into current .green .budgetReset
  else if band current budget.remaining = current then .stay current
  else .into current (band current budget.remaining) (.budget budget.remaining)

/-- The next state. -/
def evaluate (current : State) (s : Signals) (p : Policy) : Transition :=
  match p.outage s.load with
  | some reason => .into current .downtime reason
  | none =>
    if current = .downtime then
      if p.window.contains s.now then .stay .downtime else .into .downtime .green .windowClosed
    else if p.window.contains s.now then .into current .downtime .windowOpen
    else
      match s.budget with
      | none => .stay current
      | some b => budgetStep current b s.now

end Harvest.Admission
