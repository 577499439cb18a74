import Harvest.Json.Decoder
import Harvest.Json.Encoder

/-! # Admission states

How freely work is admitted, from `green` (freely) to `downtime` (not at all while the source is
down). Red and downtime hold all work; yellow lets it pass with a penalty.
-/

namespace Harvest.Admission

open Harvest.Json

/-- How freely work is admitted. -/
inductive State where
  | green
  | yellow
  | red
  | downtime
deriving DecidableEq, Repr, Inhabited

namespace State

/-- The states in order of severity. -/
def all : List State := [.green, .yellow, .red, .downtime]

/-- The severity, least first. -/
def severity : State → Nat
  | .green => 0
  | .yellow => 1
  | .red => 2
  | .downtime => 3

instance : LE State := ⟨fun a b => a.severity ≤ b.severity⟩

instance (a b : State) : Decidable (a ≤ b) := inferInstanceAs (Decidable (a.severity ≤ b.severity))

/-- No work is admitted. -/
def isBlocking : State → Bool
  | .red | .downtime => true
  | .green | .yellow => false

/-- The budget of errors is short. -/
def isDegraded : State → Bool
  | .yellow | .red => true
  | .green | .downtime => false

/-- The name in documents. -/
def name : State → String
  | .green => "Green"
  | .yellow => "Yellow"
  | .red => "Red"
  | .downtime => "Downtime"

/-- The name in messages. -/
def label : State → String
  | .green => "green"
  | .yellow => "yellow"
  | .red => "red"
  | .downtime => "downtime"

def ofName? (s : String) : Option State := all.find? (·.name = s)

def toValue (s : State) : Value := .text s.name

def decode : Decoder State := Decoder.choice (all.map fun s => (s.name, s))

@[simp] theorem ofName?_name (s : State) : ofName? s.name = some s := by cases s <;> rfl

end State

end Harvest.Admission
