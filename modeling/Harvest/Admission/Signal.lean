import Harvest.Killmail.Codec

/-! # Signals about the source

What is observed of the source: the budget of errors it still allows, how many players it reports
to be active, and the class of each response.
-/

namespace Harvest.Admission

open Harvest.Calendar Harvest.Json

/-! ## The budget of errors -/

/-- The errors that the source still allows, and when it starts a new count. -/
structure Budget where
  remaining : Int
  resetAt : Option Instant
  observedAt : Instant
deriving DecidableEq

namespace Budget

/-- The budget assumed of a response that names none. -/
def defaultRemaining : Int := 15

/-- Whether the count has been started anew since. -/
def hasReset (b : Budget) (now : Instant) : Bool :=
  match b.resetAt with
  | some t => decide (t < now)
  | none => false

def toValue (b : Budget) : Value :=
  .object [("remaining", .whole b.remaining), ("reset_at", .ofOption instantValue b.resetAt),
    ("observed_at", instantValue b.observedAt)]

def decode : Decoder Budget :=
  Decoder.record ["remaining", "reset_at", "observed_at"] fun m => do
    return { remaining := ← m.required "remaining" Decoder.int64
             resetAt := ← m.optional "reset_at" instantDecoder
             observedAt := ← m.required "observed_at" instantDecoder }

end Budget

/-! ## Load -/

/-- How many players are active, and whether the source admits the public. -/
structure Load where
  activeCount : Int
  maintenance : Bool
  observedAt : Instant
deriving DecidableEq

namespace Load

def toValue (l : Load) : Value :=
  .object [("active_count", .whole l.activeCount), ("maintenance", .bool l.maintenance),
    ("observed_at", instantValue l.observedAt)]

def decode : Decoder Load :=
  Decoder.record ["active_count", "maintenance", "observed_at"] fun m => do
    return { activeCount := ← m.required "active_count" Decoder.int64
             maintenance := ← m.required "maintenance" Decoder.bool
             observedAt := ← m.required "observed_at" instantDecoder }

end Load

/-! ## Classes of responses -/

/-- The class of a response by its status. -/
inductive StatusClass where
  | ok
  | notModified
  | calmDown
  | clientError
  | serverError
deriving DecidableEq, Repr

namespace StatusClass

def all : List StatusClass := [.ok, .notModified, .calmDown, .clientError, .serverError]

/-- The class of a status, if it has one. -/
def ofStatus? (status : Nat) : Option StatusClass :=
  if status = 200 then some .ok
  else if status = 304 then some .notModified
  else if status = 420 then some .calmDown
  else if 400 ≤ status ∧ status ≤ 499 then some .clientError
  else if 500 ≤ status ∧ status ≤ 599 then some .serverError
  else none

/-- The name in documents. -/
def name : StatusClass → String
  | .ok => "Ok"
  | .notModified => "NotModified"
  | .calmDown => "CalmDown"
  | .clientError => "ClientError"
  | .serverError => "ServerError"

/-- The name in summaries. -/
def label : StatusClass → String
  | .ok => "200"
  | .notModified => "304"
  | .calmDown => "420"
  | .clientError => "4xx"
  | .serverError => "5xx"

/-- The position in `all`. -/
def index : StatusClass → Nat
  | .ok => 0
  | .notModified => 1
  | .calmDown => 2
  | .clientError => 3
  | .serverError => 4

def ofName? (s : String) : Option StatusClass := all.find? (·.name = s)

def toValue (c : StatusClass) : Value := .text c.name

def decode : Decoder StatusClass := Decoder.choice (all.map fun c => (c.name, c))

@[simp] theorem ofName?_name (c : StatusClass) : ofName? c.name = some c := by cases c <;> rfl

end StatusClass

end Harvest.Admission
