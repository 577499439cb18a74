import Harvest.Admission.Monitor
import Harvest.Calendar.MailDate

/-! # What response headers say

Headers carry the remaining budget of errors, the time of its reset, and how long a document may
be kept. Values that cannot be read count as absent.
-/

namespace Harvest.Api

open Harvest.Calendar Harvest.Text Harvest.Admission

/-- The result of time arithmetic lies outside the calendar. -/
structure OutOfRange where
deriving DecidableEq

/-- Headers by name, in lower case as received. -/
structure Headers where
  fields : List (String × String)
deriving DecidableEq, Inhabited

namespace Headers

def empty : Headers := ⟨[]⟩

/-- The value of a header by its exact name. -/
def get? (h : Headers) (name : String) : Option String := h.fields.lookup name

/-- The remaining budget of errors; a cautious one when it is not given. -/
def remaining (h : Headers) : Int :=
  ((h.get? "x-esi-error-limit-remain").bind fun v => readInt64? (trim v.toList)).getD
    Budget.defaultRemaining

/-- The time of the reset, given in seconds from now. -/
def resetAt (h : Headers) (now : Instant) : Except OutOfRange (Option Instant) :=
  match (h.get? "x-esi-error-limit-reset").bind fun v => readInt64? (trim v.toList) with
  | none => .ok none
  | some seconds =>
    match (Span.ofSeconds? seconds).bind now.add? with
    | some t => .ok (some t)
    | none => .error ⟨⟩

/-- The date until which a document may be kept; one hour from now when it is not given. -/
def expires (h : Headers) (now : Instant) : Except OutOfRange Instant :=
  match (h.get? "expires").bind fun v => MailDate.read? (trim v.toList) with
  | some t => .ok t
  | none =>
    match now.add? (Span.ofSeconds 3600) with
    | some t => .ok t
    | none => .error ⟨⟩

def etag (h : Headers) : Option String := h.get? "etag"

end Headers

/-! ## Telemetry -/

/-- What is reported of a call. -/
inductive Telemetry where
  | status (c : StatusClass) (time : Instant)
  | budget (remaining : Int) (resetAt : Option Instant) (time : Instant)
deriving DecidableEq

/-- A call that breaks down over a time outside the calendar. What it has reported before stays
reported. -/
structure Broken where
  reported : List Telemetry
deriving DecidableEq

/-- The report of a status: its class, if it has one. -/
def statusReport (status : Nat) (now : Instant) : List Telemetry :=
  ((StatusClass.ofStatus? status).map fun c => Telemetry.status c now).toList

/-- What is reported of the response that ends a call: the status and then the budget. The time of
the reset is worked out only when the status has been reported. -/
def telemetry (status : Nat) (h : Headers) (now : Instant) : Except Broken (List Telemetry) :=
  match h.resetAt now with
  | .ok reset => .ok (statusReport status now ++ [.budget h.remaining reset now])
  | .error _ => .error ⟨statusReport status now⟩

/-- Publishes what was reported. -/
def Telemetry.publish (m : Monitor) : Telemetry → Monitor
  | .status c t => m.recordStatus c t
  | .budget n reset t => m.recordBudget n reset t

end Harvest.Api
