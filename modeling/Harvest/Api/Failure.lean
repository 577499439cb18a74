import Harvest.Calendar.Duration

/-! # Failures of calls

What can go wrong with a call to the source, and which failures are worth another attempt.

## Main definitions

* `Failure`: the kinds of failure with their messages.
* `Failure.ofStatus?`, `Failure.ofTerminalStatus?`: what the status of a response stands for.
* `Retry`: how often a call is attempted.
-/

namespace Harvest.Api

open Harvest.Calendar Harvest.Text

/-- What went wrong with a call. -/
inductive Failure where
  | transport (cause : String)
  | timeout (limit : Duration)
  | serverError (status : Nat)
  | clientError (status : Nat)
  | rateLimitCooldown
  | maxAttemptsExceeded (attempts status : Nat)
  | unexpectedStatus (status : Nat)
  | decode (cause : String)
  | invalidRequest (cause : String)
  | build (cause : String)
deriving DecidableEq

namespace Failure

/-- The name of the kind of failure. -/
def kind : Failure → String
  | .transport _ => "Transport"
  | .timeout _ => "Timeout"
  | .serverError _ => "UpstreamServer"
  | .clientError _ => "UpstreamClient"
  | .rateLimitCooldown => "RateLimitCooldown"
  | .maxAttemptsExceeded _ _ => "MaxAttemptsExceeded"
  | .unexpectedStatus _ => "UnexpectedStatus"
  | .decode _ => "Decode"
  | .invalidRequest _ => "InvalidRequest"
  | .build _ => "Build"

def message : Failure → String
  | .transport cause => "Transport error: " ++ cause
  | .timeout limit => "Request timed out after " ++ limit.text
  | .serverError status => "Upstream server error: status " ++ showNat status
  | .clientError status => "Upstream rejected request: status " ++ showNat status
  | .rateLimitCooldown => "Upstream error limit reached, cooling down"
  | .maxAttemptsExceeded attempts status =>
    "max attempts exceeded after " ++ showNat attempts ++ " attempts (last status "
      ++ showNat status ++ ")"
  | .unexpectedStatus status => "Unexpected status: " ++ showNat status
  | .decode cause => "Failed to decode response body: " ++ cause
  | .invalidRequest cause => "Invalid request: " ++ cause
  | .build cause => "Failed to build HTTP client: " ++ cause

/-- Whether another attempt may succeed. -/
def isTransient : Failure → Bool
  | .transport _ | .timeout _ | .serverError _ => true
  | _ => false

/-- What the status of one response stands for. Success and an unchanged document are none. -/
def ofStatus? (status : Nat) : Option Failure :=
  if (200 ≤ status ∧ status ≤ 299) ∨ status = 304 then none
  else if status = 420 then some .rateLimitCooldown
  else if 400 ≤ status ∧ status ≤ 499 then some (.clientError status)
  else if 500 ≤ status ∧ status ≤ 599 then some (.serverError status)
  else some (.unexpectedStatus status)

/-- What the status of the last response stands for: an error of the server has used up all
attempts. -/
def ofTerminalStatus? (status attempts : Nat) : Option Failure :=
  (ofStatus? status).map fun
    | .serverError s => .maxAttemptsExceeded attempts s
    | f => f

end Failure

/-! ## Retries -/

/-- What a single attempt came to. -/
inductive Attempt where
  | answered (status : Nat)
  | failed (f : Failure)
deriving DecidableEq

/-- How often a call is attempted, and the pause between attempts. -/
structure Retry where
  maxAttempts : Nat
  backoff : Duration
deriving DecidableEq

namespace Retry

/-- Three attempts, two seconds apart. -/
def standard : Retry := ⟨3, .ofSeconds 2⟩

/-- At least one attempt is made. -/
def of (maxAttempts : Nat) (backoff : Duration) : Retry := ⟨max maxAttempts 1, backoff⟩

/-- Whether an attempt is worth repeating. -/
def isRetryable : Attempt → Bool
  | .answered status => (Failure.ofStatus? status).any Failure.isTransient
  | .failed f => f.isTransient

/-- Whether attempt number `n`, counted from one, is followed by another. -/
def shouldRetry (r : Retry) (n : Nat) (a : Attempt) : Bool :=
  decide (n < r.maxAttempts) && isRetryable a

end Retry

/-! ## Fetching -/

/-- A body that could not be fetched, with the status of the answer or 0. -/
structure FetchError where
  status : Nat
  reason : String
deriving DecidableEq

namespace FetchError

def message (e : FetchError) : String :=
  "fetch failed with status " ++ showNat e.status ++ ": " ++ e.reason

/-- The source does not know the hash for the id. -/
def isInvalidHash (e : FetchError) : Bool := e.status == 422

end FetchError

/-- A load signal that could not be obtained. -/
structure LoadError where
  cause : String
deriving DecidableEq

def LoadError.message (e : LoadError) : String := "load signal unavailable: " ++ e.cause

end Harvest.Api
