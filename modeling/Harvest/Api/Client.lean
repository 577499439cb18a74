import Harvest.Api.Failure
import Harvest.Api.Headers
import Harvest.Api.Request
import Harvest.Http.Url

/-! # Calls to the source

A call binds a request to the base address and attempts it until an answer is final or the
attempts are used up. The answer that ends a call is reported; the caller gets its body with
everything else that is known of the call.

The network is a function from the number of the attempt to what it came to, so that a call is a
function of what the network does.

## Main definitions

* `Network`: what each attempt comes to.
* `Client.attempts`: the attempts of a call up to its ending.
* `Client.execute`: a whole call.
-/

namespace Harvest.Api

open Harvest.Calendar Harvest.Text Harvest.Http

/-! ## The network -/

/-- An answer, read to its end. -/
structure Response where
  status : Nat
  headers : Headers
  body : List UInt8
deriving DecidableEq

/-- What each attempt of a call comes to, the first one being number 1. -/
abbrev Network := Nat → Except Failure Response

/-- A network that cannot be reached. -/
def Network.unreachable : Network := fun _ => .error (.transport "no connection")

/-- What an attempt came to, for the retry policy. -/
def attemptOf : Except Failure Response → Attempt
  | .ok r => .answered r.status
  | .error f => .failed f

/-! ## Calls -/

/-- The settings of a client. -/
structure Config where
  baseUrl : String
  userAgent : String
  /-- The limit of a single attempt. -/
  timeout : Duration
  retry : Retry
deriving DecidableEq

def Config.standard : Config :=
  { baseUrl := "https://esi.evetech.net"
    userAgent := "killfeed/0.1 (+https://github.com/l3p/killfeed)"
    timeout := .ofSeconds 3
    retry := .standard }

/-- How the attempts of a call ended. -/
inductive Ending where
  | answered (r : Response) (attempts : Nat)
  /-- No answer; the status is that of the last answer before. -/
  | failed (f : Failure) (attempts : Nat) (lastStatus : Option Nat)
deriving DecidableEq

/-- How the attempts end with attempt number `n`, by what it came to. -/
def endingOf (n : Nat) (last : Option Nat) : Except Failure Response → Ending
  | .ok resp => .answered resp n
  | .error f => .failed f n last

/-- The status that is remembered after an attempt: that of the last answer. -/
def remembered (last : Option Nat) : Except Failure Response → Option Nat
  | .ok resp => some resp.status
  | .error _ => last

/-- Everything about a call but its body. The status is 0 when there was no answer. -/
structure Meta where
  request : Request
  status : Nat
  headers : Headers
  attempts : Nat
  error : Option Failure
deriving DecidableEq

namespace Meta

def isOk (m : Meta) : Bool := m.error.isNone

def isNotModified (m : Meta) : Bool := m.status == 304

/-- The value of a header by its name in any case. -/
def header? (m : Meta) (name : String) : Option String :=
  m.headers.get? (String.ofList (name.toList.map Char.toLower))

end Meta

/-- How long a document may be kept, and its version. -/
structure CacheDirectives where
  etag : Option String
  expires : Instant
deriving DecidableEq

def Meta.cacheDirectives (m : Meta) (now : Instant) : Except OutOfRange CacheDirectives :=
  match m.headers.expires now with
  | .ok expires => .ok { etag := m.headers.etag, expires }
  | .error e => .error e

/-- The result of a call: its body, what is known of it, and what was reported. -/
structure Call where
  body : List UInt8
  info : Meta
  reported : List Telemetry
deriving DecidableEq

namespace Client

/-- Attempts a call, `more` times after attempt number `n`. To make an attempt may have an effect. -/
def askFrom {m : Type → Type} [Monad m] (retry : Retry) (ask : Nat → m (Except Failure Response))
    (n : Nat) (last : Option Nat) : Nat → m Ending
  | 0 => do return endingOf n last (← ask n)
  | more + 1 => do
    let outcome ← ask n
    if retry.shouldRetry n (attemptOf outcome) then
      askFrom retry ask (n + 1) (remembered last outcome) more
    else return endingOf n last outcome

/-- The attempts from number `n` on a network, which is asked without an effect. -/
def attemptsFrom (retry : Retry) (net : Network) (n : Nat) (last : Option Nat) (more : Nat) :
    Ending :=
  askFrom (m := Id) retry net n last more

/-- The attempts of a call. -/
def attempts (retry : Retry) (net : Network) : Ending :=
  attemptsFrom retry net 1 none (retry.maxAttempts - 1)

/-- What a call without a final answer came to: its status and error. -/
def exhausted (f : Failure) (attempts : Nat) (last : Option Nat) : Nat × Failure :=
  if f.isTransient then
    let status := last.getD 500
    (status, .maxAttemptsExceeded attempts status)
  else (0, f)

/-- The result of a call from the way its attempts ended. A call that breaks down over the report of
its answer has neither body nor status. -/
def conclude (r : Request) (now : Instant) : Ending → Except Broken Call
  | .answered resp n =>
    match telemetry resp.status resp.headers now with
    | .error e => .error e
    | .ok reported =>
      .ok { body := resp.body
            info := { request := r, status := resp.status, headers := resp.headers, attempts := n
                      error := Failure.ofTerminalStatus? resp.status n }
            reported }
  | .failed f n last =>
    let (status, error) := exhausted f n last
    .ok { body := []
          info := { request := r, status, headers := .empty, attempts := n, error := some error }
          reported := [] }

/-- What a request comes to before anything is sent: it may not be one that can be sent. -/
def sendable (u : Url) (r : Request) : Option Failure :=
  if !u.isWeb then some (.invalidRequest "scheme not allowed")
  else if !r.etag.all isHeaderValue then some (.invalidRequest "invalid header value")
  else none

/-- The network as a request sees it: one that cannot be sent fails at once. -/
def guarded (u : Url) (r : Request) (net : Network) : Network :=
  match sendable u r with
  | some f => fun _ => .error f
  | none => net

/-- A call. -/
def execute (c : Config) (net : Network) (now : Instant) (r : Request) : Except Broken Call :=
  match Url.parse? (join c.baseUrl r.path) with
  | none =>
    .ok { body := []
          info := { request := r, status := 0, headers := .empty, attempts := 0
                    error := some (.invalidRequest (join c.baseUrl r.path ++ ": no address")) }
          reported := [] }
  | some u => conclude r now (attempts c.retry (guarded u r net))

/-- Whether a client can be made with the settings. -/
def build? (c : Config) : Except Failure Config :=
  if isHeaderValue c.userAgent then .ok c else .error (.build "invalid user agent")

end Client

end Harvest.Api
