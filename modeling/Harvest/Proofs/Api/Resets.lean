import Harvest.Proofs.Api.Attempts
import Harvest.Proofs.Calendar.Instants
import Harvest.Proofs.Text.Digits

/-! # The reset that headers give

The headers of an answer give the reset of the budget as a number of seconds from now. A value that
is no number counts as absent. A number may lead out of the calendar, and then it denotes no time:
such a number is not left out of the report as a value that cannot be read is. It breaks the call.
The class of the status has been reported by then, and stays so. What is lost is the budget, and
with it the status and the body that the caller was to get.

## Main definitions

* `Headers.resetSeconds?`: the number of seconds that is given.
* `Headers.reset?`: the time that the number denotes.
* `Headers.Overrun`: a number is given that denotes no time.
* `Client.Answered`: a call ends with an answer.

## Main statements

* `Headers.resetAt_eq`: what the headers come to.
* `telemetry_of_known`, `telemetry_of_lost`: what is reported of an answer.
* `Client.calls_of_headers`: what becomes of the calls that end with the headers.
-/

namespace Harvest.Api

open Harvest.Calendar Harvest.Text Harvest.Http Harvest.Admission

/-! ## The number and its time -/

namespace Headers

/-- The number of seconds until the reset, if a number is given. -/
def resetSeconds? (h : Headers) : Option Int :=
  (h.get? "x-esi-error-limit-reset").bind fun v => readInt64? (trim v.toList)

/-- The time of the reset, if a number is given that denotes one. -/
def reset? (h : Headers) (now : Instant) : Option Instant :=
  h.resetSeconds?.bind now.secondsLater?

/-- A number is given for the reset that leads out of the calendar. -/
def Overrun (h : Headers) (now : Instant) : Prop :=
  ∃ n, h.resetSeconds? = some n ∧
    ¬ (minSecond ≤ now.secondAfter n ∧ now.secondAfter n ≤ maxSecond)

variable {h : Headers} {now : Instant}

theorem overrun_iff : h.Overrun now ↔ h.resetSeconds?.isSome ∧ h.reset? now = none := by
  unfold Overrun reset?
  cases h.resetSeconds? with
  | none => simp
  | some n => simp [← Instant.secondsLater?_isSome]

/-- The headers come to the time that they denote, but for a number that denotes none. -/
theorem resetAt_eq : h.resetAt now =
    if h.resetSeconds?.isSome ∧ h.reset? now = none then .error ⟨⟩ else .ok (h.reset? now) := by
  unfold reset?
  rw [resetAt, ← resetSeconds?]
  cases h.resetSeconds? with
  | none => rfl
  | some n =>
    dsimp only
    rw [Instant.bind_add?_eq_secondsLater?, Option.bind_some]
    cases now.secondsLater? n <;> rfl

theorem resetAt_of_overrun (hover : h.Overrun now) : h.resetAt now = .error ⟨⟩ := by
  rw [resetAt_eq, if_pos (overrun_iff.mp hover)]

theorem resetAt_of_not_overrun (hover : ¬ h.Overrun now) : h.resetAt now = .ok (h.reset? now) := by
  rw [resetAt_eq, if_neg fun hnone => hover (overrun_iff.mpr hnone)]

/-- The budget that is left is a signed word, given or not. -/
theorem remaining_bounds (h : Headers) :
    -(twoTo 63 : Int) ≤ h.remaining ∧ h.remaining < twoTo 63 := by
  unfold remaining
  cases hv : (h.get? "x-esi-error-limit-remain").bind fun v => readInt64? (trim v.toList) with
  | none => decide
  | some n =>
    obtain ⟨v, -, hread⟩ := Option.bind_eq_some_iff.mp hv
    exact readInt64?_bounds hread

/-- Between the years 1970 and 9999 no number within 250000 years runs over. -/
theorem not_overrun_of_near (hfrom : 0 ≤ now.second) (hto : now.second ≤ 253402300799) {n : Int}
    (hn : h.resetSeconds? = some n) (hmin : -8334601228800 ≤ n) (hmax : n ≤ 7956864576000) :
    ¬ h.Overrun now := by
  rintro ⟨k, hk, hout⟩
  obtain rfl : n = k := Option.some.inj (hn.symm.trans hk)
  apply hout
  unfold minSecond maxSecond Instant.secondAfter
  split <;> omega

end Headers

/-! ## The report -/

/-- What is reported of an answer when its reset is known. -/
def report (status : Nat) (h : Headers) (reset : Option Instant) (now : Instant) :
    List Telemetry :=
  statusReport status now ++ [.budget h.remaining reset now]

variable {h : Headers} {now : Instant}

theorem telemetry_of_known {reset : Option Instant} (hreset : h.resetAt now = .ok reset)
    (status : Nat) : telemetry status h now = .ok (report status h reset now) := by
  rw [telemetry, hreset, report]

/-- The status of an answer is reported even if its reset is no time. -/
theorem telemetry_of_lost (hreset : h.resetAt now = .error ⟨⟩) (status : Nat) :
    telemetry status h now = .error ⟨statusReport status now⟩ := by
  rw [telemetry, hreset]

/-- To report a status tells nothing of the budget. -/
theorem budget_publish_statusReport (m : Monitor) (status : Nat) (now : Instant) :
    ((statusReport status now).foldl Telemetry.publish m).budget = m.budget := by
  unfold statusReport
  cases StatusClass.ofStatus? status <;> rfl

/-! ## Calls that end with an answer -/

namespace Client

variable {c : Config} {net : Network} {r : Request} {resp : Response} {n : Nat} {now : Instant}

/-- A call is made that ends with an answer at attempt number `n`. -/
def Answered (c : Config) (net : Network) (r : Request) (resp : Response) (n : Nat) : Prop :=
  1 ≤ c.retry.maxAttempts ∧ ∃ u, Url.parse? (join c.baseUrl r.path) = some u ∧
    IsLeast {i | c.retry.Ends (guarded u r net) i} n ∧ guarded u r net n = .ok resp

/-- A first answer that is not worth repeating ends the call. -/
theorem Answered.first {u : Url} (hmax : 1 ≤ c.retry.maxAttempts)
    (hu : Url.parse? (join c.baseUrl r.path) = some u) (hsendable : sendable u r = none)
    (hresp : net 1 = .ok resp) (hfinal : Retry.isRetryable (.answered resp.status) = false) :
    Answered c net r resp 1 := by
  have hguarded : guarded u r net 1 = .ok resp := by
    rw [guarded, hsendable]
    exact hresp
  refine ⟨hmax, u, hu, Retry.isLeast_ends (Nat.le_refl 1) (.inl ?_) hmax (by omega), hguarded⟩
  rw [hguarded]
  exact hfinal

theorem execute_of_answered (h : Answered c net r resp n) :
    execute c net now r = conclude r now (.answered resp n) := by
  obtain ⟨hmax, u, hu, hleast, hresp⟩ := h
  obtain ⟨m, last, hm, -, hending, -⟩ := attempts_spec (o := guarded u r net) hmax
  cases hm.unique hleast
  rw [execute_of_parse hu, hending, hresp]
  rfl

/-- Where the reset of the answer is known, the call gives the answer. -/
theorem execute_of_known {reset : Option Instant} (h : Answered c net r resp n)
    (hreset : resp.headers.resetAt now = .ok reset) :
    execute c net now r = .ok
      { body := resp.body
        info := { request := r, status := resp.status, headers := resp.headers, attempts := n
                  error := Failure.ofTerminalStatus? resp.status n }
        reported := report resp.status resp.headers reset now } := by
  rw [execute_of_answered h, conclude, telemetry_of_known hreset]

/-- Where the reset of the answer is no time, the call breaks down once the status is reported. -/
theorem execute_of_lost (h : Answered c net r resp n)
    (hreset : resp.headers.resetAt now = .error ⟨⟩) :
    execute c net now r = .error ⟨statusReport resp.status now⟩ := by
  rw [execute_of_answered h, conclude, telemetry_of_lost hreset]

/-- **A reset out of the calendar breaks the call.** Take any headers, and a clock between the years
1970 and 9999. The budget that they give is a signed word in any case. If the number given for the
reset leads out of the calendar, the class of the status is all that is reported, which leaves the
budget as it was, and each call that ends with such an answer breaks down when it has reported this:
the caller gets neither status nor body. Else the reset is the time that the number denotes, or none
where no number is given, it is reported with the budget after the class of the status, and each
call gives the body and the status of the answer. A number that leads out of the calendar lies
beyond 250000 years. -/
theorem calls_of_headers (h : Headers) (now : Instant) (hfrom : 0 ≤ now.second)
    (hto : now.second ≤ 253402300799) :
    (-(twoTo 63 : Int) ≤ h.remaining ∧ h.remaining < twoTo 63) ∧
    (h.Overrun now →
      h.resetAt now = .error ⟨⟩ ∧
      (∀ status, telemetry status h now = .error ⟨statusReport status now⟩ ∧
        ∀ m : Monitor, ((statusReport status now).foldl Telemetry.publish m).budget = m.budget) ∧
      ∀ c net r resp n, Answered c net r resp n → resp.headers = h →
        execute c net now r = .error ⟨statusReport resp.status now⟩) ∧
    (¬ h.Overrun now →
      h.resetAt now = .ok (h.reset? now) ∧
      (∀ status, telemetry status h now = .ok (report status h (h.reset? now) now)) ∧
      ∀ c net r resp n, Answered c net r resp n → resp.headers = h →
        ∃ call, execute c net now r = .ok call ∧ call.body = resp.body ∧
          call.info.status = resp.status ∧
          call.reported = report resp.status h (h.reset? now) now) ∧
    ∀ k, h.resetSeconds? = some k → -8334601228800 ≤ k → k ≤ 7956864576000 →
      ¬ h.Overrun now := by
  refine ⟨h.remaining_bounds, ?_, ?_, fun k => Headers.not_overrun_of_near hfrom hto⟩
  · intro hover
    have hreset := Headers.resetAt_of_overrun hover
    refine ⟨hreset, ?_, ?_⟩
    · intro status
      exact ⟨telemetry_of_lost hreset status, fun m => budget_publish_statusReport m status now⟩
    · rintro c net r resp n hanswered rfl
      exact execute_of_lost hanswered hreset
  · intro hover
    have hreset := Headers.resetAt_of_not_overrun hover
    refine ⟨hreset, telemetry_of_known hreset, ?_⟩
    rintro c net r resp n hanswered rfl
    exact ⟨_, execute_of_known hanswered hreset, rfl, rfl, rfl⟩

/-! ## A reset in three hundred thousand million years -/

namespace Distant

/-- The source gives more seconds until the reset than there are to come. -/
def answer : Response :=
  { status := 200
    headers := ⟨[("x-esi-error-limit-remain", "1"),
      ("x-esi-error-limit-reset", "9223372036854775807")]⟩
    body := [123, 125] }

def item : WorkItem := ⟨7, "a"⟩

def request : Request := .get (Path.killmail item.id item.hash)

theorem answered : Answered .standard (fun _ => .ok answer) request answer 1 :=
  .first (u := ⟨"https", some "esi.evetech.net"⟩) (by decide) (by decide +kernel)
    (by decide +kernel) rfl rfl

theorem overrun : answer.headers.Overrun .epoch := by
  have hread : answer.headers.resetSeconds? = some 9223372036854775807 := by decide +kernel
  exact ⟨_, hread, by decide⟩

/-- The answer is a killmail. Its status is reported, and the call does not come to it. -/
theorem call_breaks : answer.headers.Overrun .epoch ∧
    execute .standard (fun _ => .ok answer) .epoch request = .error ⟨[.status .ok .epoch]⟩ := by
  obtain ⟨-, hlost, -⟩ := calls_of_headers answer.headers .epoch (by decide) (by decide)
  obtain ⟨-, -, hcall⟩ := hlost overrun
  exact ⟨overrun, hcall _ _ _ _ _ answered rfl⟩

end Distant

end Client

end Harvest.Api
