import Harvest.Crawler.Service
import Harvest.Proofs.Admission.Targets
import Harvest.Proofs.Api.Resets

/-! # The health loops of a run

The tracker alone publishes admission states, and the poller alone publishes load signals; whoever
else acts in a run leaves both as they are. So a loop that breaks down at once, as its interval is
zero, leaves what it should keep up to date as it is for the whole run: without the tracker no
state follows the opening one, and without the poller a run that opens with no load signal knows of
no other state than downtime from its first tick on. A call that breaks down in the middle of a run
has told the service what it reported before.

## Main definitions

* `Service.sees`: what a service knows of the source.
* `Service.Plan.Unseen`: no load signal has come in.

## Main statements

* `Simulation.run_invariant`: what every turn preserves holds throughout a run.
* `Service.Plan.state_run_of_no_tracker`, `Service.Plan.unseen_run_of_no_poller`: the runs without
  one of the loops.
* `Service.Plan.pollerTurn_of_lost`, `Service.Plan.monitor_of_lost`: what a call has reported that
  breaks down.
-/

namespace Harvest

open Harvest.Calendar Harvest.Admission Harvest.Api

/-! ## Invariants of a simulation -/

namespace Simulation

variable {σ ι : Type} [DecidableEq ι] {act : Nat → ι → σ → Turn σ ι} {P : σ → Prop}

theorem state_follow (s : Simulation σ ι) (a : ι) (others : List ι) (t : Turn σ ι) :
    (s.follow a others t).state = t.state := by
  unfold follow
  cases t.rest <;> rfl

/-- A passing of time leaves the state as it is, and a turn is one of an agent. -/
theorem next_invariant (hact : ∀ now a s, P s → P (act now a s).state) {s t : Simulation σ ι}
    (h : s.next? act = some t) (hs : P s.state) : P t.state := by
  unfold next? at h
  split at h
  · obtain rfl := Option.some.inj h
    rw [state_follow]
    exact hact _ _ _ hs
  · unfold pass? at h
    split at h
    · obtain rfl := Option.some.inj h
      exact hs
    · cases h

/-- What every turn of every agent preserves holds at the end of a run if it holds at its start. -/
theorem run_invariant (hact : ∀ now a s, P s → P (act now a s).state) (isEnd : σ → Bool)
    (turns : Nat) (s : Simulation σ ι) (hs : P s.state) : P (s.run act isEnd turns).state := by
  induction turns generalizing s with
  | zero => exact hs
  | succ turns ih =>
    unfold run
    split
    · exact hs
    · split
      · rename_i t ht
        exact ih t (next_invariant hact ht hs)
      · exact hs

end Simulation

/-! ## What turns leave alone -/

namespace Api.Telemetry

/-- Reports of calls tell nothing of the load, and publish no state. -/
theorem publish_frame (m : Monitor) (reported : List Telemetry) :
    (reported.foldl publish m).state = m.state ∧ (reported.foldl publish m).load = m.load := by
  induction reported generalizing m with
  | nil => exact ⟨rfl, rfl⟩
  | cons t reported ih =>
    obtain ⟨hstate, hload⟩ := ih (publish m t)
    rw [List.foldl_cons, hstate, hload]
    cases t <;> exact ⟨rfl, rfl⟩

end Api.Telemetry

namespace Service

/-- What a service knows of the source: the admission state and the load signal. -/
def sees (s : Service) : State × Option Load := (s.health.monitor.state, s.health.monitor.load)

variable {s t : Service}

theorem state_of_sees (h : t.sees = s.sees) :
    t.health.monitor.state = s.health.monitor.state := (Prod.mk.inj h).1

theorem load_of_sees (h : t.sees = s.sees) :
    t.health.monitor.load = s.health.monitor.load := (Prod.mk.inj h).2

namespace Plan

variable {p : Plan}

theorem sees_publish (s : Service) (reported : List Telemetry) :
    (publish s reported).sees = s.sees := by
  obtain ⟨hstate, hload⟩ := Telemetry.publish_frame s.health.monitor reported
  exact Prod.ext hstate hload

/-- The importer and the backfill do not change what the service knows of the source. -/
theorem sees_inner (now : Nat) (a : Backfill.Agent) (s : Service) :
    (p.act now (.inner a) s).state.sees = s.sees := by
  show (p.innerTurn now a s).state.sees = s.sees
  exact sees_publish _ _

theorem sees_closer (now : Nat) (s : Service) : (p.act now .closer s).state.sees = s.sees := by
  unfold act
  cases p.limit with
  | none => rfl
  | some limit =>
    dsimp only
    split <;> rfl

/-- A turn of the tracker ticks, or it leaves the service as it is. -/
theorem health_trackerTurn (now : Nat) (s : Service) :
    (p.trackerTurn now s).state.health
      = if goesOn s p.trackerInterval then (s.health.tick p.tracker (p.instant now)).1
        else s.health := by
  unfold trackerTurn
  split
  · dsimp only
    split <;> rfl
  · rfl

/-- A turn of the poller may publish a load signal, but no state. -/
theorem state_pollerTurn (now : Nat) (s : Service) :
    (p.pollerTurn now s).state.health.monitor.state = s.health.monitor.state := by
  have hstate : ∀ reported, (publish s reported).health.monitor.state = s.health.monitor.state :=
    fun reported => state_of_sees (sees_publish s reported)
  unfold pollerTurn
  split
  · split
    · exact hstate _
    · rename_i result reported _
      cases result <;> exact hstate reported
  · rfl

/-! ## Loops without an interval -/

theorem goesOn_eq_true_iff {s : Service} {interval : Nat} :
    goesOn s interval = true ↔ isStopping s = false ∧ 0 < interval := by
  simp [goesOn]

theorem not_goesOn_zero (s : Service) : ¬ goesOn s 0 = true := fun h =>
  absurd (goesOn_eq_true_iff.mp h).2 (Nat.lt_irrefl 0)

/-- A tracker with no interval breaks down at its first turn. -/
theorem trackerTurn_zero (h : p.trackerInterval = 0) (now : Nat) (s : Service) :
    p.trackerTurn now s = ⟨s, .wait, []⟩ := by
  unfold trackerTurn
  rw [h, if_neg (not_goesOn_zero s)]

/-- A poller with no interval breaks down at its first turn. -/
theorem pollerTurn_zero (h : p.pollerInterval = 0) (now : Nat) (s : Service) :
    p.pollerTurn now s = ⟨s, .wait, []⟩ := by
  unfold pollerTurn
  rw [h, if_neg (not_goesOn_zero s)]

/-- Without a tracker no turn changes the admission state. -/
theorem state_act_of_no_tracker (h : p.trackerInterval = 0) (now : Nat) (a : Agent)
    (s : Service) : (p.act now a s).state.health.monitor.state = s.health.monitor.state := by
  cases a with
  | tracker =>
    show (p.trackerTurn now s).state.health.monitor.state = s.health.monitor.state
    rw [trackerTurn_zero h]
  | poller =>
    show (p.pollerTurn now s).state.health.monitor.state = s.health.monitor.state
    exact state_pollerTurn now s
  | inner a => exact state_of_sees (sees_inner now a s)
  | closer => exact state_of_sees (sees_closer now s)

/-- With no interval for the tracker, the admission state at the end of a run is that of its
start, whatever the source tells meanwhile. -/
theorem state_run_of_no_tracker (h : p.trackerInterval = 0) (agents : List Agent)
    (isEnd : Service → Bool) (s : Service) (turns : Nat) :
    (p.run agents isEnd s turns).health.monitor.state = s.health.monitor.state :=
  Simulation.run_invariant (P := fun t => t.health.monitor.state = s.health.monitor.state)
    (fun now a t ht => (state_act_of_no_tracker h now a t).trans ht) isEnd turns _ rfl

/-- No load signal has come in since a service opened in a state: it may still be in that state, and
else it is in downtime. -/
structure Unseen (opening : State) (s : Service) : Prop where
  load : s.health.monitor.load = none
  state : s.health.monitor.state = opening ∨ s.health.monitor.state = .downtime

/-- A tick without a load signal leads to downtime. -/
theorem state_tick_of_no_load {h : Health} {c : TrackerConfig} {now : Instant}
    (hload : h.monitor.load = none) : (h.tick c now).1.monitor.state = .downtime := by
  apply Health.state_tick_of_not_up
  intro hup
  obtain ⟨l, hl, -⟩ := hup.load
  rw [hload] at hl
  cases hl

theorem Unseen.of_sees {opening : State} {s t : Service} (h : Unseen opening s)
    (hsees : t.sees = s.sees) : Unseen opening t := by
  constructor
  · rw [load_of_sees hsees]
    exact h.load
  · rw [state_of_sees hsees]
    exact h.state

/-- Without a poller no turn brings a load signal. -/
theorem Unseen.act (h : p.pollerInterval = 0) {opening : State} (now : Nat) (a : Agent)
    {s : Service} (hs : Unseen opening s) : Unseen opening (p.act now a s).state := by
  cases a with
  | tracker =>
    have hhealth := p.health_trackerTurn now s
    by_cases hgo : goesOn s p.trackerInterval = true
    · rw [if_pos hgo] at hhealth
      constructor
      · show (p.trackerTurn now s).state.health.monitor.load = none
        rw [hhealth, Health.load_tick]
        exact hs.load
      · right
        show (p.trackerTurn now s).state.health.monitor.state = .downtime
        rw [hhealth]
        exact state_tick_of_no_load hs.load
    · rw [if_neg hgo] at hhealth
      exact hs.of_sees (congrArg (fun h : Health => (h.monitor.state, h.monitor.load)) hhealth)
  | poller =>
    show Unseen opening (p.pollerTurn now s).state
    rw [pollerTurn_zero h]
    exact hs
  | inner a => exact hs.of_sees (sees_inner now a s)
  | closer => exact hs.of_sees (sees_closer now s)

/-- With no interval for the poller, a run that opens without a load signal ends without one, and in
the state of its start or in downtime, whatever the source would have told. -/
theorem unseen_run_of_no_poller (h : p.pollerInterval = 0) (agents : List Agent)
    (isEnd : Service → Bool) (s : Service) (turns : Nat) (hload : s.health.monitor.load = none) :
    Unseen s.health.monitor.state (p.run agents isEnd s turns) :=
  Simulation.run_invariant (P := Unseen s.health.monitor.state)
    (fun now a _ ht => ht.act h now a) isEnd turns _ ⟨hload, .inl rfl⟩

/-! ## Loops that go on -/

/-- A turn of a tracker whose tick is done ends in a rest of its interval. -/
theorem rest_trackerTurn {now : Nat} {s : Service} (hgo : goesOn s p.trackerInterval = true)
    (htick : (s.health.tick p.tracker (p.instant now)).2 ≠ .overflow) :
    (p.trackerTurn now s).rest = .sleep p.trackerInterval := by
  unfold trackerTurn
  rw [if_pos hgo]
  dsimp only
  cases hresult : (s.health.tick p.tracker (p.instant now)).2 with
  | done t => rfl
  | overflow => exact absurd hresult htick

/-- A turn of the poller ends in a rest of its interval, if the answer of the source can be told
of. -/
theorem rest_pollerTurn {now : Nat} {s : Service} (hgo : goesOn s p.pollerInterval = true)
    (htold : ∃ told, Client.loadSignal p.api p.network (p.instant now) = .ok told) :
    (p.pollerTurn now s).rest = .sleep p.pollerInterval := by
  obtain ⟨⟨result, reported⟩, htold⟩ := htold
  unfold pollerTurn
  rw [if_pos hgo, htold]

/-! ## Calls that break down -/

section broken

variable {now : Nat} {s : Service} {resp : Api.Response} {i : Nat}

/-- A poller whose call breaks down has reported the status of the answer, and does not go on. -/
theorem pollerTurn_of_lost (hgo : goesOn s p.pollerInterval = true)
    (h : Client.Answered p.api p.network (.get Path.status) resp i)
    (hreset : resp.headers.resetAt (p.instant now) = .error ⟨⟩) :
    p.pollerTurn now s
      = ⟨publish s (statusReport resp.status (p.instant now)), .wait, []⟩ := by
  have hload : Client.loadSignal p.api p.network (p.instant now)
      = .error ⟨statusReport resp.status (p.instant now)⟩ := by
    rw [Client.loadSignal, Client.serverStatus, Client.execute_of_lost h hreset]
  unfold pollerTurn
  rw [if_pos hgo, hload]

/-- In the turn in which the fetch of a worker breaks down, the status of the answer is reported and
nothing else. -/
theorem monitor_of_lost {n k : Nat} {w : WorkItem}
    (hworker : s.scene.crew.world.worker? n = some ⟨k, w, .fetch⟩)
    (h : Client.Answered p.api p.network (.get (Path.killmail w.id w.hash)) resp i)
    (hreset : resp.headers.resetAt (p.instant now) = .error ⟨⟩) :
    (p.act now (.inner (.crew (.worker n))) s).state.health.monitor
      = (statusReport resp.status (p.instant now)).foldl Telemetry.publish s.health.monitor := by
  have hreported : p.reportedBy now s n = statusReport resp.status (p.instant now) := by
    rw [reportedBy, hworker]
    dsimp only
    rw [Client.fetchKillmail, Client.execute_of_lost h hreset]
  show (p.reportedBy now s n).foldl Telemetry.publish s.health.monitor = _
  rw [hreported]

end broken

end Plan

end Service

end Harvest
