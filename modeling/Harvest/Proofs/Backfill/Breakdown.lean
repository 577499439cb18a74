import Harvest.Crawler.Basic
import Harvest.Proofs.Api.Resets
import Harvest.Proofs.Backfill.Moves
import Harvest.Proofs.Import.Breakdown

/-! # A wait without an end

A walk waits until the queue is empty and nothing is in flight. A worker that has broken down leaves
the count of items in flight one too high, so once this has happened a walk that sees the count
waits until it is cancelled, however empty the queue and however idle the importer.

A worker breaks down where the time arithmetic on the headers of an answer leaves the calendar,
which an answer of the source can bring about.

## Main statements

* `Crawler.crash_of_lost`: which answers a worker breaks down at.
* `Stuck.step`: after a breakdown a wait goes on.
* `inFlight_of_breakdowns`: the count of items in flight, whatever becomes of the workers.
-/

namespace Harvest

open Harvest.Calendar Harvest.Api Harvest.Http

/-! ## Why a worker breaks down -/

/-- A worker whose fetch ends with an answer of which the reset is no time breaks down. -/
theorem Crawler.crash_of_lost {c : Crawler} {config : Import.Config} {pace : Import.Pace}
    {net : Network} {start : Instant} {w : WorkItem} {resp : Response} {n k : Nat}
    (h : Client.Answered c.settings.apiConfig net (.get (Path.killmail w.id w.hash)) resp n)
    (hreset : resp.headers.resetAt start = .error ⟨⟩) :
    (c.importScript config pace net start).workerEvent ⟨k, w, .fetch⟩ = .crash k := by
  have hdeliver : c.deliver net start w = ⟨0, none⟩ := by
    simp only [Crawler.deliver, Client.execute_of_lost h hreset]
  simp only [Import.Script.workerEvent, Import.Script.answer?, Crawler.importScript, hdeliver,
    Option.map_none]

end Harvest

namespace Harvest.Backfill

open Harvest.Calendar
open Harvest.Import (Mark Notice watched gather)

/-! ## The wait -/

/-- The walk waits for the queue to drain after a pass of a day. -/
def Stage.Awaits (day : DayReport) : Stage → Prop
  | .readLength d | .readInFlight d _ | .polling d => d = day
  | _ => False

/-- The walk waits, or is given up, and a worker has broken down. -/
structure Stuck (ic : Import.Config) (day : DayReport) (s : World) : Prop where
  tidy : s.importer.Tidy ic
  overcounted : ∃ k, 0 < k ∧ s.importer.Overcounted k
  stage : s.walk.stage.Awaits day ∨ ∃ e, s.walk.stage = .ended (.error e)

namespace Stuck

variable {ic : Import.Config} {c : Config} {r : Request} {day : DayReport} {s t : World}
  {e : Event} {j : List Mark}

theorem inFlight_pos (hs : Stuck ic day s) : 0 < s.importer.inFlight := by
  obtain ⟨k, hk, hcount⟩ := hs.overcounted
  rw [Import.World.Overcounted] at hcount
  omega

theorem walk {now : Instant} {a : Answer} {i : Import.World} {v : Walk} (hs : Stuck ic day s)
    (hc : c.tracked = true) (h : s.walk.Move c r now s.importer a i v) :
    i = s.importer ∧ (v.stage.Awaits day ∨ ∃ e, v.stage = .ended (.error e)) := by
  rcases hs.stage with hst | ⟨x, hst⟩
  · have hpos := hs.inFlight_pos
    cases h with
    | length h | busy h =>
      rw [h] at hst
      exact ⟨rfl, .inl hst⟩
    | lengthFails => exact ⟨rfl, .inr ⟨_, rfl⟩⟩
    | drained _ _ hzero => omega
    | emptied _ hc' =>
      rw [hc] at hc'
      cases hc'
    | _ h =>
      rw [h] at hst
      cases hst
  · exact absurd h (Walk.not_move_ended hst)

theorem wake {v : Walk} (hs : Stuck ic day s) (h : s.walk.Wake v) : v.stage.Awaits day := by
  rcases hs.stage with hst | ⟨x, hst⟩
  · cases h with
    | poll h =>
      rw [h] at hst
      exact hst
    | _ h =>
      rw [h] at hst
      cases hst
  · cases h with
    | _ h =>
      rw [hst] at h
      cases h

/-- A wait after a breakdown goes on unless it is given up. -/
theorem step (hs : Stuck ic day s) (hc : c.tracked = true)
    (step : (backfill ic c r).next? s e = some t) : Stuck ic day t := by
  cases World.step_of_next? step with
  | walk h =>
    obtain ⟨rfl, hstage⟩ := hs.walk hc h
    exact ⟨hs.tidy, hs.overcounted, hstage⟩
  | wake h => exact ⟨hs.tidy, hs.overcounted, .inl (hs.wake h)⟩
  | interrupt => exact ⟨hs.tidy, hs.overcounted, .inr ⟨_, rfl⟩⟩
  | cancel => exact ⟨hs.tidy, hs.overcounted, hs.stage⟩
  | importer h =>
    have hstep := Import.World.step_of_next? h
    obtain ⟨k, hk, hcount⟩ := hs.overcounted
    exact ⟨hs.tidy.step hstep, ⟨_, Nat.add_pos_left hk _, hcount.step hs.tidy hstep⟩, hs.stage⟩

end Stuck

/-- **The count of items in flight.** Take any run of an importer, whatever its workers end with.
Every item taken off the queue is being handled, or its worker has left or broken down. The count of
items in flight is the number of those being handled and of those whose worker has broken down, and
one more while the loop asks the queue. So apart from that it is right just where no worker has
broken down, and when the importer has stopped it is the number of breakdowns. From the first one on
a walk that sees the count and waits for the queue to drain goes on waiting, whatever happens,
unless it is given up. -/
theorem inFlight_of_breakdowns {ic : Import.Config}
    {ok : Import.World → Import.Event → Prop} {q : Queue} {a : Archive}
    {admission : Admission.State} {l : List Notice} {s : Import.World}
    (h : (watched ic).Run ok (.start q a admission) l s) :
    gather Notice.taken? l =
        s.handling + gather Notice.left? l + gather Notice.broke? l ∧
      s.inFlight = s.handling.card + (gather Notice.broke? l).card + s.loop.asking ∧
      (s.loop.asking = 0 → (s.inFlight = s.handling.card ↔ gather Notice.broke? l = 0)) ∧
      (s.loop = .stopped → s.handling = 0 ∧ s.inFlight = (gather Notice.broke? l).card) ∧
      (gather Notice.broke? l ≠ 0 → ∀ (c : Config) (r : Request) (v : Walk) (day : DayReport)
        (j : List Mark) (t : World), c.tracked = true → v.stage.Awaits day →
          (backfill ic c r).Run (fun _ _ => True) ⟨s, v⟩ j t →
            t.walk.stage.Awaits day ∨ ∃ e, t.walk.stage = .ended (.error e)) := by
  obtain ⟨htidy, haccount⟩ := Import.accounted_of_run h
  have hcount := Import.inFlight_of_run h
  refine ⟨haccount.taken, hcount, ?_, ?_, ?_⟩
  · intro hasking
    rw [hcount, hasking, ← Multiset.card_eq_zero]
    omega
  · intro hl
    have hnone := Import.handling_of_stopped h hl
    refine ⟨hnone, ?_⟩
    rw [hcount, hnone, hl, Multiset.card_zero, Nat.zero_add]
    rfl
  · intro hbroke c r v day j t hc hv hrun
    have hpos : 0 < (gather Notice.broke? l).card := Multiset.card_pos.mpr hbroke
    have hstuck : Stuck ic day ⟨s, v⟩ := ⟨htidy, ⟨_, hpos, haccount.count⟩, .inl hv⟩
    exact (hrun.invariant (fun _ step ih => ih.step hc step) hstuck).stage

/-! ## An importer that stops after a breakdown -/

namespace Lapse

open Harvest.Api Harvest.Http

def item : WorkItem := ⟨7, "a"⟩

/-- The source gives more seconds until the reset than there are to come. -/
def answer : Response :=
  { status := 200, headers := ⟨[("x-esi-error-limit-reset", "9223372036854775807")]⟩, body := [] }

def config : Import.Config := ⟨1, .drain, ⟨false, false⟩⟩

def script (start : Instant) : Import.Script :=
  Crawler.importScript ⟨.standard, .empty, .empty⟩ config ⟨50, 2000⟩ (fun _ => .ok answer) start

theorem breaks_down : (script .epoch).workerEvent ⟨0, item, .fetch⟩ = .crash 0 := by
  have hanswered : Client.Answered Settings.standard.apiConfig (fun _ => .ok answer)
      (.get (Path.killmail item.id item.hash)) answer 1 :=
    .first (u := ⟨"https", some "esi.evetech.net"⟩) (by decide) (by decide +kernel)
      (by decide +kernel) rfl rfl
  exact Crawler.crash_of_lost hanswered (by decide +kernel)

/-- The only worker breaks down at its fetch, and the importer is stopped. -/
def events : List Import.Event :=
  List.replicate 5 .loop ++ [.work 0 .done, (script .epoch).workerEvent ⟨0, item, .fetch⟩, .stop] ++
    List.replicate 2 .loop

theorem reaches_events :
    (watched config).reaches (fun _ _ => True)
      (.start (.table ⟨[⟨item.rowKey, 1⟩]⟩) (.memory ⟨[]⟩) .green) events (fun t =>
        decide (t.loop = .stopped) && decide (t.queue.items = []) && decide (t.inFlight = 1)) =
      true := by
  rw [events, breaks_down]
  decide +kernel

/-- Nothing is queued and nothing is handled, and a walk that waits for this waits for ever. -/
theorem waits_on :
    ∃ l t, (watched config).Run (fun _ _ => True)
        (.start (.table ⟨[⟨item.rowKey, 1⟩]⟩) (.memory ⟨[]⟩) .green) l t ∧
      t.loop = .stopped ∧ t.queue.items = [] ∧ t.handling = 0 ∧ t.inFlight = 1 ∧
      ∀ (r : Request) (v : Walk) (day : DayReport) (j : List Mark) (u : World),
        v.stage.Awaits day →
          (backfill config ⟨3, 3, 2, 250, true⟩ r).Run (fun _ _ => True) ⟨t, v⟩ j u →
            u.walk.stage.Awaits day ∨ ∃ e, u.walk.stage = .ended (.error e) := by
  obtain ⟨l, t, h, ht⟩ := Machine.exists_run_of_reaches reaches_events
  simp only [Bool.and_eq_true, decide_eq_true_eq] at ht
  obtain ⟨⟨hstopped, hqueue⟩, hcount⟩ := ht
  obtain ⟨-, -, -, hend, hstuck⟩ := inFlight_of_breakdowns h
  obtain ⟨hnone, hbroke⟩ := hend hstopped
  have hpos : gather Notice.broke? l ≠ 0 := by
    rw [← Multiset.card_pos, ← hbroke, hcount]
    exact Nat.zero_lt_one
  refine ⟨l, t, h, hstopped, hqueue, hnone, hcount, ?_⟩
  intro r v day j u hv hrun
  exact hstuck hpos _ r v day j u rfl hv hrun

end Lapse

end Harvest.Backfill
