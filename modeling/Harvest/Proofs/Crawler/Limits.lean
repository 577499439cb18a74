import Harvest.Crawler.Basic
import Harvest.Proofs.Api.Attempts
import Harvest.Proofs.Calendar.Instants
import Harvest.Proofs.Crawler.Loops

/-! # The limits of the settings of health

The settings of the health loops are whole words, and most of them are taken as they come. They mean
what they say within limits that no check knows: a number of seconds is turned into a signed word,
which may be negative or longer than any span; a time that long before the clock may lie before the
calendar; and a loop with an interval of zero breaks down before it acts.

## Main definitions

* `Crawler.Faithful`: the health loops do what the settings say.
* `HealthSettings.Bounded`: the settings are within the limits.

## Main statements

* `Settings.span?_eq`: what a number of seconds is taken for.
* `Health.tick_overflow_iff`: the clocks at which no tick can be completed.
* `Crawler.faithful_iff_of_valid`: settings that are checked and within the limits, and no others.
-/

namespace Harvest

open Harvest.Calendar Harvest.Admission Harvest.Api Harvest.Text

/-! ## Spans of seconds -/

/-- The greatest number of seconds in a span. -/
def longestSeconds : Nat := 9223372036854775

theorem ofSeconds?_eq (n : Int) : Span.ofSeconds? n =
    if n.natAbs ≤ longestSeconds then some (.ofSeconds n) else none := by
  have hlongest : Span.longest.natAbs = 9223372036854775807000000 := by decide
  unfold Span.ofSeconds? longestSeconds
  rw [hlongest, Span.ofSeconds]
  split
  · rw [if_pos (by omega)]
  · rw [if_neg (by omega)]

theorem twoTo_word : twoTo 64 = 18446744073709551616 := rfl

theorem twoTo_sign : twoTo 63 = 9223372036854775808 := rfl

/-- A word read as a signed one. -/
theorem bmod_word {n : Nat} (h : n < twoTo 64) : Int.bmod n (twoTo 64) =
    if n < twoTo 63 then (n : Int) else (n : Int) - twoTo 64 := by
  rw [twoTo_word] at *
  rw [twoTo_sign, Int.bmod_def]
  omega

theorem bmod_eq_self_iff {n : Nat} : Int.bmod n (twoTo 64) = n ↔ n < twoTo 63 := by
  rw [twoTo_word, twoTo_sign, Int.bmod_def]
  omega

namespace Settings

/-- A word of seconds is taken as it is, for no span, or for a span of less than nothing. -/
theorem span?_eq {n : Nat} (h : n < twoTo 64) : span? n =
    if n ≤ longestSeconds then some (.ofSeconds n)
    else if n < twoTo 64 - longestSeconds then none
    else some (.ofSeconds ((n : Int) - twoTo 64)) := by
  have hword := twoTo_word
  have hsign := twoTo_sign
  unfold span? longestSeconds
  rw [ofSeconds?_eq, bmod_word h, longestSeconds]
  by_cases hkept : n ≤ 9223372036854775
  · rw [if_pos hkept, if_pos (by omega : n < twoTo 63), if_pos (by omega)]
  · rw [if_neg hkept]
    by_cases hlost : n < twoTo 64 - 9223372036854775
    · rw [if_pos hlost]
      -- whether or not the sign is lost, the number is too great for a span
      split <;> rw [if_neg (by omega)]
    · rw [if_neg hlost, if_neg (by omega : ¬ n < twoTo 63), if_pos (by omega)]

/-- The numbers of seconds that are taken as they are. -/
theorem span?_eq_ofSeconds_iff {n : Nat} : span? n = some (.ofSeconds n) ↔ n ≤ longestSeconds := by
  have hsign := twoTo_sign
  unfold span?
  rw [ofSeconds?_eq]
  constructor
  · intro h
    split at h
    · rename_i hfits
      have hspan : Int.bmod n (twoTo 64) * 1000000000 = (n : Int) * 1000000000 := Option.some.inj h
      have hself : Int.bmod n (twoTo 64) = n := by omega
      rw [hself] at hfits
      exact hfits
    · cases h
  · intro h
    have hself : Int.bmod n (twoTo 64) = n := by
      rw [bmod_eq_self_iff]
      unfold longestSeconds at h
      omega
    rw [hself, if_pos (by omega)]

/-- A great number of seconds is taken for a span of less than nothing. -/
theorem le_of_span?_wrapped {n : Nat} {span : Span} (h : n < twoTo 64)
    (hwrapped : twoTo 64 - longestSeconds ≤ n) (hspan : span? n = some span) :
    span ≤ .ofSeconds (-1) := by
  have hword := twoTo_word
  have hlongest : longestSeconds = 9223372036854775 := rfl
  rw [span?_eq h, if_neg (by omega), if_neg (by omega)] at hspan
  obtain rfl := Option.some.inj hspan
  apply Int.mul_le_mul_of_nonneg_right _ (by decide)
  omega

end Settings

/-! ## Clocks -/

namespace Calendar.Instant

/-- The instant lies between the years 1970 and 9999. -/
def IsModern (t : Instant) : Prop := 0 ≤ t.second ∧ t.second ≤ 253402300799

instance (t : Instant) : Decidable t.IsModern :=
  inferInstanceAs (Decidable (0 ≤ t.second ∧ t.second ≤ 253402300799))

theorem sub?_ofSeconds (t : Instant) (n : Int) : t.sub? (.ofSeconds n) = t.secondsLater? (-n) := by
  have hspan : -(Span.ofSeconds n) = Span.ofSeconds (-n) := (Int.neg_mul n 1000000000).symm
  rw [sub?, hspan, add?, shift_ofSeconds]
  rfl

/-- No less than a second before now is an instant that is not later. -/
theorem neg_second_lt_since {t s : Instant} (h : s ≤ t) : .ofSeconds (-1) < t.since s := by
  have ht := t.nano_lt
  have hs := s.nano_lt
  rw [le_def] at h
  unfold since secondOfDay secondsPerDay
  show (-1000000000 : Int) < _
  unfold Span.ofSeconds
  -- a leap second counts against a span only over a midnight
  split
  · dsimp only
    omega
  · split
    · dsimp only
      omega
    · dsimp only
      omega

end Calendar.Instant

/-! ## Ticks -/

namespace Admission.Health

variable {h : Health} {c : TrackerConfig} {now : Instant}

theorem tick_eq_overflow_iff : (h.tick c now).2 = .overflow ↔ now.sub? c.retention = none := by
  unfold tick
  dsimp only
  cases now.sub? c.retention <;> simp

/-- A tick cannot be completed where the time to keep responses for leads before the calendar. -/
theorem tick_overflow_iff {n : Nat} (hretention : c.retention = .ofSeconds n)
    (hnow : now.IsModern) :
    (h.tick c now).2 = .overflow ↔ now.secondAfter (-n) < minSecond := by
  obtain ⟨hfrom, hto⟩ := hnow
  have hmax : now.secondAfter (-n) ≤ maxSecond := by
    unfold Instant.secondAfter maxSecond
    split <;> omega
  rw [tick_eq_overflow_iff, hretention, Instant.sub?_ofSeconds, ← Option.not_isSome_iff_eq_none,
    Instant.secondsLater?_isSome]
  omega

/-- Where a load signal is too old at no age at all, every tick leads to downtime. -/
theorem state_tick_of_negative_age (hage : c.loadMaxAge ≤ .ofSeconds (-1))
    (hseen : ∀ l, h.monitor.load = some l → l.observedAt ≤ now) :
    (h.tick c now).1.monitor.state = .downtime := by
  apply state_tick_of_not_up
  intro hup
  obtain ⟨l, hl, hfresh, -⟩ := hup.load
  have hsince := Instant.neg_second_lt_since (hseen l hl)
  exact absurd (Int.le_trans hfresh hage) (Int.not_le.mpr hsince)

end Admission.Health

/-! ## A source that does not answer -/

namespace Api.Client

/-- A source that never answers. -/
def silent : Network := fun _ => .error (.transport "no answer")

theorem attemptsFrom_silent (retry : Retry) {net : Network} {f : Failure}
    (hnet : ∀ i, net i = .error f) (n : Nat) (last : Option Nat) (more : Nat) :
    ∃ n', attemptsFrom retry net n last more = .failed f n' last := by
  induction more generalizing n with
  | zero => exact ⟨n, by rw [attemptsFrom_zero, hnet, endingOf]⟩
  | succ more ih =>
    rw [attemptsFrom_succ, hnet]
    split
    · exact ih (n + 1)
    · exact ⟨n, rfl⟩

/-- The failure of a call can be told of. -/
theorem execute_silent (c : Config) (now : Instant) (r : Request) :
    ∃ call, execute c silent now r = .ok call := by
  unfold execute
  split
  · exact ⟨_, rfl⟩
  · rename_i u _
    have hnet : ∃ f, ∀ i, guarded u r silent i = .error f := by
      unfold guarded
      cases sendable u r with
      | none => exact ⟨_, fun _ => rfl⟩
      | some f => exact ⟨f, fun _ => rfl⟩
    obtain ⟨f, hnet⟩ := hnet
    obtain ⟨n, hfailed⟩ := attemptsFrom_silent c.retry hnet 1 none (c.retry.maxAttempts - 1)
    rw [attempts, hfailed]
    exact ⟨_, rfl⟩

theorem loadSignal_silent (c : Config) (now : Instant) :
    ∃ told, loadSignal c silent now = .ok told := by
  obtain ⟨call, hcall⟩ := execute_silent c now (.get Path.status)
  unfold loadSignal serverStatus
  rw [hcall]
  exact ⟨_, rfl⟩

end Api.Client

/-! ## Settings within the limits -/

/-- The limits within which the settings of the health loops mean what they say. -/
structure HealthSettings.Bounded (h : HealthSettings) : Prop where
  loadMaxAge : h.loadMaxAgeSecs ≤ longestSeconds
  /-- From 1970 on, the first instant of the calendar is as long ago at least. -/
  retention : (h.retentionSecs : Int) ≤ -minSecond
  poll : 0 < h.pollIntervalMs
  statusPoll : 0 < h.statusPollIntervalMs

/-- Back to the first instant of the calendar is no too long a span. -/
theorem HealthSettings.Bounded.retention_le {h : HealthSettings} (hb : h.Bounded) :
    h.retentionSecs ≤ longestSeconds := by
  have hretention := hb.retention
  unfold minSecond at hretention
  unfold longestSeconds
  omega

/-- A number of seconds that is taken for no span. -/
def Settings.Lost (n : Nat) : Prop := longestSeconds < n ∧ n < twoTo 64 - longestSeconds

theorem Settings.span?_eq_none_iff {n : Nat} (h : n < twoTo 64) : span? n = none ↔ Lost n := by
  unfold Lost
  rw [span?_eq h]
  by_cases hkept : n ≤ longestSeconds
  · rw [if_pos hkept]
    simp [Nat.not_lt.mpr hkept]
  · rw [if_neg hkept]
    by_cases hlost : n < twoTo 64 - longestSeconds
    · rw [if_pos hlost]
      exact ⟨fun _ => ⟨Nat.lt_of_not_le hkept, hlost⟩, fun _ => rfl⟩
    · rw [if_neg hlost]
      simp [hlost]

namespace Settings

/-- Of the settings of health, the check depends on the texts of the window only. -/
theorem validate_health (s : Settings) {h : HealthSettings}
    (hstart : h.downtimeStart = s.health.downtimeStart)
    (hend : h.downtimeEnd = s.health.downtimeEnd) :
    { s with health := h }.validate = s.validate := by
  have hwindow : { s with health := h }.window = s.window := by
    unfold window
    rw [hstart, hend]
  unfold validate
  rw [hwindow]

/-- Settings that are checked have a window. -/
theorem window_of_valid {s : Settings} (h : s.validate = .ok ()) : ∃ w, s.window = .ok w := by
  unfold validate at h
  cases hwindow : s.window with
  | error e =>
    rw [hwindow] at h
    cases h
  | ok w => exact ⟨w, rfl⟩

end Settings

namespace Crawler

/-- The health loops do what the settings say: the tracker goes by the spans that are set, its ticks
are completed at every clock, and each loop acts and then rests for its interval, again and again
until it is told to stop. -/
structure Faithful (c : Crawler) : Prop where
  spans : ∃ t, c.tracker = .ok t ∧
    t.loadMaxAge = .ofSeconds c.settings.health.loadMaxAgeSecs ∧
    t.retention = .ofSeconds c.settings.health.retentionSecs
  ticks : ∀ t, c.tracker = .ok t → ∀ (h : Health) (now : Instant), now.IsModern →
    (h.tick t now).2 ≠ .overflow
  tracks : ∀ t, c.tracker = .ok t → ∀ script r net start limit now s,
    Service.Plan.isStopping s = false →
    ((c.plan t script r net start limit).instant now).IsModern →
    ((c.plan t script r net start limit).trackerTurn now s).rest
      = .sleep c.settings.health.pollIntervalMs
  /-- Other than by its interval, the poller breaks down by an answer that cannot be told of. -/
  polls : ∀ t, c.tracker = .ok t → ∀ script r net start limit now s,
    Service.Plan.isStopping s = false →
    (∃ told, Client.loadSignal c.settings.apiConfig net
      ((c.plan t script r net start limit).instant now) = .ok told) →
    ((c.plan t script r net start limit).pollerTurn now s).rest
      = .sleep c.settings.health.statusPollIntervalMs

variable {c : Crawler}

/-- Nothing but the spans can be missing from the settings of the tracker. -/
theorem tracker_of_valid (h : c.settings.validate = .ok ()) : ∃ policy, c.tracker =
    match Settings.span? c.settings.health.loadMaxAgeSecs,
      Settings.span? c.settings.health.retentionSecs with
    | some loadMaxAge, some retention => .ok { policy, loadMaxAge, retention }
    | _, _ => .error .outOfRange := by
  obtain ⟨w, hw⟩ := Settings.window_of_valid h
  refine ⟨⟨c.settings.health.minActiveCount, w⟩, ?_⟩
  unfold Crawler.tracker Settings.tracker
  generalize Settings.span? c.settings.health.loadMaxAgeSecs = loadMaxAge
  generalize Settings.span? c.settings.health.retentionSecs = retention
  rw [hw]
  cases loadMaxAge <;> cases retention <;> rfl

theorem spans_of_tracker (h : c.settings.validate = .ok ()) {t : TrackerConfig}
    (ht : c.tracker = .ok t) :
    Settings.span? c.settings.health.loadMaxAgeSecs = some t.loadMaxAge ∧
      Settings.span? c.settings.health.retentionSecs = some t.retention := by
  obtain ⟨policy, htracker⟩ := tracker_of_valid h
  rw [ht] at htracker
  split at htracker
  · rename_i hage hret
    obtain rfl := Except.ok.inj htracker
    exact ⟨hage, hret⟩
  · cases htracker

/-- A number of seconds that is lost leaves no tracker. -/
theorem tracker_eq_outOfRange_iff (h : c.settings.validate = .ok ()) :
    c.tracker = .error .outOfRange ↔
      Settings.span? c.settings.health.loadMaxAgeSecs = none ∨
        Settings.span? c.settings.health.retentionSecs = none := by
  obtain ⟨policy, htracker⟩ := tracker_of_valid h
  rw [htracker]
  cases Settings.span? c.settings.health.loadMaxAgeSecs <;>
    cases Settings.span? c.settings.health.retentionSecs <;> simp

theorem faithful_of_bounded (h : c.settings.validate = .ok ())
    (hbounded : c.settings.health.Bounded) : c.Faithful := by
  have hretention := hbounded.retention
  have hage := Settings.span?_eq_ofSeconds_iff.mpr hbounded.loadMaxAge
  have hret := Settings.span?_eq_ofSeconds_iff.mpr hbounded.retention_le
  have hticks : ∀ t, c.tracker = .ok t → ∀ (k : Health) (now : Instant), now.IsModern →
      (k.tick t now).2 ≠ .overflow := by
    intro t ht k now hnow hoverflow
    obtain ⟨-, hspan⟩ := spans_of_tracker h ht
    rw [hret] at hspan
    rw [Health.tick_overflow_iff (Option.some.inj hspan).symm hnow] at hoverflow
    obtain ⟨hfrom, -⟩ := hnow
    unfold Instant.secondAfter at hoverflow
    split at hoverflow <;> omega
  refine ⟨?_, hticks, ?_, ?_⟩
  · obtain ⟨policy, htracker⟩ := tracker_of_valid h
    rw [hage, hret] at htracker
    exact ⟨_, htracker, rfl, rfl⟩
  · intro t ht script r net start limit now s hgo hnow
    apply Service.Plan.rest_trackerTurn
    · exact Service.Plan.goesOn_eq_true_iff.mpr ⟨hgo, hbounded.poll⟩
    · exact hticks t ht _ _ hnow
  · intro t ht script r net start limit now s hgo htold
    apply Service.Plan.rest_pollerTurn
    · exact Service.Plan.goesOn_eq_true_iff.mpr ⟨hgo, hbounded.statusPoll⟩
    · exact htold

theorem bounded_of_faithful (h : c.settings.validate = .ok ()) (hfaithful : c.Faithful) :
    c.settings.health.Bounded := by
  obtain ⟨t, ht, hage, hret⟩ := hfaithful.spans
  obtain ⟨hspan, -⟩ := spans_of_tracker h ht
  have hgo : Service.Plan.isStopping (c.opening false [] .epoch) = false := rfl
  constructor
  · rw [hage] at hspan
    exact Settings.span?_eq_ofSeconds_iff.mp hspan
  · -- the earliest clock of these years bounds the retention
    have htick := hfaithful.ticks t ht .initial .epoch (by decide)
    rw [Ne, Health.tick_overflow_iff hret (by decide)] at htick
    have hepoch : Instant.epoch.secondAfter (-(c.settings.health.retentionSecs : Int))
        = 0 + -(c.settings.health.retentionSecs : Int) := by
      exact if_neg (by rintro ⟨hleap, -⟩; exact absurd hleap (by decide))
    omega
  · apply Nat.pos_of_ne_zero
    intro hzero
    have hmodern : ((Instant.epoch.add? (.ofMillis 0)).getD .epoch).IsModern := by decide
    have hrest := hfaithful.tracks t ht (c.serviceScript ⟨Client.silent, .epoch, none, 0⟩)
      noRequest Client.silent .epoch none 0 _ hgo hmodern
    rw [Service.Plan.trackerTurn_zero hzero] at hrest
    cases hrest
  · apply Nat.pos_of_ne_zero
    intro hzero
    have hrest := hfaithful.polls t ht (c.serviceScript ⟨Client.silent, .epoch, none, 0⟩)
      noRequest Client.silent .epoch none 0 _ hgo (Client.loadSignal_silent _ _)
    rw [Service.Plan.pollerTurn_zero hzero] at hrest
    cases hrest

/-- **Settings that are checked need not run.** Take any crawler whose settings pass the check, with
any words for the numbers of seconds. The check would let pass any other settings of health with the
same window. The health loops do what the settings say exactly if the settings are within the
limits. Else this is what becomes of them. A number of seconds that is taken for no span leaves no
tracker. If the age of load signals is taken for less than nothing, every tick leads to downtime,
however fresh the signal is. A tick at a clock between the years 1970 and 9999 cannot be completed
exactly if the time to keep responses, where it is taken as it is, leads before the calendar. With
no interval for the tracker the admission state never changes in any run, and with none for the
poller no run learns of the load of the source, so that the state of its start is followed by
downtime and nothing else. -/
theorem faithful_iff_of_valid (c : Crawler) (hvalid : c.settings.validate = .ok ())
    (hage : c.settings.health.loadMaxAgeSecs < twoTo 64)
    (hret : c.settings.health.retentionSecs < twoTo 64) :
    (∀ h : HealthSettings, h.downtimeStart = c.settings.health.downtimeStart →
      h.downtimeEnd = c.settings.health.downtimeEnd →
      { c.settings with health := h }.validate = .ok ()) ∧
    (c.Faithful ↔ c.settings.health.Bounded) ∧
    (c.tracker = .error .outOfRange ↔ Settings.Lost c.settings.health.loadMaxAgeSecs ∨
      Settings.Lost c.settings.health.retentionSecs) ∧
    (∀ t, c.tracker = .ok t → ∀ (h : Health) (now : Instant),
      (twoTo 64 - longestSeconds ≤ c.settings.health.loadMaxAgeSecs →
        (∀ l, h.monitor.load = some l → l.observedAt ≤ now) →
        (h.tick t now).1.monitor.state = .downtime) ∧
      (c.settings.health.retentionSecs ≤ longestSeconds → now.IsModern →
        ((h.tick t now).2 = .overflow ↔
          now.secondAfter (-c.settings.health.retentionSecs) < minSecond))) ∧
    ∀ t script r net start limit agents isEnd s turns,
      (c.settings.health.pollIntervalMs = 0 →
        ((c.plan t script r net start limit).run agents isEnd s turns).health.monitor.state
          = s.health.monitor.state) ∧
      (c.settings.health.statusPollIntervalMs = 0 → s.health.monitor.load = none →
        Service.Plan.Unseen s.health.monitor.state
          ((c.plan t script r net start limit).run agents isEnd s turns)) := by
  refine ⟨?_, ⟨bounded_of_faithful hvalid, faithful_of_bounded hvalid⟩, ?_, ?_, ?_⟩
  · intro h hstart hend
    rw [Settings.validate_health c.settings hstart hend]
    exact hvalid
  · rw [tracker_eq_outOfRange_iff hvalid, Settings.span?_eq_none_iff hage,
      Settings.span?_eq_none_iff hret]
  · intro t ht h now
    obtain ⟨hagespan, hretspan⟩ := spans_of_tracker hvalid ht
    constructor
    · intro hwrapped hseen
      apply Health.state_tick_of_negative_age _ hseen
      exact Settings.le_of_span?_wrapped hage hwrapped hagespan
    · intro hkept hnow
      rw [Settings.span?_eq_ofSeconds_iff.mpr hkept] at hretspan
      exact Health.tick_overflow_iff (Option.some.inj hretspan).symm hnow
  · intro t script r net start limit agents isEnd s turns
    constructor
    · intro hzero
      exact Service.Plan.state_run_of_no_tracker hzero agents isEnd s turns
    · intro hzero hload
      exact Service.Plan.unseen_run_of_no_poller hzero agents isEnd s turns hload

/-! ## The greatest age that can be set -/

namespace Ageless

/-- A load signal is never to be too old. -/
def settings : Settings :=
  { Settings.standard with
    health := { HealthSettings.standard with loadMaxAgeSecs := 18446744073709551615 } }

def crawler : Crawler := ⟨settings, .empty, .empty⟩

theorem valid : settings.validate = .ok () := rfl

/-- The age is taken for less than nothing. -/
theorem exists_tracker : ∃ t, crawler.tracker = .ok t ∧ t.loadMaxAge = .ofSeconds (-1) := by
  have hage : Settings.span? crawler.settings.health.loadMaxAgeSecs = some (.ofSeconds (-1)) := by
    decide +kernel
  have hret : Settings.span? crawler.settings.health.retentionSecs = some (.ofSeconds 360) := by
    decide +kernel
  obtain ⟨policy, htracker⟩ := tracker_of_valid (c := crawler) valid
  rw [hage, hret] at htracker
  exact ⟨_, htracker, rfl⟩

/-- The source has just told of a thousand players. -/
def health (now : Instant) : Health :=
  { Health.initial with monitor := Monitor.initial.publishLoad ⟨1000, false, now⟩ }

/-- The greatest age that can be set passes the check, and a signal is too old for it at once. -/
theorem fresh_signal_too_old : settings.validate = .ok () ∧
    settings.health.loadMaxAgeSecs < twoTo 64 ∧ settings.health.retentionSecs < twoTo 64 ∧
    ¬ crawler.Faithful ∧ ∃ t, crawler.tracker = .ok t ∧ t.loadMaxAge = .ofSeconds (-1) ∧
      ∀ now, ((health now).tick t now).1.monitor.state = .downtime := by
  have hage : settings.health.loadMaxAgeSecs < twoTo 64 := by decide
  have hret : settings.health.retentionSecs < twoTo 64 := by decide
  obtain ⟨-, hfaithful, -, hticks, -⟩ := faithful_iff_of_valid crawler valid hage hret
  refine ⟨valid, hage, hret, ?_, ?_⟩
  · intro h
    exact absurd (hfaithful.mp h).loadMaxAge (by decide)
  · obtain ⟨t, ht, hspan⟩ := exists_tracker
    refine ⟨t, ht, hspan, ?_⟩
    intro now
    apply (hticks t ht (health now) now).1 (by decide)
    intro l hl
    obtain rfl := Option.some.inj hl
    exact Instant.le_refl now

end Ageless

end Crawler

end Harvest
