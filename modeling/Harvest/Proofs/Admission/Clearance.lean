import Harvest.Admission.Lobby
import Harvest.Proofs.Admission.Openings
import Harvest.Proofs.Run

/-! # Waiters pass at the first opening

A waiter in a lobby looks at the state, waits for a publication or for some time, and looks again.
However its looks fall together with publications, and whatever other waiters do, it passes at the
first instant from its arrival on at which the state is not blocking, or after the penalty if the
state is yellow then.

The key ideas are these.

* A waiter that holds has seen the last publication, or else can act. Time passes only when nobody
  can act, so no opening is slept through.
* A waiter that is about to look knows nothing but that the state was blocking up to now.
* Each waiter acts at most three times at one instant, since a look at a blocking state is followed
  by some time of waiting. So time cannot be held up.

States published at one instant are published in one event, of which the last counts, and nobody
arrives at such an instant.

## Main definitions

* `lobby`: the lobby as a machine, whose journal lists the publications.
* `Stands`: what is known of a waiter at its place.

## Main statements

* `attended_of_run`: it is kept by every run.
* `Lobby.exists_run_to`, `Lobby.wellFounded_act`: time can always pass.
* `passes_at_first_opening`: when waiters pass.
-/

namespace Harvest.Admission

/-! ## Publications -/

namespace Monitor

variable {m : Monitor} {c : Change}

theorem change_of_some {s : State} (h : c.published? = some s) : m.change c = m.setState s := by
  cases c with
  | force s' =>
    cases h
    rfl
  | outcome t =>
    simp only [Change.published?] at h
    split at h
    · rename_i hchange
      cases h
      exact if_pos hchange
    · cases h

theorem change_of_none (h : c.published? = none) : m.change c = m := by
  cases c with
  | force s' => cases h
  | outcome t =>
    simp only [Change.published?] at h
    split at h
    · cases h
    · rename_i hchange
      exact if_neg hchange

/-- Of several publications the last counts. -/
theorem state_foldl_change (m : Monitor) (cs : List Change) (time : Nat) :
    (cs.foldl change m).state
      = Timeline.lastOf m.state ((cs.filterMap Change.published?).map (time, ·)) := by
  induction cs generalizing m with
  | nil => rfl
  | cons c cs ih =>
    rw [List.foldl_cons, ih]
    cases hc : c.published? with
    | none => rw [List.filterMap_cons_none hc, change_of_none hc]
    | some s =>
      rw [List.filterMap_cons_some hc, change_of_some hc]
      exact (Timeline.lastOf_append m.state [(time, s)] _).symm

theorem publications_foldl_change (m : Monitor) (cs : List Change) :
    (cs.foldl change m).publications
      = m.publications + (cs.filterMap Change.published?).length := by
  induction cs generalizing m with
  | nil => rfl
  | cons c cs ih =>
    rw [List.foldl_cons, ih]
    cases hc : c.published? with
    | none => rw [List.filterMap_cons_none hc, change_of_none hc]
    | some s =>
      rw [List.filterMap_cons_some hc, change_of_some hc, List.length_cons]
      show m.publications + 1 + _ = _
      omega

end Monitor

/-! ## The machine -/

namespace Lobby

/-- What the journal says of an event: the states that are published at a time. -/
structure Mark where
  time : Nat
  states : List State

def mark? (l : Lobby) : Event → Option Mark
  | .publish cs => some ⟨l.now, cs.filterMap Change.published?⟩
  | .arrive | .act _ | .pass => none

end Lobby

/-- The lobby as a machine. -/
def lobby (g : Gate) : Machine Lobby Lobby.Event Lobby.Mark where
  next? := Lobby.next? g
  mark? := Lobby.mark?

open Lobby (Mark)

/-- The instants at which states are published. -/
def instants (j : List Mark) : List Nat := j.map Mark.time

/-- The states over time that a journal tells of. -/
def timeline (s : State) (j : List Mark) : Timeline :=
  ⟨s, j.flatMap fun m => m.states.map (m.time, ·)⟩

theorem instants_append (j k : List Mark) : instants (j ++ k) = instants j ++ instants k :=
  List.map_append

theorem mem_instants_of_change {s : State} {j : List Mark} {c : Nat × State}
    (h : c ∈ (timeline s j).changes) : c.1 ∈ instants j := by
  obtain ⟨m, hm, hc⟩ := List.mem_flatMap.mp h
  obtain ⟨s', -, rfl⟩ := List.mem_map.mp hc
  exact List.mem_map_of_mem hm

theorem timeline_append (s : State) (j : List Mark) (m : Mark) :
    timeline s (j ++ [m]) = ⟨s, (timeline s j).changes ++ m.states.map (m.time, ·)⟩ := by
  simp [timeline]

/-- What is published at a time does not count before. -/
theorem stateAt_timeline_append {s : State} {j : List Mark} {m : Mark} {t : Nat}
    (h : t < m.time) : (timeline s (j ++ [m])).stateAt t = (timeline s j).stateAt t := by
  rw [timeline_append]
  apply Timeline.stateAt_append_of_lt
  intro c hc
  obtain ⟨s', -, rfl⟩ := List.mem_map.mp hc
  exact h

/-- What an act of a waiter can be. -/
inductive Place.Act (g : Gate) (m : Monitor) (now : Nat) : Place → Place → Prop where
  | block (h : m.state.isBlocking = true) :
      Act g m now .looking (.holding m.publications (now + g.poll))
  | pay (h : m.state = .yellow) : Act g m now .looking (.paying (now + g.penalty))
  | enter (h : m.state = .green) : Act g m now .looking (.passed now)
  | wake {seen deadline : Nat} (h : m.publications ≠ seen ∨ deadline ≤ now) :
      Act g m now (.holding seen deadline) .looking
  | paid {deadline : Nat} (h : deadline ≤ now) : Act g m now (.paying deadline) (.passed now)

theorem Place.act_of_next? {g : Gate} {m : Monitor} {now : Nat} {place place' : Place}
    (h : place.next? g m now = some place') : place.Act g m now place' := by
  cases place with
  | looking =>
    simp only [next?] at h
    split at h
    · rename_i hblocking
      cases h
      exact .block hblocking
    · rename_i hopen
      split at h
      · rename_i hyellow
        cases h
        exact .pay hyellow
      · rename_i hyellow
        cases h
        have hgreen : m.state = .green := by
          cases hs : m.state with
          | green => rfl
          | yellow => exact absurd hs hyellow
          | red | downtime => exact absurd (by rw [hs]; rfl) hopen
        exact .enter hgreen
  | holding seen deadline =>
    simp only [next?] at h
    split at h
    · rename_i hwake
      cases h
      exact .wake hwake
    · cases h
  | paying deadline =>
    simp only [next?] at h
    split at h
    · rename_i hpaid
      cases h
      exact .paid hpaid
    · cases h
  | passed time => cases h

/-- What an event can do to a lobby. -/
inductive Lobby.Move (g : Gate) (l : Lobby) : Lobby.Event → Lobby → Prop where
  | publish (cs : List Change) :
      Move g l (.publish cs) { l with monitor := cs.foldl Monitor.change l.monitor }
  | arrive : Move g l .arrive { l with waiters := l.waiters ++ [⟨l.now, .looking⟩] }
  | act {i : Nat} {w : Waiter} {place : Place} (hw : l.waiters[i]? = some w)
      (h : w.place.Act g l.monitor l.now place) :
      Move g l (.act i) { l with waiters := l.waiters.set i { w with place } }
  | pass (h : ∀ w ∈ l.waiters, w.place.next? g l.monitor l.now = none) :
      Move g l .pass { l with now := l.now + 1 }

theorem Lobby.isQuiet_iff {g : Gate} {l : Lobby} :
    l.isQuiet g = true ↔ ∀ w ∈ l.waiters, w.place.next? g l.monitor l.now = none := by
  simp only [isQuiet, List.all_eq_true, Option.isNone_iff_eq_none]

theorem Lobby.move_of_next? {g : Gate} {l u : Lobby} {e : Event} (h : l.next? g e = some u) :
    l.Move g e u := by
  cases e with
  | publish cs =>
    cases h
    exact .publish cs
  | arrive =>
    cases h
    exact .arrive
  | act i =>
    obtain ⟨w, hw, h⟩ := Option.bind_eq_some_iff.mp h
    obtain ⟨place, hplace, h⟩ := Option.bind_eq_some_iff.mp h
    cases h
    exact .act hw (Place.act_of_next? hplace)
  | pass =>
    simp only [next?] at h
    split at h
    · rename_i hquiet
      cases h
      exact .pass (isQuiet_iff.mp hquiet)
    · cases h

/-! ## What is known of a waiter -/

/-- An instant at which nothing is published any more that waiters who arrived at a time could
miss: it is over, or it is their arrival, or its publication has come. -/
def Settled (j : List Mark) (now arrival T : Nat) : Prop :=
  T < now ∨ T = arrival ∨ T ∈ instants j

/-- What is known of a waiter at its place. -/
inductive Stands (g : Gate) (tl : Timeline) (m : Monitor) (now : Nat) (j : List Mark)
    (arrival : Nat) : Place → Prop where
  | looking (h : tl.Closed arrival now) : Stands g tl m now j arrival .looking
  /-- A waiter that has seen the last publication has seen a blocking state. -/
  | holding {seen deadline : Nat} (h : tl.Closed arrival now)
      (hle : seen ≤ m.publications)
      (hseen : seen = m.publications → m.state.isBlocking = true) :
      Stands g tl m now j arrival (.holding seen deadline)
  | paying {T deadline : Nat} (h : tl.OpensAt arrival T) (hsettled : Settled j now arrival T)
      (hdeadline : deadline = T + Timeline.toll g.penalty (tl.stateAt T)) (hle : now ≤ deadline) :
      Stands g tl m now j arrival (.paying deadline)
  | passed {T time : Nat} (h : tl.OpensAt arrival T) (hsettled : Settled j now arrival T)
      (htime : time = T + Timeline.toll g.penalty (tl.stateAt T)) (hle : time ≤ now) :
      Stands g tl m now j arrival (.passed time)

namespace Stands

variable {g : Gate} {tl tl' : Timeline} {m : Monitor} {now : Nat} {j : List Mark} {arrival : Nat}
  {place : Place}

/-- Nothing of what is known is undone by a publication, if the past stays as it was. -/
theorem publish (h : Stands g tl m now j arrival place) (cs : List Change)
    (hsame : ∀ t, t < now → tl'.stateAt t = tl.stateAt t)
    (hsettled : ∀ T, Settled j now arrival T → T < now) (j' : List Mark) :
    Stands g tl' (cs.foldl Monitor.change m) now j' arrival place := by
  have hclosed : ∀ T, T ≤ now → tl.Closed arrival T → tl'.Closed arrival T := by
    intro T hT hcl t hle hlt
    rw [hsame t (Nat.lt_of_lt_of_le hlt hT)]
    exact hcl t hle hlt
  have hopens : ∀ T, T < now → tl.OpensAt arrival T → tl'.OpensAt arrival T := by
    intro T hT ho
    have hopen := ho.isOpen
    rw [← hsame T hT] at hopen
    exact ⟨ho.arrived, hopen, hclosed T (Nat.le_of_lt hT) ho.closed⟩
  cases h with
  | looking h => exact .looking (hclosed _ (Nat.le_refl _) h)
  | holding h hle hseen =>
    have hpub := Monitor.publications_foldl_change m cs
    refine .holding (hclosed _ (Nat.le_refl _) h) ?_ ?_
    · show _ ≤ (cs.foldl Monitor.change m).publications
      omega
    · intro heq
      change _ = (cs.foldl Monitor.change m).publications at heq
      -- nothing new has been published
      have hnone : (cs.filterMap Change.published?).length = 0 := by omega
      show (cs.foldl Monitor.change m).state.isBlocking = true
      rw [Monitor.state_foldl_change m cs now, List.length_eq_zero_iff.mp hnone]
      exact hseen (by omega)
  | @paying T deadline h hT hdeadline hle =>
    have hlt := hsettled T hT
    refine .paying (hopens T hlt h) (.inl hlt) ?_ hle
    rw [hsame T hlt]
    exact hdeadline
  | @passed T time h hT htime hle =>
    have hlt := hsettled T hT
    refine .passed (hopens T hlt h) (.inl hlt) ?_ hle
    rw [hsame T hlt]
    exact htime

/-- Whoever has passed has passed at the first opening. -/
theorem clears {time : Nat} (h : Stands g tl m now j arrival place)
    (hplace : place = .passed time) : tl.Clears g.penalty arrival time ∧ time ≤ now := by
  cases h with
  | looking | holding | paying => cases hplace
  | passed hopens _ htime hle =>
    cases hplace
    exact ⟨⟨_, hopens, htime⟩, hle⟩

/-- Once the time of the passage is over, the waiter has passed. -/
theorem passed_of_clears {time : Nat} (h : Stands g tl m now j arrival place)
    (hclears : tl.Clears g.penalty arrival time) (hlt : time < now) : place = .passed time := by
  obtain ⟨T, hT, rfl⟩ := hclears
  have hopen : ¬ tl.Closed arrival now := by
    intro hclosed
    have hblocked := hclosed T hT.arrived (by omega)
    rw [hT.isOpen] at hblocked
    cases hblocked
  cases h with
  | looking hclosed | holding hclosed => exact absurd hclosed hopen
  | paying hopens _ hdeadline hle =>
    rw [hopens.unique hT] at hdeadline
    omega
  | passed hopens _ htime hle =>
    rw [hopens.unique hT] at htime
    rw [htime]

end Stands

/-- What is known in a lobby after a run with a journal. -/
structure Attended (g : Gate) (s : State) (j : List Mark) (l : Lobby) : Prop where
  past : ∀ t ∈ instants j, t ≤ l.now
  state : l.monitor.state = Timeline.lastOf s (timeline s j).changes
  arrived : ∀ w ∈ l.waiters, w.arrival ≤ l.now
  stands : (instants j).Nodup → ∀ w ∈ l.waiters, w.arrival ∉ instants j →
    Stands g (timeline s j) l.monitor l.now j w.arrival w.place

namespace Attended

variable {g : Gate} {s : State} {j : List Mark} {l : Lobby}

theorem start (g : Gate) (s : State) : Attended g s [] (.start s) where
  past _ ht := by cases ht
  state := rfl
  arrived _ hw := by cases hw
  stands _ _ hw := by cases hw

/-- The state that the monitor shows is the one since the last publication. -/
theorem stateAt_eq (h : Attended g s j l) {t : Nat} (ht : ∀ u ∈ instants j, u ≤ t) :
    (timeline s j).stateAt t = l.monitor.state := by
  rw [h.state]
  apply Timeline.stateAt_of_le
  intro c hc
  exact ht c.1 (mem_instants_of_change (s := s) hc)

/-- A publication at the present instant leaves the ones before as they were. -/
theorem publish (h : Attended g s j l) (cs : List Change) :
    Attended g s (j ++ [⟨l.now, cs.filterMap Change.published?⟩])
      { l with monitor := cs.foldl Monitor.change l.monitor } where
  past := by
    intro t ht
    rw [instants_append, List.mem_append] at ht
    rcases ht with ht | ht
    · exact h.past t ht
    · exact Nat.le_of_eq (List.mem_singleton.mp ht)
  state := by
    rw [timeline_append]
    show _ = Timeline.lastOf s (_ ++ _)
    rw [Timeline.lastOf_append, ← h.state]
    exact Monitor.state_foldl_change _ _ _
  arrived := h.arrived
  stands := by
    intro hnodup w hw hquiet
    rw [instants_append, List.nodup_append] at hnodup
    obtain ⟨hbefore, -, hnew⟩ := hnodup
    rw [instants_append, List.mem_append, not_or] at hquiet
    have harrival : w.arrival < l.now := by
      have hle := h.arrived w hw
      have hne : w.arrival ≠ l.now := by
        intro heq
        rw [heq] at hquiet
        exact hquiet.2 (List.mem_singleton_self _)
      omega
    -- an instant that is settled lies before this one
    have hsettled : ∀ T, Settled j l.now w.arrival T → T < l.now := by
      rintro T (hlt | rfl | hmem)
      · exact hlt
      · exact harrival
      · have hle := h.past T hmem
        have hne : T ≠ l.now := hnew T hmem l.now (List.mem_singleton_self _)
        omega
    have hsame : ∀ t, t < l.now →
        (timeline s (j ++ [⟨l.now, cs.filterMap Change.published?⟩])).stateAt t
          = (timeline s j).stateAt t := fun t ht => stateAt_timeline_append ht
    exact (h.stands hbefore w hw hquiet.1).publish cs hsame hsettled _

/-- Before the present instant the state was blocking for a waiter who has not seen it open, so an
opening now is an arrival or a publication. -/
theorem settled_now (h : Attended g s j l) {w : Waiter} (hw : w ∈ l.waiters)
    (hclosed : (timeline s j).Closed w.arrival l.now) (hopen : l.monitor.state.isBlocking = false) :
    Settled j l.now w.arrival l.now := by
  by_cases hnow : l.now ∈ instants j
  · exact .inr (.inr hnow)
  · rcases Nat.lt_or_ge w.arrival l.now with hlt | hge
    · -- the state is the one of the instant before
      have hbefore : (timeline s j).stateAt (l.now - 1) = l.monitor.state := by
        apply h.stateAt_eq
        intro t ht
        have hle := h.past t ht
        have hne : t ≠ l.now := fun heq => hnow (heq ▸ ht)
        omega
      have hblocked := hclosed (l.now - 1) (by omega) (by omega)
      rw [hbefore, hopen] at hblocked
      cases hblocked
    · exact .inr (.inl (Nat.le_antisymm hge (h.arrived w hw)))

/-- Whoever sees an open state now sees the first opening. -/
theorem opensAt_now (h : Attended g s j l) {w : Waiter} (hw : w ∈ l.waiters)
    (hclosed : (timeline s j).Closed w.arrival l.now) (hopen : l.monitor.state.isBlocking = false) :
    (timeline s j).OpensAt w.arrival l.now where
  arrived := h.arrived w hw
  isOpen := by
    rw [h.stateAt_eq h.past]
    exact hopen
  closed := hclosed

/-- What is known of a waiter after it has acted. -/
theorem stands_act (h : Attended g s j l) {w : Waiter} (hw : w ∈ l.waiters) {place : Place}
    (hstands : Stands g (timeline s j) l.monitor l.now j w.arrival w.place)
    (hact : w.place.Act g l.monitor l.now place) :
    Stands g (timeline s j) l.monitor l.now j w.arrival place := by
  generalize hplace : w.place = before at hstands hact
  cases hact with
  | block hblocking =>
    cases hstands with
    | looking hclosed => exact .holding hclosed (Nat.le_refl _) fun _ => hblocking
  | pay hyellow =>
    cases hstands with
    | looking hclosed =>
      have hopen : l.monitor.state.isBlocking = false := by rw [hyellow]; rfl
      refine .paying (h.opensAt_now hw hclosed hopen) (h.settled_now hw hclosed hopen) ?_
        (Nat.le_add_right _ _)
      rw [h.stateAt_eq h.past, hyellow]
      rfl
  | enter hgreen =>
    cases hstands with
    | looking hclosed =>
      have hopen : l.monitor.state.isBlocking = false := by rw [hgreen]; rfl
      refine .passed (h.opensAt_now hw hclosed hopen) (h.settled_now hw hclosed hopen) ?_
        (Nat.le_refl _)
      rw [h.stateAt_eq h.past, hgreen]
      rfl
  | wake =>
    cases hstands with
    | holding hclosed => exact .looking hclosed
  | paid hdue =>
    cases hstands with
    | paying hopens hsettled hdeadline hle =>
      -- the deadline has not been slept through
      have hnow : l.now = _ := Nat.le_antisymm hle hdue
      exact .passed hopens hsettled (hnow.trans hdeadline) (Nat.le_refl _)

theorem act (h : Attended g s j l) {i : Nat} {w : Waiter} {place : Place}
    (hw : l.waiters[i]? = some w) (hact : w.place.Act g l.monitor l.now place) :
    Attended g s j { l with waiters := l.waiters.set i { w with place } } where
  past := h.past
  state := h.state
  arrived := by
    intro v hv
    rcases List.mem_or_eq_of_mem_set hv with hv | rfl
    · exact h.arrived v hv
    · exact h.arrived w (List.mem_of_getElem? hw)
  stands := by
    intro hnodup v hv hquiet
    rcases List.mem_or_eq_of_mem_set hv with hv | rfl
    · exact h.stands hnodup v hv hquiet
    · have hmem := List.mem_of_getElem? hw
      exact h.stands_act hmem (h.stands hnodup w hmem hquiet) hact

theorem arrive (h : Attended g s j l) :
    Attended g s j { l with waiters := l.waiters ++ [⟨l.now, .looking⟩] } where
  past := h.past
  state := h.state
  arrived := by
    intro w hw
    rcases List.mem_append.mp hw with hw | hw
    · exact h.arrived w hw
    · rw [List.mem_singleton.mp hw]
  stands := by
    intro hnodup w hw hquiet
    rcases List.mem_append.mp hw with hw | hw
    · exact h.stands hnodup w hw hquiet
    · rw [List.mem_singleton.mp hw]
      exact .looking fun t hle hlt => absurd hlt (Nat.not_lt.mpr hle)

/-- Time passes only over waiters that have seen a blocking state. -/
theorem stands_pass (h : Attended g s j l) {w : Waiter}
    (hstands : Stands g (timeline s j) l.monitor l.now j w.arrival w.place)
    (hquiet : w.place.next? g l.monitor l.now = none) :
    Stands g (timeline s j) l.monitor (l.now + 1) j w.arrival w.place := by
  have hsettled : ∀ T, Settled j l.now w.arrival T → Settled j (l.now + 1) w.arrival T := by
    intro T hT
    exact hT.imp_left fun hlt => Nat.lt_succ_of_lt hlt
  generalize hplace : w.place = place at hstands hquiet
  cases hstands with
  | looking hclosed =>
    simp only [Place.next?] at hquiet
    split at hquiet
    · cases hquiet
    · split at hquiet <;> cases hquiet
  | @holding seen deadline hclosed hle hseen =>
    simp only [Place.next?, ite_eq_right_iff, reduceCtorEq, imp_false, not_or, not_not] at hquiet
    have hblocking := hseen hquiet.1.symm
    refine .holding ?_ hle hseen
    intro t harrived hlt
    rcases Nat.lt_or_ge t l.now with hbefore | hnow
    · exact hclosed t harrived hbefore
    · have hnow : t = l.now := Nat.le_antisymm (Nat.le_of_lt_succ hlt) hnow
      rw [hnow, h.stateAt_eq h.past]
      exact hblocking
  | @paying T deadline hopens hT hdeadline hle =>
    simp only [Place.next?, ite_eq_right_iff, reduceCtorEq, imp_false] at hquiet
    refine .paying hopens (hsettled T hT) hdeadline ?_
    show l.now + 1 ≤ deadline
    omega
  | @passed T time hopens hT htime hle =>
    exact .passed hopens (hsettled T hT) htime (Nat.le_succ_of_le hle)

theorem pass (h : Attended g s j l)
    (hquiet : ∀ w ∈ l.waiters, w.place.next? g l.monitor l.now = none) :
    Attended g s j { l with now := l.now + 1 } where
  past t ht := Nat.le_succ_of_le (h.past t ht)
  state := h.state
  arrived w hw := Nat.le_succ_of_le (h.arrived w hw)
  stands hnodup w hw hfree := h.stands_pass (h.stands hnodup w hw hfree) (hquiet w hw)

theorem step (h : Attended g s j l) {e : Lobby.Event} {u : Lobby} (hmove : l.Move g e u) :
    Attended g s (j ++ (l.mark? e).toList) u := by
  cases hmove with
  | publish cs => exact h.publish cs
  | arrive =>
    rw [show l.mark? .arrive = none from rfl, Option.toList_none, List.append_nil]
    exact h.arrive
  | act hw hact =>
    rw [show l.mark? (.act _) = none from rfl, Option.toList_none, List.append_nil]
    exact h.act hw hact
  | pass hquiet =>
    rw [show l.mark? .pass = none from rfl, Option.toList_none, List.append_nil]
    exact h.pass hquiet

end Attended

variable {g : Gate} {s : State} {j : List Mark} {l : Lobby}

theorem attended_of_run {ok : Lobby → Lobby.Event → Prop} (h : (lobby g).Run ok (.start s) j l) :
    Attended g s j l := by
  induction h with
  | nil => exact .start g s
  | snoc _ _ step ih => exact ih.step (Lobby.move_of_next? step)

/-! ## Time can pass -/

/-- How often a waiter can act at one instant, at most. -/
def Place.load (m : Monitor) (now : Nat) : Place → Nat
  | .looking => 2
  | .holding seen deadline => if m.publications ≠ seen ∨ deadline ≤ now then 3 else 0
  | .paying deadline => if deadline ≤ now then 1 else 0
  | .passed _ => 0

theorem Place.Act.load_lt {m : Monitor} {now : Nat} {place place' : Place} (hpoll : 0 < g.poll)
    (h : place.Act g m now place') : place'.load m now < place.load m now := by
  cases h with
  | block =>
    -- a look at a blocking state is followed by some time of waiting
    have hlate : ¬ now + g.poll ≤ now := by omega
    simp [load, hlate]
  | pay =>
    show (if now + g.penalty ≤ now then 1 else 0) < 2
    split <;> omega
  | enter => exact Nat.zero_lt_two
  | wake hwake =>
    simp only [load, if_pos hwake]
    omega
  | paid hpaid => simp [load, hpaid]

theorem totalOf_set_lt {α : Type} {f : α → Nat} {xs : List α} {i : Nat} {x y : α}
    (h : xs[i]? = some x) (hlt : f y < f x) : totalOf f (xs.set i y) < totalOf f xs := by
  induction xs generalizing i with
  | nil => cases h
  | cons z zs ih =>
    cases i with
    | zero =>
      cases h
      rw [List.set_cons_zero, totalOf_cons, totalOf_cons]
      omega
    | succ i =>
      have hrest := ih (i := i) (by simpa using h)
      rw [List.set_cons_succ, totalOf_cons, totalOf_cons]
      omega

namespace Lobby

/-- How many acts there can be at one instant, at most. -/
def load (l : Lobby) : Nat := totalOf (fun w => w.place.load l.monitor l.now) l.waiters

theorem load_act_lt (hpoll : 0 < g.poll) {i : Nat} {u : Lobby} (h : l.next? g (.act i) = some u) :
    u.load < l.load := by
  cases move_of_next? h with
  | act hw hact => exact totalOf_set_lt hw (hact.load_lt hpoll)

/-- Waiters cannot act for ever at one instant. -/
theorem wellFounded_act (hpoll : 0 < g.poll) :
    WellFounded fun u l : Lobby => ∃ i, l.next? g (.act i) = some u := by
  apply Subrelation.wf (r := fun u l : Lobby => u.load < l.load)
  · rintro u l ⟨i, h⟩
    exact load_act_lt hpoll h
  · exact (measure load).wf

/-- Nothing happens but that waiters act and time passes. -/
def Waits (_ : Lobby) : Event → Prop
  | .act _ | .pass => True
  | .publish _ | .arrive => False

theorem exists_act (h : l.isQuiet g = false) : ∃ i u, l.next? g (.act i) = some u := by
  obtain ⟨w, hw, hbusy⟩ := List.all_eq_false.mp h
  rw [Option.isNone_iff_eq_none] at hbusy
  obtain ⟨place, hplace⟩ := Option.ne_none_iff_exists'.mp hbusy
  obtain ⟨i, hi⟩ := List.mem_iff_getElem?.mp hw
  exact ⟨i, { l with waiters := l.waiters.set i { w with place } }, by simp [next?, hi, hplace]⟩

/-- Once the waiters have acted, time can pass. -/
theorem exists_run_succ (hpoll : 0 < g.poll) (l : Lobby) :
    ∃ u, (lobby g).Run Waits l [] u ∧ u.now = l.now + 1 := by
  induction l using (wellFounded_act hpoll).induction with
  | _ l ih =>
    cases hquiet : l.isQuiet g with
    | true =>
      have hpass : (lobby g).next? l .pass = some { l with now := l.now + 1 } := if_pos hquiet
      exact ⟨_, .single trivial hpass, rfl⟩
    | false =>
      obtain ⟨i, v, hact⟩ := exists_act hquiet
      obtain ⟨u, hrun, hnow⟩ := ih v ⟨i, hact⟩
      have hsame : v.now = l.now := by
        cases move_of_next? hact with
        | act => rfl
      have hfirst : (lobby g).Run Waits l [] v := .single (e := Event.act i) trivial hact
      exact ⟨u, hfirst.append hrun, by rw [hnow, hsame]⟩

/-- Time can pass to any later instant. -/
theorem exists_run_to (hpoll : 0 < g.poll) (l : Lobby) {n : Nat} (hle : l.now ≤ n) :
    ∃ u, (lobby g).Run Waits l [] u ∧ u.now = n := by
  induction n, hle using Nat.le_induction with
  | base => exact ⟨l, .nil, rfl⟩
  | succ n _ ih =>
    obtain ⟨v, hrun, rfl⟩ := ih
    obtain ⟨u, hrun', hnow⟩ := exists_run_succ hpoll v
    exact ⟨u, hrun.append hrun', hnow⟩

end Lobby

/-! ## The passage -/

/-- **Waiters pass at the first opening.** Take any run of a lobby, with any state at first, any
waiters and any publications, of which those of one instant come in one event. A waiter that arrives
at an instant without publications passes at the first instant from then on at which the state is
not blocking, or after the penalty if the state is yellow then: it has passed at no other time, and
once that time is over it has passed. This is the time of `Gate.clearance?`. And time is not held
up: the waiters cannot act for ever at one instant, and time can pass to any later one. -/
theorem passes_at_first_opening (hpoll : 0 < g.poll)
    (h : (lobby g).Run (fun _ _ => True) (.start s) j l) (honce : (instants j).Nodup) :
    (∀ w ∈ l.waiters, w.arrival ∉ instants j →
      (∀ time, w.place = .passed time →
        (timeline s j).Clears g.penalty w.arrival time ∧ time ≤ l.now) ∧
      (∀ time, (timeline s j).Clears g.penalty w.arrival time → time < l.now →
        w.place = .passed time) ∧
      ∀ time, g.clearance? (timeline s j) w.arrival = some time ↔
        (timeline s j).Clears g.penalty w.arrival time) ∧
    (WellFounded fun u l : Lobby => ∃ i, l.next? g (.act i) = some u) ∧
    ∀ n, l.now ≤ n → ∃ u, (lobby g).Run Lobby.Waits l [] u ∧ u.now = n := by
  refine ⟨?_, Lobby.wellFounded_act hpoll, fun n hle => Lobby.exists_run_to hpoll l hle⟩
  intro w hw hquiet
  have hstands := (attended_of_run h).stands honce w hw hquiet
  exact ⟨fun time => hstands.clears, fun time => hstands.passed_of_clears,
    fun time => Gate.clearance?_eq_some_iff⟩

/-! ## A shower of rain -/

namespace Shower

/-- Looks at least every three milliseconds, and a penalty of two. -/
def gate : Gate := ⟨3, 2⟩

/-- One waiter arrives at once, and another after four milliseconds. The state turns yellow at the
fifth millisecond, and red again at the sixth, while both sit out the penalty. -/
def events : List Lobby.Event := [
  .arrive, .act 0, .pass, .pass, .pass, .act 0, .act 0, .pass,
  .arrive, .act 1, .pass,
  .publish [.force .downtime, .force .yellow], .act 1, .act 0, .act 0, .act 1, .pass,
  .publish [.force .red], .pass, .act 1, .act 0, .pass]

theorem reaches_passed :
    ((lobby gate).follow (fun _ _ => True) (.start .red) events).any (fun r =>
      decide (instants r.1 = [5, 6]) && decide (r.2.waiters = [⟨0, .passed 7⟩, ⟨4, .passed 7⟩]))
        = true := by
  decide +kernel

theorem clears_after_penalty :
    ∃ j l, (lobby gate).Run (fun _ _ => True) (.start .red) j l ∧ 0 < gate.poll ∧
      (instants j).Nodup ∧ l.waiters = [⟨0, .passed 7⟩, ⟨4, .passed 7⟩] ∧
      ∀ w ∈ l.waiters, w.arrival ∉ instants j ∧
        (timeline .red j).Clears gate.penalty w.arrival 7 ∧
        gate.clearance? (timeline .red j) w.arrival = some 7 := by
  obtain ⟨⟨j, l⟩, hfollow, hl⟩ := (Option.any_eq_true _ _).mp reaches_passed
  rw [Bool.and_eq_true, decide_eq_true_eq, decide_eq_true_eq] at hl
  obtain ⟨hinstants, hwaiters⟩ := hl
  have hrun := Machine.run_of_follow hfollow
  have honce : (instants j).Nodup := by
    rw [hinstants]
    decide
  refine ⟨j, l, hrun, by decide, honce, hwaiters, ?_⟩
  intro w hw
  have hplace : w.arrival ∉ instants j ∧ w.place = .passed 7 := by
    rw [hwaiters] at hw
    rw [hinstants]
    revert w
    decide
  have hpasses := (passes_at_first_opening (by decide) hrun honce).1 w hw hplace.1
  have hclears := (hpasses.1 7 hplace.2).1
  exact ⟨hplace.1, hclears, (hpasses.2.2 7).mpr hclears⟩

end Shower

end Harvest.Admission
