import Harvest.Proofs.Backfill.Moves
import Harvest.Proofs.Import.Delivery

/-! # A day is completed in one pass

A walk comes to a day of which the listing names as many ids as there are to be. What is stored of
these was of the day, and what is not stored can be fetched and decoded to a killmail of the day.
Then one pass is enough: once the walk has counted again, no listed id is missing any more, and the
day is closed.

The key idea is that each listed item is in one of three places at any time: the walk has yet to
push it, it is under way, or its id is stored with a time of the day. The walk ends its wait only
where the second place is empty, and it begins to wait only where the first one is.

## Main definitions

* `Errand`: a day with its listing and what is stored at first.
* `Served`: the steps of such a walk with an importer beside it.
* `Course`: where the walk stands on its way through the day, and where the items are.

## Main statements

* `Course.step`: the course is kept by every step.
* `day_completed`: the report of the day.
-/

namespace Harvest.Backfill

open Harvest.Calendar
open Harvest.Import (Delivering Mark NoCrash)

/-! ## The day -/

/-- The listed items whose id is not stored, in their order. -/
def missingFrom (l : List WorkItem) (a : Archive) : List WorkItem :=
  l.filter fun w => !a.contains w.id

/-- What the walk asks the archive for is which of the listed items are missing. -/
theorem missingItems_eq {a : Archive} {ks : List Killmail} (ha : a.only ks = a) {l : List WorkItem}
    {stored : List Killmail} (h : a.find (.withIds (l.map WorkItem.id)) = .ok stored) :
    Walk.missingItems l stored = missingFrom l a := by
  apply List.filter_congr
  intro w hw
  have hmem := Archive.mem_of_find ha h (List.mem_map_of_mem hw)
  rw [← Archive.contains_iff, ← List.contains_iff_mem] at hmem
  rw [Bool.eq_iff_iff.mpr hmem]

/-- A day that a walk comes to. -/
structure Errand where
  date : Date
  total : Nat
  /-- What the source answers when it is asked for the listing. -/
  listed : List WorkItem
  /-- What is stored as the walk comes to the day. -/
  archive : Archive
  /-- The reports of the days before. -/
  days : List DayReport

namespace Errand

variable (k : Errand)

def before : Nat := k.archive.count (Walk.filter k.date)

def missing : List WorkItem := missingFrom k.listed k.archive

/-- The report before the pass. -/
def opened : DayReport := .opened k.date k.total k.before

/-- The report during the pass. -/
def during : DayReport := { k.opened with passes := 1 }

/-- The report when all that is missing was pushed. -/
def pushed : DayReport := { k.during with enqueued := k.missing.length }

/-- The listing names enough ids, and what is stored of them is of the day. -/
structure Feasible : Prop where
  kept : ∃ ks, k.archive.only ks = k.archive
  enough : k.total ≤ (k.listed.map WorkItem.id).toFinset.card
  sound : ∀ w ∈ k.listed, w.id ∈ k.archive.ids → k.archive.HasWithin (.day k.date) w.id

/-- What the report of the day is to say. -/
structure Completed (day : DayReport) : Prop where
  date : day.date = k.date
  total : day.total = k.total
  before : day.before = k.before
  after : k.total ≤ day.after
  nothing : k.total ≤ k.before → day.passes = 0 ∧ day.enqueued = 0
  pass : k.before < k.total → day.passes = 1 ∧ day.enqueued = k.missing.length

variable {k : Errand}

theorem mem_missing {w : WorkItem} : w ∈ k.missing ↔ w ∈ k.listed ∧ w.id ∉ k.archive.ids := by
  simp only [missing, missingFrom, List.mem_filter, Bool.not_eq_true', ← Archive.contains_iff,
    Bool.not_eq_true]

theorem Feasible.le_count (hk : k.Feasible) {a : Archive}
    (h : ∀ w ∈ k.listed, a.HasWithin (.day k.date) w.id) :
    k.total ≤ a.count (Walk.filter k.date) := by
  refine hk.enough.trans (Archive.card_le_count fun id hid => ?_)
  obtain ⟨w, hw, rfl⟩ := List.mem_map.mp (List.mem_toFinset.mp hid)
  exact h w hw

theorem completed_opened (h : k.total ≤ k.before) : k.Completed k.opened :=
  ⟨rfl, rfl, rfl, h, fun _ => ⟨rfl, rfl⟩, fun hlt => by omega⟩

theorem completed_pushed {n : Nat} (hshort : k.before < k.total) (h : k.total ≤ n) :
    k.Completed { k.pushed with after := n } :=
  ⟨rfl, rfl, rfl, h, fun hle => by omega, fun _ => ⟨rfl, rfl⟩⟩

end Errand

/-! ## The course of the day -/

/-- The source answers with the listing, and the importer delivers what is missing. -/
def Served (k : Errand) (s : World) : Event → Prop
  | .walk _ (.listing (.ok l)) => l = k.listed
  | .importer e => Delivering (.day k.date) k.missing s.importer e
  | _ => True

instance (k : Errand) : ∀ (s : World) (e : Event), Decidable (Served k s e)
  | _, .walk _ (.listing (.ok l)) => inferInstanceAs (Decidable (l = k.listed))
  | s, .importer e => inferInstanceAs (Decidable (Delivering (.day k.date) k.missing s.importer e))
  | _, .walk _ (.listing (.error _)) | _, .walk _ .done | _, .walk _ (.storageFails _)
  | _, .walk _ (.queueFails _) | _, .walk _ (.totals _) | _, .wake | _, .interrupt
  | _, .cancel => isTrue trivial

theorem Served.noCrash {k : Errand} (s : World) (e : Event) (h : Served k s e) :
    OnImporter NoCrash s e := by
  cases e with
  | importer e => exact h.unharmed.noCrash
  | _ => trivial

/-- Where a walk stands on its way through the day, and where the listed items are. -/
inductive Course (k : Errand) (s : World) : Prop where
  | counting (h : s.walk.stage = .count k.date k.total) (hi : s.importer.Still k.archive)
      (hr : s.walk.report.days = k.days)
  | opened (h : s.walk.stage = .pass k.opened) (hi : s.importer.Still k.archive)
      (hr : s.walk.report.days = k.days)
  | listing {attempt : Nat}
      (h : s.walk.stage = .list k.during attempt ∨ s.walk.stage = .backoff k.during attempt)
      (hshort : k.before < k.total) (hi : s.importer.Still k.archive)
      (hr : s.walk.report.days = k.days)
  | looking (h : s.walk.stage = .lookup k.during k.listed) (hshort : k.before < k.total)
      (hi : s.importer.Still k.archive) (hr : s.walk.report.days = k.days)
  /-- What was not yet pushed is missing, and everything else is under way. -/
  | pushing {n : Nat} {score : Int} {chunk : List WorkItem} {rest : List (List WorkItem)}
      (h : s.walk.stage = .push k.during n score chunk rest) (hshort : k.before < k.total)
      (hi : s.importer.Delivery (.day k.date) k.missing)
      (hcount : n + (chunk ++ rest.flatten).length = k.missing.length)
      (hleft : ∀ w ∈ chunk ++ rest.flatten, w ∈ k.missing)
      (hplace : ∀ w ∈ k.listed,
        w ∈ chunk ++ rest.flatten ∨ s.importer.Underway (.day k.date) w)
      (hr : s.walk.report.days = k.days)
  /-- Everything is under way, and the queue was not seen to be empty unless it is. -/
  | waiting
      (h : s.walk.stage = .readLength k.pushed ∨ s.walk.stage = .polling k.pushed ∨
        ∃ n, s.walk.stage = .readInFlight k.pushed n ∧ (n = 0 → s.importer.queue.items = []))
      (hshort : k.before < k.total) (hi : s.importer.Delivery (.day k.date) k.missing)
      (hplace : ∀ w ∈ k.listed, s.importer.Underway (.day k.date) w)
      (hr : s.walk.report.days = k.days)
  | recounting (h : s.walk.stage = .recount k.pushed) (hshort : k.before < k.total)
      (hplace : ∀ w ∈ k.listed, s.importer.depot.archive.HasWithin (.day k.date) w.id)
      (hr : s.walk.report.days = k.days)
  | recounted {n : Nat} (h : s.walk.stage = .pass { k.pushed with after := n })
      (hshort : k.before < k.total) (hn : k.total ≤ n) (hr : s.walk.report.days = k.days)
  | closed {day : DayReport} {ds : List DayReport} (hr : s.walk.report.days = k.days ++ day :: ds)
      (hday : k.Completed day)
  | givenUp {e : Abort} (h : s.walk.stage = .ended (.error e)) (hr : s.walk.report.days = k.days)

namespace Course

variable {ic : Import.Config} {c : Config} {r : Request} {k : Errand} {s t : World} {e : Event}

/-- No report comes before that of the day. -/
theorem days (hs : Course k s) : s.walk.report.days = k.days ∨
    ∃ day ds, s.walk.report.days = k.days ++ day :: ds ∧ k.Completed day := by
  cases hs with
  | closed hr hday => exact .inr ⟨_, _, hr, hday⟩
  | counting _ _ hr | opened _ _ hr | listing _ _ _ hr | looking _ _ _ hr
  | pushing _ _ _ _ _ _ hr | waiting _ _ _ _ hr | recounting _ _ _ hr | recounted _ _ _ hr
  | givenUp _ hr => exact .inl hr

/-- Giving up leaves the reports as they are. -/
theorem give (hs : Course k s) (i : Import.World) (a : Abort) : Course k ⟨i, s.walk.give a⟩ := by
  rcases hs.days with hr | ⟨day, ds, hr, hday⟩
  · exact .givenUp rfl hr
  · exact .closed hr hday

/-! ### Steps of the importer -/

theorem importer {f : Import.Event} {m : Option Mark} {i : Import.World} (hs : Course k s)
    (ht : s.importer.Tidy ic) (h : s.importer.Step ic f m i)
    (hok : Delivering (.day k.date) k.missing s.importer f) :
    Course k { s with importer := i } := by
  cases hs with
  | counting hst hi hr => exact .counting hst (hi.step h hok) hr
  | opened hst hi hr => exact .opened hst (hi.step h hok) hr
  | listing hst hshort hi hr => exact .listing hst hshort (hi.step h hok) hr
  | looking hst hshort hi hr => exact .looking hst hshort (hi.step h hok) hr
  | pushing hst hshort hi hcount hleft hplace hr =>
    refine .pushing hst hshort (hi.step ht h hok) hcount hleft ?_ hr
    intro w hw
    exact (hplace w hw).imp_right fun hu => hu.step hi ht h hok
  | waiting hst hshort hi hplace hr =>
    refine .waiting ?_ hshort (hi.step ht h hok) (fun w hw => (hplace w hw).step hi ht h hok) hr
    rcases hst with hst | hst | ⟨n, hst, hempty⟩
    · exact .inl hst
    · exact .inr (.inl hst)
    · exact .inr (.inr ⟨n, hst, fun hn => Import.World.queue_of_step (hempty hn) h hok⟩)
  | recounting hst hshort hplace hr =>
    exact .recounting hst hshort
      (fun w hw => Import.World.hasWithin_of_step h (hplace w hw)) hr
  | recounted hst hshort hn hr => exact .recounted hst hshort hn hr
  | closed hr hday => exact .closed hr hday
  | givenUp hst hr => exact .givenUp hst hr

/-! ### Steps of the walk -/

section walk

variable {now : Instant} {b : Answer} {i : Import.World} {v : Walk}

theorem walk_counting (hst : s.walk.stage = .count k.date k.total)
    (hi : s.importer.Still k.archive) (hr : s.walk.report.days = k.days)
    (hstats : r.statsOnly = false) (h : s.walk.Move c r now s.importer b i v) :
    Course k ⟨i, v⟩ := by
  cases h with
  | counted h =>
    rw [h] at hst
    cases hst
    refine .opened ?_ hi hr
    rw [Errand.opened, Errand.before, hi.archive]
  | compared _ hstats' =>
    rw [hstats] at hstats'
    cases hstats'
  | countFails => exact .givenUp rfl hr
  | _ h =>
    rw [h] at hst
    cases hst

/-- A day that is complete is closed at once, another one has a pass. -/
theorem walk_opened (hst : s.walk.stage = .pass k.opened) (hi : s.importer.Still k.archive)
    (hr : s.walk.report.days = k.days) (hpasses : 1 ≤ c.datePasses)
    (h : s.walk.Move c r now s.importer b i v) : Course k ⟨i, v⟩ := by
  cases h with
  | again h ha hp =>
    rw [h] at hst
    cases hst
    exact .listing (.inl rfl) ha hi hr
  | close h ha =>
    rw [h] at hst
    cases hst
    have hcomplete : k.total ≤ k.before := by
      have hnot : ¬ (k.before < k.total ∧ 0 < c.datePasses) := ha
      omega
    exact .closed (congrArg (· ++ [k.opened]) hr) (Errand.completed_opened hcomplete)
  | _ h =>
    rw [h] at hst
    cases hst

theorem walk_listing {attempt : Nat}
    (hst : s.walk.stage = .list k.during attempt ∨ s.walk.stage = .backoff k.during attempt)
    (hshort : k.before < k.total) (hi : s.importer.Still k.archive)
    (hr : s.walk.report.days = k.days) (hok : Served k s (.walk now b))
    (h : s.walk.Move c r now s.importer b i v) : Course k ⟨i, v⟩ := by
  cases h with
  | listed h =>
    rw [h] at hst
    rcases hst with hst | hst
    · cases hst
      exact .looking (congrArg _ hok) hshort hi hr
    · cases hst
  | retry h =>
    rw [h] at hst
    rcases hst with hst | hst
    · cases hst
      exact .listing (.inr rfl) hshort hi hr
    · cases hst
  | giveUpDay => exact .givenUp rfl hr
  | _ h =>
    rw [h] at hst
    rcases hst with hst | hst <;> cases hst

/-- The missing items are to be pushed. All other listed ids are stored already. -/
theorem walk_looking (hst : s.walk.stage = .lookup k.during k.listed)
    (hshort : k.before < k.total) (hi : s.importer.Still k.archive)
    (hr : s.walk.report.days = k.days) (hk : k.Feasible)
    (h : s.walk.Move c r now s.importer b i v) : Course k ⟨i, v⟩ := by
  obtain ⟨ks, hkept⟩ := hk.kept
  have hstored : ∀ w ∈ k.listed, w ∉ k.missing →
      s.importer.depot.archive.HasWithin (.day k.date) w.id := by
    intro w hw hmissing
    rw [hi.archive]
    refine hk.sound w hw ?_
    by_contra hid
    exact hmissing (Errand.mem_missing.mpr ⟨hw, hid⟩)
  cases h with
  | @nothing _ _ stored h hf hm =>
    rw [h] at hst
    cases hst
    have hnone : k.missing = [] := by
      rw [hi.archive] at hf
      rw [← hm]
      exact (missingItems_eq hkept hf).symm
    refine .recounting ?_ hshort (fun w hw => hstored w hw (by simp [hnone])) hr
    rw [Errand.pushed, hnone]
    rfl
  | @dispatch _ _ stored h hf hm =>
    rw [h] at hst
    cases hst
    have hsame : Walk.missingItems k.listed stored = k.missing := by
      rw [hi.archive] at hf
      exact missingItems_eq hkept hf
    refine .pushing rfl hshort (hi.delivery fun w hw => (Errand.mem_missing.mp hw).2) ?_ ?_ ?_ hr
    · simp [flatten_chunksOf, hsame]
    · simp [flatten_chunksOf, hsame]
    · intro w hw
      rw [List.nil_append, flatten_chunksOf, hsame]
      by_cases hmissing : w ∈ k.missing
      · exact .inl hmissing
      · exact .inr (.arrived (hstored w hw hmissing))
  | findFails | lookupFails => exact .givenUp rfl hr
  | _ h =>
    rw [h] at hst
    cases hst

theorem walk_pushing {n : Nat} {score : Int} {chunk : List WorkItem} {rest : List (List WorkItem)}
    (hst : s.walk.stage = .push k.during n score chunk rest)
    (hshort : k.before < k.total) (hi : s.importer.Delivery (.day k.date) k.missing)
    (hcount : n + (chunk ++ rest.flatten).length = k.missing.length)
    (hleft : ∀ w ∈ chunk ++ rest.flatten, w ∈ k.missing)
    (hplace : ∀ w ∈ k.listed,
      w ∈ chunk ++ rest.flatten ∨ s.importer.Underway (.day k.date) w)
    (hr : s.walk.report.days = k.days) (h : s.walk.Move c r now s.importer b i v) :
    Course k ⟨i, v⟩ := by
  cases h with
  | @push _ _ _ x _ _ h =>
    rw [h] at hst
    cases hst
    have hx : x ∈ k.missing := hleft x List.mem_cons_self
    refine .pushing rfl hshort (hi.push hx _) ?_ ?_ ?_ hr
    · rw [← hcount, List.cons_append, List.length_cons]
      omega
    · exact fun w hw => hleft w (List.mem_cons_of_mem x hw)
    · intro w hw
      rcases hplace w hw with hmem | hunder
      · rcases List.mem_cons.mp hmem with rfl | hmem
        · exact .inr (.of_push _ _ _ _)
        · exact .inl hmem
      · exact .inr (hunder.push x _)
  | chunk h =>
    rw [h] at hst
    cases hst
    exact .pushing rfl hshort hi hcount hleft hplace hr
  | pushed h =>
    rw [h] at hst
    cases hst
    refine .waiting (.inl ?_) hshort hi ?_ hr
    · have hn : 0 + n = k.missing.length := by simpa using hcount
      rw [Errand.pushed, ← hn]
      rfl
    · -- nothing is left to be pushed, so everything is under way
      intro w hw
      exact (hplace w hw).resolve_left (by simp)
  | pushFails => exact .givenUp rfl hr
  | _ h =>
    rw [h] at hst
    cases hst

/-- The wait ends where nothing is under way any more. -/
theorem walk_waiting
    (hst : s.walk.stage = .readLength k.pushed ∨ s.walk.stage = .polling k.pushed ∨
      ∃ n, s.walk.stage = .readInFlight k.pushed n ∧ (n = 0 → s.importer.queue.items = []))
    (hshort : k.before < k.total) (hi : s.importer.Delivery (.day k.date) k.missing)
    (hplace : ∀ w ∈ k.listed, s.importer.Underway (.day k.date) w)
    (hr : s.walk.report.days = k.days) (hc : c.tracked = true) (hcounted : s.importer.Counted)
    (h : s.walk.Move c r now s.importer b i v) : Course k ⟨i, v⟩ := by
  cases h with
  | length h =>
    rw [h] at hst
    rcases hst with hst | hst | ⟨n, hst, -⟩
    · cases hst
      -- a queue that is seen to be empty stays so, as the walk has pushed everything
      refine .waiting (.inr (.inr ⟨_, rfl, ?_⟩)) hshort hi hplace hr
      rw [Queue.size_eq]
      exact List.length_eq_zero_iff.mp
    · cases hst
    · cases hst
  | drained h _ hzero =>
    rw [h] at hst
    rcases hst with hst | hst | ⟨n, hst, hempty⟩
    · cases hst
    · cases hst
    · cases hst
      refine .recounting rfl hshort ?_ hr
      intro w hw
      exact (hplace w hw).arrived_of_idle hcounted hzero (hempty rfl)
  | emptied _ hc' =>
    rw [hc] at hc'
    cases hc'
  | busy h =>
    rw [h] at hst
    rcases hst with hst | hst | ⟨n, hst, -⟩
    · cases hst
    · cases hst
    · cases hst
      exact .waiting (.inr (.inl rfl)) hshort hi hplace hr
  | lengthFails => exact .givenUp rfl hr
  | _ h =>
    rw [h] at hst
    rcases hst with hst | hst | ⟨n, hst, -⟩ <;> cases hst

theorem walk_recounting (hst : s.walk.stage = .recount k.pushed)
    (hshort : k.before < k.total)
    (hplace : ∀ w ∈ k.listed, s.importer.depot.archive.HasWithin (.day k.date) w.id)
    (hr : s.walk.report.days = k.days) (hk : k.Feasible)
    (h : s.walk.Move c r now s.importer b i v) : Course k ⟨i, v⟩ := by
  cases h with
  | recounted h =>
    rw [h] at hst
    cases hst
    exact .recounted rfl hshort (hk.le_count hplace) hr
  | recountFails => exact .givenUp rfl hr
  | _ h =>
    rw [h] at hst
    cases hst

/-- One pass was enough. -/
theorem walk_recounted {n : Nat} (hst : s.walk.stage = .pass { k.pushed with after := n })
    (hshort : k.before < k.total) (hn : k.total ≤ n) (hr : s.walk.report.days = k.days)
    (h : s.walk.Move c r now s.importer b i v) : Course k ⟨i, v⟩ := by
  cases h with
  | again h ha =>
    rw [h] at hst
    cases hst
    have hlt : n < k.total := ha
    omega
  | close h =>
    rw [h] at hst
    cases hst
    exact .closed (congrArg (· ++ [_]) hr) (Errand.completed_pushed hshort hn)
  | _ h =>
    rw [h] at hst
    cases hst

theorem walk (hs : Course k s) (hk : k.Feasible) (hc : c.tracked = true)
    (hpasses : 1 ≤ c.datePasses) (hstats : r.statsOnly = false) (hcounted : s.importer.Counted)
    (hok : Served k s (.walk now b)) (h : s.walk.Move c r now s.importer b i v) :
    Course k ⟨i, v⟩ := by
  cases hs with
  | counting hst hi hr => exact walk_counting hst hi hr hstats h
  | opened hst hi hr => exact walk_opened hst hi hr hpasses h
  | listing hst hshort hi hr => exact walk_listing hst hshort hi hr hok h
  | looking hst hshort hi hr => exact walk_looking hst hshort hi hr hk h
  | pushing hst hshort hi hcount hleft hplace hr =>
    exact walk_pushing hst hshort hi hcount hleft hplace hr h
  | waiting hst hshort hi hplace hr => exact walk_waiting hst hshort hi hplace hr hc hcounted h
  | recounting hst hshort hplace hr => exact walk_recounting hst hshort hplace hr hk h
  | recounted hst hshort hn hr => exact walk_recounted hst hshort hn hr h
  | @closed day ds hr hday =>
    obtain ⟨ds', hds⟩ := h.days
    have hdays : v.report.days = k.days ++ day :: (ds ++ ds') := by
      rw [hds, hr, List.append_assoc, List.cons_append]
    exact .closed hdays hday
  | givenUp hst _ => exact absurd h (Walk.not_move_ended hst)

end walk

/-! ### Waits and cancellation -/

theorem wake {v : Walk} (hs : Course k s) (h : s.walk.Wake v) :
    Course k { s with walk := v } := by
  cases hs with
  | counting hst | opened hst | looking hst | pushing hst | recounting hst | recounted hst
  | givenUp hst =>
    cases h with
    | _ h =>
      rw [hst] at h
      cases h
  | listing hst hshort hi hr =>
    rcases hst with hst | hst <;> cases h <;> rename_i h <;> rw [hst] at h <;> cases h
    exact .listing (.inl rfl) hshort hi hr
  | waiting hst hshort hi hplace hr =>
    rcases hst with hst | hst | ⟨n, hst, -⟩ <;> cases h <;> rename_i h <;> rw [hst] at h <;> cases h
    exact .waiting (.inl rfl) hshort hi hplace hr
  | closed hr hday => exact .closed (h.report_eq ▸ hr) hday

/-- A cancellation is noticed only at the next wait or the next day. -/
theorem cancel (hs : Course k s) :
    Course k { s with walk := { s.walk with cancelled := true } } := by
  cases hs with
  | counting hst hi hr => exact .counting hst hi hr
  | opened hst hi hr => exact .opened hst hi hr
  | listing hst hshort hi hr => exact .listing hst hshort hi hr
  | looking hst hshort hi hr => exact .looking hst hshort hi hr
  | pushing hst hshort hi hcount hleft hplace hr =>
    exact .pushing hst hshort hi hcount hleft hplace hr
  | waiting hst hshort hi hplace hr => exact .waiting hst hshort hi hplace hr
  | recounting hst hshort hplace hr => exact .recounting hst hshort hplace hr
  | recounted hst hshort hn hr => exact .recounted hst hshort hn hr
  | closed hr hday => exact .closed hr hday
  | givenUp hst hr => exact .givenUp hst hr

/-! ### Runs -/

theorem step (hs : Course k s) (hk : k.Feasible) (hc : c.tracked = true)
    (hpasses : 1 ≤ c.datePasses) (hstats : r.statsOnly = false) (ht : s.importer.Tidy ic)
    (hcounted : s.importer.Counted) (hok : Served k s e)
    (step : (backfill ic c r).next? s e = some t) : Course k t := by
  cases World.step_of_next? step with
  | walk h => exact hs.walk hk hc hpasses hstats hcounted hok h
  | wake h => exact hs.wake h
  | interrupt => exact hs.give s.importer .cancelled
  | cancel => exact hs.cancel
  | importer h => exact hs.importer ht (Import.World.step_of_next? h) hok

end Course

theorem course_of_run {ic : Import.Config} {c : Config} {r : Request} {k : Errand} {s t : World}
    {j : List Mark} (hk : k.Feasible) (hc : c.tracked = true) (hpasses : 1 ≤ c.datePasses)
    (hstats : r.statsOnly = false) (hs : s.importer.Tidy ic ∧ s.importer.Counted)
    (hcourse : Course k s) (h : (backfill ic c r).Run (Served k) s j t) : Course k t := by
  induction h with
  | nil => exact hcourse
  | @snoc j t u e h allowed step ih =>
    -- the count of items in flight is right at every step, by the run of the importer so far
    have himporter := importer_run (fun _ _ _ => trivial) (h.mono Served.noCrash)
    obtain ⟨ht, hcounted⟩ := Import.counted_of_run (fun _ _ hok => hok) himporter hs
    exact ih.step hk hc hpasses hstats ht hcounted allowed step

/-- **A day is completed in one pass.** A walk that sees the items in flight comes to a day while
nothing is queued or in flight, and some killmails `ks` are stored. The listing of the day names at
least as many ids as there are to be; what is stored of these has a time of the day; and what is not
stored is fetched and decoded to a killmail with a time of the day. Nobody else pushes, no worker
breaks down, and neither the archive nor an entry of the queue is lost. However the walk and the
importer interleave, if the walk reports the day, then it is complete and has had no pass if it was
so before, and otherwise one pass in which all listed items were enqueued whose id was not
stored. -/
theorem day_completed {ic : Import.Config} {c : Config} {r : Request} {q : Queue} {a₀ a : Archive}
    {ks : List Killmail} {admission : Admission.State} {j₀ j : List Mark} {s t : World} {d : Date}
    {total : Nat} {l : List WorkItem} {day : DayReport} (hc : c.tracked = true)
    (hpasses : 1 ≤ c.datePasses) (hstats : r.statsOnly = false)
    (h₀ : (Import.importer ic).Run NoCrash (.start q a₀ admission) j₀ s.importer)
    (hqueue : s.importer.queue.items = []) (hflight : s.importer.inFlight = 0)
    (harchive : s.importer.depot.archive = a) (hkept : a.only ks = a)
    (hstage : s.walk.stage = .count d total)
    (henough : total ≤ (l.map WorkItem.id).toFinset.card)
    (hstored : ∀ w ∈ l, ∀ k ∈ ks, k.id = w.id → (Range.day d).contains k.time = true)
    (h : (backfill ic c r).Run (Served ⟨d, total, l, a, s.walk.report.days⟩) s j t)
    (hreport : t.walk.report.days = s.walk.report.days ++ [day]) :
    day.date = d ∧ day.total = total ∧ day.before = a.count (Walk.filter d) ∧
      day.isComplete = true ∧
      (total ≤ day.before → day.passes = 0 ∧ day.enqueued = 0) ∧
      (day.before < total →
        day.passes = 1 ∧ day.enqueued = (l.filter fun w => !a.contains w.id).length) := by
  have hcounted := Import.counted_of_run (fun _ _ hok => hok) h₀ ⟨.start q a₀ admission, rfl⟩
  have hfeasible : Errand.Feasible ⟨d, total, l, a, s.walk.report.days⟩ := {
    kept := ⟨ks, hkept⟩
    enough := henough
    sound := fun w hw hid => Archive.hasWithin_of_only hkept (hstored w hw) hid }
  have hstill : s.importer.Still a := harchive ▸ .of_counted hcounted.2 hflight hqueue
  have hcourse := course_of_run hfeasible hc hpasses hstats hcounted
    (.counting hstage hstill rfl) h
  -- the report was added at the end of the course
  rcases hcourse.days with hr | ⟨day', ds, hr, hday⟩
  · rw [hreport] at hr
    exact absurd hr (by simp)
  · rw [hreport] at hr
    obtain ⟨rfl, -⟩ := List.cons.inj (List.append_cancel_left hr)
    refine ⟨hday.date, hday.total, hday.before, decide_eq_true ?_, ?_, ?_⟩
    · rw [hday.total]
      exact hday.after
    · rw [hday.before]
      exact hday.nothing
    · rw [hday.before]
      exact hday.pass

/-! ## One day with two items of one id -/

namespace Twins

def date : Date := ⟨2024, 1, 1, Eq.refl true⟩

/-- The id 5 is stored, and the id 7 is missing. -/
def listed : List WorkItem := [⟨5, "a"⟩, ⟨7, "b"⟩, ⟨7, "c"⟩]

/-- A killmail of the id 5. -/
def stored : List Killmail :=
  ((Import.decoded? ⟨7, "a"⟩ (.ok Import.bodyOfSeven)).map fun k => { k with id := 5 }).toList

def archive : Archive := .table ⟨stored.map Killmail.row⟩

def importing : Import.Config := ⟨2, .service, ⟨false, false⟩⟩

def config : Config := ⟨1, 1, 1, 1, true⟩

def start : World :=
  ⟨.start (.memory .empty) archive .green, { Walk.start with stage := .count date 2 }⟩

/-- The walk takes its next step. -/
def walk : Event := .walk .epoch .done

/-- Two workers fetch the two items of the id 7 at once, and the first of them stores it. The walk
finds the queue filled as it first asks. -/
def events : List Event := [
  [walk, walk, .walk .epoch (.listing (.ok listed))], List.replicate 8 walk, [.wake],
  List.replicate 10 (.importer .loop),
  [.importer (.work 0 .done), .importer (.work 1 .done),
    .importer (.work 0 (.fetched (.ok Import.bodyOfSeven))),
    .importer (.work 1 (.fetched (.ok Import.bodyOfSeven)))],
  List.replicate 3 (.importer (.work 0 .done)), List.replicate 3 (.importer (.work 1 .done)),
  List.replicate 4 walk].flatten

def report : DayReport := ⟨date, 2, 1, 2, 2, 1⟩

theorem reaches_report :
    (backfill importing config (.day date)).reaches (Served ⟨date, 2, listed, archive, []⟩) start
      events (·.walk.report.days = [report]) = true := by
  decide +kernel

theorem report_complete :
    ∃ j t, (backfill importing config (.day date)).Run (Served ⟨date, 2, listed, archive, []⟩)
        start j t ∧ t.walk.report.days = [report] ∧ report.isComplete = true ∧ report.passes = 1 ∧
        report.enqueued = (listed.filter fun w => !archive.contains w.id).length := by
  obtain ⟨j, t, hrun, hreport⟩ := Machine.exists_run_of_reaches reaches_report
  have hreport : t.walk.report.days = start.walk.report.days ++ [report] :=
    of_decide_eq_true hreport
  have hpasses : 1 ≤ config.datePasses := by decide
  have hkept : archive.only stored = archive := rfl
  have henough : 2 ≤ (listed.map WorkItem.id).toFinset.card := by decide
  have hstored : ∀ w ∈ listed, ∀ k ∈ stored, k.id = w.id →
      (Range.day date).contains k.time = true := by decide +kernel
  obtain ⟨-, -, -, hcomplete, -, hpass⟩ :=
    day_completed rfl hpasses rfl .nil rfl rfl rfl hkept rfl henough hstored hrun hreport
  have hshort : report.before < 2 := by decide
  exact ⟨j, t, hrun, hreport, hcomplete, hpass hshort⟩

end Twins

end Harvest.Backfill
