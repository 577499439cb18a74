import Harvest.Proofs.Backfill.Completeness

/-! # The passes over a day

A walk works on a day in passes. Each pass asks for the listing until it is given, looks up which of
the listed ids are stored, pushes the other items in the order of the listing, waits for the drain
if there were any, and counts again. Passes are made while the count falls short of the total, but
not more than a fixed number of them.

The stores are not at rest meanwhile. Between any two steps of the walk the queue and the archive
may have become whatever others have made of them, so that a listing, a lookup and a count tell only
of the moment at which they were asked for.

The key idea is that the report is a function of the passes made: the journal of a walk at its work
is what the passes did, one after another, and at each place between two passes the report is that
of the passes so far.

## Main definitions

* `Act`, `amid`: what is seen of a walk on a day, and a walk among others.
* `Pass`: what a pass learns, and what it does.
* `Assignment.report`: the report of passes over a day.
* `Standing`: where the walk stands, by what it has done.

## Main statements

* `pushes_of_mark`, `importer_of_no_mark`: the walk pushes what it is seen to push, and nothing else.
* `Standing.step`: the walk stands where its journal says, after every step.
* `day_worked`: the report of a day by what was done for it.
-/

namespace Harvest

namespace Archive

/-- The archive keeps killmails, and nothing else. -/
def Proper (a : Archive) : Prop := ∃ ks, a.only ks = a

theorem Proper.prepend {a : Archive} (h : a.Proper) (ks : List Killmail) :
    (a.prepend ks).Proper := by
  obtain ⟨ls, hls⟩ := h
  refine ⟨ks ++ ls, ?_⟩
  cases a with
  | memory a =>
    have hls : ls = a.killmails := congrArg MemoryArchive.killmails (memory.inj hls)
    rw [hls]
    rfl
  | table a =>
    have hls : ls.map Killmail.row = a.rows := congrArg TableArchive.rows (table.inj hls)
    rw [Archive.prepend, only, List.map_append, hls]

end Archive

namespace Backfill

open Harvest.Calendar

/-! ## A walk among others -/

/-- An event of a walk or its importer, or a change that others make to the stores. -/
inductive Happening where
  | event (e : Event)
  | stores (i : Import.World)

/-- What is seen of a walk at its work on a day. -/
inductive Act where
  /-- The day is counted before it is worked on. -/
  | counted (a : Archive)
  /-- The listing is asked for, and is not given. -/
  | refused (e : SourceError)
  | listed (l : List WorkItem)
  /-- The listed ids are looked up. -/
  | looked (a : Archive)
  | pushed (w : WorkItem)
  | drained
  /-- The day is counted at the end of a pass. -/
  | recounted (a : Archive)
  /-- The report of the day is made. -/
  | closed (day : DayReport)

/-- What is seen of a step of a walk. -/
def Walk.act? (c : Config) (i : Import.World) (w : Walk) (a : Answer) : Option Act :=
  match w.stage, a with
  | .count _ _, .done => some (.counted i.depot.archive)
  | .pass day, .done =>
    if day.after < day.total ∧ day.passes < c.datePasses then none else some (.closed day)
  | .list _ _, .listing (.ok l) => some (.listed l)
  | .list _ _, .listing (.error e) => some (.refused e)
  | .lookup _ _, .done => some (.looked i.depot.archive)
  | .push _ _ _ (x :: _) _, .done => some (.pushed x)
  | .readInFlight _ queued, .done =>
    if c.tracked = true ∧ queued = 0 ∧ i.inFlight = 0 then some .drained else none
  | .recount _, .done => some (.recounted i.depot.archive)
  | _, _ => none

/-- What is seen of an event. Where the items in flight cannot be seen, the drain ends with a
wait. -/
def World.act? (c : Config) (s : World) : Event → Option Act
  | .walk _ a => s.walk.act? c s.importer a
  | .wake =>
    match s.walk.stage with
    | .settling _ => some .drained
    | _ => none
  | .interrupt | .cancel | .importer _ => none

/-- A walk with an importer beside it, amid others who change the stores, as a machine. -/
def amid (ic : Import.Config) (c : Config) (r : Request) : Machine World Happening Act where
  next? s
    | .event e => s.next? ic c r e
    | .stores i => some { s with importer := i }
  mark? s
    | .event e => s.act? c e
    | .stores _ => none

/-- A walk pushes an item onto the queue, and leaves the stores alone but for that. -/
def World.Pushes (s : World) (x : WorkItem) (t : World) : Prop :=
  ∃ score, t.importer = { s.importer with queue := s.importer.queue.push x score }

section pushing

variable {ic : Import.Config} {c : Config} {r : Request} {s t : World} {x : WorkItem}

theorem Walk.stage_of_pushed {i : Import.World} {w : Walk} {a : Answer}
    (h : w.act? c i a = some (.pushed x)) :
    a = .done ∧ ∃ day n score chunk rest, w.stage = .push day n score (x :: chunk) rest := by
  unfold act? at h
  split at h
  case h_6 hst =>
    cases h
    exact ⟨rfl, _, _, _, _, _, hst⟩
  all_goals first
    | cases h
    | split at h <;> cases h

/-- Where an item is seen pushed, it is pushed onto the queue. -/
theorem pushes_of_mark {e : Happening} (step : (amid ic c r).next? s e = some t)
    (hmark : (amid ic c r).mark? s e = some (.pushed x)) : s.Pushes x t := by
  cases e with
  | stores => cases hmark
  | event e =>
    cases e with
    | walk now a =>
      -- the mark is read off the place, and at this place the step can only push
      obtain ⟨rfl, day, n, score, chunk, rest, hst⟩ := Walk.stage_of_pushed hmark
      obtain ⟨⟨i, v⟩, hstep, rfl⟩ := Option.map_eq_some_iff.mp step
      unfold Walk.step? at hstep
      rw [hst] at hstep
      cases hstep
      exact ⟨score, rfl⟩
    | wake =>
      have hdrained : (match s.walk.stage with
        | .settling _ => some Act.drained
        | _ => none) = some (.pushed x) := hmark
      split at hdrained <;> cases hdrained
    | interrupt | cancel | importer => cases hmark

/-- A step of the walk in which no item is seen pushed leaves the stores alone. -/
theorem importer_of_no_mark {now : Instant} {a : Answer}
    (step : (amid ic c r).next? s (.event (.walk now a)) = some t)
    (hmark : ∀ x, (amid ic c r).mark? s (.event (.walk now a)) ≠ some (.pushed x)) :
    t.importer = s.importer := by
  have hstep : s.Step ic c r (.walk now a) t := World.step_of_next? step
  cases hstep with
  | walk h =>
    cases h with
    | @push _ _ _ x _ _ h =>
      have hpushed : s.walk.act? c s.importer .done = some (.pushed x) := by
        simp only [Walk.act?, h]
      exact absurd hpushed (hmark x)
    | _ => rfl

end pushing

/-- Whatever others do, the archive keeps killmails and nothing else. -/
def KeepsKillmails (_ : World) : Happening → Prop
  | .event _ => True
  | .stores i => i.depot.archive.Proper

/-! ## Passes -/

/-- What a pass finds out before it pushes anything. -/
structure Survey where
  /-- What the source answered before it gave the listing. -/
  refusals : List SourceError
  listed : List WorkItem
  /-- What is stored as the listed ids are looked up. -/
  stored : Archive

/-- A pass over a day. -/
structure Pass extends Survey where
  /-- What is stored as the day is counted again. -/
  recounted : Archive

namespace Survey

variable (q : Survey)

def missing : List WorkItem := missingFrom q.listed q.stored

/-- One listing, after any number of refusals, and one lookup. -/
def asked : List Act := q.refusals.map .refused ++ [.listed q.listed, .looked q.stored]

/-- All that is missing is pushed in order, and if it is anything the queue is drained. -/
def acts : List Act :=
  q.asked ++ q.missing.map .pushed ++ if q.missing = [] then [] else [.drained]

end Survey

def Pass.acts (p : Pass) : List Act := p.toSurvey.acts ++ [.recounted p.recounted]

/-- What is seen of a walk that counts the day and makes passes over it. -/
def history (a : Archive) (ps : List Pass) : List Act := .counted a :: ps.flatMap Pass.acts

theorem history_concat {a : Archive} {ps : List Pass} {p : Pass} :
    history a (ps ++ [p]) = history a ps ++ (p.toSurvey.acts ++ [.recounted p.recounted]) := by
  simp [history, Pass.acts]

/-- A day that a walk is to work on. -/
structure Assignment where
  date : Date
  total : Nat
  /-- The reports of the days before. -/
  days : List DayReport

namespace Assignment

variable {c : Config} (k : Assignment) {a : Archive} {ps qs : List Pass} {p : Pass}

/-- What was counted last. -/
def counted (a : Archive) (ps : List Pass) : Nat :=
  ((ps.getLast?.map Pass.recounted).getD a).count (Walk.filter k.date)

/-- The report of passes over a day, which was first counted in an archive. -/
def report (a : Archive) (ps : List Pass) : DayReport :=
  { date := k.date
    total := k.total
    before := a.count (Walk.filter k.date)
    after := k.counted a ps
    enqueued := totalOf (fun p => p.missing.length) ps
    passes := ps.length }

/-- The report during a pass that has pushed a number of items. -/
def during (a : Archive) (ps : List Pass) (pushed : Nat) : DayReport :=
  { k.report a ps with
    enqueued := (k.report a ps).enqueued + pushed
    passes := (k.report a ps).passes + 1 }

/-- Another pass is to be made. -/
def Due (c : Config) (a : Archive) (ps : List Pass) : Prop :=
  k.counted a ps < k.total ∧ ps.length < c.datePasses

/-- Each of the passes was to be made. -/
def Worked (c : Config) (a : Archive) (ps : List Pass) : Prop :=
  ∀ qs, qs <+: ps → qs ≠ ps → k.Due c a qs

/-- A pass is being made. -/
def Begun (c : Config) (a : Archive) (ps : List Pass) : Prop := k.Worked c a ps ∧ k.Due c a ps

variable {k}

theorem report_concat : k.report a (ps ++ [p]) =
    { k.during a ps p.missing.length with after := p.recounted.count (Walk.filter k.date) } := by
  simp [report, during, counted, totalOf_append]

theorem worked_nil : k.Worked c a [] := by
  intro qs hqs hne
  exact absurd (List.prefix_nil.mp hqs) hne

theorem Begun.worked_concat (h : k.Begun c a ps) (p : Pass) : k.Worked c a (ps ++ [p]) := by
  intro qs hqs hne
  rcases List.prefix_concat_iff.mp hqs with hqs | hqs
  · exact absurd hqs hne
  · by_cases heq : qs = ps
    · exact heq ▸ h.2
    · exact h.1 qs hqs heq

/-- There are not more passes than allowed. -/
theorem Worked.length_le (h : k.Worked c a ps) : ps.length ≤ c.datePasses := by
  rcases List.eq_nil_or_concat ps with rfl | ⟨qs, p, rfl⟩
  · exact Nat.zero_le _
  · rw [List.concat_eq_append] at h ⊢
    have hdue := h qs (List.prefix_append qs [p]) (by simp)
    rw [List.length_append]
    exact hdue.2

/-- No pass is made just if none was to be made. -/
theorem Worked.eq_nil_iff (h : k.Worked c a ps) (hend : ¬ k.Due c a ps) :
    ps.length = 0 ↔ k.total ≤ a.count (Walk.filter k.date) ∨ c.datePasses = 0 := by
  have hnil : k.Due c a [] ↔ a.count (Walk.filter k.date) < k.total ∧ 0 < c.datePasses := Iff.rfl
  rw [List.length_eq_zero_iff]
  constructor
  · rintro rfl
    rw [hnil] at hend
    omega
  · intro hdone
    by_contra hne
    have hdue := hnil.mp (h [] List.nil_prefix (Ne.symm hne))
    omega

end Assignment

/-! ## Where the walk stands -/

/-- The walk is at its work: the journal, and its next step. -/
inductive Working (c : Config) (k : Assignment) : List Act → Stage → Prop where
  | counting : Working c k [] (.count k.date k.total)
  | between {a : Archive} {ps : List Pass} (hw : k.Worked c a ps) :
      Working c k (history a ps) (.pass (k.report a ps))
  | listing {a : Archive} {ps : List Pass} {attempt : Nat} (hb : k.Begun c a ps)
      (refusals : List SourceError) :
      Working c k (history a ps ++ refusals.map .refused) (.list (k.during a ps 0) attempt)
  | backoff {a : Archive} {ps : List Pass} {attempt : Nat} (hb : k.Begun c a ps)
      (refusals : List SourceError) :
      Working c k (history a ps ++ refusals.map .refused) (.backoff (k.during a ps 0) attempt)
  | looking {a : Archive} {ps : List Pass} {l : List WorkItem} (hb : k.Begun c a ps)
      (refusals : List SourceError) :
      Working c k (history a ps ++ (refusals.map .refused ++ [.listed l]))
        (.lookup (k.during a ps 0) l)
  /-- What is missing was pushed in part, and the rest is at hand. -/
  | pushing {a : Archive} {ps : List Pass} {q : Survey} {score : Int} {chunk : List WorkItem}
      {rest : List (List WorkItem)} (hb : k.Begun c a ps) (done : List WorkItem)
      (hq : done ++ (chunk ++ rest.flatten) = q.missing) (hne : q.missing ≠ []) :
      Working c k (history a ps ++ (q.asked ++ done.map .pushed))
        (.push (k.during a ps 0) done.length score chunk rest)
  | pushed {a : Archive} {ps : List Pass} {q : Survey} (hb : k.Begun c a ps)
      (hne : q.missing ≠ []) :
      Working c k (history a ps ++ (q.asked ++ q.missing.map .pushed))
        (.readLength (k.during a ps q.missing.length))
  | draining {a : Archive} {ps : List Pass} {q : Survey} {queued : Nat} (hb : k.Begun c a ps)
      (hne : q.missing ≠ []) :
      Working c k (history a ps ++ (q.asked ++ q.missing.map .pushed))
        (.readInFlight (k.during a ps q.missing.length) queued)
  | polling {a : Archive} {ps : List Pass} {q : Survey} (hb : k.Begun c a ps)
      (hne : q.missing ≠ []) :
      Working c k (history a ps ++ (q.asked ++ q.missing.map .pushed))
        (.polling (k.during a ps q.missing.length))
  | settling {a : Archive} {ps : List Pass} {q : Survey} (hb : k.Begun c a ps)
      (hne : q.missing ≠ []) :
      Working c k (history a ps ++ (q.asked ++ q.missing.map .pushed))
        (.settling (k.during a ps q.missing.length))
  | recounting {a : Archive} {ps : List Pass} (q : Survey) (hb : k.Begun c a ps) :
      Working c k (history a ps ++ q.acts) (.recount (k.during a ps q.missing.length))

/-- The day was worked on until no pass was due, and its report was made. -/
def Finished (c : Config) (k : Assignment) (j : List Act) (days : List DayReport) : Prop :=
  ∃ a ps rest more, k.Worked c a ps ∧ ¬ k.Due c a ps ∧
    j = history a ps ++ .closed (k.report a ps) :: rest ∧
    days = k.days ++ k.report a ps :: more

theorem Finished.append {c : Config} {k : Assignment} {j : List Act} {days : List DayReport}
    (h : Finished c k j days) (l : List Act) (ds : List DayReport) :
    Finished c k (j ++ l) (days ++ ds) := by
  obtain ⟨a, ps, rest, more, hw, hend, rfl, rfl⟩ := h
  exact ⟨a, ps, rest ++ l, more ++ ds, hw, hend, by simp, by simp⟩

/-- Where the walk stands, by what was seen of it. -/
inductive Standing (c : Config) (k : Assignment) (j : List Act) (w : Walk) : Prop where
  | working (h : Working c k j w.stage) (hr : w.report.days = k.days)
  | finished (h : Finished c k j w.report.days)
  | givenUp {e : Abort} (h : w.stage = .ended (.error e)) (hr : w.report.days = k.days)

/-! ## The steps of the work -/

namespace Working

variable {c : Config} {k : Assignment} {j : List Act} {day : DayReport}

/-- Another pass is begun. -/
theorem again (h : Working c k j (.pass day)) (ha : day.after < day.total)
    (hp : day.passes < c.datePasses) :
    Working c k j (.list { day with passes := day.passes + 1 } 1) := by
  cases h with
  | @between a ps hw =>
    have hlisting : Working c k (history a ps ++ [].map .refused) (.list (k.during a ps 0) 1) :=
      .listing ⟨hw, ha, hp⟩ []
    rwa [List.map_nil, List.append_nil] at hlisting

/-- The report is made. -/
theorem close (h : Working c k j (.pass day))
    (ha : ¬ (day.after < day.total ∧ day.passes < c.datePasses)) :
    Finished c k (j ++ [.closed day]) (k.days ++ [day]) := by
  cases h with
  | @between a ps hw => exact ⟨a, ps, [], [], hw, ha, rfl, rfl⟩

theorem refuse {attempt : Nat} (h : Working c k j (.list day attempt)) (e : SourceError) :
    Working c k (j ++ [.refused e]) (.backoff day attempt) := by
  cases h with
  | listing hb refusals =>
    rw [List.append_assoc, ← List.map_singleton, ← List.map_append]
    exact .backoff hb (refusals ++ [e])

theorem receive {attempt : Nat} (h : Working c k j (.list day attempt)) (l : List WorkItem) :
    Working c k (j ++ [.listed l]) (.lookup day l) := by
  cases h with
  | listing hb refusals =>
    rw [List.append_assoc]
    exact .looking hb refusals

/-- Nothing is missing, and the pass goes on to its end. -/
theorem nothing {l : List WorkItem} {a : Archive} (h : Working c k j (.lookup day l))
    (hm : missingFrom l a = []) : Working c k (j ++ [.looked a]) (.recount day) := by
  cases h with
  | looking hb refusals =>
    have hmissing : (Survey.mk refusals l a).missing = [] := hm
    have hrecount := Working.recounting ⟨refusals, l, a⟩ hb
    rw [Survey.acts, if_pos hmissing, hmissing, Survey.asked] at hrecount
    simpa using hrecount

theorem dispatch {l : List WorkItem} {a : Archive} (h : Working c k j (.lookup day l))
    (hm : missingFrom l a ≠ []) (size : Nat) :
    Working c k (j ++ [.looked a]) (.push day 0 0 [] (chunksOf size (missingFrom l a))) := by
  cases h with
  | looking hb refusals =>
    have hlist : [] ++ ([] ++ (chunksOf size (missingFrom l a)).flatten) = missingFrom l a :=
      flatten_chunksOf size _
    have hpush : Working c k _ (.push _ 0 0 [] (chunksOf size (missingFrom l a))) :=
      .pushing (q := ⟨refusals, l, a⟩) hb [] hlist hm
    simpa [Survey.asked] using hpush

theorem push {n : Nat} {score : Int} {x : WorkItem} {chunk : List WorkItem}
    {rest : List (List WorkItem)} (h : Working c k j (.push day n score (x :: chunk) rest)) :
    Working c k (j ++ [.pushed x]) (.push day (n + 1) score chunk rest) := by
  cases h with
  | @pushing a ps q _ _ _ hb done hq hne =>
    have hlist : (done ++ [x]) ++ (chunk ++ rest.flatten) = q.missing := by
      rw [← hq]
      simp
    have hpush : Working c k _ (.push _ _ score chunk rest) := .pushing hb (done ++ [x]) hlist hne
    simpa using hpush

theorem nextChunk {n : Nat} {score : Int} {chunk : List WorkItem} {rest : List (List WorkItem)}
    (h : Working c k j (.push day n score [] (chunk :: rest))) (score' : Int) :
    Working c k j (.push day n score' chunk rest) := by
  cases h with
  | pushing hb done hq hne => exact .pushing hb done hq hne

/-- All that is missing has been pushed. -/
theorem finishPush {n : Nat} {score : Int} (h : Working c k j (.push day n score [] [])) :
    Working c k j (.readLength { day with enqueued := day.enqueued + n }) := by
  cases h with
  | @pushing a ps q _ _ _ hb done hq hne =>
    have hdone : done = q.missing := by simpa using hq
    rw [hdone]
    exact .pushed hb hne

theorem drain {queued : Nat} (h : Working c k j (.readInFlight day queued)) :
    Working c k (j ++ [.drained]) (.recount day) := by
  cases h with
  | @draining a ps q _ hb hne =>
    have hrecount := Working.recounting q hb
    rw [Survey.acts, if_neg hne, ← List.append_assoc] at hrecount
    exact hrecount

theorem settle (h : Working c k j (.settling day)) :
    Working c k (j ++ [.drained]) (.recount day) := by
  cases h with
  | settling hb hne =>
    have hdraining : Working c k _ (.readInFlight _ 0) := .draining hb hne
    exact hdraining.drain

/-- A pass ends with a count. -/
theorem recount (h : Working c k j (.recount day)) (a : Archive) :
    Working c k (j ++ [.recounted a])
      (.pass { day with after := a.count (Walk.filter day.date) }) := by
  cases h with
  | recounting q hb =>
    have hbetween := Working.between (hb.worked_concat ⟨q, a⟩)
    rwa [history_concat, Assignment.report_concat, ← List.append_assoc] at hbetween

end Working

/-! ## Where the walk stands after a step -/

variable {ic : Import.Config} {c : Config} {r : Request} {k : Assignment} {j : List Act}

namespace Standing

section walk

variable {now : Instant} {i i' : Import.World} {w v : Walk} {b : Answer}

/-- A walk at its work goes on with it, makes the report, or gives up. -/
theorem of_working (hs : Working c k j w.stage) (hr : w.report.days = k.days)
    (hstats : r.statsOnly = false) (hi : i.depot.archive.Proper) (h : w.Move c r now i b i' v) :
    Standing c k (j ++ (w.act? c i b).toList) v := by
  obtain ⟨ks, hks⟩ := hi
  cases h with
  | totals h | totalsFail h | cancelled h | finish h | date h | skip h | giveUpDates h =>
    rw [h] at hs
    cases hs
  | countFails | giveUpDay h | findFails | lookupFails | pushFails | lengthFails | recountFails =>
    exact .givenUp rfl hr
  | compared _ hstats' =>
    rw [hstats] at hstats'
    cases hstats'
  | counted h =>
    rw [h] at hs
    cases hs
    simp only [Walk.act?, h]
    have hbetween : Working c k (history i.depot.archive [])
        (.pass (k.report i.depot.archive [])) := .between Assignment.worked_nil
    exact .working hbetween hr
  | again h ha hp =>
    rw [h] at hs
    simp only [Walk.act?, h, if_pos (And.intro ha hp), Option.toList_none, List.append_nil]
    exact .working (hs.again ha hp) hr
  | close h ha =>
    rw [h] at hs
    simp only [Walk.act?, h, if_neg ha]
    have hfinished := hs.close ha
    rw [← hr] at hfinished
    exact .finished hfinished
  | listed h =>
    rw [h] at hs
    simp only [Walk.act?, h]
    exact .working (hs.receive _) hr
  | retry h =>
    rw [h] at hs
    simp only [Walk.act?, h]
    exact .working (hs.refuse _) hr
  | nothing h hf hm =>
    rw [h] at hs
    rw [missingItems_eq hks hf] at hm
    simp only [Walk.act?, h]
    exact .working (hs.nothing hm) hr
  | dispatch h hf hm =>
    rw [h] at hs
    rw [missingItems_eq hks hf] at hm ⊢
    simp only [Walk.act?, h]
    exact .working (hs.dispatch hm _) hr
  | push h =>
    rw [h] at hs
    simp only [Walk.act?, h]
    exact .working hs.push hr
  | chunk h =>
    rw [h] at hs
    simp only [Walk.act?, h, Option.toList_none, List.append_nil]
    exact .working (hs.nextChunk _) hr
  | pushed h =>
    rw [h] at hs
    simp only [Walk.act?, h, Option.toList_none, List.append_nil]
    exact .working hs.finishPush hr
  | length h =>
    rw [h] at hs
    simp only [Walk.act?, h, Option.toList_none, List.append_nil]
    cases hs with
    | pushed hb hne => exact .working (.draining hb hne) hr
  | drained h hc hzero =>
    rw [h] at hs
    simp only [Walk.act?, h, hc, hzero, and_self, if_true]
    exact .working hs.drain hr
  | emptied h hc =>
    rw [h] at hs
    simp only [Walk.act?, h, hc, Bool.false_eq_true, false_and, if_false, Option.toList_none,
      List.append_nil]
    cases hs with
    | draining hb hne => exact .working (.settling hb hne) hr
  | @busy _ queued h hbusy =>
    have hnone : ¬ (c.tracked = true ∧ queued = 0 ∧ i.inFlight = 0) := by
      rintro ⟨-, hq, hzero⟩
      omega
    rw [h] at hs
    simp only [Walk.act?, h, if_neg hnone, Option.toList_none, List.append_nil]
    cases hs with
    | draining hb hne => exact .working (.polling hb hne) hr
  | recounted h =>
    rw [h] at hs
    simp only [Walk.act?, h]
    exact .working (hs.recount _) hr

theorem move (hs : Standing c k j w) (hstats : r.statsOnly = false)
    (hi : i.depot.archive.Proper) (h : w.Move c r now i b i' v) :
    Standing c k (j ++ (w.act? c i b).toList) v := by
  cases hs with
  | working hs hr => exact of_working hs hr hstats hi h
  | finished hf =>
    obtain ⟨ds, hds⟩ := h.days
    exact .finished (hds ▸ hf.append _ ds)
  | givenUp hst _ => exact absurd h (Walk.not_move_ended hst)

end walk

variable {s t : World} {x : Happening}

theorem wake {v : Walk} (hs : Standing c k j s.walk) (h : s.walk.Wake v) :
    Standing c k (j ++ (s.act? c .wake).toList) v := by
  cases hs with
  | finished hf =>
    have hmore := hf.append (s.act? c .wake).toList []
    rw [List.append_nil, ← h.report_eq] at hmore
    exact .finished hmore
  | givenUp hst _ =>
    cases h <;> rename_i h <;> rw [hst] at h <;> cases h
  | working hs hr =>
    cases h with
    | again h =>
      rw [h] at hs
      simp only [World.act?, h, Option.toList_none, List.append_nil]
      cases hs with
      | backoff hb refusals => exact .working (.listing hb refusals) hr
    | poll h =>
      rw [h] at hs
      simp only [World.act?, h, Option.toList_none, List.append_nil]
      cases hs with
      | polling hb hne => exact .working (.pushed hb hne) hr
    | settle h =>
      rw [h] at hs
      simp only [World.act?, h]
      exact .working hs.settle hr
    | rested h =>
      rw [h] at hs
      cases hs

/-- Where the walk stands does not depend on the stores, or on whether it is cancelled. -/
theorem step (hs : Standing c k j s.walk) (hstats : r.statsOnly = false)
    (hi : s.importer.depot.archive.Proper) (step : (amid ic c r).next? s x = some t) :
    Standing c k (j ++ ((amid ic c r).mark? s x).toList) t.walk := by
  have hstay : j ++ (none : Option Act).toList = j := List.append_nil j
  cases x with
  | stores i =>
    cases step
    exact hstay.symm ▸ hs
  | event e =>
    cases World.step_of_next? step with
    | walk h => exact hs.move hstats hi h
    | wake h => exact hs.wake h
    | importer => exact hstay.symm ▸ hs
    | cancel =>
      rw [show (amid ic c r).mark? s (.event .cancel) = none from rfl, hstay]
      cases hs with
      | working hs hr => exact .working hs hr
      | finished hf => exact .finished hf
      | givenUp hst hr => exact .givenUp hst hr
    | interrupt =>
      rw [show (amid ic c r).mark? s (.event .interrupt) = none from rfl, hstay]
      cases hs with
      | working hs hr => exact .givenUp rfl hr
      | finished hf => exact .finished hf
      | givenUp hst hr => exact .givenUp rfl hr

end Standing

/-! ## Runs -/

/-- An archive that keeps killmails goes on to do so. -/
theorem proper_of_step {s t : World} {x : Happening} (hs : s.importer.depot.archive.Proper)
    (allowed : KeepsKillmails s x) (step : (amid ic c r).next? s x = some t) :
    t.importer.depot.archive.Proper := by
  cases x with
  | stores i =>
    cases step
    exact allowed
  | event e =>
    cases World.step_of_next? step with
    | wake | interrupt | cancel => exact hs
    | importer h =>
      obtain ⟨ks, hks, -⟩ := Import.World.archive_of_step (Import.World.step_of_next? h)
      rw [hks]
      exact hs.prepend ks
    | walk h =>
      cases h <;> exact hs

theorem standing_of_run {s t : World} (hstats : r.statsOnly = false)
    (hi : s.importer.depot.archive.Proper) (hs : Standing c k [] s.walk)
    (h : (amid ic c r).Run KeepsKillmails s j t) :
    Standing c k j t.walk ∧ t.importer.depot.archive.Proper := by
  induction h with
  | nil => exact ⟨hs, hi⟩
  | snoc _ allowed step ih =>
    exact ⟨ih.1.step hstats ih.2 step, proper_of_step ih.2 allowed step⟩

/-- In the middle of a run an item is pushed where its journal says so. -/
theorem pushes_of_run {s t : World} {x : WorkItem} {l : List Act}
    (h : (amid ic c r).Run KeepsKillmails s (j ++ .pushed x :: l) t) :
    ∃ u v, (amid ic c r).Run KeepsKillmails s j u ∧ u.Pushes x v ∧
      (amid ic c r).Run KeepsKillmails v l t := by
  obtain ⟨u, e, v, hbefore, -, step, hmark, hafter⟩ := h.exists_step_of_mark
  exact ⟨u, v, hbefore, pushes_of_mark step hmark, hafter⟩

/-- **A day is worked on in passes.** A walk that is to do more than compare comes to a day, on an
archive that keeps killmails. However the walk, its importer and others who change the stores
interleave, and whatever the source and the stores answer, if the walk makes a report, it is that of
the day and of the passes that the journal shows. An item that the journal shows as pushed is pushed
onto the queue at that place of the run. The journal begins with the count and the passes, and the
report follows them. Each pass asks for the listing until it is given, once, looks up what is stored
of it, pushes the listed items whose id is not stored then, in the order of the listing and nothing
else, drains the queue if there were any, and counts again. There are not more passes than allowed,
and fewer only if the last count reached the total. There is none just if the first count did, or if
none is allowed. The report has the first count and the last one, the number of passes, and the
number of items pushed in all of them. -/
theorem day_worked {s t : World} {date : Date} {total : Nat} {day : DayReport}
    {more : List DayReport} (hstats : r.statsOnly = false)
    (hstage : s.walk.stage = .count date total) (hproper : s.importer.depot.archive.Proper)
    (h : (amid ic c r).Run KeepsKillmails s j t)
    (hreport : t.walk.report.days = s.walk.report.days ++ day :: more) :
    (∀ k x l, j = k ++ .pushed x :: l → ∃ u v, (amid ic c r).Run KeepsKillmails s k u ∧
      u.Pushes x v ∧ (amid ic c r).Run KeepsKillmails v l t) ∧
    ∃ (a : Archive) (ps : List Pass) (rest : List Act),
      j = .counted a :: ps.flatMap Pass.acts ++ .closed day :: rest ∧
      day.date = date ∧ day.total = total ∧ day.before = a.count (Walk.filter date) ∧
      day.after = ((ps.getLast?.map Pass.recounted).getD a).count (Walk.filter date) ∧
      day.enqueued = totalOf (fun p => p.missing.length) ps ∧
      day.passes = ps.length ∧ day.passes ≤ c.datePasses ∧
      (total ≤ day.after ∨ day.passes = c.datePasses) ∧
      (day.passes = 0 ↔ total ≤ day.before ∨ c.datePasses = 0) := by
  refine ⟨fun k x l hj => pushes_of_run (hj ▸ h), ?_⟩
  have hcounting : Working c ⟨date, total, s.walk.report.days⟩ [] s.walk.stage :=
    hstage ▸ .counting
  obtain ⟨hstanding, -⟩ := standing_of_run hstats hproper (.working hcounting rfl) h
  -- nothing but the report of the day is added to the reports before it
  have hnone : t.walk.report.days ≠ s.walk.report.days := by
    rw [hreport]
    simp
  cases hstanding with
  | working _ hr => exact absurd hr hnone
  | givenUp _ hr => exact absurd hr hnone
  | finished hf =>
    obtain ⟨a, ps, rest, more', hw, hend, rfl, hdays⟩ := hf
    rw [hreport] at hdays
    obtain ⟨rfl, -⟩ := List.cons.inj (List.append_cancel_left hdays)
    refine ⟨a, ps, rest, rfl, rfl, rfl, rfl, rfl, rfl, rfl, hw.length_le, ?_, hw.eq_nil_iff hend⟩
    have hlength := hw.length_le
    rcases not_and_or.mp hend with hlast | hpasses
    · exact .inl (Nat.le_of_not_lt hlast)
    · exact .inr (by
        show ps.length = c.datePasses
        omega)

/-! ## A day that stays short -/

namespace Short

/-- The stores after others have emptied the queue, with some killmails in memory. -/
def others (ks : List Killmail) : Happening :=
  .stores (.start (.memory .empty) (.memory ⟨ks⟩) .green)

/-- Others keep their killmails in memory. -/
def inMemory : Happening → Bool
  | .event _ => true
  | .stores i =>
    match i.depot.archive with
    | .memory _ => true
    | .table _ => false

theorem keepsKillmails_of_inMemory (s : World) (x : Happening) (h : inMemory x = true) :
    KeepsKillmails s x := by
  cases x with
  | event => trivial
  | stores i =>
    show i.depot.archive.Proper
    unfold inMemory at h
    cases ha : i.depot.archive with
    | memory a => exact ⟨a.killmails, rfl⟩
    | table a => simp [ha] at h

def listed : List WorkItem := [⟨5, "a"⟩, ⟨7, "b"⟩]

def config : Config := ⟨2, 1, 2, 1, true⟩

def start : World :=
  ⟨.start (.memory .empty) (.memory ⟨[]⟩) .green,
    { Walk.start with stage := .count Twins.date 2 }⟩

/-- The walk takes its next step. -/
def walk : Happening := .event (.walk .epoch .done)

/-- The source is asked for the listing, and answers. -/
def answer (r : Except SourceError (List WorkItem)) : Happening :=
  .event (.walk .epoch (.listing r))

/-- The listing is not given at first. Both items are pushed and the id 5 is stored; the item that
is still missing is pushed once more, and is not stored either. -/
def happenings : List Happening := [
  [walk, walk, answer (.error (.transport "reset")), .event .wake, answer (.ok listed)],
  List.replicate 8 walk, [others Twins.stored, .event .wake], List.replicate 4 walk,
  [answer (.ok listed)], List.replicate 6 walk, [others Twins.stored, .event .wake],
  List.replicate 4 walk].flatten

def report : DayReport := ⟨Twins.date, 2, 0, 1, 3, 2⟩

theorem reaches_report :
    (amid ⟨1, .service, ⟨false, false⟩⟩ config (.day Twins.date)).reaches
      (fun _ x => inMemory x = true) start happenings (·.walk.report.days = [report]) = true := by
  decide +kernel

/-- One of two killmails is accepted after two passes, in which three items were pushed. -/
theorem accepted_short :
    ∃ j t, (amid ⟨1, .service, ⟨false, false⟩⟩ config (.day Twins.date)).Run KeepsKillmails start j
        t ∧ t.walk.report.days = [report] ∧
      ∃ (a : Archive) (ps : List Pass) (rest : List Act),
        j = .counted a :: ps.flatMap Pass.acts ++ .closed report :: rest ∧ ps.length = 2 ∧
        totalOf (fun p => p.missing.length) ps = 3 := by
  obtain ⟨j, t, hrun, hreport⟩ := Machine.exists_run_of_reaches reaches_report
  have hreport : t.walk.report.days = start.walk.report.days ++ [report] :=
    of_decide_eq_true hreport
  have hrun := hrun.mono keepsKillmails_of_inMemory
  obtain ⟨-, a, ps, rest, hj, -, -, -, -, henqueued, hpasses, -⟩ :=
    day_worked rfl rfl ⟨[], rfl⟩ hrun hreport
  exact ⟨j, t, hrun, hreport, a, ps, rest, hj, hpasses.symm, henqueued.symm⟩

end Short

end Backfill

end Harvest
