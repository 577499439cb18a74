import Mathlib.Data.Finmap
import Harvest.Proofs.Queue.Entries

/-! # Both queues are one sorted set

Seen from outside a queue is a map from items to the scores of their latest pushes, of which the
least entry comes out first: the one of the least score and, of equal scores, of the least id. The
heap and the table are the same map as long as the order decides between any two queued items, and
as long as no id turns negative in the table.

The map is given by what answers it allows, without a representation. Both queues mirror it, at
every call with the one answer that it allows.

## Main definitions

* `Queue.server`: a queue as a machine that takes requests, its journal the requests and replies.
* `Scoreboard`, `Scoreboard.Answers`, `Scoreboard.History`: the map, what it answers to a request,
  and what it answers to many.
* `Queue.Orderly`: a push of a signable id after which no two queued items share id and score.

## Main statements

* `Queue.Mirrors.serve`: a queue that mirrors a map answers as the map does, and mirrors it still.
* `Scoreboard.Answers.unique`: a map allows one answer to a request.
* `Queue.sorted_set`: either queue answers as the other, and as the map; what draining gives.
-/

namespace Harvest

/-! ## Requests and replies -/

namespace Scored

/-- No two entries share both the id and the score. -/
def Clear (es : List (Scored WorkItem)) : Prop :=
  ∀ e ∈ es, ∀ e' ∈ es, e.item.id = e'.item.id → e.score = e'.score → e = e'

instance (es : List (Scored WorkItem)) : Decidable (Clear es) :=
  inferInstanceAs (Decidable (∀ e ∈ es, ∀ e' ∈ es, _ → _ → _))

theorem Clear.mono {es es' : List (Scored WorkItem)} (h : Clear es) (hsub : es' ⊆ es) :
    Clear es' :=
  fun e he e' he' => h e (hsub he) e' (hsub he')

end Scored

namespace Queue

open Scored (Clear)

/-- What can be asked of a queue. Scores are signed words. -/
inductive Request where
  | push (w : WorkItem) (score : Int64)
  | popMin
  | countInRange (low high : Int64)
  | len
deriving DecidableEq

inductive Reply where
  | pushed
  | popped (r : Except QueueError (Option WorkItem))
  | counted (n : Nat)

def serve (q : Queue) : Request → Queue × Reply
  | .push w score => (q.push w score.toInt, .pushed)
  | .popMin => (q.popMin.1, .popped q.popMin.2)
  | .countInRange low high => (q, .counted (q.countBetween low.toInt high.toInt))
  | .len => (q, .counted q.size)

/-- A queue as a machine that takes every request and writes down its reply. -/
def server : Machine Queue Request (Request × Reply) where
  next? q r := some (q.serve r).1
  mark? q r := some (r, (q.serve r).2)

/-- What is pushed can be told apart: its id is signable, and no two queued items share both id and
score afterwards. -/
def Orderly (q : Queue) : Request → Prop
  | .push w score => w.Signable ∧ Clear (q.push w score.toInt).entries
  | _ => True

instance (q : Queue) : ∀ r, Decidable (q.Orderly r)
  | .push _ _ => inferInstanceAs (Decidable (_ ∧ _))
  | .popMin | .countInRange _ _ | .len => inferInstanceAs (Decidable True)

end Queue

/-! ## The map -/

/-- Items with the scores of their latest pushes. -/
abbrev Scoreboard := Finmap fun _ : WorkItem => Int64

namespace Scoreboard

open Queue (Request Reply)

/-- One item comes out before another: by score and then by id. -/
def Before (b : Scoreboard) (v w : WorkItem) : Prop :=
  ∃ i k, b.lookup v = some i ∧ b.lookup w = some k ∧ (i < k ∨ i = k ∧ v.id < w.id)

/-- An item that comes out before every other. -/
structure First (b : Scoreboard) (w : WorkItem) : Prop where
  mem : w ∈ b
  before : ∀ v ∈ b, v ≠ w → b.Before w v

/-- The score of the item is within bounds. -/
def within (b : Scoreboard) (low high : Int64) (w : WorkItem) : Bool :=
  (b.lookup w).any fun i => decide (low ≤ i) && decide (i ≤ high)

/-- The number of items with a score within bounds. -/
def countInRange (b : Scoreboard) (low high : Int64) : Nat :=
  (b.keys.filter fun w => b.within low high w = true).card

/-- A list of all items in the order in which they come out. -/
structure InOrder (b : Scoreboard) (ws : List WorkItem) : Prop where
  nodup : ws.Nodup
  all : ws.toFinset = b.keys
  order : ws.Pairwise b.Before

/-- What the map answers to a request, and what is left of it. -/
inductive Answers (b : Scoreboard) : Request → Reply → Scoreboard → Prop where
  | push (w : WorkItem) (score : Int64) : Answers b (.push w score) .pushed (b.insert w score)
  | nothing (h : b = ∅) : Answers b .popMin (.popped (.ok none)) b
  | first {w : WorkItem} (h : b.First w) :
      Answers b .popMin (.popped (.ok (some w))) (b.erase w)
  | count (low high : Int64) :
      Answers b (.countInRange low high) (.counted (b.countInRange low high)) b
  | len : Answers b .len (.counted b.keys.card) b

/-- What the map, empty at first, answers to request after request, and what it has become. -/
inductive History : List (Request × Reply) → Scoreboard → Prop where
  | nil : History [] ∅
  | snoc {j : List (Request × Reply)} {b c : Scoreboard} {r : Request} {a : Reply}
      (h : History j b) (answers : b.Answers r a c) : History (j ++ [(r, a)]) c

variable {b c c' : Scoreboard} {v w : WorkItem} {r : Request} {a a' : Reply}

theorem Before.asymm (h : b.Before v w) : ¬ b.Before w v := by
  rintro ⟨i, k, hi, hk, h'⟩
  obtain ⟨k', i', hk', hi', h⟩ := h
  cases hi.symm.trans hi'
  cases hk.symm.trans hk'
  rw [Int64.lt_iff_toInt_lt, ← Int64.toInt_inj, UInt64.lt_iff_toNat_lt] at h h'
  omega

theorem First.unique (hv : b.First v) (hw : b.First w) : v = w := by
  by_contra hne
  exact (hv.before w hw.mem (Ne.symm hne)).asymm (hw.before v hv.mem hne)

theorem First.ne_empty (h : b.First w) : b ≠ ∅ := by
  rintro rfl
  exact Finmap.notMem_empty h.mem

/-- A map allows one answer to a request. -/
theorem Answers.unique (h : b.Answers r a c) (h' : b.Answers r a' c') : a = a' ∧ c = c' := by
  cases h with
  | push w score => cases h'; exact ⟨rfl, rfl⟩
  | nothing hnil =>
    cases h' with
    | nothing => exact ⟨rfl, rfl⟩
    | first hw => exact absurd hnil hw.ne_empty
  | first hw =>
    cases h' with
    | nothing hnil => exact absurd hnil hw.ne_empty
    | first hw' => rw [hw.unique hw']; exact ⟨rfl, rfl⟩
  | count low high => cases h'; exact ⟨rfl, rfl⟩
  | len => cases h'; exact ⟨rfl, rfl⟩

/-- What is taken out leaves the order of the others as it is. -/
theorem Before.of_erase {u : WorkItem} (h : Before (b.erase u) v w) : b.Before v w := by
  obtain ⟨i, k, hi, hk, h⟩ := h
  have hne : ∀ {x : WorkItem} {i : Int64}, (b.erase u).lookup x = some i → x ≠ u := by
    rintro x i hx rfl
    rw [Finmap.lookup_erase] at hx
    cases hx
  rw [Finmap.lookup_erase_ne (hne hi)] at hi
  rw [Finmap.lookup_erase_ne (hne hk)] at hk
  exact ⟨i, k, hi, hk, h⟩

theorem InOrder.cons {ws : List WorkItem} (h : InOrder (b.erase w) ws) (hw : b.First w) :
    b.InOrder (w :: ws) := by
  have hmem : ∀ v, v ∈ ws ↔ v ≠ w ∧ v ∈ b := by
    intro v
    rw [← List.mem_toFinset, h.all, Finmap.mem_keys, Finmap.mem_erase]
  refine ⟨List.nodup_cons.mpr ⟨fun hmem' => ((hmem w).mp hmem').1 rfl, h.nodup⟩, ?_, ?_⟩
  · rw [List.toFinset_cons, h.all, Finmap.keys_erase,
      Finset.insert_erase (Finmap.mem_keys.mpr hw.mem)]
  · refine List.pairwise_cons.mpr ⟨?_, h.order.imp Before.of_erase⟩
    intro v hv
    exact hw.before v ((hmem v).mp hv).2 ((hmem v).mp hv).1

/-- A map has one order. -/
theorem InOrder.unique {vs ws : List WorkItem} (hv : b.InOrder vs) (hw : b.InOrder ws) :
    vs = ws := by
  have hperm : vs.Perm ws := by
    rw [List.perm_ext_iff_of_nodup hv.nodup hw.nodup]
    intro x
    rw [← List.mem_toFinset, hv.all, ← hw.all, List.mem_toFinset]
  exact hperm.eq_of_pairwise (fun _ _ _ _ h h' => absurd h' h.asymm) hv.order hw.order

theorem countInRange_of_lt {low high : Int64} (h : high < low) : b.countInRange low high = 0 := by
  rw [countInRange, Finset.card_eq_zero, Finset.filter_eq_empty_iff]
  intro w _ hw
  obtain ⟨i, -, hi⟩ := (Option.any_eq_true _ _).mp hw
  simp only [Bool.and_eq_true, decide_eq_true_eq] at hi
  exact absurd (Int64.le_trans hi.1 hi.2) (Int64.not_le.mpr h)

end Scoreboard

namespace Queue

open Scored (before Clear)

/-! ## A queue mirrors a map -/

/-- A queue holds what a map does, told apart by the order. -/
structure Mirrors (q : Queue) (b : Scoreboard) : Prop where
  distinct : q.Distinct
  mem_entries : ∀ e, e ∈ q.entries ↔ ∃ i, b.lookup e.item = some i ∧ e.score = i.toInt
  signable : ∀ w ∈ b, w.Signable
  clear : Clear q.entries

namespace Mirrors

variable {q q' : Queue} {b : Scoreboard} {w : WorkItem} {r : Request}

theorem empty (h : q.items = []) : q.Mirrors ∅ := by
  have hnil : q.entries = [] := List.map_eq_nil_iff.mp (q.items_entries.trans h)
  refine ⟨by rw [Distinct, h]; exact List.nodup_nil, ?_, ?_, ?_⟩
  · intro e
    simp [hnil]
  · intro w hw
    exact absurd hw Finmap.notMem_empty
  · rw [hnil]
    intro e he
    cases he

theorem mem_items (h : q.Mirrors b) : w ∈ q.items ↔ w ∈ b := by
  rw [← items_entries, Finmap.mem_iff]
  constructor
  · intro hw
    obtain ⟨e, he, rfl⟩ := List.mem_map.mp hw
    obtain ⟨i, hi, -⟩ := (h.mem_entries e).mp he
    exact ⟨i, hi⟩
  · rintro ⟨i, hi⟩
    exact Scored.mem_items_of_mem ((h.mem_entries ⟨w, i.toInt⟩).mpr ⟨i, hi, rfl⟩)

theorem toFinset_items (h : q.Mirrors b) : q.items.toFinset = b.keys := by
  ext w
  rw [List.mem_toFinset, Finmap.mem_keys, h.mem_items]

theorem size (h : q.Mirrors b) : q.size = b.keys.card := by
  rw [size_eq, ← h.toFinset_items, List.toFinset_card_of_nodup h.distinct]

theorem countBetween (h : q.Mirrors b) (low high : Int64) :
    q.countBetween low.toInt high.toInt = b.countInRange low high := by
  -- one side counts entries and the other items, and no item has two entries
  let p : Scored WorkItem → Bool :=
    fun e => decide (low.toInt ≤ e.score) && decide (e.score ≤ high.toInt)
  have hnodup : (Scored.items (q.entries.filter p)).Nodup := by
    have hdistinct : (Scored.items q.entries).Nodup := by
      rw [items_entries]
      exact h.distinct
    exact hdistinct.sublist (List.filter_sublist.map Scored.item)
  have hkeys : (Scored.items (q.entries.filter p)).toFinset =
      b.keys.filter fun w => b.within low high w = true := by
    ext w
    rw [List.mem_toFinset, Finset.mem_filter, Finmap.mem_keys, Scored.items, List.mem_map]
    simp only [List.mem_filter, h.mem_entries, Scoreboard.within, p, Bool.and_eq_true,
      decide_eq_true_eq, Option.any_eq_true, Int64.le_iff_toInt_le]
    constructor
    · rintro ⟨e, ⟨⟨i, hi, hscore⟩, hp⟩, rfl⟩
      rw [hscore] at hp
      exact ⟨Finmap.mem_iff.mpr ⟨i, hi⟩, i, hi, hp⟩
    · rintro ⟨-, i, hi, hp⟩
      exact ⟨⟨w, i.toInt⟩, ⟨⟨i, hi, rfl⟩, hp⟩, rfl⟩
  rw [countBetween_eq, Scoreboard.countInRange, ← hkeys, List.toFinset_card_of_nodup hnodup,
    Scored.countBetween, List.countP_eq_length_filter, Scored.items, List.length_map]

/-- Every score is within the widest bounds. -/
theorem countBetween_all (h : q.Mirrors b) :
    q.countBetween Int64.minValue.toInt Int64.maxValue.toInt = q.size := by
  rw [h.countBetween, h.size, Scoreboard.countInRange, Finset.filter_true_of_mem]
  intro w hw
  obtain ⟨i, hi⟩ := Finmap.mem_iff.mp (Finmap.mem_keys.mp hw)
  rw [Scoreboard.within, hi, Option.any_some, Bool.and_eq_true, decide_eq_true_eq,
    decide_eq_true_eq, Int64.le_iff_toInt_le, Int64.le_iff_toInt_le]
  exact ⟨Int64.minValue_le_toInt i, Int64.toInt_le i⟩

/-! ### Pushes -/

theorem mem_entries_push (h : q.Mirrors b) (w : WorkItem) (score : Int64) (e : Scored WorkItem) :
    e ∈ (q.push w score.toInt).entries ↔
      ∃ i, (b.insert w score).lookup e.item = some i ∧ e.score = i.toInt := by
  rw [Queue.mem_entries_push h.distinct]
  by_cases hw : e.item = w
  · subst hw
    rw [Finmap.lookup_insert]
    constructor
    · rintro (he | ⟨hne, -⟩)
      · exact ⟨score, rfl, congrArg Scored.score he⟩
      · exact absurd rfl hne
    · rintro ⟨i, hi, hscore⟩
      cases hi
      exact .inl (by rw [← hscore])
  · rw [Finmap.lookup_insert_of_ne _ hw, ← h.mem_entries]
    constructor
    · rintro (rfl | ⟨-, he⟩)
      · exact absurd rfl hw
      · exact he
    · exact fun he => .inr ⟨hw, he⟩

/-- Which pushes are orderly is a matter of the map. -/
theorem orderly_iff (h : q.Mirrors b) (h' : q'.Mirrors b) : q.Orderly r ↔ q'.Orderly r := by
  cases r with
  | push w score =>
    have hiff : ∀ e, e ∈ (q.push w score.toInt).entries ↔
        e ∈ (q'.push w score.toInt).entries := by
      intro e
      rw [h.mem_entries_push, h'.mem_entries_push]
    refine and_congr_right fun _ => ⟨fun hc => ?_, fun hc => ?_⟩
    · exact hc.mono fun e he => (hiff e).mpr he
    · exact hc.mono fun e he => (hiff e).mp he
  | _ => exact Iff.rfl

theorem push (h : q.Mirrors b) {score : Int64} (ok : q.Orderly (.push w score)) :
    (q.push w score.toInt).Mirrors (b.insert w score) where
  distinct := h.distinct.push w _
  mem_entries := h.mem_entries_push w score
  signable := by
    intro v hv
    rcases Finmap.mem_insert.mp hv with rfl | hv
    · exact ok.1
    · exact h.signable v hv
  clear := ok.2

/-! ### Pops -/

/-- An entry that no other comes before is of the first item. -/
theorem first (h : q.Mirrors b) {m : Scored WorkItem} (hm : m ∈ q.entries)
    (hleast : ∀ e ∈ q.entries, ¬ before q.rank e m = true) : b.First m.item := by
  obtain ⟨i, hi, hscore⟩ := (h.mem_entries m).mp hm
  have hmem : m.item ∈ b := Finmap.mem_iff.mpr ⟨i, hi⟩
  refine ⟨hmem, ?_⟩
  intro v hv hne
  obtain ⟨k, hk⟩ := Finmap.mem_iff.mp hv
  have he : (⟨v, k.toInt⟩ : Scored WorkItem) ∈ q.entries :=
    (h.mem_entries _).mpr ⟨k, hk, rfl⟩
  refine ⟨i, k, hi, hk, ?_⟩
  have hnot := hleast _ he
  rw [Scored.before_iff, q.rank_of_signable (h.signable v hv),
    q.rank_of_signable (h.signable _ hmem), hscore] at hnot
  rw [Int64.lt_iff_toInt_lt, ← Int64.toInt_inj, UInt64.lt_iff_toNat_lt]
  -- of one score, the ids differ
  have hid : k.toInt = i.toInt → v.id.toNat ≠ m.item.id.toNat := by
    intro hki hid
    have heq := h.clear _ he m hm (UInt64.toNat_inj.mp hid) (hki.trans hscore.symm)
    exact hne (congrArg Scored.item heq)
  dsimp only at hnot
  omega

theorem erase (h : q.Mirrors b)
    (hmem : ∀ e, e ∈ q'.entries ↔ e.item ≠ w ∧ e ∈ q.entries) (hq' : q'.Distinct) :
    q'.Mirrors (b.erase w) where
  distinct := hq'
  mem_entries := by
    intro e
    rw [hmem, h.mem_entries]
    by_cases hw : e.item = w
    · subst hw
      rw [Finmap.lookup_erase]
      simp
    · simp [hw, Finmap.lookup_erase_ne hw]
  signable := fun v hv => h.signable v (Finmap.mem_erase.mp hv).2
  clear := h.clear.mono fun e he => ((hmem e).mp he).2

/-- A pop finds nothing or takes out the first item. -/
theorem popMin (h : q.Mirrors b) : (b = ∅ ∧ q.popMin = (q, .ok none)) ∨
    ∃ w, b.First w ∧ q.popMin.2 = .ok (some w) ∧ q.popMin.1.Mirrors (b.erase w) := by
  rcases popMin_entries h.distinct with ⟨hnil, hpop⟩ | ⟨m, hm, hleast, hgives, hmem⟩
  · refine .inl ⟨Finmap.ext_lookup fun w => ?_, hpop⟩
    rw [Finmap.lookup_empty, Finmap.lookup_eq_none, ← h.mem_items, ← items_entries, hnil]
    exact List.not_mem_nil
  · have hfirst := h.first hm hleast
    refine .inr ⟨m.item, hfirst, ?_, h.erase hmem h.distinct.popMin_fst⟩
    rw [hgives, q.giving_of_signable (h.signable _ hfirst.mem)]
    rfl

/-- A queue that mirrors a map answers as the map does, and mirrors it still. -/
theorem serve (h : q.Mirrors b) (ok : q.Orderly r) :
    ∃ c, b.Answers r (q.serve r).2 c ∧ (q.serve r).1.Mirrors c := by
  cases r with
  | push w score => exact ⟨_, .push w score, h.push ok⟩
  | popMin =>
    rcases h.popMin with ⟨hnil, hpop⟩ | ⟨w, hfirst, hgives, hrest⟩
    · refine ⟨b, ?_, ?_⟩
      · simp only [Queue.serve, hpop]
        exact .nothing hnil
      · simp only [Queue.serve, hpop]
        exact h
    · refine ⟨b.erase w, ?_, hrest⟩
      simp only [Queue.serve, hgives]
      exact .first hfirst
  | countInRange low high =>
    refine ⟨b, ?_, h⟩
    simp only [Queue.serve, h.countBetween]
    exact .count low high
  | len =>
    refine ⟨b, ?_, h⟩
    simp only [Queue.serve, h.size]
    exact .len

/-! ### Draining -/

/-- Popping as often as there are items gives them all in order. -/
theorem drain {n : Nat} (h : q.Mirrors b) (hn : q.size = n) :
    (q.drain n).1.items = [] ∧ ∃ ws, b.InOrder ws ∧ (q.drain n).2 = ws.map .ok := by
  induction n generalizing q b with
  | zero =>
    have hnil : q.items = [] := List.length_eq_zero_iff.mp (q.size_eq.symm.trans hn)
    refine ⟨hnil, [], ⟨List.nodup_nil, ?_, List.Pairwise.nil⟩, rfl⟩
    rw [← h.toFinset_items, hnil]
  | succ n ih =>
    rcases h.popMin with ⟨rfl, -⟩ | ⟨w, hfirst, hgives, hrest⟩
    · rw [h.size, Finmap.keys_empty] at hn
      cases hn
    · -- the first item is gone, so one pop less empties the rest
      have hcard : q.popMin.1.size = n := by
        have := Finset.card_erase_of_mem (Finmap.mem_keys.mpr hfirst.mem)
        rw [hrest.size, Finmap.keys_erase]
        rw [h.size] at hn
        omega
      obtain ⟨hempty, ws, hws, hdrain⟩ := ih hrest hcard
      have hpop : q.popMin = (q.popMin.1, .ok (some w)) := Prod.ext rfl hgives
      rw [Queue.drain, hpop]
      refine ⟨hempty, w :: ws, hws.cons hfirst, ?_⟩
      rw [List.map_cons, ← hdrain]

/-! ### Runs -/

/-- Requests that one queue can take, the other can, and both answer as the map. -/
theorem of_run {s s' : Queue} {j : List (Request × Reply)} (hs : s.items = [])
    (hs' : s'.items = []) (h : server.Run Orderly s j q) :
    ∃ q' b, server.Run Orderly s' j q' ∧ Scoreboard.History j b ∧
      q.Mirrors b ∧ q'.Mirrors b := by
  induction h with
  | nil => exact ⟨s', ∅, .nil, .nil, .empty hs, .empty hs'⟩
  | @snoc j t u r _ ok step ih =>
    obtain ⟨t', b, hrun, hj, ht, ht'⟩ := ih
    cases step
    have ok' : t'.Orderly r := (ht.orderly_iff ht').mp ok
    obtain ⟨c, hc, hrest⟩ := ht.serve ok
    obtain ⟨c', hc', hrest'⟩ := ht'.serve ok'
    -- the map allows one answer, so the replies are the same
    obtain ⟨hreply, rfl⟩ := hc.unique hc'
    refine ⟨(t'.serve r).1, c, ?_, hj.snoc hc, hrest, hrest'⟩
    have hnext := hrun.snoc ok' (show server.next? t' r = some (t'.serve r).1 from rfl)
    have hmark : server.mark? t r = server.mark? t' r :=
      congrArg (fun a => some (r, a)) hreply
    rwa [← hmark] at hnext

end Mirrors

/-- **Both queues are one sorted set.** Take any requests to an empty queue, of either kind, whose
pushes are orderly. The other kind can take them too and gives the same replies, and they are what a
map of the items to the scores of their latest pushes answers: a pop gives and takes out the first
item by score and id, or nothing if the map is empty; a count is of the items with a score within
the bounds, none if the bounds are crossed; the length is the size of the map, and the count of all
the scores that there can be. Draining either queue empties it and gives every item once, in
order. -/
theorem sorted_set {s s' q : Queue} {j : List (Request × Reply)} (hs : s.items = [])
    (hs' : s'.items = []) (h : server.Run Orderly s j q) :
    ∃ q' b, server.Run Orderly s' j q' ∧ Scoreboard.History j b ∧
      q.size = b.keys.card ∧ q.countBetween Int64.minValue.toInt Int64.maxValue.toInt = q.size ∧
      (∀ low high, high < low → b.countInRange low high = 0) ∧
      ∃ ws, b.InOrder ws ∧
        (q.drain q.size).1.items = [] ∧ (q.drain q.size).2 = ws.map .ok ∧
        (q'.drain q'.size).1.items = [] ∧ (q'.drain q'.size).2 = ws.map .ok := by
  obtain ⟨q', b, hrun, hj, hq, hq'⟩ := Mirrors.of_run hs hs' h
  obtain ⟨hempty, ws, hws, hdrain⟩ := hq.drain rfl
  obtain ⟨hempty', ws', hws', hdrain'⟩ := hq'.drain rfl
  cases hws.unique hws'
  exact ⟨q', b, hrun, hj, hq.size, hq.countBetween_all,
    fun _ _ => Scoreboard.countInRange_of_lt, ws, hws, hempty, hdrain, hempty', hdrain'⟩

/-! ## An item with a new score -/

namespace Rescored

def early : WorkItem := ⟨7, "a"⟩

def late : WorkItem := ⟨3, "b"⟩

/-- The item pushed first gets a lower score than the other, and a tie is decided by id. -/
def requests : List Request :=
  [.push early 3, .push late (-2), .push early (-2), .countInRange (-5) 0, .popMin, .len]

def exchanges : List (Request × Reply) :=
  requests.zip [.pushed, .pushed, .pushed, .counted 2, .popped (.ok (some late)), .counted 1]

theorem follow_requests : server.follow Orderly (.table .empty) requests =
    some (exchanges, .table ⟨[⟨early.rowKey, -2⟩]⟩) := by
  rfl

theorem memory_agrees : ∃ q, server.Run Orderly (.memory .empty) exchanges q ∧
    (q.drain q.size).2 = [.ok early] := by
  have hempty : (Queue.memory .empty).items = [] := rfl
  obtain ⟨q, -, hrun, -, -, -, -, ws, -, -, hdrain, -, hdrain'⟩ :=
    sorted_set rfl hempty (Machine.run_of_follow follow_requests)
  have hrest : ((Queue.table ⟨[⟨early.rowKey, -2⟩]⟩).drain 1).2 = [.ok early] := by rfl
  exact ⟨q, hrun, by rw [hdrain', ← hdrain]; exact hrest⟩

end Rescored

end Queue

end Harvest
