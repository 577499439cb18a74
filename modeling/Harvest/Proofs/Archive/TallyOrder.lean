import Harvest.Killmail.Decode
import Harvest.Proofs.Archive.Tallies

/-! # Tallies in any order

What a tally says of a day is how many of the killmails observed are of that day, and how many of
these are flagged. It lists the days that have one in order. Neither depends on the order in which
the killmails come, so the tally is the same for every order.

The flags of a killmail are made from its attackers. A single player among them is what makes it
solo, and what keeps it from being the work of no player. So no killmail counts twice among the
flagged ones, and these are no more than all of the day.

## Main definitions

* `Tally.ofList`: the tally of killmails, observed one after another.

## Main statements

* `not_npcOnly_of_soloPlayer`: no list of attackers has both flags.
* `Tally.day_ofList`, `Tally.mem_days_ofList`: the counts of a day, and the days there are.
* `Tally.Sorted.ext`: a tally is told by its days and their counts.
* `Tally.tally_in_any_order`: the tally of killmails made from payloads.
-/

namespace Harvest

open Calendar

/-! ## Flags -/

/-- A single attacker that is a player is not without a player. -/
theorem not_npcOnly_of_soloPlayer {as : List Attacker} (h : soloPlayer as = true) :
    npcOnly as = false := by
  match as with
  | [] => cases h
  | [a] =>
    have hplayer : a.inPlayerCorporation = true := h
    simp [npcOnly, hplayer]
  | _ :: _ :: _ => cases h

/-- A killmail that is made from a payload has at most one of the flags. -/
theorem WorkItem.not_both_of_accept {w : WorkItem} {p : Payload} {k : Killmail}
    (h : w.accept p = .ok k) : ¬ (k.npc = true ∧ k.solo = true) := by
  unfold accept at h
  split at h
  · cases h
    rintro ⟨hnpc, hsolo⟩
    have hnot := not_npcOnly_of_soloPlayer hsolo
    rw [show npcOnly p.attackers = true from hnpc] at hnot
    cases hnot
  · cases h

/-- What excludes each other is not counted twice. -/
theorem countP_add_countP_le {α : Type} {p f g : α → Bool} {xs : List α}
    (h : ∀ x ∈ xs, ¬ (f x = true ∧ g x = true)) :
    xs.countP (fun x => p x && f x) + xs.countP (fun x => p x && g x) ≤ xs.countP p := by
  induction xs with
  | nil => exact Nat.le_refl 0
  | cons x xs ih =>
    have hrest := ih fun y hy => h y (List.mem_cons_of_mem x hy)
    have hx := h x List.mem_cons_self
    have hone : (if (p x && f x) = true then 1 else 0) + (if (p x && g x) = true then 1 else 0) ≤
        if p x = true then 1 else 0 := by
      cases hp : p x <;> cases hf : f x <;> cases hg : g x <;> simp_all
    rw [List.countP_cons, List.countP_cons, List.countP_cons]
    omega

namespace Tally

/-! ## A tally is told by its days -/

variable {t t' : Tally} {ks ks' : List Killmail} {d : Date}

theorem Sorted.day_of_mem (h : t.Sorted) {x : Date × DayTally} (hx : x ∈ t.days) :
    t.day x.1 = x.2 := by
  rw [day, (DayTable.InOrder.mem_iff h).mp hx, Option.getD_some]

theorem Sorted.keys (h : t.Sorted) : (t.days.map Prod.fst).Pairwise (· < ·) :=
  List.pairwise_map.mpr h

/-- A day that is listed has its counts, and one that is not has none. -/
theorem Sorted.lookup_eq (h : t.Sorted) (d : Date) :
    t.days.lookup d = if d ∈ t.days.map Prod.fst then some (t.day d) else none := by
  split
  · rename_i hd
    obtain ⟨x, hx, rfl⟩ := List.mem_map.mp hd
    rw [h.day_of_mem hx]
    exact (DayTable.InOrder.mem_iff h).mp hx
  · rename_i hd
    rw [List.lookup_eq_none_iff]
    rintro x hx
    exact bne_iff_ne.mpr fun heq => hd (heq ▸ List.mem_map_of_mem hx)

/-- A tally is told by the days that it lists and by their counts. -/
theorem Sorted.ext (h : t.Sorted) (h' : t'.Sorted)
    (hdays : ∀ d, d ∈ t.days.map Prod.fst ↔ d ∈ t'.days.map Prod.fst)
    (hday : ∀ d, t.day d = t'.day d) : t = t' := by
  have hlookup : ∀ d, t.days.lookup d = t'.days.lookup d := by
    intro d
    rw [h.lookup_eq, h'.lookup_eq, hday]
    simp only [hdays]
  have hlist := DayTable.InOrder.ext h h' hlookup
  cases t
  cases t'
  exact congrArg Tally.mk hlist

/-! ## Observing one after another -/

/-- The tally of killmails, observed one after another. -/
def ofList (ks : List Killmail) : Tally := ks.foldl observe empty

theorem ofList_eq (ks : List Killmail) :
    ofList ks = ks.reverse.foldr (fun k t => t.observe k) empty := List.foldl_eq_foldr_reverse

theorem sorted_ofList (ks : List Killmail) : (ofList ks).Sorted := by
  rw [ofList_eq]
  exact sorted_foldr_observe _

theorem total_ofList (ks : List Killmail) : (ofList ks).total = ks.length := by
  rw [ofList_eq, total_foldr_observe, List.length_reverse]
  exact Nat.zero_add _

theorem day_ofList (ks : List Killmail) (d : Date) : (ofList ks).day d =
    { total := ks.countP fun k => k.time.date = d
      npc := ks.countP fun k => k.time.date = d && k.npc
      solo := ks.countP fun k => k.time.date = d && k.solo } := by
  rw [ofList_eq, day_foldr_observe, List.countP_reverse, List.countP_reverse, List.countP_reverse]

theorem mem_days_foldr_observe (ks : List Killmail) :
    d ∈ (ks.foldr (fun k t => t.observe k) empty).days.map Prod.fst ↔
      ∃ k ∈ ks, k.time.date = d := by
  induction ks with
  | nil => simp [empty]
  | cons k ks ih =>
    -- a killmail adds its own day and takes none away
    rw [List.foldr_cons, observe, addOn_eq_alter, DayTable.mem_alter, ih, List.exists_mem_cons_iff, eq_comm]

theorem mem_days_ofList : d ∈ (ofList ks).days.map Prod.fst ↔ ∃ k ∈ ks, k.time.date = d := by
  rw [ofList_eq, mem_days_foldr_observe]
  simp only [List.mem_reverse]

/-- The order of the killmails does not matter. -/
theorem ofList_perm (h : ks.Perm ks') : ofList ks = ofList ks' := by
  refine (sorted_ofList ks).ext (sorted_ofList ks') ?_ ?_
  · intro d
    rw [mem_days_ofList, mem_days_ofList]
    simp only [h.mem_iff]
  · intro d
    rw [day_ofList, day_ofList, h.countP_eq, h.countP_eq, h.countP_eq]

/-- **Tallies in any order.** Observe killmails that were made from payloads, in whatever order.
Each day then has the number of those of the day, and of those among them with either flag; the
flagged ones are no more than all, as none has both flags. The days listed are those that have a
killmail, each once, in order, and with its counts. The total is the sum over these days, which is
the number of killmails. Any other order leads to the same tally. -/
theorem tally_in_any_order (h : ∀ k ∈ ks, ∃ (w : WorkItem) (p : Payload), w.accept p = .ok k) :
    (∀ d, (ofList ks).day d =
      { total := ks.countP fun k => k.time.date = d
        npc := ks.countP fun k => k.time.date = d && k.npc
        solo := ks.countP fun k => k.time.date = d && k.solo }) ∧
    (∀ k ∈ ks, ¬ (k.npc = true ∧ k.solo = true)) ∧
    (∀ d, ((ofList ks).day d).npc + ((ofList ks).day d).solo ≤ ((ofList ks).day d).total) ∧
    (ofList ks).total = totalOf (fun x => x.2.total) (ofList ks).days ∧
    (ofList ks).total = ks.length ∧
    ((ofList ks).days.map Prod.fst).Pairwise (· < ·) ∧
    (∀ d, d ∈ (ofList ks).days.map Prod.fst ↔ ∃ k ∈ ks, k.time.date = d) ∧
    (∀ x ∈ (ofList ks).days, x.2 = (ofList ks).day x.1) ∧
    ∀ ks', ks.Perm ks' → ofList ks' = ofList ks := by
  have hflags : ∀ k ∈ ks, ¬ (k.npc = true ∧ k.solo = true) := by
    intro k hk
    -- the flags are those of the payload's attackers
    obtain ⟨w, p, hp⟩ := h k hk
    exact WorkItem.not_both_of_accept hp
  have hsorted := sorted_ofList ks
  refine ⟨day_ofList ks, hflags, ?_, rfl, total_ofList ks, hsorted.keys, fun _ => mem_days_ofList,
    fun x hx => (hsorted.day_of_mem hx).symm, fun ks' hperm => (ofList_perm hperm).symm⟩
  intro d
  rw [day_ofList]
  exact countP_add_countP_le hflags

/-! ## Two days -/

namespace TwoDays

/-- An attacker of a corporation. -/
def attackerOf (corporation : Option UInt64) : Attacker :=
  ⟨none, corporation, none, none, 0, true, Decimal.Binary64.zero, none, none⟩

/-- A payload of id 1. -/
def payload (time : Instant) (attackers : List Attacker) : Payload where
  id := 1
  time
  solarSystem := 30000142
  moon := none
  war := none
  victim := ⟨none, none, none, none, 0, 587, none, []⟩
  attackers

/-- On 2 March 2024 by two unknown parties, the day before by nobody and by the first player there
is, in the last second of the day. -/
def payloads : List Payload :=
  [payload ⟨1709337600, 0, by decide⟩ [attackerOf none, attackerOf none],
    payload ⟨1709251200, 0, by decide⟩ [],
    payload ⟨1709337599, 999999999, by decide⟩ [attackerOf (some firstPlayerCorporation)]]

def killmails : List Killmail := payloads.map fun p => p.toKillmail "a"

theorem accepted : ∀ k ∈ killmails, ∃ (w : WorkItem) (p : Payload), w.accept p = .ok k := by
  intro k hk
  obtain ⟨p, hp, rfl⟩ := List.mem_map.mp hk
  have hid : p.id = 1 := by
    revert p
    decide +kernel
  exact ⟨⟨1, "a"⟩, p, if_pos hid⟩

theorem tally_of_two_days :
    (∀ k ∈ killmails, ∃ (w : WorkItem) (p : Payload), w.accept p = .ok k) ∧
    (ofList killmails).day ⟨2024, 3, 1, by decide⟩ = ⟨2, 0, 1⟩ ∧
    (ofList killmails).day ⟨2024, 3, 2, by decide⟩ = ⟨1, 1, 0⟩ ∧
    (ofList killmails).total = 3 ∧
    ofList killmails.reverse = ofList killmails := by
  obtain ⟨hday, -, -, -, htotal, -, -, -, horder⟩ := tally_in_any_order accepted
  refine ⟨accepted, ?_, ?_, htotal, horder _ (List.reverse_perm _).symm⟩
  · rw [hday]
    decide +kernel
  · rw [hday]
    decide +kernel

end TwoDays

end Tally

end Harvest
