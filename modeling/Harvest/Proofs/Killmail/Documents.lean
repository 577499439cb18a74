import Harvest.Killmail.Codec
import Harvest.Proofs.Json.Records

/-! # Reading back killmails

A killmail is decoded again from the document that its text is. Its ids, flags and texts are; of its
binary numbers it is asked, and so it is of its time. Items contain items, and each container opens
two levels: its own, and that of the list in it. So the items are decoded again if no more levels
are needed for them than the decoder may open.

What the decoder has accepted needs no more, for it opened as many levels of the body. There it may
have opened an empty list, which is left out of the text.

## Main definitions

* `Item.levels`: the levels that an item opens.
* `Killmail.reals`: the binary numbers of a killmail.
* `slots` of each record: what is written of it.

## Main statements

* `Item.decode_tree`, `Victim.decode_tree`, `Attacker.decode_tree`, `Killmail.decode_tree`: a record
  is decoded again.
* `Item.levels_of_decode`, `Victim.levels_of_decode`: how many levels a decoded record opens.
-/

namespace Harvest

open Harvest.Calendar Harvest.Decimal Harvest.Json

/-! ## Slots -/

/-- The slot of an id that may be unknown. -/
def idSlot (name : String) (o : Option UInt64) : String × Option Value :=
  (name, o.map Value.ofUInt64)

@[simp] theorem membersOf_idSlot (name : String) (o : Option UInt64)
    (slots : List (String × Option Value)) :
    membersOf (idSlot name o :: slots) = idMember name o ++ membersOf slots :=
  membersOf_map name Value.ofUInt64 o slots

theorem ofUInt64_reads (n : UInt64) (d : Nat) :
    (Value.ofUInt64 n).tree ≠ .null ∧ Decoder.uint64 d (Value.ofUInt64 n).tree = some n := by
  refine ⟨?_, Decoder.uint64_tree n d⟩
  rw [Value.ofUInt64, Value.tree]
  intro h
  cases h

theorem Json.Members.idOr_ofSlots {d : Nat} {slots : List (String × Option Value)} {name : String}
    (hnodup : (slots.map Prod.fst).Nodup) {o : Option UInt64} (h : idSlot name o ∈ slots) :
    (Members.ofSlots d slots).idOr name = some o :=
  Members.orElse_nullable_ofSlots hnodup h fun n _ => ofUInt64_reads n d

@[simp] theorem exactSlot_idSlot (name : String) (o : Option UInt64) : ExactSlot (idSlot name o) :=
  exactSlot_map fun n _ => exact_ofUInt64 n

theorem wordDecoder_tree (n : Int64) (d : Nat) :
    wordDecoder d (Value.ofInt64 n).tree = some n := by
  rw [wordDecoder, Decoder.int64_tree, Option.map_some, Int64.ofInt_toInt]

/-! ## Positions -/

namespace Position

variable {p : Position}

/-- The numbers of a position. -/
def reals (p : Position) : List Binary64 := [p.x, p.y, p.z]

def slots (p : Position) : List (String × Option Value) :=
  [("x", some (.real p.x)), ("y", some (.real p.y)), ("z", some (.real p.z))]

theorem toValue_eq (p : Position) : p.toValue = .object (membersOf p.slots) := rfl

theorem nodup_slots (p : Position) : (p.slots.map Prod.fst).Nodup := by simp [slots]

theorem decode_tree (h : ∀ x ∈ p.reals, ReadsBack x) (d : Nat) :
    decode (d + 1) p.toValue.tree = some p := by
  have hnodup := p.nodup_slots
  have hfield : ∀ {name : String} {x : Binary64}, (name, some (.real x)) ∈ p.slots → ReadsBack x →
      (Members.ofSlots d p.slots).required name Decoder.real = some x := fun hslot hx =>
    Members.required_ofSlots hnodup hslot (Decoder.real_tree hx d)
  have hx := hfield (show ("x", some (.real p.x)) ∈ p.slots by simp [slots]) (h _ (by simp [reals]))
  have hy := hfield (show ("y", some (.real p.y)) ∈ p.slots by simp [slots]) (h _ (by simp [reals]))
  have hz := hfield (show ("z", some (.real p.z)) ∈ p.slots by simp [slots]) (h _ (by simp [reals]))
  refine (Decoder.record_tree hnodup _ d).trans ?_
  simp only [hx, hy, hz]
  rfl

theorem exact_toValue (h : ∀ x ∈ p.reals, ReadsBack x) : p.toValue.Exact := by
  rw [toValue_eq, Value.Exact]
  apply membersExact_membersOf
  simpa [slots, Value.Exact, reals] using h

end Position

/-! ## Attackers -/

namespace Attacker

variable {a : Attacker}

def slots (a : Attacker) : List (String × Option Value) :=
  [idSlot "character_id" a.character, idSlot "corporation_id" a.corporation,
    idSlot "alliance_id" a.alliance, idSlot "faction_id" a.faction,
    ("damage_done", some (.ofUInt64 a.damageDone)), ("final_blow", some (.bool a.finalBlow)),
    ("security_status", some (.real a.securityStatus)), idSlot "ship_type_id" a.shipType,
    idSlot "weapon_type_id" a.weaponType]

theorem toValue_eq (a : Attacker) : a.toValue = .object (membersOf a.slots) := by
  simp [toValue, slots]

theorem nodup_slots (a : Attacker) : (a.slots.map Prod.fst).Nodup := by simp [slots, idSlot]

theorem decode_tree (h : ReadsBack a.securityStatus) (d : Nat) :
    decode (d + 1) a.toValue.tree = some a := by
  have hnodup := a.nodup_slots
  have hid (name : String) (o : Option UInt64) (hslot : idSlot name o ∈ a.slots) :=
    Members.idOr_ofSlots (d := d) hnodup hslot
  have hdamage : (Members.ofSlots d a.slots).orElse "damage_done" Decoder.uint64 0 =
      some a.damageDone :=
    Members.orElse_ofSlots_some hnodup (v := .ofUInt64 a.damageDone) (by simp [slots])
      (Decoder.uint64_tree _ _) _
  have hfinal : (Members.ofSlots d a.slots).orElse "final_blow" Decoder.bool false =
      some a.finalBlow :=
    Members.orElse_ofSlots_some hnodup (v := .bool a.finalBlow) (by simp [slots])
      (Decoder.bool_tree _ _) _
  have hstatus : (Members.ofSlots d a.slots).orElse "security_status" Decoder.real .zero =
      some a.securityStatus :=
    Members.orElse_ofSlots_some hnodup (v := .real a.securityStatus) (by simp [slots])
      (Decoder.real_tree h _) _
  rw [toValue_eq]
  refine (Decoder.record_tree hnodup _ d).trans ?_
  simp only [hid "character_id" a.character (by simp [slots]),
    hid "corporation_id" a.corporation (by simp [slots]),
    hid "alliance_id" a.alliance (by simp [slots]), hid "faction_id" a.faction (by simp [slots]),
    hid "ship_type_id" a.shipType (by simp [slots]),
    hid "weapon_type_id" a.weaponType (by simp [slots]), hdamage, hfinal, hstatus]
  rfl

theorem exact_toValue (h : ReadsBack a.securityStatus) : a.toValue.Exact := by
  rw [toValue_eq, Value.Exact]
  apply membersExact_membersOf
  simp [slots, exact_ofUInt64, Value.Exact, h]

end Attacker

/-! ## Items -/

namespace Item

mutual

/-- The levels that an item opens: its own, and those of the list of what it contains. -/
def levels : Item → Nat
  | ⟨_, _, _, _, _, items⟩ => levelsOfAll items + 1

/-- The levels that a list of items opens, if there are any. -/
def levelsOfAll : List Item → Nat
  | [] => 0
  | i :: is => max (i.levels + 1) (levelsOfAll is)

end

theorem levels_eq (i : Item) : i.levels = levelsOfAll i.items + 1 := by
  cases i
  rw [levels]

theorem levels_lt_of_mem {i : Item} {is : List Item} (h : i ∈ is) :
    i.levels < levelsOfAll is := by
  induction is with
  | nil => cases h
  | cons j is ih =>
    rw [levelsOfAll]
    rcases List.mem_cons.mp h with rfl | h
    · omega
    · have := ih h
      omega

theorem levelsOfAll_le {is : List Item} {d : Nat} (h : ∀ i ∈ is, i.levels ≤ d) :
    levelsOfAll is ≤ d + 1 := by
  induction is with
  | nil => exact Nat.zero_le _
  | cons i is ih =>
    rw [levelsOfAll]
    have hhead := h i List.mem_cons_self
    have hrest := ih fun j hj => h j (List.mem_cons_of_mem i hj)
    omega

/-- A list of items that has been decoded opens no more levels than it might. -/
theorem levelsOfAll_of_list {decode : Decoder Item} {d : Nat} {t : Tree} {is : List Item}
    (hdecode : ∀ d t i, decode d t = some i → i.levels ≤ d)
    (h : Decoder.list decode d t = some is) : levelsOfAll is ≤ d := by
  obtain ⟨d, rfl, his⟩ := Decoder.exists_of_list h
  refine levelsOfAll_le fun i hi => ?_
  obtain ⟨t, ht⟩ := his i hi
  exact hdecode d t i ht

theorem levels_of_decodeNested {n d : Nat} {t : Tree} {i : Item}
    (h : decodeNested n d t = some i) : i.levels ≤ d := by
  induction n generalizing d t i with
  | zero => cases h
  | succ n ih =>
    obtain ⟨d, m, rfl, hdepth, h⟩ := Decoder.exists_of_record h
    -- the items are the last of the fields
    iterate 5 obtain ⟨_, -, h⟩ := Option.bind_eq_some_iff.mp h
    obtain ⟨items, hitems, h⟩ := Option.bind_eq_some_iff.mp h
    cases h
    rw [levels]
    rcases Members.exists_of_orElse hitems with rfl | ⟨t, ht⟩
    · exact Nat.succ_le_succ (Nat.zero_le _)
    · have hlevels := levelsOfAll_of_list (fun _ _ _ => ih) ht
      omega

/-! ### Slots of an item -/

theorem toValues_eq (is : List Item) : toValues is = is.map toValue := by
  induction is with
  | nil => rfl
  | cons i is ih => rw [toValues, ih, List.map_cons]

def slots (i : Item) : List (String × Option Value) :=
  [("flag", some (.ofInt64 i.flag)), ("item_type_id", some (.ofUInt64 i.itemType)),
    idSlot "quantity_destroyed" i.destroyed, idSlot "quantity_dropped" i.dropped,
    ("singleton", some (.ofInt64 i.singleton)),
    ("items", if i.items = [] then none else some (.ofList toValue i.items))]

theorem toValue_eq (i : Item) : i.toValue = .object (membersOf i.slots) := by
  obtain ⟨flag, itemType, destroyed, dropped, singleton, items⟩ := i
  rw [toValue]
  cases items with
  | nil => simp [slots]
  | cons j is => simp [slots, toValues_eq, Value.ofList]

theorem nodup_slots (i : Item) : (i.slots.map Prod.fst).Nodup := by simp [slots, idSlot]

/-- The items in a container are read back if each is, with two levels less. -/
theorem items_ofSlots {decode : Decoder Item} {d : Nat} {i : Item}
    (hlevels : levelsOfAll i.items ≤ d)
    (hdecode : ∀ j ∈ i.items, ∀ e, d = e + 1 → decode e j.toValue.tree = some j) :
    (Members.ofSlots d i.slots).orElse "items" (Decoder.list decode) [] = some i.items := by
  have hslot : ("items", if i.items = [] then none else some (.ofList toValue i.items)) ∈ i.slots :=
    by simp [slots]
  refine Members.orElse_ofSlots i.nodup_slots hslot ?_ ?_
  · split
    · exact nofun
    · rename_i hne
      rintro v ⟨⟩
      -- there is an item, so there is a level for the list
      obtain ⟨j, hj⟩ := List.exists_mem_of_ne_nil _ hne
      have hlt := levels_lt_of_mem hj
      obtain ⟨e, rfl⟩ : ∃ e, d = e + 1 := ⟨d - 1, by omega⟩
      exact Decoder.list_tree fun j hj => hdecode j hj e rfl
  · split
    · rename_i hnil
      exact fun _ => hnil
    · exact nofun

/-- The nesting that is allowed is no less than the levels, so it does not matter. -/
theorem decodeNested_tree {n d : Nat} {i : Item} (hlevels : i.levels ≤ d) (hd : d ≤ n) :
    decodeNested n d i.toValue.tree = some i := by
  induction n generalizing d i with
  | zero =>
    rw [levels_eq] at hlevels
    omega
  | succ n ih =>
    rw [levels_eq] at hlevels
    obtain ⟨d, rfl⟩ : ∃ k, d = k + 1 := ⟨d - 1, by omega⟩
    have hnodup := i.nodup_slots
    have hid (name : String) (o : Option UInt64) (hslot : idSlot name o ∈ i.slots) :=
      Members.idOr_ofSlots (d := d) hnodup hslot
    have hflag : (Members.ofSlots d i.slots).required "flag" wordDecoder = some i.flag :=
      Members.required_ofSlots hnodup (v := .ofInt64 i.flag) (by simp [slots])
        (wordDecoder_tree _ _)
    have htype : (Members.ofSlots d i.slots).required "item_type_id" Decoder.uint64 =
        some i.itemType :=
      Members.required_ofSlots hnodup (v := .ofUInt64 i.itemType) (by simp [slots])
        (Decoder.uint64_tree _ _)
    have hsingleton : (Members.ofSlots d i.slots).orElse "singleton" wordDecoder 0 =
        some i.singleton :=
      Members.orElse_ofSlots_some hnodup (v := .ofInt64 i.singleton) (by simp [slots])
        (wordDecoder_tree _ _) _
    have hitems : (Members.ofSlots d i.slots).orElse "items" (Decoder.list (decodeNested n)) [] =
        some i.items := by
      refine items_ofSlots (Nat.le_of_succ_le_succ hlevels) fun j hj e he => ih ?_ (by omega)
      have := levels_lt_of_mem hj
      omega
    rw [toValue_eq]
    refine (Decoder.record_tree hnodup _ d).trans ?_
    simp only [hid "quantity_destroyed" i.destroyed (by simp [slots]),
      hid "quantity_dropped" i.dropped (by simp [slots]), hflag, htype, hsingleton, hitems]
    cases i
    rfl

/-- An item that opens no more levels than it may is read back. -/
theorem decode_tree {d : Nat} {i : Item} (h : i.levels ≤ d) : decode d i.toValue.tree = some i :=
  decodeNested_tree h (Nat.le_succ d)

theorem levels_of_decode {d : Nat} {t : Tree} {i : Item} (h : decode d t = some i) :
    i.levels ≤ d :=
  levels_of_decodeNested h

mutual

theorem exact_toValue : (i : Item) → i.toValue.Exact
  | ⟨flag, itemType, destroyed, dropped, singleton, items⟩ => by
    have hitems :
        ExactSlot ("items", if items = [] then none else some (.ofList toValue items)) := by
      split
      · exact nofun
      · rw [exactSlot_some, Value.ofList, Value.Exact, ← toValues_eq]
        exact exact_toValues items
    rw [toValue_eq, Value.Exact]
    apply membersExact_membersOf
    simp [slots, exact_ofInt64, exact_ofUInt64, hitems]

theorem exact_toValues : (is : List Item) → Value.AllExact (toValues is)
  | [] => trivial
  | i :: is => ⟨exact_toValue i, exact_toValues is⟩

end

end Item

/-! ## Victims -/

namespace Victim

variable {v : Victim}

/-- The numbers of a victim. -/
def reals (v : Victim) : List Binary64 := v.position.toList.flatMap Position.reals

def slots (v : Victim) : List (String × Option Value) :=
  [idSlot "character_id" v.character, idSlot "corporation_id" v.corporation,
    idSlot "alliance_id" v.alliance, idSlot "faction_id" v.faction,
    ("damage_taken", some (.ofUInt64 v.damageTaken)), ("ship_type_id", some (.ofUInt64 v.shipType)),
    ("position", v.position.map Position.toValue),
    ("items", some (.ofList Item.toValue v.items))]

theorem toValue_eq (v : Victim) : v.toValue = .object (membersOf v.slots) := by
  simp [toValue, slots, Item.toValues_eq, Value.ofList]

theorem nodup_slots (v : Victim) : (v.slots.map Prod.fst).Nodup := by simp [slots, idSlot]

theorem readsBack_position (h : ∀ x ∈ v.reals, ReadsBack x) {p : Position} (hp : p ∈ v.position) :
    ∀ x ∈ p.reals, ReadsBack x :=
  fun x hx => h x (List.mem_flatMap.mpr ⟨p, Option.mem_toList.mpr hp, hx⟩)

theorem decode_tree (hreals : ∀ x ∈ v.reals, ReadsBack x) {d : Nat}
    (hitems : Item.levelsOfAll v.items ≤ d + 1) : decode (d + 2) v.toValue.tree = some v := by
  have hnodup := v.nodup_slots
  have hid (name : String) (o : Option UInt64) (hslot : idSlot name o ∈ v.slots) :=
    Members.idOr_ofSlots (d := d + 1) hnodup hslot
  have hdamage : (Members.ofSlots (d + 1) v.slots).orElse "damage_taken" Decoder.uint64 0 =
      some v.damageTaken :=
    Members.orElse_ofSlots_some hnodup (v := .ofUInt64 v.damageTaken) (by simp [slots])
      (Decoder.uint64_tree _ _) _
  have hship : (Members.ofSlots (d + 1) v.slots).required "ship_type_id" Decoder.uint64 =
      some v.shipType :=
    Members.required_ofSlots hnodup (v := .ofUInt64 v.shipType) (by simp [slots])
      (Decoder.uint64_tree _ _)
  have hposition : (Members.ofSlots (d + 1) v.slots).orElse "position"
      (Decoder.nullable Position.decode) none = some v.position := by
    have hslot : ("position", v.position.map Position.toValue) ∈ v.slots := by simp [slots]
    refine Members.orElse_nullable_ofSlots hnodup hslot
      fun p hp => ⟨?_, Position.decode_tree (readsBack_position hreals hp) d⟩
    rw [Position.toValue, Value.tree]
    exact nofun
  have hlist : (Members.ofSlots (d + 1) v.slots).orElse "items" (Decoder.list Item.decode) [] =
      some v.items := by
    have hslot : ("items", some (.ofList Item.toValue v.items)) ∈ v.slots := by simp [slots]
    refine Members.orElse_ofSlots_some hnodup hslot
      (Decoder.list_tree fun i hi => Item.decode_tree ?_) _
    have := Item.levels_lt_of_mem hi
    omega
  rw [toValue_eq]
  refine (Decoder.record_tree hnodup _ (d + 1)).trans ?_
  simp only [hid "character_id" v.character (by simp [slots]),
    hid "corporation_id" v.corporation (by simp [slots]),
    hid "alliance_id" v.alliance (by simp [slots]), hid "faction_id" v.faction (by simp [slots]),
    hdamage, hship, hposition, hlist]
  rfl

theorem exact_toValue (h : ∀ x ∈ v.reals, ReadsBack x) : v.toValue.Exact := by
  have hposition : ExactSlot ("position", v.position.map Position.toValue) :=
    exactSlot_map fun p hp => Position.exact_toValue (readsBack_position h hp)
  have hitems : (Value.ofList Item.toValue v.items).Exact :=
    exact_ofList fun i _ => Item.exact_toValue i
  rw [toValue_eq, Value.Exact]
  apply membersExact_membersOf
  simp [slots, exact_ofUInt64, hposition, hitems]

theorem levels_of_decode {d : Nat} {t : Tree} (h : decode d t = some v) :
    Item.levelsOfAll v.items < d := by
  obtain ⟨d, m, rfl, hdepth, h⟩ := Decoder.exists_of_record h
  -- the items are the last of the fields
  iterate 7 obtain ⟨_, -, h⟩ := Option.bind_eq_some_iff.mp h
  obtain ⟨items, hitems, h⟩ := Option.bind_eq_some_iff.mp h
  cases h
  rcases Members.exists_of_orElse hitems with rfl | ⟨t, ht⟩
  · exact Nat.zero_lt_succ d
  · have hlevels := Item.levelsOfAll_of_list (fun _ _ _ => Item.levels_of_decode) ht
    dsimp only
    omega

end Victim

/-! ## Killmails -/

namespace Killmail

variable {k : Killmail}

/-- The numbers of a killmail. -/
def reals (k : Killmail) : List Binary64 :=
  k.victim.reals ++ k.attackers.map Attacker.securityStatus

def slots (k : Killmail) : List (String × Option Value) :=
  [("id", some (.ofUInt64 k.id)), ("hash", some (.text k.hash)),
    ("killmail_time", some (instantValue k.time)),
    ("solar_system_id", some (.ofUInt64 k.solarSystem)),
    ("moon_id", some (.ofOption .ofUInt64 k.moon)), ("war_id", some (.ofOption .ofUInt64 k.war)),
    ("is_npc", some (.bool k.npc)), ("is_solo", some (.bool k.solo)),
    ("victim", some k.victim.toValue), ("attackers", some (.ofList Attacker.toValue k.attackers))]

theorem toValue_eq (k : Killmail) : k.toValue = .object (membersOf k.slots) := rfl

theorem nodup_slots (k : Killmail) : (k.slots.map Prod.fst).Nodup := by simp [slots]

theorem decode_tree (hreals : ∀ x ∈ k.reals, ReadsBack x)
    (htime : Instant.ofString? k.time.iso = some k.time) {d : Nat}
    (hitems : Item.levelsOfAll k.victim.items ≤ d + 1) :
    decode (d + 3) k.toValue.tree = some k := by
  have hnodup := k.nodup_slots
  have hid {name : String} {n : UInt64} (hslot : (name, some (.ofUInt64 n)) ∈ k.slots) :=
    Members.required_ofSlots (d := d + 2) hnodup hslot (Decoder.uint64_tree n (d + 2))
  have hflag {name : String} {b : Bool} (hslot : (name, some (.bool b)) ∈ k.slots) :=
    Members.required_ofSlots (d := d + 2) hnodup hslot (Decoder.bool_tree b (d + 2))
  have hopt {name : String} {o : Option UInt64}
      (hslot : (name, some (.ofOption .ofUInt64 o)) ∈ k.slots) :=
    Members.optional_ofSlots (d := d + 2) hnodup hslot fun n _ => ofUInt64_reads n (d + 2)
  have hhash : (Members.ofSlots (d + 2) k.slots).required "hash" Decoder.text = some k.hash :=
    Members.required_ofSlots hnodup (v := .text k.hash) (by simp [slots]) (Decoder.text_tree _ _)
  have htime : (Members.ofSlots (d + 2) k.slots).required "killmail_time" instantDecoder =
      some k.time :=
    Members.required_ofSlots hnodup (v := instantValue k.time) (by simp [slots])
      (Decoder.textWith_tree htime _)
  -- one level is open in the victim and in the list of attackers, and another one in each of these
  have hvictim : (Members.ofSlots (d + 2) k.slots).required "victim" Victim.decode =
      some k.victim :=
    Members.required_ofSlots hnodup (v := k.victim.toValue) (by simp [slots])
      (Victim.decode_tree (fun x hx => hreals x (List.mem_append_left _ hx)) hitems)
  have hattackers : (Members.ofSlots (d + 2) k.slots).required "attackers"
      (Decoder.list Attacker.decode) = some k.attackers :=
    Members.required_ofSlots hnodup (v := .ofList Attacker.toValue k.attackers) (by simp [slots])
      (Decoder.list_tree fun a ha => Attacker.decode_tree
        (hreals _ (List.mem_append_right _ (List.mem_map_of_mem ha))) d)
  rw [toValue_eq]
  refine (Decoder.record_tree hnodup _ (d + 2)).trans ?_
  simp only [hid (show ("id", some (.ofUInt64 k.id)) ∈ k.slots by simp [slots]),
    hid (show ("solar_system_id", some (.ofUInt64 k.solarSystem)) ∈ k.slots by simp [slots]),
    hopt (show ("moon_id", some (.ofOption .ofUInt64 k.moon)) ∈ k.slots by simp [slots]),
    hopt (show ("war_id", some (.ofOption .ofUInt64 k.war)) ∈ k.slots by simp [slots]),
    hflag (show ("is_npc", some (.bool k.npc)) ∈ k.slots by simp [slots]),
    hflag (show ("is_solo", some (.bool k.solo)) ∈ k.slots by simp [slots]),
    hhash, htime, hvictim, hattackers]
  rfl

theorem exact_toValue (h : ∀ x ∈ k.reals, ReadsBack x) : k.toValue.Exact := by
  have hvictim := Victim.exact_toValue fun x hx => h x (List.mem_append_left _ hx)
  have hattackers : (Value.ofList Attacker.toValue k.attackers).Exact :=
    exact_ofList fun a ha =>
      Attacker.exact_toValue (h _ (List.mem_append_right _ (List.mem_map_of_mem ha)))
  have hoption : ∀ o : Option UInt64, (Value.ofOption .ofUInt64 o).Exact := by
    intro o
    cases o with
    | none =>
      rw [Value.ofOption, Value.Exact]
      trivial
    | some n => exact exact_ofUInt64 n
  rw [toValue_eq, Value.Exact]
  apply membersExact_membersOf
  simp [slots, instantValue, Value.Exact, exact_ofUInt64, hoption, hvictim, hattackers]

end Killmail

end Harvest
