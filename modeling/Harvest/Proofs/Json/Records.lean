import Harvest.Json.Encoder
import Harvest.Proofs.Json.Writing

/-! # Reading back records

A record is written as an object, and fields without a value may be left out of it. So what is
written of a record is a list of slots, each of which has a name and may have a value. If the names
are the ones that a decoder knows, the decoder finds in each slot what has been put there.

## Main definitions

* `membersOf`: the members that a list of slots comes to.
* `Members.ofSlots`: the fields that a decoder finds of them.

## Main statements

* `Decoder.uint64_tree`, `Decoder.real_tree`, `Decoder.list_tree`: values are decoded as they were.
* `Decoder.record_tree`: a record is decoded from its slots.
* `Members.required_ofSlots`, `Members.orElse_ofSlots`, `Members.optional_ofSlots`: a field is
  decoded from its slot.
* `membersExact_membersOf`: the numbers in an object are those in its slots.
-/

namespace Harvest.Json

open Harvest.Text Harvest.Decimal

variable {α : Type}

/-! ## Scalars -/

theorem value?_numeralOf {n : Int} (hmin : -(twoTo 63 : Int) ≤ n) (hmax : n < twoTo 64) :
    (numeralOf (intDigits n)).value? = some (.whole n) := by
  obtain ⟨m, hm, hvalue⟩ := readNumeral_intDigits hmin hmax
  rw [numeralOf_eq hm, hvalue]

theorem exact_ofUInt64 (n : UInt64) : (Value.ofUInt64 n).Exact := by
  have hlt : n.toNat < twoTo 64 := n.toNat_lt
  rw [Value.ofUInt64, Value.Exact]
  omega

theorem exact_ofInt64 (n : Int64) : (Value.ofInt64 n).Exact := by
  have hmin : -(twoTo 63 : Int) ≤ n.toInt := n.le_toInt
  have hmax : n.toInt < twoTo 63 := n.toInt_lt
  have htwice : twoTo 64 = twoTo 63 * 2 := rfl
  rw [Value.ofInt64, Value.Exact]
  omega

namespace Decoder

theorem whole_tree {low high n : Int} (h : (Value.whole n).Exact) (hlow : low ≤ n)
    (hhigh : n ≤ high) (d : Nat) : whole low high d (Value.whole n).tree = some n := by
  rw [Value.Exact] at h
  rw [Value.tree, whole, value?_numeralOf h.1 h.2]
  exact if_pos ⟨hlow, hhigh⟩

theorem uint64_tree (n : UInt64) (d : Nat) : uint64 d (Value.ofUInt64 n).tree = some n := by
  have hlt : n.toNat < twoTo 64 := n.toNat_lt
  have hread := whole_tree (exact_ofUInt64 n) (Int.natCast_nonneg _)
    (show (n.toNat : Int) ≤ (twoTo 64 : Int) - 1 by omega) d
  rw [uint64, Value.ofUInt64, hread, Option.map_some, Int.toNat_natCast, UInt64.ofNat_toNat]

theorem int64_tree (n : Int64) (d : Nat) : int64 d (Value.ofInt64 n).tree = some n.toInt := by
  have hmax : n.toInt < twoTo 63 := n.toInt_lt
  exact whole_tree (exact_ofInt64 n) n.le_toInt (by omega) d

theorem real_tree {x : Binary64} (h : ReadsBack x) (d : Nat) :
    real d (Value.real x).tree = some x := by
  obtain ⟨n, hn, hvalue⟩ := h.readNumeral
  rw [Value.tree, numeralOf_eq hn]
  exact hvalue

theorem bool_tree (b : Bool) (d : Nat) : bool d (Value.bool b).tree = some b := by
  rw [Value.tree, bool]

theorem text_tree (s : String) (d : Nat) : text d (Value.text s).tree = some s := by
  rw [Value.tree, text]

theorem textWith_tree {read : String → Option α} {s : String} {a : α} (h : read s = some a)
    (d : Nat) : textWith read d (Value.text s).tree = some a := by
  rw [textWith, text_tree]
  exact h

/-! ## Composites -/

theorem nullable_of_some {decode : Decoder α} {d : Nat} {t : Tree} {a : α} (ht : t ≠ .null)
    (h : decode d t = some a) : nullable decode d t = some (some a) := by
  unfold nullable
  split
  · exact absurd rfl ht
  · rw [h]
    rfl

theorem trees_map (encode : α → Value) (xs : List α) :
    Value.trees (xs.map encode) = xs.map fun x => (encode x).tree := by
  induction xs with
  | nil => rfl
  | cons x xs ih => rw [List.map_cons, Value.trees, ih, List.map_cons]

theorem list_tree {decode : Decoder α} {encode : α → Value} {d : Nat} {xs : List α}
    (h : ∀ x ∈ xs, decode d (encode x).tree = some x) :
    list decode (d + 1) (Value.ofList encode xs).tree = some xs := by
  rw [Value.ofList, Value.tree, trees_map, list]
  exact mapM_map_of_forall h

end Decoder

theorem exact_ofList {encode : α → Value} {xs : List α} (h : ∀ x ∈ xs, (encode x).Exact) :
    (Value.ofList encode xs).Exact := by
  rw [Value.ofList, Value.Exact]
  induction xs with
  | nil => trivial
  | cons x xs ih =>
    exact ⟨h x List.mem_cons_self, ih fun y hy => h y (List.mem_cons_of_mem x hy)⟩

/-! ## Slots -/

/-- The members of a record, given by its slots: a slot without a value is left out. -/
def membersOf (slots : List (String × Option Value)) : List (String × Value) :=
  slots.filterMap fun (name, o) => o.map fun v => (name, v)

@[simp] theorem membersOf_nil : membersOf [] = [] := rfl

@[simp] theorem membersOf_some (name : String) (v : Value) (slots : List (String × Option Value)) :
    membersOf ((name, some v) :: slots) = (name, v) :: membersOf slots := rfl

@[simp] theorem membersOf_none (name : String) (slots : List (String × Option Value)) :
    membersOf ((name, none) :: slots) = membersOf slots := rfl

@[simp] theorem membersOf_map (name : String) (encode : α → Value) (o : Option α)
    (slots : List (String × Option Value)) :
    membersOf ((name, o.map encode) :: slots) = presentMember name encode o ++ membersOf slots := by
  cases o <;> rfl

/-- The numbers in the value of a slot are exact. -/
def ExactSlot (slot : String × Option Value) : Prop := ∀ v, slot.2 = some v → v.Exact

@[simp] theorem exactSlot_some {name : String} {v : Value} :
    ExactSlot (name, some v) ↔ v.Exact :=
  ⟨fun h => h v rfl, fun h _ hw => Option.some.inj hw ▸ h⟩

theorem exactSlot_map {name : String} {encode : α → Value} {o : Option α}
    (h : ∀ x ∈ o, (encode x).Exact) : ExactSlot (name, o.map encode) := by
  intro v hv
  obtain ⟨x, hx, rfl⟩ := Option.map_eq_some_iff.mp hv
  exact h x hx

theorem membersExact_membersOf {slots : List (String × Option Value)}
    (h : ∀ slot ∈ slots, ExactSlot slot) : Value.MembersExact (membersOf slots) := by
  induction slots with
  | nil => trivial
  | cons slot slots ih =>
    obtain ⟨name, o⟩ := slot
    have hrest := ih fun slot hslot => h slot (List.mem_cons_of_mem _ hslot)
    cases o with
    | none => exact hrest
    | some v => exact ⟨h _ List.mem_cons_self v rfl, hrest⟩

namespace Members

/-- The fields of an object that is given by its slots. -/
def ofSlots (d : Nat) (slots : List (String × Option Value)) : Members where
  positional := false
  depth := d
  fields := (membersOf slots).map fun m => (m.1, m.2.tree)

end Members

theorem keys_membersOf (slots : List (String × Option Value)) :
    ((membersOf slots).map Prod.fst).Sublist (slots.map Prod.fst) := by
  induction slots with
  | nil => exact List.Sublist.refl _
  | cons slot slots ih =>
    obtain ⟨name, o⟩ := slot
    cases o with
    | none => exact ih.cons _
    | some v => exact ih.cons_cons _

theorem memberTrees_eq_map (ms : List (String × Value)) :
    Value.memberTrees ms = (ms.map fun m => (m.1, m.2.tree)).map fun m => (some m.1, m.2) := by
  induction ms with
  | nil => rfl
  | cons m ms ih => rw [Value.memberTrees, ih, List.map_cons, List.map_cons]

theorem knownFields_membersOf {slots : List (String × Option Value)}
    (hnodup : (slots.map Prod.fst).Nodup) (d : Nat) :
    Decoder.knownFields (slots.map Prod.fst) (Value.memberTrees (membersOf slots)) =
      some (Members.ofSlots d slots).fields := by
  have hkeys := keys_membersOf slots
  rw [Members.ofSlots]
  generalize slots.map Prod.fst = names at hkeys hnodup ⊢
  generalize membersOf slots = ms at hkeys ⊢
  have hfst : (ms.map fun m => (m.1, m.2.tree)).map Prod.fst = ms.map Prod.fst := by
    rw [List.map_map]
    rfl
  have hknown : (ms.map fun m => (m.1, m.2.tree)).filter (fun m => names.contains m.1) =
      ms.map fun m => (m.1, m.2.tree) := by
    rw [List.filter_eq_self]
    intro m hm
    rw [List.contains_iff_mem]
    exact hkeys.subset (hfst ▸ List.mem_map_of_mem hm)
  have hnodup' : ((ms.map fun m => (m.1, m.2.tree)).map Prod.fst).Nodup :=
    hfst ▸ hkeys.nodup hnodup
  -- all keys are texts, all are known, and none is repeated
  rw [Decoder.knownFields, memberTrees_eq_map, mapM_map_of_forall]
  · simp only [hknown, Option.bind_eq_bind, Option.bind_some, if_pos hnodup']
  · exact fun _ _ => rfl

/-- A record is decoded from its slots. -/
theorem Decoder.record_tree {slots : List (String × Option Value)}
    (hnodup : (slots.map Prod.fst).Nodup) (build : Members → Option α) (d : Nat) :
    Decoder.record (slots.map Prod.fst) build (d + 1) (Value.object (membersOf slots)).tree =
      build (Members.ofSlots d slots) := by
  rw [Value.tree, Decoder.record]
  simp only [knownFields_membersOf hnodup d, Option.bind_eq_bind, Option.bind_some]
  rfl

namespace Members

variable {d : Nat} {slots : List (String × Option Value)} {name : String} {decode : Decoder α}
  {encode : α → Value}

theorem lookup_ofSlots (hnodup : (slots.map Prod.fst).Nodup) {o : Option Value}
    (h : (name, o) ∈ slots) : (ofSlots d slots).fields.lookup name = o.map Value.tree := by
  simp only [ofSlots]
  induction slots with
  | nil => cases h
  | cons slot slots ih =>
    rw [List.map_cons, List.nodup_cons] at hnodup
    rcases List.mem_cons.mp h with rfl | hmem
    · -- no later slot has the name
      cases o with
      | some v => exact List.lookup_cons_self
      | none =>
        rw [membersOf_none, Option.map_none, List.lookup_eq_none_iff]
        intro m hm
        obtain ⟨m', hm', rfl⟩ := List.mem_map.mp hm
        have hne : name ≠ m'.1 := by
          rintro rfl
          exact hnodup.1 ((keys_membersOf slots).subset (List.mem_map_of_mem hm'))
        exact bne_iff_ne.mpr hne
    · obtain ⟨name', o'⟩ := slot
      have hne : name ≠ name' := by
        rintro rfl
        exact hnodup.1 (List.mem_map.mpr ⟨_, hmem, rfl⟩)
      have hrest := ih hnodup.2 hmem
      cases o' with
      | none => exact hrest
      | some v =>
        rw [membersOf_some, List.map_cons, List.lookup_cons, beq_false_of_ne hne]
        exact hrest

/-- A field that is there. -/
theorem required_ofSlots (hnodup : (slots.map Prod.fst).Nodup) {v : Value} {a : α}
    (h : (name, some v) ∈ slots) (hv : decode d v.tree = some a) :
    (ofSlots d slots).required name decode = some a := by
  rw [required, lookup_ofSlots hnodup h]
  exact hv

/-- A field that is left out when it has the value of an absent one. -/
theorem orElse_ofSlots (hnodup : (slots.map Prod.fst).Nodup) {o : Option Value} {a absent : α}
    (h : (name, o) ∈ slots) (hv : ∀ v ∈ o, decode d v.tree = some a) (ha : o = none → a = absent) :
    (ofSlots d slots).orElse name decode absent = some a := by
  rw [orElse, lookup_ofSlots hnodup h]
  cases o with
  | none => rw [ha rfl]; rfl
  | some v => exact hv v rfl

theorem orElse_ofSlots_some (hnodup : (slots.map Prod.fst).Nodup) {v : Value} {a : α}
    (h : (name, some v) ∈ slots) (hv : decode d v.tree = some a) (absent : α) :
    (ofSlots d slots).orElse name decode absent = some a :=
  orElse_ofSlots hnodup h (fun _ hw => Option.some.inj hw ▸ hv) nofun

/-- A field that is left out when there is no value. -/
theorem orElse_nullable_ofSlots (hnodup : (slots.map Prod.fst).Nodup) {o : Option α}
    (h : (name, o.map encode) ∈ slots)
    (hdecode : ∀ x ∈ o, (encode x).tree ≠ .null ∧ decode d (encode x).tree = some x) :
    (ofSlots d slots).orElse name (Decoder.nullable decode) none = some o := by
  refine orElse_ofSlots hnodup h ?_ ?_
  · intro v hv
    cases o with
    | none => cases hv
    | some x =>
      cases hv
      exact Decoder.nullable_of_some (hdecode x rfl).1 (hdecode x rfl).2
  · exact Option.map_eq_none_iff.mp

/-- A field that is null when there is no value. -/
theorem optional_ofSlots (hnodup : (slots.map Prod.fst).Nodup) {o : Option α}
    (h : (name, some (Value.ofOption encode o)) ∈ slots)
    (hdecode : ∀ x ∈ o, (encode x).tree ≠ .null ∧ decode d (encode x).tree = some x) :
    (ofSlots d slots).optional name decode = some o := by
  rw [optional, lookup_ofSlots hnodup h]
  cases o with
  | none =>
    rw [Value.ofOption, Option.map_some, Value.tree]
    rfl
  | some x => exact Decoder.nullable_of_some (hdecode x rfl).1 (hdecode x rfl).2

end Members

/-! ## What has been decoded -/

theorem Decoder.exists_of_record {names : List String} {build : Members → Option α} {d : Nat}
    {t : Tree} {a : α} (h : Decoder.record names build d t = some a) :
    ∃ d' m, d = d' + 1 ∧ m.depth = d' ∧ build m = some a := by
  unfold Decoder.record at h
  split at h
  · obtain ⟨fields, -, h⟩ := Option.bind_eq_some_iff.mp h
    exact ⟨_, _, rfl, rfl, h⟩
  · split at h
    · exact ⟨_, _, rfl, rfl, h⟩
    · cases h
  · cases h

theorem Decoder.exists_of_list {decode : Decoder α} {d : Nat} {t : Tree} {xs : List α}
    (h : Decoder.list decode d t = some xs) :
    ∃ d', d = d' + 1 ∧ ∀ x ∈ xs, ∃ t, decode d' t = some x := by
  unfold Decoder.list at h
  split at h
  · rename_i d' ts
    refine ⟨d', rfl, ?_⟩
    induction ts generalizing xs with
    | nil =>
      cases h
      exact fun x hx => nomatch hx
    | cons t ts ih =>
      rw [List.mapM_cons] at h
      obtain ⟨x, hx, h⟩ := Option.bind_eq_some_iff.mp h
      obtain ⟨rest, hrest, h⟩ := Option.bind_eq_some_iff.mp h
      cases h
      intro y hy
      rcases List.mem_cons.mp hy with rfl | hy
      · exact ⟨t, hx⟩
      · exact ih hrest y hy
  · cases h

namespace Members

variable {m : Members} {name : String} {decode : Decoder α} {a absent : α}

theorem exists_of_required (h : m.required name decode = some a) :
    ∃ t, decode m.depth t = some a := by
  obtain ⟨t, -, ht⟩ := Option.bind_eq_some_iff.mp h
  exact ⟨t, ht⟩

theorem exists_of_orElse (h : m.orElse name decode absent = some a) :
    a = absent ∨ ∃ t, decode m.depth t = some a := by
  unfold orElse at h
  split at h
  · exact .inr ⟨_, h⟩
  · exact .inl (Option.some.inj h).symm

end Members

end Harvest.Json
