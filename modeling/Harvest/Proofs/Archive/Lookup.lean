import Harvest.Proofs.Archive.Records
import Harvest.Proofs.Calendar.Instants
import Harvest.Proofs.Json.Writing
import Mathlib.Data.Finset.Card
import Mathlib.Data.Finset.Dedup

/-! # Looking up and counting what is stored

Whoever asks an archive for some ids, and gets an answer, learns which of them are stored. An
archive in memory answers with what it keeps. A table answers with what it reads of the texts that
it keeps; the text of a killmail begins with the id, so that it is read back whatever else is.

Whoever counts the killmails of a range of times counts every id that is stored with a time in the
range.

## Main statements

* `Killmail.id_of_read?_write`: the id that is read of the text of a killmail.
* `Archive.mem_of_find`: the answer to a question for ids.
* `Archive.card_le_count`: what is counted of a range.
-/

namespace Harvest

open Harvest.Calendar Harvest.Json Harvest.Text

/-! ## The id in the text of a killmail -/

/-- The text of an object whose first member is the id, up to the second member. -/
def idPrefix (n : Nat) : List Char := '\x7b' :: writeLiteral "id" ++ ':' :: natDigits n ++ [',']

theorem chars_idFirst (n : Nat) (m : String × Value) (ms : List (String × Value)) :
    ∃ rest, (Value.object (("id", .whole n) :: m :: ms)).chars = idPrefix n ++ rest := by
  have hdigits : (Value.whole n).chars = natDigits n := by
    rw [Value.chars]
    exact if_neg (by omega)
  refine ⟨Value.charsOfMembers (m :: ms) ++ ['\x7d'], ?_⟩
  rw [Value.chars, Value.charsOfMembers, hdigits, idPrefix]
  simp only [List.cons_append, List.append_assoc, List.nil_append]

theorem Killmail.exists_chars (k : Killmail) :
    ∃ rest, k.toValue.chars = idPrefix k.id.toNat ++ rest :=
  chars_idFirst _ _ _

/-- The first member of an object is read before the others. -/
theorem readMembers_id {n fuel : Nat} (hn : n < twoTo 64) {rest rest' : List Glyph}
    {ms : List (Option String × Tree)}
    (h : readMembers (fuel + 2) ((writeLiteral "id").map some ++ some ':' ::
      ((natDigits n).map some ++ some ',' :: rest)) = some (ms, rest')) :
    ∃ m ms', m.value? = some (.whole n) ∧ ms = (some "id", .number m) :: ms' := by
  obtain ⟨m, hm, hread⟩ := readTree_natural hn endsWhole_comma fuel rest
  have hcomma : skipSpace (some ',' :: rest) = some ',' :: rest := rfl
  rw [readMembers_key, hread] at h
  simp only [hcomma, Option.bind_eq_bind, Option.bind_some] at h
  obtain ⟨⟨ms', rest''⟩, -, hms⟩ := Option.bind_eq_some_iff.mp h
  cases hms
  exact ⟨m, ms', hm, rfl⟩

theorem Killmail.tree_of_read? {k : Killmail} {t : Tree} (h : Tree.ofString? k.write = some t) :
    ∃ m ms, m.value? = some (.whole k.id.toNat) ∧ t = .object ((some "id", .number m) :: ms) := by
  obtain ⟨rest, hchars⟩ := k.exists_chars
  have hn : k.id.toNat < twoTo 64 := k.id.toNat_lt
  have hglyphs : glyphsOf k.write = some '\x7b' :: ((writeLiteral "id").map some ++ some ':' ::
      ((natDigits k.id.toNat).map some ++ some ',' :: rest.map some)) := by
    rw [glyphsOf, write, Value.write, String.toList_ofList, hchars, idPrefix]
    simp
  rw [Tree.ofString?, Tree.read?] at h
  split at h
  · rename_i t' rest' hread
    split at h
    · cases h
      -- there is fuel for the object, its members and the first of their values
      obtain ⟨fuel, hfuel⟩ : ∃ fuel, 2 * (glyphsOf k.write).length + 2 = fuel + 3 := by
        rw [hglyphs]
        exact ⟨2 * (glyphsOf k.write).length - 1, by rw [hglyphs]; simp; omega⟩
      rw [hfuel, hglyphs] at hread
      obtain ⟨⟨ms, rest''⟩, hms, ht⟩ :=
        Option.map_eq_some_iff.mp ((readTree_object (fuel + 2) _).symm.trans hread)
      cases ht
      obtain ⟨m, ms', hm, rfl⟩ := readMembers_id hn hms
      exact ⟨m, ms', hm, rfl⟩
    · cases h
  · cases h

/-- A known field that comes first is found. -/
theorem lookup_knownFields {names : List String} {name : String} {t : Tree}
    {ms : List (Option String × Tree)} {fields : List (String × Tree)} (hname : name ∈ names)
    (h : Decoder.knownFields names ((some name, t) :: ms) = some fields) :
    fields.lookup name = some t := by
  unfold Decoder.knownFields at h
  obtain ⟨named, hnamed, hfields⟩ := Option.bind_eq_some_iff.mp h
  rw [List.mapM_cons] at hnamed
  obtain ⟨first, hfirst, hnamed⟩ := Option.bind_eq_some_iff.mp hnamed
  obtain ⟨rest, -, hcons⟩ := Option.bind_eq_some_iff.mp hnamed
  cases hfirst
  cases hcons
  dsimp only at hfields
  split at hfields
  · cases hfields
    simp [hname]
  · cases hfields

/-- The id that is read of the text of a killmail. -/
theorem Killmail.id_of_read?_write {k k' : Killmail} (h : Killmail.read? k.write = some k') :
    k'.id = k.id := by
  obtain ⟨t, ht, hdecode⟩ := Option.bind_eq_some_iff.mp h
  obtain ⟨m, ms, hm, rfl⟩ := tree_of_read? ht
  obtain ⟨fields, hfields, hbuild⟩ := Option.bind_eq_some_iff.mp hdecode
  have hid := lookup_knownFields (by decide) hfields
  obtain ⟨id, hread, hbuild⟩ := Option.bind_eq_some_iff.mp hbuild
  have hmember : Decoder.uint64 126 (.number m) = some id := by
    rw [Members.required, hid] at hread
    exact hread
  have hn : k.id.toNat < twoTo 64 := k.id.toNat_lt
  have hvalue : Decoder.uint64 126 (.number m) = some k.id := by
    rw [Decoder.uint64, Decoder.whole, hm]
    simp only [show (0 : Int) ≤ k.id.toNat ∧ (k.id.toNat : Int) ≤ (twoTo 64 : Int) - 1 by omega,
      and_self, if_true, Option.map_some, Int.toNat_natCast, UInt64.ofNat_toNat]
  have hsame : id = k.id := Option.some.inj (hmember.symm.trans hvalue)
  -- the other fields do not matter
  iterate 9 obtain ⟨_, -, hbuild⟩ := Option.bind_eq_some_iff.mp hbuild
  cases hbuild
  exact hsame

namespace Archive

/-! ## Finding by id -/

/-- The ids that a table reads of its texts are those under which it keeps them. -/
theorem ids_of_mapM_read? {ks' : List Killmail} {rows : List Row}
    (hrows : ∀ r ∈ rows, ∃ k : Killmail, r = k.row)
    (h : rows.mapM (fun r => Killmail.read? r.record) = some ks') :
    ks'.map (fun k => k.id.toInt64) = rows.map Row.id := by
  induction rows generalizing ks' with
  | nil =>
    cases h
    rfl
  | cons r rows ih =>
    rw [List.mapM_cons] at h
    obtain ⟨k', hk', h⟩ := Option.bind_eq_some_iff.mp h
    obtain ⟨rest, hrest, h⟩ := Option.bind_eq_some_iff.mp h
    cases h
    obtain ⟨k, rfl⟩ := hrows r List.mem_cons_self
    rw [List.map_cons, List.map_cons, ih (fun r hr => hrows r (List.mem_cons_of_mem _ hr)) hrest,
      Killmail.id_of_read?_write hk']
    rfl

theorem selects_ids_iff {ids : List UInt64} {r : Row} :
    Query.selects ⟨none, some (ids.map UInt64.toInt64)⟩ r = true ↔
      ∃ id ∈ ids, id.toInt64 = r.id := by
  simp only [Query.selects, Option.all_none, Option.all_some, Bool.true_and, List.contains_iff_mem,
    List.mem_map]

/-- A question for ids, in whatever chunks, is answered by the rows of these ids. -/
theorem mem_select_withIds {a : TableArchive} {ids : List UInt64} {r : Row} :
    r ∈ (Query.ofFilter (.withIds ids)).flatMap a.select ↔
      r ∈ a.rows ∧ ∃ id ∈ ids, id.toInt64 = r.id := by
  simp only [Query.ofFilter, Filter.withIds, Option.map_none, List.mem_flatMap, List.mem_map,
    TableArchive.select, List.mem_mergeSort, List.mem_filter]
  constructor
  · rintro ⟨q, ⟨c, hc, rfl⟩, hr, hsel⟩
    obtain ⟨id, hid, heq⟩ := selects_ids_iff.mp hsel
    exact ⟨hr, id, mem_of_mem_chunksOf hc hid, heq⟩
  · rintro ⟨hr, id, hid, heq⟩
    rw [← flatten_chunksOf idChunk ids, List.mem_flatten] at hid
    obtain ⟨c, hc, hid⟩ := hid
    exact ⟨_, ⟨c, hc, rfl⟩, hr, selects_ids_iff.mpr ⟨id, hid, heq⟩⟩

theorem mem_ids_table {a : TableArchive} {id : UInt64} :
    id ∈ (table a).ids ↔ ∃ r ∈ a.rows, r.id = id.toInt64 := by
  rw [← contains_iff]
  simp only [contains, TableArchive.contains, List.any_eq_true, decide_eq_true_eq]

/-- The answer to a question for ids has those of them that are stored. -/
theorem mem_of_find {a : Archive} {ks : List Killmail} (ha : a.only ks = a) {ids : List UInt64}
    {stored : List Killmail} (h : a.find (.withIds ids) = .ok stored) {id : UInt64}
    (hid : id ∈ ids) : id ∈ stored.map Killmail.id ↔ id ∈ a.ids := by
  cases a with
  | memory a =>
    cases h
    simp only [MemoryArchive.find, List.mem_map, List.mem_mergeSort, List.mem_filter, Archive.ids,
      Filter.matches_, Filter.withIds, Option.all_none, Option.all_some, Bool.true_and,
      List.contains_iff_mem]
    constructor
    · rintro ⟨k, ⟨hk, -⟩, heq⟩
      exact ⟨k, hk, heq⟩
    · rintro ⟨k, hk, rfl⟩
      exact ⟨k, ⟨hk, hid⟩, rfl⟩
  | table a =>
    have hks : ks.map Killmail.row = a.rows := congrArg TableArchive.rows (table.inj ha)
    simp only [find, TableArchive.find] at h
    split at h
    · rename_i ks' hread
      cases h
      have hsame : ks'.map (fun k => k.id.toInt64)
          = ((Query.ofFilter (.withIds ids)).flatMap a.select).map Row.id := by
        refine ids_of_mapM_read? (fun r hr => ?_) hread
        have hr := (mem_select_withIds.mp hr).1
        rw [← hks] at hr
        obtain ⟨k, -, rfl⟩ := List.mem_map.mp hr
        exact ⟨k, rfl⟩
      have hmem : id ∈ ks'.map Killmail.id ↔ id.toInt64 ∈ ks'.map (fun k => k.id.toInt64) := by
        simp only [List.mem_map]
        constructor
        · rintro ⟨k, hk, rfl⟩
          exact ⟨k, hk, rfl⟩
        · rintro ⟨k, hk, heq⟩
          exact ⟨k, hk, toInt64_inj heq⟩
      rw [((List.mergeSort_perm _ _).map _).mem_iff, hmem, hsame, mem_ids_table, List.mem_map]
      constructor
      · rintro ⟨r, hr, heq⟩
        exact ⟨r, (mem_select_withIds.mp hr).1, heq⟩
      · rintro ⟨r, hr, heq⟩
        exact ⟨r, mem_select_withIds.mpr ⟨hr, id, hid, heq.symm⟩, heq⟩
    · cases h

/-! ## Counting in a range -/

/-- The archive keeps a killmail of the id with a time in the range. -/
def HasWithin (r : Range) (id : UInt64) (a : Archive) : Prop :=
  ∃ k, a.Holds k ∧ k.id = id ∧ r.contains k.time = true

theorem HasWithin.prepend {r : Range} {id : UInt64} {a : Archive} (h : a.HasWithin r id)
    (ks : List Killmail) : (a.prepend ks).HasWithin r id := by
  obtain ⟨k, hk, hid, htime⟩ := h
  exact ⟨k, hk.prepend ks, hid, htime⟩

/-- Whether an id is stored with a time in the range can be told from the killmails. -/
theorem hasWithin_of_only {r : Range} {id : UInt64} {a : Archive} {ks : List Killmail}
    (ha : a.only ks = a) (h : ∀ k ∈ ks, k.id = id → r.contains k.time = true) (hid : id ∈ a.ids) :
    a.HasWithin r id := by
  cases a with
  | memory a =>
    have hks : ks = a.killmails := congrArg MemoryArchive.killmails (memory.inj ha)
    obtain ⟨k, hk, heq⟩ := List.mem_map.mp hid
    exact ⟨k, hk, heq, h k (hks ▸ hk) heq⟩
  | table a =>
    have hks : ks.map Killmail.row = a.rows := congrArg TableArchive.rows (table.inj ha)
    obtain ⟨r, hr, heq⟩ := mem_ids_table.mp hid
    obtain ⟨k, hk, rfl⟩ := List.mem_map.mp (hks ▸ hr)
    exact ⟨k, hr, toInt64_inj heq, h k hk (toInt64_inj heq)⟩

theorem card_le_countP {α β : Type} [DecidableEq β] {f : α → β} {p : α → Bool} {xs : List α}
    {s : Finset β} (h : ∀ b ∈ s, ∃ x ∈ xs, p x = true ∧ f x = b) : s.card ≤ xs.countP p := by
  have hsub : s ⊆ ((xs.filter p).map f).toFinset := by
    intro b hb
    obtain ⟨x, hx, hp, heq⟩ := h b hb
    rw [List.mem_toFinset, List.mem_map]
    exact ⟨x, List.mem_filter.mpr ⟨hx, hp⟩, heq⟩
  calc s.card ≤ ((xs.filter p).map f).toFinset.card := Finset.card_le_card hsub
    _ ≤ ((xs.filter p).map f).length := List.toFinset_card_le _
    _ = xs.countP p := by rw [List.length_map, List.countP_eq_length_filter]

/-- Every id that is stored with a time in a range is counted of the range. -/
theorem card_le_count {a : Archive} {r : Range} {s : Finset UInt64}
    (h : ∀ id ∈ s, a.HasWithin r id) : s.card ≤ a.count (.within r) := by
  cases a with
  | memory a =>
    refine card_le_countP (f := Killmail.id) fun id hid => ?_
    obtain ⟨k, hk, heq, htime⟩ := h id hid
    exact ⟨k, hk, by simp [Filter.matches_, Filter.within, htime], heq⟩
  | table a =>
    -- a table compares whole seconds, which a time in the range passes as well
    show s.card ≤ a.rows.countP _ + 0
    refine card_le_countP (f := fun r => r.id.toUInt64) fun id hid => ?_
    obtain ⟨k, hk, heq, htime⟩ := h id hid
    refine ⟨k.row, hk, ?_, by rw [← heq]; exact UInt64.toUInt64_toInt64 k.id⟩
    simp only [Range.contains, Bool.and_eq_true, decide_eq_true_eq] at htime
    have hstart := Instant.second_le_of_le htime.1
    have hstop := Instant.second_le_of_le htime.2
    simp [Query.selects, Filter.within, Killmail.row, hstart, hstop]

end Archive

end Harvest
