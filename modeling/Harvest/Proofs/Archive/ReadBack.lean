import Harvest.Killmail.Decode
import Harvest.Proofs.Archive.Filtering
import Harvest.Proofs.Calendar.Timestamps
import Harvest.Proofs.Killmail.Documents

/-! # Reading back what is stored

A table keeps the text of a killmail, and a single text that cannot be read fails a whole question.
The text of a killmail that has been decoded from a fetched body is read, and gives the killmail
again. For the body was read in as many levels as the text has, and its time was read from a text.
So what the table found before, it finds after the insertion, and the killmail beside it.

Of the binary numbers it is asked that they read back: a number with more digits than fit a word is
read in two steps, and these may round it twice.

## Main statements

* `Payload.storable_of_decode`: what is known of a payload that has been decoded.
* `WorkItem.read?_write_of_decodeBody`: a decoded killmail is read back from its text.
* `TableArchive.find_insert`: what a table finds after an insertion.
* `WorkItem.stored_killmail_reads_back`: both together.
-/

namespace Harvest

open Harvest.Calendar Harvest.Decimal Harvest.Json Harvest.Text

/-! ## Decoded killmails -/

theorem Payload.storable_of_decode {d : Nat} {t : Tree} {p : Payload}
    (h : Payload.decode d t = some p) :
    p.time.Regular ∧ Item.levelsOfAll p.victim.items + 1 < d := by
  obtain ⟨d, m, rfl, hdepth, h⟩ := Decoder.exists_of_record h
  obtain ⟨id, -, h⟩ := Option.bind_eq_some_iff.mp h
  obtain ⟨time, htime, h⟩ := Option.bind_eq_some_iff.mp h
  obtain ⟨solarSystem, -, h⟩ := Option.bind_eq_some_iff.mp h
  obtain ⟨moon, -, h⟩ := Option.bind_eq_some_iff.mp h
  obtain ⟨war, -, h⟩ := Option.bind_eq_some_iff.mp h
  obtain ⟨victim, hvictim, h⟩ := Option.bind_eq_some_iff.mp h
  obtain ⟨attackers, -, h⟩ := Option.bind_eq_some_iff.mp h
  cases h
  obtain ⟨t₁, ht₁⟩ := Members.exists_of_required htime
  obtain ⟨s, -, hs⟩ := Option.bind_eq_some_iff.mp ht₁
  obtain ⟨t₂, ht₂⟩ := Members.exists_of_required hvictim
  have hlevels := Victim.levels_of_decode ht₂
  exact ⟨Instant.regular_of_ofString? hs, by dsimp only; omega⟩

/-- The text of a killmail is read as its document. -/
theorem Killmail.ofString?_write {k : Killmail} (h : k.toValue.Exact) :
    Tree.ofString? k.write = some k.toValue.tree := by
  rw [toValue_eq, Value.Exact] at h
  exact Json.ofString?_write h

/-- A killmail that has been decoded is read back from its text. -/
theorem WorkItem.read?_write_of_decodeBody {w : WorkItem} {body : List UInt8} {k : Killmail}
    (hk : w.decodeBody body = .ok k) (hreals : ∀ x ∈ k.reals, ReadsBack x) :
    Killmail.read? k.write = some k := by
  unfold decodeBody at hk
  split at hk
  · rename_i p hp
    unfold accept at hk
    split at hk
    · cases hk
      obtain ⟨t, -, hdecode⟩ := Option.bind_eq_some_iff.mp hp
      obtain ⟨htime, hlevels⟩ := Payload.storable_of_decode hdecode
      have htree := Killmail.ofString?_write (Killmail.exact_toValue hreals)
      have hdecode : Killmail.decode maxDepth (p.toKillmail w.hash).toValue.tree =
          some (p.toKillmail w.hash) :=
        Killmail.decode_tree hreals (Instant.ofString?_iso htime) (Nat.le_of_lt_succ
          (Nat.lt_of_succ_lt_succ hlevels))
      rw [Killmail.read?, Decoder.runString, Decoder.run]
      rw [Tree.ofString?] at htree
      rw [htree]
      exact hdecode
    · cases hk
  · cases hk

/-! ## One more row -/

section mapM

variable {α β : Type} {g : α → Option β}

theorem mapM_perm {xs ys : List α} (hperm : xs.Perm ys) {bs : List β} (h : ys.mapM g = some bs) :
    ∃ cs, xs.mapM g = some cs ∧ cs.Perm bs := by
  induction hperm generalizing bs with
  | nil => exact ⟨bs, h, .refl _⟩
  | cons x _ ih =>
    rw [List.mapM_cons] at h
    obtain ⟨b, hb, h⟩ := Option.bind_eq_some_iff.mp h
    obtain ⟨bs, hbs, h⟩ := Option.bind_eq_some_iff.mp h
    cases h
    obtain ⟨cs, hcs, hperm⟩ := ih hbs
    refine ⟨b :: cs, ?_, hperm.cons b⟩
    rw [List.mapM_cons, hb, hcs]
    rfl
  | swap x y xs =>
    rw [List.mapM_cons, List.mapM_cons] at h
    obtain ⟨b, hb, h⟩ := Option.bind_eq_some_iff.mp h
    obtain ⟨_, htail, h⟩ := Option.bind_eq_some_iff.mp h
    obtain ⟨c, hc, htail⟩ := Option.bind_eq_some_iff.mp htail
    obtain ⟨bs, hbs, htail⟩ := Option.bind_eq_some_iff.mp htail
    cases htail
    cases h
    refine ⟨c :: b :: bs, ?_, .swap b c bs⟩
    rw [List.mapM_cons, List.mapM_cons, hb, hc, hbs]
    rfl
  | trans _ _ ih ih' =>
    obtain ⟨cs, hcs, hperm⟩ := ih' h
    obtain ⟨ds, hds, hperm'⟩ := ih hcs
    exact ⟨ds, hds, hperm'.trans hperm⟩

theorem mapM_replicate_append {x : α} {b : β} (hx : g x = some b) (n : Nat) {xs : List α}
    {bs : List β} (h : xs.mapM g = some bs) :
    (List.replicate n x ++ xs).mapM g = some (List.replicate n b ++ bs) := by
  induction n with
  | zero => exact h
  | succ n ih =>
    rw [List.replicate_succ, List.cons_append, List.mapM_cons, hx, ih]
    rfl

end mapM

namespace TableArchive

theorem insert_of_new {a : TableArchive} {k : Killmail} (hnew : a.contains k.id = false) :
    a.insert k = (⟨k.row :: a.rows⟩, .inserted) := by
  rw [insert, hnew]
  rfl

/-- The questions of a filter give each row as often as they select it. -/
theorem perm_select (rows : List Row) (qs : List Query) :
    (qs.flatMap (select ⟨rows⟩)).Perm
      (rows.flatMap fun r => List.replicate (qs.countP (·.selects r)) r) :=
  (List.Perm.flatMap_left qs fun _ _ => List.mergeSort_perm _ _).trans
    (perm_flatMap_filter Query.selects qs rows)

/-- A killmail that reads back is found beside what was found before, by each question that selects
its row. -/
theorem find_insert {a : TableArchive} {k : Killmail} (hread : Killmail.read? k.write = some k)
    (hnew : a.contains k.id = false) {f : Filter} {ks : List Killmail} (h : a.find f = .ok ks) :
    ∃ found, (a.insert k).1.find f = .ok found ∧
      found.Perm (List.replicate ((Query.ofFilter f).countP (·.selects k.row)) k ++ ks) := by
  obtain ⟨rows⟩ := a
  rw [insert_of_new hnew]
  unfold find at h
  dsimp only at h
  split at h
  · rename_i ls hls
    cases h
    -- the answers before and after are those of the rows, each as often as it is selected
    have hold := perm_select rows (Query.ofFilter f)
    have hnow := perm_select (k.row :: rows) (Query.ofFilter f)
    rw [List.flatMap_cons] at hnow
    have hrow : Killmail.read? k.row.record = some k := hread
    obtain ⟨ls', hls', hperm⟩ := mapM_perm hold.symm hls
    have hall := mapM_replicate_append (x := k.row) (g := fun r : Row => Killmail.read? r.record)
      hrow ((Query.ofFilter f).countP (·.selects k.row)) hls'
    obtain ⟨found, hfound, hperm'⟩ := mapM_perm hnow hall
    refine ⟨found.mergeSort fun x y => x.id ≤ y.id, ?_, ?_⟩
    · unfold find
      simp only [hfound]
    · have hsorted := List.mergeSort_perm ls fun x y => decide (x.id ≤ y.id)
      exact (List.mergeSort_perm _ _).trans
        (hperm'.trans ((hperm.trans hsorted.symm).append_left _))
  · cases h

end TableArchive

/-- **A decoded killmail reads back from an archive.** The text that an insertion writes gives the
killmail again. Every filter that has been answered before is answered after the insertion, by the
same killmails and as many of the new one as there are questions that select its row. -/
theorem WorkItem.stored_killmail_reads_back {w : WorkItem} {body : List UInt8} {k : Killmail}
    (hk : w.decodeBody body = .ok k) (hreals : ∀ x ∈ k.reals, ReadsBack x) :
    Killmail.read? k.row.record = some k ∧
      ∀ a : TableArchive, a.contains k.id = false →
        (a.insert k).1.rows = k.row :: a.rows ∧
        ∀ (f : Filter) (ks : List Killmail), a.find f = .ok ks →
          ∃ found, (a.insert k).1.find f = .ok found ∧
            found.Perm
              (List.replicate ((Query.ofFilter f).countP (·.selects k.row)) k ++ ks) := by
  have hread := read?_write_of_decodeBody hk hreals
  refine ⟨hread, fun a hnew => ⟨?_, fun f ks h => TableArchive.find_insert hread hnew h⟩⟩
  rw [TableArchive.insert_of_new hnew]

namespace Salvage

/-- A body with a container, a leap second west of UTC and numbers in three notations. -/
def body : List UInt8 :=
  Text.bytesOf "\x7b\"killmail_id\":7,\"killmail_time\":\"2016-12-31 15:59:60.5-08:00\","
    ++ Text.bytesOf "\"solar_system_id\":30000142,\"moon_id\":null,\"victim\":\x7b"
    ++ Text.bytesOf "\"ship_type_id\":587,\"position\":\x7b\"x\":1.5,\"y\":-2e3,\"z\":0\x7d,"
    ++ Text.bytesOf "\"items\":[\x7b\"flag\":5,\"item_type_id\":34,\"items\":[\x7b\"flag\":0,"
    ++ Text.bytesOf "\"item_type_id\":35,\"quantity_dropped\":2,\"items\":[]\x7d]\x7d]\x7d,"
    ++ Text.bytesOf "\"attackers\":[\x7b\"security_status\":-0.25,\"final_blow\":true\x7d]\x7d"

/-- Its hash has a letter beyond ASCII and a line feed. -/
def item : WorkItem := ⟨7, "h\u00e9\n"⟩

def loss : Killmail where
  id := 7
  hash := "h\u00e9\n"
  time := ⟨1483228799, 1500000000, by decide⟩
  solarSystem := 30000142
  moon := none
  war := none
  npc := true
  solo := false
  victim :=
    { character := none, corporation := none, alliance := none, faction := none
      damageTaken := 0, shipType := 587
      position := some
        { x := ⟨false, 6755399441055744, -52⟩, y := ⟨true, 8796093022208000, -42⟩, z := .zero }
      items := [⟨5, 34, none, none, 0, [⟨0, 35, none, some 2, 0, []⟩]⟩] }
  attackers := [⟨none, none, none, none, 0, true, ⟨true, 4503599627370496, -54⟩, none, none⟩]

theorem found_by_id :
    item.decodeBody body = .ok loss ∧ (∀ x ∈ loss.reals, ReadsBack x) ∧
    Killmail.read? loss.row.record = some loss ∧
    (TableArchive.empty.insert loss).1.find (.withIds [7]) = .ok [loss] := by
  have hk : item.decodeBody body = .ok loss := by decide +kernel
  have hreals : ∀ x ∈ loss.reals, ReadsBack x := by decide +kernel
  obtain ⟨hread, hinsert⟩ := WorkItem.stored_killmail_reads_back hk hreals
  obtain ⟨-, hfind⟩ := hinsert .empty rfl
  have hempty : TableArchive.empty.find (.withIds [7]) = .ok [] := by decide +kernel
  have honce : (Query.ofFilter (.withIds [7])).countP (·.selects loss.row) = 1 := by
    decide +kernel
  obtain ⟨found, hfound, hperm⟩ := hfind (.withIds [7]) [] hempty
  rw [honce] at hperm
  rw [List.perm_singleton.mp hperm] at hfound
  exact ⟨hk, hreals, hread, hfound⟩

end Salvage

end Harvest
