import Harvest.Killmail.WorkItem
import Harvest.Proofs.Text.Blanks
import Harvest.Proofs.Text.Digits

/-! # The text of an item read back

A text is read as an item if something comes after its first colon, and before that colon a number
that fits, blanks and a plus sign aside. The hash is what comes after the colon, trimmed; further
colons belong to it. It is empty if nothing but blanks comes after the colon.

The text of an item is read back with the hash trimmed. Only the text of an item without a hash is
not read at all, for it ends at its colon. So what was read is read back from its own text unless
its hash was made of blanks.

## Main statements

* `parse_eq_ok_iff`: which texts are read, and as what.
* `parse_text_of_hash_eq_empty`, `parse_text_of_hash_ne_empty`: how the text of an item is read.
* `text_read_back`: what was read, read back from its own text.
-/

namespace Harvest.WorkItem

open Text

variable {s : String} {w : WorkItem} {id hash cs : List Char}

/-! ## The first colon -/

theorem splitAtColon_append (hid : ':' ∉ id) :
    splitAtColon (id ++ ':' :: hash) = some (id, hash) := by
  rw [splitAtColon, dropWhile_ne_append hid, takeWhile_ne_append hid]

theorem splitAtColon_eq_some_iff :
    splitAtColon cs = some (id, hash) ↔ ':' ∉ id ∧ cs = id ++ ':' :: hash := by
  constructor
  · intro h
    unfold splitAtColon at h
    cases hdrop : cs.dropWhile (· ≠ ':') with
    | nil =>
      rw [hdrop] at h
      cases h
    | cons c rest =>
      rw [hdrop] at h
      cases h
      have hcolon : c = ':' := by
        -- what stops the search is the colon
        have hhead := List.head?_dropWhile_not (fun c : Char => decide (c ≠ ':')) cs
        rw [hdrop] at hhead
        simpa using hhead
      subst hcolon
      refine ⟨?_, ?_⟩
      · intro hmem
        have hne := List.mem_takeWhile_imp hmem
        cases hne
      · rw [← hdrop, List.takeWhile_append_dropWhile]
  · rintro ⟨hid, rfl⟩
    exact splitAtColon_append hid

/-! ## Which texts are read -/

/-- A text is read if something follows its first colon and a number that fits comes before it. -/
theorem parse_eq_ok_iff : parse s = .ok w ↔
    ∃ id hash, ':' ∉ id ∧ s.toList = id ++ ':' :: hash ∧ hash ≠ [] ∧
      readUInt64? (trim id) = some w.id ∧ w.hash = String.ofList (trim hash) := by
  constructor
  · intro h
    unfold parse parseChars at h
    -- no colon, nothing after it, or both parts
    split at h
    · cases h
    · cases h
    · rename_i id hash hne hsplit
      obtain ⟨hid, htext⟩ := splitAtColon_eq_some_iff.mp hsplit
      split at h
      · rename_i n hread
        cases h
        exact ⟨id, hash, hid, htext, hne, hread, rfl⟩
      · cases h
  · rintro ⟨id, hash, hid, htext, hne, hread, hhash⟩
    unfold parse parseChars
    rw [htext, splitAtColon_append hid]
    cases hash with
    | nil => exact absurd rfl hne
    | cons c rest =>
      obtain ⟨n, h⟩ := w
      obtain rfl : h = String.ofList (trim (c :: rest)) := hhash
      simp only [hread]

/-! ## Reading a text back -/

theorem trim_padded (width n : Nat) : trim (padded width n) = padded width n := by
  apply trim_of_forall
  intro c hc
  exact isBlank_of_isDigit ((digits_of_readNat? (readNat?_padded width n)).1 c hc)

theorem chars_eq (w : WorkItem) : w.chars = padded 0 w.id.toNat ++ ':' :: w.hash.toList := by
  rw [chars, padded, Nat.zero_sub]
  rfl

/-- The text of an item without a hash ends at its colon, so it is not read. -/
theorem parse_text_of_hash_eq_empty (h : w.hash = "") : parse w.text = .error (.format w.text) := by
  have hcolon : ':' ∉ padded 0 w.id.toNat := not_mem_padded rfl
  rw [parse, text, String.toList_ofList, parseChars, chars_eq, h, splitAtColon_append hcolon]
  rfl

/-- The text of an item with a hash is read as the item with its hash trimmed. -/
theorem parse_text_of_hash_ne_empty (h : w.hash ≠ "") :
    parse w.text = .ok { w with hash := trimmed w.hash } := by
  refine parse_eq_ok_iff.mpr ⟨padded 0 w.id.toNat, w.hash.toList, not_mem_padded rfl, ?_, ?_, ?_,
    rfl⟩
  · rw [text, String.toList_ofList, chars_eq]
  · exact fun hnil => h (String.toList_eq_nil_iff.mp hnil)
  · rw [trim_padded]
    exact readUInt64?_padded 0 w.id

/-- The text of an item is read as the item itself if it has a hash, which is trimmed. -/
theorem parse_text_eq_ok_iff (w : WorkItem) :
    parse w.text = .ok w ↔ w.hash ≠ "" ∧ trimmed w.hash = w.hash := by
  by_cases h : w.hash = ""
  · rw [parse_text_of_hash_eq_empty h]
    exact iff_of_false nofun fun hsome => hsome.1 h
  · rw [parse_text_of_hash_ne_empty h, Except.ok.injEq]
    constructor
    · intro heq
      exact ⟨h, congrArg WorkItem.hash heq⟩
    · rintro ⟨-, htrimmed⟩
      rw [htrimmed]

/-- **Reading back the text of an item.** Take any text that is read as an item. The hash of the
item is empty exactly if nothing but blanks comes after the first colon of the text. If it is not,
the text of the item is read as the same item again. If it is, the text of the item ends at its
colon, and is refused. -/
theorem text_read_back (h : parse s = .ok w) :
    (∃ id hash, ':' ∉ id ∧ s.toList = id ++ ':' :: hash ∧ hash ≠ [] ∧
      (w.hash = "" ↔ ∀ c ∈ hash, isBlank c = true)) ∧
    (w.hash ≠ "" → parse w.text = .ok w) ∧
    (w.hash = "" → parse w.text = .error (.format w.text)) := by
  obtain ⟨id, hash, hid, htext, hne, -, hhash⟩ := parse_eq_ok_iff.mp h
  -- a hash that was read has been trimmed, so reading it again takes nothing from it
  have htrimmed : trimmed w.hash = w.hash := by
    rw [hhash, trimmed, String.toList_ofList, trim_trim]
  refine ⟨⟨id, hash, hid, htext, hne, ?_⟩, ?_, parse_text_of_hash_eq_empty⟩
  · rw [hhash, ← trim_eq_nil_iff, String.ofList_eq_empty_iff]
  · exact fun hsome => (parse_text_eq_ok_iff w).mpr ⟨hsome, htrimmed⟩

/-! ## Blanks for a hash -/

namespace Blank

/-- The id with a plus sign, zeros and blanks, and two kinds of blanks for a hash. -/
def written : String := "+007 : \u00a0"

theorem hash_lost : parse written = .ok ⟨7, ""⟩ ∧ text ⟨7, ""⟩ = "7:" ∧
    parse (text ⟨7, ""⟩) = .error (.format (text ⟨7, ""⟩)) := by
  have hread : parse written = .ok ⟨7, ""⟩ := by decide +kernel
  obtain ⟨-, -, hrefused⟩ := text_read_back hread
  exact ⟨hread, by decide +kernel, hrefused rfl⟩

end Blank

end Harvest.WorkItem
