import Harvest.Text.Blank
import Mathlib.Data.List.DropRight

/-! # Trimming

Trimming takes the blanks in front and behind. Nothing is left exactly where there is nothing but
blanks, and trimming what is left changes nothing.

## Main statements

* `trim_eq_nil_iff`: when nothing is left.
* `trim_of_forall`, `trim_trim`: what trimming does not change.
-/

namespace Harvest.Text

variable {s : List Char}

theorem trim_eq_rdropWhile (s : List Char) : trim s = (skipBlanks s).rdropWhile isBlank := rfl

theorem trim_prefix (s : List Char) : trim s <+: skipBlanks s :=
  List.rdropWhile_prefix isBlank (skipBlanks s)

/-- What follows the blanks in front is no blank. -/
theorem not_isBlank_of_skipBlanks {c : Char} {rest : List Char} (h : skipBlanks s = c :: rest) :
    isBlank c = false := by
  have hhead := List.head?_dropWhile_not isBlank s
  rw [show s.dropWhile isBlank = c :: rest from h] at hhead
  exact hhead

theorem skipBlanks_of_head {c : Char} {rest : List Char} (h : isBlank c = false) :
    skipBlanks (c :: rest) = c :: rest :=
  List.dropWhile_cons_of_neg (Bool.eq_false_iff.mp h)

theorem trim_eq_nil_iff : trim s = [] ↔ ∀ c ∈ s, isBlank c = true := by
  have hskip : skipBlanks s = [] ↔ ∀ c ∈ s, isBlank c = true := List.dropWhile_eq_nil_iff
  rw [← hskip, trim_eq_rdropWhile, List.rdropWhile_eq_nil_iff]
  constructor
  · intro hall
    cases hs : skipBlanks s with
    | nil => rfl
    | cons c rest =>
      have hblank := hall c (hs ▸ List.mem_cons_self)
      rw [not_isBlank_of_skipBlanks hs] at hblank
      cases hblank
  · intro hnil c hc
    rw [hnil] at hc
    cases hc

/-- Nothing is taken of a text without blanks. -/
theorem trim_of_forall (h : ∀ c ∈ s, isBlank c = false) : trim s = s := by
  cases s with
  | nil => rfl
  | cons c rest =>
    rw [trim_eq_rdropWhile, skipBlanks_of_head (h c List.mem_cons_self),
      List.rdropWhile_eq_self_iff]
    intro hne
    exact Bool.eq_false_iff.mp (h _ (List.getLast_mem hne))

/-- Trimming again changes nothing. -/
theorem trim_trim (s : List Char) : trim (trim s) = trim s := by
  have hfront : skipBlanks (trim s) = trim s := by
    cases htrim : trim s with
    | nil => rfl
    | cons c rest =>
      -- it begins as the text does behind its first blanks
      obtain ⟨behind, hbehind⟩ := trim_prefix s
      rw [htrim, List.cons_append] at hbehind
      exact skipBlanks_of_head (not_isBlank_of_skipBlanks hbehind.symm)
  rw [trim_eq_rdropWhile (trim s), hfront, trim_eq_rdropWhile, List.rdropWhile_idempotent]

end Harvest.Text
