import Harvest.Proofs.Json.Reading
import Harvest.Text.Blank
import Mathlib.Data.List.Basic
import Mathlib.Data.List.Induction

/-! # Numbers told from their digits

A number is read back from its digits, with or without zeros in front. So different numbers have
different digits, and different signed numbers different texts. No digit or sign is a colon or the
like, so a number can be told from a text that begins with it.

## Main statements

* `readNat?_padded`, `readUInt64?_padded`: a number is read back.
* `digits_of_readNat?`, `ofDigits_filterMap_lt`: the digits of a number, and what they may spell.
* `length_padded`: how wide a number is.
* `padded_of_digits`: a text of digits is the number that it spells, written at its width.
* `natDigits_inj`, `intDigits_inj`, `padded_inj`: numbers are told from their digits.
* `takeWhile_ne_append`, `split_inj`: texts are told apart at the first occurrence of a character.
-/

namespace Harvest.Text

/-! ## Reading back -/

theorem ofDigits_zeros (k : Nat) (ds : List Nat) :
    ofDigits (List.replicate k 0 ++ ds) = ofDigits ds := by
  induction k with
  | zero => rfl
  | succ k ih => exact ih

/-- A number is read back from its digits, with zeros in front or without. -/
theorem readNat?_padded (width n : Nat) : readNat? (padded width n) = some n := by
  obtain ⟨ds, hds, hn⟩ := exists_decimal n
  have hdigits : ∀ k, ∀ d ∈ List.replicate k 0 ++ ds, d < 10 := by
    intro k d hd
    rcases List.mem_append.mp hd with hd | hd
    · rw [List.eq_of_mem_replicate hd]
      decide
    · exact hn.digits d hd
  obtain ⟨k, hk⟩ : ∃ k, padded width n = (List.replicate k 0 ++ ds).map digitChar := by
    refine ⟨width - (natDigits n).length, ?_⟩
    rw [padded, List.map_append, List.map_replicate, hds]
    rfl
  have hne : (padded width n).isEmpty = false := by
    rw [hk, List.isEmpty_eq_false_iff, ne_eq, List.map_eq_nil_iff, List.append_eq_nil_iff]
    exact fun h => hn.ne_nil h.2
  have hread := mapM_map_of_forall fun d hd => Json.digitValue?_digitChar (hdigits k d hd)
  rw [readNat?, hne, if_neg Bool.false_ne_true, hk, hread, Option.map_some, ofDigits_zeros,
    hn.value]

theorem digits_of_mapM {s : List Char} {ds : List Nat} (h : s.mapM digitValue? = some ds) :
    (∀ c ∈ s, isDigit c = true) ∧ s.filterMap digitValue? = ds := by
  induction s generalizing ds with
  | nil =>
    cases h
    exact ⟨nofun, rfl⟩
  | cons c s ih =>
    rw [List.mapM_cons] at h
    obtain ⟨d, hd, h⟩ := Option.bind_eq_some_iff.mp h
    obtain ⟨rest, hrest, h⟩ := Option.bind_eq_some_iff.mp h
    cases h
    obtain ⟨hdigits, hvalues⟩ := ih hrest
    refine ⟨?_, by rw [List.filterMap_cons_some hd, hvalues]⟩
    intro c' hc'
    rcases List.mem_cons.mp hc' with rfl | hc'
    · rw [isDigit, hd]
      rfl
    · exact hdigits c' hc'

/-- What is read as a number has digits only, and these spell it. -/
theorem digits_of_readNat? {s : List Char} {n : Nat} (h : readNat? s = some n) :
    (∀ c ∈ s, isDigit c = true) ∧ ofDigits (s.filterMap digitValue?) = n := by
  unfold readNat? at h
  split at h
  · cases h
  · obtain ⟨ds, hds, rfl⟩ := Option.map_eq_some_iff.mp h
    obtain ⟨hdigits, hvalues⟩ := digits_of_mapM hds
    exact ⟨hdigits, congrArg ofDigits hvalues⟩

theorem padded_inj {width m n : Nat} (h : padded width m = padded width n) : m = n := by
  have hread := readNat?_padded width m
  rw [h, readNat?_padded] at hread
  exact (Option.some.inj hread).symm

theorem natDigits_inj {m n : Nat} (h : natDigits m = natDigits n) : m = n := by
  have hpadded : padded 0 m = padded 0 n := by rw [padded, padded, h]
  exact padded_inj hpadded

/-! ## Signs -/

theorem not_mem_natDigits {n : Nat} {c : Char} (h : digitValue? c = none) : c ∉ natDigits n := by
  intro hmem
  obtain ⟨ds, hds, hn⟩ := exists_decimal n
  rw [hds] at hmem
  obtain ⟨d, hd, rfl⟩ := List.mem_map.mp hmem
  rw [Json.digitValue?_digitChar (hn.digits d hd)] at h
  cases h

theorem not_mem_padded {width n : Nat} {c : Char} (h : digitValue? c = none) :
    c ∉ padded width n := by
  rw [padded, List.mem_append, not_or]
  refine ⟨?_, not_mem_natDigits h⟩
  intro hmem
  rw [List.eq_of_mem_replicate hmem] at h
  cases h

theorem not_mem_intDigits {n : Int} {c : Char} (h : digitValue? c = none) (hsign : c ≠ '-') :
    c ∉ intDigits n := by
  unfold intDigits
  split
  · rw [List.mem_cons, not_or]
    exact ⟨hsign, not_mem_natDigits h⟩
  · exact not_mem_natDigits h

theorem intDigits_inj {m n : Int} (h : intDigits m = intDigits n) : m = n := by
  have hsign : ∀ k : Nat, '-' ∉ natDigits k := fun k => not_mem_natDigits (by decide)
  unfold intDigits at h
  by_cases hm : m < 0 <;> by_cases hn : n < 0
  · rw [if_pos hm, if_pos hn] at h
    have := natDigits_inj (List.cons.inj h).2
    omega
  · -- a sign on one side only
    rw [if_pos hm, if_neg hn] at h
    exact absurd (h ▸ List.mem_cons_self) (hsign _)
  · rw [if_neg hm, if_pos hn] at h
    exact absurd (h ▸ List.mem_cons_self) (hsign _)
  · rw [if_neg hm, if_neg hn] at h
    have := natDigits_inj h
    omega

/-- What comes before the first occurrence of a character. -/
theorem takeWhile_ne_append {c : Char} {xs ys : List Char} (h : c ∉ xs) :
    (xs ++ c :: ys).takeWhile (· ≠ c) = xs := by
  have hall : ∀ x ∈ xs, decide (x ≠ c) = true := by
    intro x hx
    exact decide_eq_true fun heq => h (heq ▸ hx)
  rw [List.takeWhile_append_of_pos hall, List.takeWhile_cons_of_neg (by simp), List.append_nil]

/-- The first occurrence of a character, and what comes after it. -/
theorem dropWhile_ne_append {c : Char} {xs ys : List Char} (h : c ∉ xs) :
    (xs ++ c :: ys).dropWhile (· ≠ c) = c :: ys := by
  have hsplit := @List.takeWhile_append_dropWhile _ (· ≠ c) (xs ++ c :: ys)
  rw [takeWhile_ne_append h] at hsplit
  exact List.append_cancel_left hsplit

/-- Texts are told apart at the first occurrence of a character. -/
theorem split_inj {c : Char} {xs xs' ys ys' : List Char} (hxs : c ∉ xs) (hxs' : c ∉ xs')
    (h : xs ++ c :: ys = xs' ++ c :: ys') : xs = xs' ∧ ys = ys' := by
  have heq : xs = xs' := by rw [← takeWhile_ne_append hxs, h, takeWhile_ne_append hxs']
  subst heq
  exact ⟨rfl, (List.cons.inj (List.append_cancel_left h)).2⟩

/-! ## Blanks -/

theorem isBlank_of_isDigit {c : Char} (h : isDigit c = true) : isBlank c = false := by
  unfold isDigit digitValue? at h
  split at h
  · rename_i hc
    obtain ⟨hlow, hhigh⟩ := hc
    have hlow' : 48 ≤ c.toNat := hlow
    have hhigh' : c.toNat ≤ 57 := hhigh
    simp only [isBlank, Bool.or_eq_false_iff, Bool.and_eq_false_iff, decide_eq_false_iff_not,
      beq_eq_false_iff_ne, ne_eq]
    omega
  · cases h

theorem head_padded (width n : Nat) : ∃ c s, padded width n = c :: s ∧ isDigit c = true := by
  have hread := readNat?_padded width n
  cases hs : padded width n with
  | nil =>
    rw [hs] at hread
    cases hread
  | cons c s =>
    rw [hs] at hread
    exact ⟨c, s, rfl, (digits_of_readNat? hread).1 c List.mem_cons_self⟩

/-- A word is read back from its digits. -/
theorem readUInt64?_padded (width : Nat) (n : UInt64) :
    readUInt64? (padded width n.toNat) = some n := by
  have hlt : n.toNat < twoTo 64 := n.toNat_lt
  obtain ⟨c, s, hs, hc⟩ := head_padded width n.toNat
  have hsign : c ≠ '+' := by
    rintro rfl
    cases hc
  have hread := readNat?_padded width n.toNat
  rw [hs] at hread ⊢
  unfold readUInt64?
  split
  · rename_i heq
    exact absurd (List.cons.inj heq).1 hsign
  · simp only [hread, if_pos hlt, UInt64.ofNat_toNat]

theorem skipBlanks_padded (width n : Nat) (s : List Char) :
    skipBlanks (padded width n ++ s) = padded width n ++ s := by
  obtain ⟨c, s', hs, hc⟩ := head_padded width n
  rw [hs, List.cons_append]
  exact List.dropWhile_cons_of_neg (by simp [isBlank_of_isDigit hc])

/-! ## Widths -/

theorem length_natDigits_le {k n : Nat} (h : n < tenTo (k + 1)) :
    (natDigits n).length ≤ k + 1 := by
  induction k generalizing n with
  | zero =>
    rw [natDigits, if_pos (show n < 10 from h)]
    exact Nat.le_refl 1
  | succ k ih =>
    rw [natDigits]
    split
    · exact Nat.succ_le_succ (Nat.zero_le _)
    · rw [tenTo_succ] at h
      rw [List.length_append]
      exact Nat.succ_le_succ (ih (Nat.div_lt_of_lt_mul (Nat.mul_comm _ 10 ▸ h)))

/-- A number is not wider than its text is meant to be. -/
theorem length_padded {width n : Nat} (hwidth : 0 < width) (h : n < tenTo width) :
    (padded width n).length = width := by
  obtain ⟨k, rfl⟩ : ∃ k, width = k + 1 := ⟨width - 1, by omega⟩
  have hle := length_natDigits_le h
  rw [padded, List.length_append, List.length_replicate]
  omega

/-- A number that takes no more characters than a bound is not padded beyond it either. -/
theorem length_padded_le {width k n : Nat} (h : n < tenTo (k + 1)) (hwidth : width ≤ k + 1) :
    (padded width n).length ≤ k + 1 := by
  have hdigits := length_natDigits_le h
  rw [padded, List.length_append, List.length_replicate]
  omega

/-! ## Bounds -/

theorem digitValue?_lt {c : Char} {v : Nat} (h : digitValue? c = some v) : v < 10 := by
  unfold digitValue? at h
  split at h
  · rename_i hc
    have hhigh : c.toNat ≤ 57 := hc.2
    cases h
    have hzero : '0'.toNat = 48 := rfl
    omega
  · cases h

theorem ofDigits_lt {ds : List Nat} (h : ∀ d ∈ ds, d < 10) : ofDigits ds < tenTo ds.length := by
  induction ds using List.reverseRecOn with
  | nil => exact Nat.one_pos
  | append_singleton ds d ih =>
    have hrest := ih fun x hx => h x (List.mem_append_left _ hx)
    have hd := h d (List.mem_append_right _ (List.mem_singleton_self d))
    rw [ofDigits_append, List.length_append, List.length_singleton, tenTo_succ]
    omega

/-- Digits spell less than the power of their number. -/
theorem ofDigits_filterMap_lt (s : List Char) :
    ofDigits (s.filterMap digitValue?) < tenTo s.length := by
  have hdigits : ∀ d ∈ s.filterMap digitValue?, d < 10 := by
    intro d hd
    obtain ⟨c, -, hc⟩ := List.mem_filterMap.mp hd
    exact digitValue?_lt hc
  exact Nat.lt_of_lt_of_le (ofDigits_lt hdigits)
    (Nat.pow_le_pow_right (by decide) (List.length_filterMap_le _ _))

/-- What is read as a signed word is one. -/
theorem readInt64?_bounds {s : List Char} {n : Int} (h : readInt64? s = some n) :
    -(twoTo 63 : Int) ≤ n ∧ n < twoTo 63 := by
  have hpos := twoTo_pos 63
  unfold readInt64? at h
  split at h
  · split at h
    · split at h
      · cases h
        omega
      · cases h
    · cases h
  · dsimp only at h
    split at h
    · split at h
      · cases h
        omega
      · cases h
    · cases h

/-! ## Texts of digits -/

theorem digitChar_of_digitValue? {c : Char} {v : Nat} (h : digitValue? c = some v) :
    digitChar v = c := by
  unfold digitValue? at h
  split at h
  · rename_i hc
    have hlow : 48 ≤ c.toNat := hc.1
    have hhigh : c.toNat ≤ 57 := hc.2
    have hzero : '0'.toNat = 48 := rfl
    cases h
    have hcode : '0'.toNat + (c.toNat - '0'.toNat) % 10 = c.toNat := by omega
    rw [digitChar, hcode, Char.ofNat_toNat]
  · cases h

/-- A wider text has the last digit at its end. -/
theorem padded_succ {width : Nat} (hwidth : 0 < width) (n : Nat) :
    padded (width + 1) n = padded width (n / 10) ++ [digitChar n] := by
  by_cases hn : n < 10
  · -- a single digit has one more zero in front
    have hzero : natDigits (n / 10) = ['0'] := by
      rw [natDigits, if_pos (by omega), digitChar, Nat.div_eq_of_lt hn]
      rfl
    have hone : natDigits n = [digitChar n] := by
      rw [natDigits, if_pos hn]
    have hfront : List.replicate width '0' = List.replicate (width - 1) '0' ++ ['0'] := by
      rw [← List.replicate_succ', Nat.sub_add_cancel hwidth]
    simp only [padded, hzero, hone, List.length_singleton, Nat.add_sub_cancel, hfront]
  · have hmore : natDigits n = natDigits (n / 10) ++ [digitChar n] := by
      rw [natDigits, if_neg hn]
    simp only [padded, hmore, List.length_append, List.length_singleton, Nat.add_sub_add_right,
      List.append_assoc]

/-- A text of digits is the number that it spells, written at its width. -/
theorem padded_of_digits {s : List Char} (hs : ∀ c ∈ s, isDigit c = true) (hne : s ≠ []) :
    padded s.length (ofDigits (s.filterMap digitValue?)) = s := by
  induction s using List.reverseRecOn with
  | nil => exact absurd rfl hne
  | append_singleton s c ih =>
    obtain ⟨v, hv⟩ : ∃ v, digitValue? c = some v :=
      Option.isSome_iff_exists.mp (hs c (List.mem_append_right _ List.mem_cons_self))
    have hlt := digitValue?_lt hv
    have hvalue : ofDigits ((s ++ [c]).filterMap digitValue?)
        = ofDigits (s.filterMap digitValue?) * 10 + v := by
      rw [List.filterMap_append, List.filterMap_cons_some hv, List.filterMap_nil, ofDigits_append]
    have hlast : digitChar (ofDigits (s.filterMap digitValue?) * 10 + v) = c := by
      rw [← digitChar_of_digitValue? hv, digitChar, digitChar, Nat.mul_add_mod_self_right]
    rw [hvalue, List.length_append, List.length_singleton]
    by_cases hnil : s = []
    · subst hnil
      have hzero : ofDigits (([] : List Char).filterMap digitValue?) * 10 + v = v := Nat.zero_add v
      rw [hzero] at hlast
      rw [hzero, List.length_nil, padded, natDigits, if_pos hlt, hlast]
      rfl
    · have hpos : 0 < s.length := List.length_pos_iff.mpr hnil
      have hrest := ih (fun c hc => hs c (List.mem_append_left _ hc)) hnil
      have hfront : (ofDigits (s.filterMap digitValue?) * 10 + v) / 10
          = ofDigits (s.filterMap digitValue?) := by omega
      rw [padded_succ hpos, hfront, hlast, hrest]

/-- Digits are read as the number that they spell. -/
theorem readNat?_of_digits {s : List Char} (hs : ∀ c ∈ s, isDigit c = true) (hne : s ≠ []) :
    readNat? s = some (ofDigits (s.filterMap digitValue?)) := by
  have hread := readNat?_padded s.length (ofDigits (s.filterMap digitValue?))
  rwa [padded_of_digits hs hne] at hread

/-- A number that is read from a text is written at its width as that text. -/
theorem eq_padded_of_readNat? {s : List Char} {width n : Nat} (h : readNat? s = some n)
    (hwidth : s.length = width) : s = padded width n ∧ n < tenTo width := by
  obtain ⟨hdigits, hvalue⟩ := digits_of_readNat? h
  have hne : s ≠ [] := by
    rintro rfl
    cases h
  subst hwidth
  rw [← hvalue, padded_of_digits hdigits hne]
  exact ⟨rfl, ofDigits_filterMap_lt s⟩

end Harvest.Text
