import Harvest.Backfill.Client
import Harvest.Backup.Basic
import Harvest.Proofs.Calendar.Timestamps

/-! # Keys of days

The key of a date with a year from 0 to 9999 is eight digits: four of the year, two of the month and
two of the day. Nothing stands between the fields, but none of them can take a digit of the next
one: a year without a sign ends with its fourth digit, a month and a day with their second.

So reading eight digits is the inverse of writing a key. They are read as the date that they are the
key of, and refused if no date has that key, which is so if the month or the day is out of bounds.

A reader of keys takes more than that: blanks in front of a field mean nothing.

## Main definitions

* `EightDigits`: the texts meant as keys.
* `Date.HasPlainYear`: the dates with such a key.
* `Spells`: the numbers that eight digits spell.

## Main statements

* `Date.eightDigits_key_iff`: the key of a date is eight digits if the year is plain.
* `Date.ofKey?_eq_some_iff`: eight digits are read as the date that they are the key of.
* `Date.isSome_ofKey?_iff`: eight digits are read if they spell a day of a month.
* `Date.ofKey?_blank`: a blank in front of a key means nothing.
* `Date.key_faithful`: dates and their keys.
-/

namespace Harvest.Calendar

open Harvest.Text

/-! ## Eight digits -/

/-- Eight digits. -/
def EightDigits (s : String) : Prop := s.toList.length = 8 ∧ ∀ c ∈ s.toList, isDigit c = true

instance (s : String) : Decidable (EightDigits s) :=
  decidable_of_iff (s.toList.length = 8 ∧ s.toList.all isDigit = true) <| by
    rw [EightDigits, List.all_eq_true]

/-- The numbers that eight digits spell: a year, a month and a day, whether or not they make a
date. -/
structure Spells (s : String) (year month day : Nat) : Prop where
  year : readNat? (s.toList.take 4) = some year
  month : readNat? ((s.toList.drop 4).take 2) = some month
  day : readNat? (s.toList.drop 6) = some day

section spells

variable {s : String} {year month day : Nat}

theorem EightDigits.exists_spells (h : EightDigits s) :
    ∃ year month day, Spells s year month day := by
  obtain ⟨hlength, hdigits⟩ := h
  have hread : ∀ {part : List Char}, part <:+: s.toList → 0 < part.length →
      ∃ n, readNat? part = some n := by
    intro part hpart hpos
    have hall : ∀ c ∈ part, isDigit c = true := fun c hc => hdigits c (hpart.subset hc)
    exact ⟨_, readNat?_of_digits hall (List.ne_nil_of_length_pos hpos)⟩
  obtain ⟨year, hyear⟩ := hread (List.take_prefix 4 _).isInfix (by simp [hlength])
  obtain ⟨month, hmonth⟩ := hread
    ((List.take_prefix 2 _).isInfix.trans (List.drop_suffix 4 s.toList).isInfix) (by simp [hlength])
  obtain ⟨day, hday⟩ := hread (List.drop_suffix 6 _).isInfix (by simp [hlength])
  exact ⟨year, month, day, hyear, hmonth, hday⟩

/-- Eight digits are the fields that they spell, each at its width. -/
theorem Spells.toList_eq (h : Spells s year month day) (hs : EightDigits s) :
    s.toList = padded 4 year ++ padded 2 month ++ padded 2 day ∧
      year < 10000 ∧ month < 100 ∧ day < 100 := by
  have hlength := hs.1
  have hfirst : (s.toList.take 4).length = 4 := by simp [hlength]
  have hsecond : ((s.toList.drop 4).take 2).length = 2 := by simp [hlength]
  have hthird : (s.toList.drop 6).length = 2 := by simp [hlength]
  obtain ⟨hyear, hfour⟩ := eq_padded_of_readNat? h.year hfirst
  obtain ⟨hmonth, htwo⟩ := eq_padded_of_readNat? h.month hsecond
  obtain ⟨hday, htwo'⟩ := eq_padded_of_readNat? h.day hthird
  have hdrop : s.toList.drop 6 = (s.toList.drop 4).drop 2 := by rw [List.drop_drop]
  refine ⟨?_, hfour, htwo, htwo'⟩
  rw [← hyear, ← hmonth, ← hday, hdrop, List.append_assoc, List.take_append_drop,
    List.take_append_drop]

end spells

namespace Date

/-! ## Writing -/

/-- A year that is written without a sign. -/
def HasPlainYear (d : Date) : Prop := 0 ≤ d.year ∧ d.year ≤ 9999

instance (d : Date) : Decidable d.HasPlainYear := inferInstanceAs (Decidable (_ ∧ _))

variable {d : Date} {s : String}

theorem HasPlainYear.keyChars_eq (h : d.HasPlainYear) :
    d.keyChars = padded 4 d.year.toNat ++ padded 2 d.month ++ padded 2 d.day := by
  rw [keyChars, yearChars, if_pos (show 0 ≤ d.year ∧ d.year ≤ 9999 from h)]

/-- The fields of a date are as wide as they are meant to be. -/
theorem HasPlainYear.field_lt (h : d.HasPlainYear) :
    d.year.toNat < 10000 ∧ d.month < 100 ∧ d.day < 100 := by
  obtain ⟨hzero, hmax⟩ := h
  obtain ⟨-, -, -, hmonth, -, hday⟩ := d.bounds
  have hlength := monthLength_le d.year d.month
  exact ⟨by omega, by omega, by omega⟩

/-- The key of a date is eight digits exactly if its year has no sign. -/
theorem eightDigits_key_iff : EightDigits d.key ↔ d.HasPlainYear := by
  have hchars : d.key.toList = d.keyChars := String.toList_ofList
  constructor
  · intro ⟨_, hdigits⟩
    -- otherwise the sign is no digit
    by_contra hplain
    have hsigned : ¬ (0 ≤ d.year ∧ d.year ≤ 9999) := hplain
    have hsign : (if d.year < 0 then '-' else '+') ∈ d.key.toList := by
      rw [hchars, keyChars, yearChars, if_neg hsigned]
      exact List.mem_append_left _ (List.mem_append_left _ List.mem_cons_self)
    have hdigit := hdigits _ hsign
    split at hdigit <;> cases hdigit
  · intro hplain
    obtain ⟨hyear, hmonth, hday⟩ := hplain.field_lt
    have hfour := length_padded (by decide) (show d.year.toNat < tenTo 4 from hyear)
    have htwo := length_padded (by decide) (show d.month < tenTo 2 from hmonth)
    have htwo' := length_padded (by decide) (show d.day < tenTo 2 from hday)
    have hdigits : ∀ width n, ∀ c ∈ padded width n, isDigit c = true := fun width n =>
      (digits_of_readNat? (readNat?_padded width n)).1
    rw [EightDigits, hchars, hplain.keyChars_eq]
    constructor
    · rw [List.length_append, List.length_append, hfour, htwo, htwo']
    · intro c hc
      rcases List.mem_append.mp hc with hc | hc
      · rcases List.mem_append.mp hc with hc | hc
        · exact hdigits 4 _ c hc
        · exact hdigits 2 _ c hc
      · exact hdigits 2 _ c hc

/-! ## Reading -/

section fields

variable {year month day : Nat}

/-- Each field ends at its width, and the three of them make a date or none. -/
theorem ofKeyChars?_padded (hyear : year < 10000) (hmonth : month < 100) (hday : day < 100) :
    ofKeyChars? (padded 4 year ++ padded 2 month ++ padded 2 day) = of? year month day := by
  have hfour := Scan.year_of_lt hyear (padded 2 month ++ padded 2 day)
  have htwo := Scan.field_padded hmonth (padded 2 day)
  have htwo' := Scan.field_padded hday []
  rw [List.append_nil] at htwo'
  rw [List.append_assoc, ofKeyChars?]
  simp only [hfour, htwo, htwo', Option.bind_eq_bind, Option.bind_some, List.isEmpty_nil, if_true]
  by_cases hin : (1 ≤ month ∧ month ≤ 12) ∧ 1 ≤ day ∧ day ≤ 31
  · have hmonth := Scan.within_natCast (show (1 : Int) ≤ month by omega)
      (show (month : Int) ≤ 12 by omega)
    have hday := Scan.within_natCast (show (1 : Int) ≤ day by omega)
      (show (day : Int) ≤ 31 by omega)
    rw [hmonth, hday]
    rfl
  · -- what is out of bounds by itself makes no date either
    have hnone : of? year month day = none := by
      have hlength := monthLength_le year month
      refine dif_neg fun hvalid => hin ?_
      simp only [validDate, Bool.and_eq_true, decide_eq_true_eq] at hvalid
      omega
    rw [hnone]
    unfold Scan.within
    split
    · split
      · omega
      · rfl
    · rfl

theorem of?_eq_some_iff {y : Int} : of? y month day = some d ↔
    d.year = y ∧ d.month = month ∧ d.day = day := by
  unfold of?
  constructor
  · intro h
    split at h
    · cases h
      exact ⟨rfl, rfl, rfl⟩
    · cases h
  · rintro ⟨rfl, rfl, rfl⟩
    rw [dif_pos d.valid]

/-- Eight digits are read as the numbers that they spell. -/
theorem ofKey?_of_spells (hs : EightDigits s) (h : Spells s year month day) :
    ofKey? s = of? year month day := by
  obtain ⟨hchars, hyear, hmonth, hday⟩ := h.toList_eq hs
  rw [ofKey?, hchars, ofKeyChars?_padded hyear hmonth hday]

/-- Eight digits are read if they spell a day of a month. -/
theorem isSome_ofKey?_iff (hs : EightDigits s) (h : Spells s year month day) :
    (ofKey? s).isSome = true ↔
      1 ≤ month ∧ month ≤ 12 ∧ 1 ≤ day ∧ day ≤ monthLength year month := by
  obtain ⟨-, hyear, -, -⟩ := h.toList_eq hs
  have hvalid : validDate year month day = true ↔
      1 ≤ month ∧ month ≤ 12 ∧ 1 ≤ day ∧ day ≤ monthLength year month := by
    simp only [validDate, Bool.and_eq_true, decide_eq_true_eq]
    unfold minYear maxYear
    omega
  rw [ofKey?_of_spells hs h, ← hvalid, of?]
  split
  · exact iff_of_true rfl ‹_›
  · exact iff_of_false Bool.false_ne_true ‹_›

end fields

/-- The key of a date is read as the date. -/
theorem HasPlainYear.ofKey?_key (h : d.HasPlainYear) : ofKey? d.key = some d := by
  obtain ⟨hyear, hmonth, hday⟩ := h.field_lt
  rw [ofKey?, key, String.toList_ofList, h.keyChars_eq, ofKeyChars?_padded hyear hmonth hday]
  exact of?_eq_some_iff.mpr ⟨(Int.toNat_of_nonneg h.1).symm, rfl, rfl⟩

/-- Eight digits are read as the date that they are the key of. -/
theorem ofKey?_eq_some_iff (hs : EightDigits s) : ofKey? s = some d ↔ d.key = s := by
  constructor
  · intro h
    obtain ⟨year, month, day, hspells⟩ := hs.exists_spells
    obtain ⟨hchars, hfour, -, -⟩ := hspells.toList_eq hs
    rw [ofKey?_of_spells hs hspells] at h
    obtain ⟨hyear, hmonth, hday⟩ := of?_eq_some_iff.mp h
    have hplain : d.HasPlainYear := ⟨by omega, by omega⟩
    rw [key, hplain.keyChars_eq, hyear, hmonth, hday, Int.toNat_natCast, ← hchars,
      String.ofList_toList]
  · rintro rfl
    exact (eightDigits_key_iff.mp hs).ofKey?_key

/-- A blank in front of a key means nothing. -/
theorem ofKey?_blank {c : Char} (hc : isBlank c = true) (s : String) :
    ofKey? (String.ofList (c :: s.toList)) = ofKey? s := by
  have hskip : skipBlanks (c :: s.toList) = skipBlanks s.toList := List.dropWhile_cons_of_pos hc
  rw [ofKey?, ofKey?, String.toList_ofList, ofKeyChars?, ofKeyChars?, Scan.year, Scan.year, hskip]

/-! ## What is named by a key -/

open Backfill Backup

/-- The address of a listing tells its day. -/
theorem address_dayPath_inj (c : ClientConfig) {d e : Date}
    (h : Client.address c (Client.dayPath d) = Client.address c (Client.dayPath e)) : d = e := by
  have hpath : Client.dayPath d = Client.dayPath e :=
    String.toList_inj.mp (List.append_cancel_left (String.ofList_injective h))
  unfold Client.dayPath at hpath
  have hchars := congrArg String.toList hpath
  simp only [String.toList_append] at hchars
  have hkey := List.append_cancel_left (List.append_cancel_right hchars)
  exact key_inj (String.toList_inj.mp hkey)

/-- The directory of a backup, the first one below the root, tells the day. -/
theorem head?_location_inj {d e : Date} {w w' : WorkItem}
    (h : (location d w).1.head? = (location e w').1.head?) : d = e :=
  key_inj (Option.some.inj h)

/-- **Keys of days.** The key of a date with a year from 0 to 9999 is eight digits, and is read as
the date. Eight digits are either refused, and then no date has them as its key, or they are read as
a date with such a year, the key of which they are. They are read exactly if the numbers that they
spell are a month and a day of that month. So different dates have listings at different addresses,
for any client, and backups in different directories, whatever the items. -/
theorem key_faithful :
    (∀ d : Date, d.HasPlainYear → EightDigits d.key ∧ ofKey? d.key = some d) ∧
    (∀ s, EightDigits s →
      ((ofKey? s = none ∧ ∀ d : Date, d.key ≠ s) ∨
        ∃ d : Date, d.HasPlainYear ∧ ofKey? s = some d ∧ d.key = s) ∧
      ∃ year month day, Spells s year month day ∧
        ((ofKey? s).isSome = true ↔
          1 ≤ month ∧ month ≤ 12 ∧ 1 ≤ day ∧ day ≤ monthLength year month)) ∧
    (∀ d e : Date, d ≠ e →
      (∀ c, Client.address c (Client.dayPath d) ≠ Client.address c (Client.dayPath e)) ∧
      ∀ w w', (location d w).1.head? ≠ (location e w').1.head?) := by
  refine ⟨?_, ?_, ?_⟩
  · intro d hplain
    exact ⟨eightDigits_key_iff.mpr hplain, hplain.ofKey?_key⟩
  · intro s hs
    obtain ⟨year, month, day, hspells⟩ := hs.exists_spells
    refine ⟨?_, year, month, day, hspells, isSome_ofKey?_iff hs hspells⟩
    cases hread : ofKey? s with
    | none =>
      refine .inl ⟨rfl, ?_⟩
      intro d hkey
      -- a date with this key would have been read
      rw [(ofKey?_eq_some_iff hs).mpr hkey] at hread
      cases hread
    | some d =>
      have hkey := (ofKey?_eq_some_iff hs).mp hread
      exact .inr ⟨d, eightDigits_key_iff.mp (hkey ▸ hs), rfl, hkey⟩
  · intro d e hne
    exact ⟨fun c h => hne (address_dayPath_inj c h), fun w w' h => hne (head?_location_inj h)⟩

/-! ## A leap day -/

namespace LeapDay

/-- 29 February of a year that is divisible by 400. -/
def date : Date := ⟨2000, 2, 29, rfl⟩

def present : String := "20000229"

/-- The same day of a year that is divisible by 100 only. -/
def missing : String := "19000229"

theorem read_in_leap_years : date.HasPlainYear ∧ ofKey? date.key = some date ∧
    EightDigits present ∧ date.key = present ∧
    EightDigits missing ∧ ∀ d : Date, d.key ≠ missing := by
  obtain ⟨hwritten, hread, -⟩ := key_faithful
  have hplain : date.HasPlainYear := by decide
  have hdigits : EightDigits present := by decide +kernel
  have hdigits' : EightDigits missing := by decide +kernel
  refine ⟨hplain, (hwritten date hplain).2, hdigits, ?_, hdigits', ?_⟩
  · have hdate : ofKey? present = some date := by decide +kernel
    rcases (hread present hdigits).1 with ⟨hnone, -⟩ | ⟨d, -, hsome, hkey⟩
    · rw [hdate] at hnone
      cases hnone
    · rw [hdate] at hsome
      obtain rfl := Option.some.inj hsome
      exact hkey
  · have hrefused : ofKey? missing = none := by decide +kernel
    rcases (hread missing hdigits').1 with ⟨-, hnone⟩ | ⟨d, -, hsome, -⟩
    · exact hnone
    · rw [hrefused] at hsome
      cases hsome

end LeapDay

end Date

end Harvest.Calendar
