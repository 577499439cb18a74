import Harvest.Calendar.Timestamp
import Harvest.Proofs.Calendar.Dates

/-! # Reading back instants

An instant is read back from its text, field by field: the text has each number at its full width,
and no digit after the year or the fraction.

The text of a leap second has a second 60, which is read as a part of second 59. So a leap second is
read back if it is the last second of its minute. That is so of every instant that has been read,
for offsets from UTC are whole minutes.

## Main definitions

* `Instant.Regular`: a leap second is the last one of its minute.
* `Scan.NoDigit`: no digit comes next.

## Main statements

* `Instant.ofString?_iso`: a regular instant is read back from its text.
* `Instant.regular_of_ofString?`: what is read is regular.
-/

namespace Harvest.Calendar

open Harvest.Text

/-! ## Fields -/

namespace Scan

/-- No digit comes next. -/
def NoDigit (s : List Char) : Prop := ∀ c s', s = c :: s' → isDigit c = false

theorem takeWhile_digits {ds s : List Char} {most : Nat} (hds : ∀ c ∈ ds, isDigit c = true)
    (hmost : ds.length ≤ most) (hs : ds.length = most ∨ NoDigit s) :
    ((ds ++ s).take most).takeWhile isDigit = ds := by
  -- the digits end with the width, or at the character that comes next
  have hend : (s.take (most - ds.length)).takeWhile isDigit = [] := by
    rcases hs with heq | hno
    · rw [heq, Nat.sub_self]
      rfl
    · cases s with
      | nil => rw [List.take_nil]; rfl
      | cons c s =>
        cases most - ds.length with
        | zero => rfl
        | succ k =>
          rw [List.take_succ_cons]
          exact List.takeWhile_cons_of_neg (by simp [hno c s rfl])
  rw [List.take_append, List.take_of_length_le hmost, List.takeWhile_append_of_pos hds, hend,
    List.append_nil]

/-- A number is read up to where its digits end, or its width. -/
theorem number_digits {least most n : Nat} {ds s : List Char} (hread : readNat? ds = some n)
    (hleast : least ≤ ds.length) (hmost : ds.length ≤ most) (hs : ds.length = most ∨ NoDigit s)
    (hn : n < twoTo 63) : number least most (ds ++ s) = some ((n : Int), s) := by
  obtain ⟨hdigits, hvalue⟩ := digits_of_readNat? hread
  rw [number]
  simp only [takeWhile_digits hdigits hmost hs, hvalue]
  rw [if_neg (by omega), if_pos hn, List.drop_left]

theorem field_padded {n : Nat} (h : n < 100) (s : List Char) :
    field 2 (padded 2 n ++ s) = some ((n : Int), s) := by
  have hlength := length_padded (by decide) (show n < tenTo 2 from h)
  have hbound : 100 < twoTo 63 := by decide
  rw [field, skipBlanks_padded]
  exact number_digits (readNat?_padded 2 n) (by omega) (by omega) (.inl hlength) (by omega)

theorem literal_cons (c : Char) (s : List Char) : literal c (c :: s) = some s := if_pos rfl

theorem year_minus (s : List Char) :
    year ('-' :: s) = (anyNumber 1 s).bind fun (n, rest) => some (-n, rest) := by
  have hskip : skipBlanks ('-' :: s) = '-' :: s := rfl
  rw [year, hskip]
  rfl

theorem year_plus (s : List Char) : year ('+' :: s) = anyNumber 1 s := by
  have hskip : skipBlanks ('+' :: s) = '+' :: s := rfl
  rw [year, hskip]
  rfl

theorem year_padded (n : Nat) (s : List Char) :
    year (padded 4 n ++ s) = number 1 4 (padded 4 n ++ s) := by
  obtain ⟨c, s', hs, hc⟩ := head_padded 4 n
  rw [year, skipBlanks_padded]
  split
  · rename_i heq
    rw [hs] at heq
    cases heq
    cases hc
  · rename_i heq
    rw [hs] at heq
    cases heq
    cases hc
  · rfl

/-- A year without a sign takes four digits, whatever comes next. -/
theorem year_of_lt {n : Nat} (h : n < 10000) (s : List Char) :
    year (padded 4 n ++ s) = some ((n : Int), s) := by
  have hlength := length_padded (by decide) (show n < tenTo 4 from h)
  have hbound : 10000 < twoTo 63 := by decide
  rw [year_padded]
  exact number_digits (readNat?_padded 4 n) (by omega) (by omega) (.inl hlength) (by omega)

/-- A year is read up to a character that is no digit. -/
theorem year_yearChars {y : Int} (hmin : minYear ≤ y) (hmax : y ≤ maxYear) {s : List Char}
    (hs : NoDigit s) : year (Date.yearChars y ++ s) = some (y, s) := by
  unfold minYear at hmin
  unfold maxYear at hmax
  have hbound : 262143 < twoTo 63 := by decide
  have hpositive : 1 ≤ (padded 4 y.natAbs).length := by
    obtain ⟨c, s', hs, -⟩ := head_padded 4 y.natAbs
    rw [hs, List.length_cons]
    omega
  have hany : anyNumber 1 (padded 4 y.natAbs ++ s) = some ((y.natAbs : Int), s) :=
    number_digits (readNat?_padded 4 y.natAbs) hpositive
      (by rw [List.length_append]; omega) (.inr hs) (by omega)
  unfold Date.yearChars
  split
  · rename_i h
    rw [year_of_lt (show y.toNat < 10000 by omega), Int.toNat_of_nonneg h.1]
  · -- out of the range of four digits the year has a sign
    split
    · rw [List.cons_append, year_minus, hany]
      simp only [Option.bind_some, Option.some.injEq, Prod.mk.injEq, and_true]
      omega
    · rw [List.cons_append, year_plus, hany]
      simp only [Option.some.injEq, Prod.mk.injEq, and_true]
      omega

theorem fraction_padded {width n : Nat} (hwidth : 0 < width) (hnine : width ≤ 9)
    (hn : n < tenTo width) {s : List Char} (hs : NoDigit s) :
    fraction (padded width n ++ s) = some (n * tenTo (9 - width), s) := by
  obtain ⟨hdigits, hvalue⟩ := digits_of_readNat? (readNat?_padded width n)
  have hlength := length_padded hwidth hn
  have hne : (padded width n).isEmpty = false := by
    rw [List.isEmpty_eq_false_iff]
    rintro hnil
    rw [hnil] at hlength
    exact absurd hlength (Nat.ne_of_lt hwidth)
  have htake := takeWhile_digits hdigits (show (padded width n).length ≤ 9 by omega) (.inr hs)
  have hdrop : s.dropWhile isDigit = s := by
    cases s with
    | nil => rfl
    | cons c s => exact List.dropWhile_cons_of_neg (by simp [hs c s rfl])
  simp only [fraction, htake, hne, Bool.false_eq_true, if_false, hvalue, List.drop_left, hdrop]
  rw [hlength]
  rfl

/-- A fraction is less than a second. -/
theorem fraction_lt {s rest : List Char} {nano : Nat} (h : fraction s = some (nano, rest)) :
    nano < 1000000000 := by
  unfold fraction at h
  dsimp only at h
  split at h
  · cases h
  · cases h
    have hlength : ((s.take 9).takeWhile isDigit).length ≤ 9 :=
      Nat.le_trans (List.takeWhile_sublist _).length_le (List.length_take_le 9 s)
    have hdigits := ofDigits_filterMap_lt ((s.take 9).takeWhile isDigit)
    generalize ((s.take 9).takeWhile isDigit).length = k at *
    calc _ < tenTo k * tenTo (9 - k) := Nat.mul_lt_mul_of_pos_right hdigits (tenTo_pos _)
      _ = tenTo (k + (9 - k)) := (Nat.pow_add 10 k (9 - k)).symm
      _ = 1000000000 := by rw [Nat.add_sub_cancel' hlength]; rfl

/-- Reads the hours and minutes of an offset, after its sign. -/
def unsignedOffset (style : OffsetStyle) (negative : Bool) (s : List Char) :
    Option (Int × List Char) := do
  let (hours, rest) ← twoDigits s
  let rest := if style.separated then rest.dropWhile (fun c => c = ':' || isBlank c) else rest
  let (minutes, rest) ← twoDigits rest
  if minutes < 60 then
    let seconds : Int := hours * 3600 + minutes * 60
    return (if negative then -seconds else seconds, rest)
  else none

theorem unsignedOffset_emod {style : OffsetStyle} (negative : Bool) {s rest : List Char} {n : Int}
    (h : unsignedOffset style negative s = some (n, rest)) : n % 60 = 0 := by
  obtain ⟨⟨hours, s₁⟩, -, h⟩ := Option.bind_eq_some_iff.mp h
  obtain ⟨⟨minutes, s₂⟩, -, h⟩ := Option.bind_eq_some_iff.mp h
  dsimp only at h
  split at h
  · cases h
    split <;> omega
  · cases h

/-- Offsets are whole minutes. -/
theorem offset_emod {style : OffsetStyle} {s rest : List Char} {n : Int}
    (h : offset style s = some (n, rest)) : n % 60 = 0 := by
  have hzero : ∀ {p : Bool} {s : List Char},
      (if p = true then some ((0 : Int), s) else none) = some (n, rest) → n % 60 = 0 := by
    intro p s h
    split at h
    · cases h
      rfl
    · cases h
  unfold offset at h
  split at h
  · exact hzero h
  · exact hzero h
  · dsimp only at h
    split at h
    · exact unsignedOffset_emod false h
    · split at h
      · exact unsignedOffset_emod true h
      · split at h
        · exact unsignedOffset_emod true h
        · cases h
  · cases h

theorem within_natCast {low high : Int} {n : Nat} (hlow : low ≤ n) (hhigh : n ≤ high) :
    within low high n = some n := by
  rw [within, if_pos ⟨hlow, hhigh⟩, Int.toNat_natCast]

end Scan

/-! ## Reading back -/

theorem noDigit_minus (s : List Char) : Scan.NoDigit ('-' :: s) := by
  rintro c s' ⟨⟩
  rfl

theorem noDigit_zulu (s : List Char) : Scan.NoDigit ('Z' :: s) := by
  rintro c s' ⟨⟩
  rfl

/-- The date is read in front of an instant. -/
theorem scanDate_isoChars (d : Date) (s : List Char) :
    scanDate (d.isoChars ++ s) = some ((d.year, (d.month : Int), (d.day : Int)), s) := by
  obtain ⟨hmin, hmax, -, hmonth, -, hday⟩ := d.bounds
  have hlength := Date.monthLength_le d.year d.month
  have hskip (s : List Char) : skipBlanks ('-' :: s) = '-' :: s := rfl
  have hyear := Scan.year_yearChars hmin hmax
    (noDigit_minus (padded 2 d.month ++ '-' :: (padded 2 d.day ++ s)))
  rw [Date.isoChars]
  simp only [List.append_assoc, List.cons_append, scanDate, hyear, hskip, Scan.literal_cons,
    Scan.field_padded (show d.month < 100 by omega), Scan.field_padded (show d.day < 100 by omega),
    Option.bind_eq_bind, Option.bind_some, Option.pure_def]

/-- A fraction is written by the digits that it needs. -/
theorem fractionChars_cases (nano : Nat) :
    nano % 1000000000 = 0 ∧ fractionChars nano = [] ∨
      ∃ width n, 0 < width ∧ width ≤ 9 ∧ n < tenTo width ∧
        n * tenTo (9 - width) = nano % 1000000000 ∧
        fractionChars nano = '.' :: padded width n := by
  have hthree : tenTo 3 = 1000 := rfl
  have hsix : tenTo 6 = 1000000 := rfl
  have hnine : tenTo 9 = 1000000000 := rfl
  simp only [fractionChars]
  split
  · exact .inl ⟨‹_›, rfl⟩
  · refine .inr ?_
    split
    · exact ⟨3, nano % 1000000000 / 1000000, by decide, by decide, by omega,
        by rw [show tenTo (9 - 3) = 1000000 from rfl]; omega, rfl⟩
    · split
      · exact ⟨6, nano % 1000000000 / 1000, by decide, by decide, by omega,
          by rw [show tenTo (9 - 6) = 1000 from rfl]; omega, rfl⟩
      · exact ⟨9, nano % 1000000000, by decide, by decide, by omega,
          by rw [show tenTo (9 - 9) = 1 from rfl]; omega, rfl⟩

/-- The time of day is read before the letter of the zone. -/
theorem scanTime_clockChars {second nano : Nat} (hsecond : second < 86400)
    (hnano : nano < 2000000000) (s : List Char) :
    scanTime (clockChars second nano ++ fractionChars nano ++ 'Z' :: s) =
      some ((((second / 3600 : Nat) : Int), ((second / 60 % 60 : Nat) : Int),
        ((second % 60 + nano / 1000000000 : Nat) : Int), nano % 1000000000), 'Z' :: s) := by
  have hskip (s : List Char) : skipBlanks (':' :: s) = ':' :: s := rfl
  have hhour := Scan.field_padded (show second / 3600 < 100 by omega)
  have hminute := Scan.field_padded (show second / 60 % 60 < 100 by omega)
  have hsecond := Scan.field_padded (show second % 60 + nano / 1000000000 < 100 by omega)
  simp only [clockChars, List.append_assoc, List.cons_append, scanTime, hhour, hminute, hsecond,
    hskip, Scan.literal_cons, Option.bind_eq_bind, Option.bind_some]
  rcases fractionChars_cases nano with ⟨hzero, hchars⟩ | ⟨width, n, hpos, hnine, hn, hvalue, hchars⟩
  · rw [hchars, hzero]
    rfl
  · rw [hchars, ← hvalue]
    simp only [List.cons_append, Scan.fraction_padded hpos hnine hn (noDigit_zulu s)]
    rfl

namespace Instant

/-- A leap second is the last one of its minute. -/
def Regular (t : Instant) : Prop := 1000000000 ≤ t.nano → t.second % 60 = 59

theorem second_eq (t : Instant) : t.second = t.date.dayNumber * 86400 + t.secondOfDay := by
  rw [dayNumber_date, dayNumber, secondOfDay, secondsPerDay]
  omega

theorem secondOfDay_lt (t : Instant) : t.secondOfDay < 86400 := by
  rw [secondOfDay, secondsPerDay]
  omega

theorem clockTime?_of_regular {t : Instant} (h : t.Regular) :
    clockTime? (t.secondOfDay / 3600 : Nat) (t.secondOfDay / 60 % 60 : Nat)
      (t.secondOfDay % 60 + t.nano / 1000000000 : Nat) (t.nano % 1000000000) =
        some (t.secondOfDay, t.nano) := by
  have hsecond := t.secondOfDay_lt
  have hnano := t.nano_lt
  -- the second is written as 60 in a leap second only
  have hlast : 1000000000 ≤ t.nano → t.secondOfDay % 60 = 59 := by
    intro hleap
    have hregular := h hleap
    have heq := t.second_eq
    omega
  have hhour := Scan.within_natCast (Int.natCast_nonneg _)
    (show ((t.secondOfDay / 3600 : Nat) : Int) ≤ 23 by omega)
  have hminute := Scan.within_natCast (Int.natCast_nonneg _)
    (show ((t.secondOfDay / 60 % 60 : Nat) : Int) ≤ 59 by omega)
  have hsixty := Scan.within_natCast (Int.natCast_nonneg _)
    (show ((t.secondOfDay % 60 + t.nano / 1000000000 : Nat) : Int) ≤ 60 by omega)
  simp only [clockTime?, hhour, hminute, hsixty, Option.bind_eq_bind, Option.bind_some]
  split
  · rw [Option.some.injEq, Prod.mk.injEq]
    omega
  · rw [Option.some.injEq, Prod.mk.injEq]
    omega

/-- The fields that the text of an instant has. -/
def fields (t : Instant) : Fields where
  year := t.date.year
  month := t.date.month
  day := t.date.day
  hour := (t.secondOfDay / 3600 : Nat)
  minute := (t.secondOfDay / 60 % 60 : Nat)
  second := (t.secondOfDay % 60 + t.nano / 1000000000 : Nat)
  nano := t.nano % 1000000000
  offset := 0

theorem date?_fields (t : Instant) : t.fields.date? = some t.date := by
  obtain ⟨-, -, hone, htwelve, hday, hlast⟩ := t.date.bounds
  have hlength := Date.monthLength_le t.date.year t.date.month
  have hmonth := Scan.within_natCast (show (1 : Int) ≤ t.date.month by omega)
    (show (t.date.month : Int) ≤ 12 by omega)
  have hday := Scan.within_natCast (show (1 : Int) ≤ t.date.day by omega)
    (show (t.date.day : Int) ≤ 31 by omega)
  simp only [Fields.date?, fields, hmonth, hday, Option.bind_eq_bind, Option.bind_some]
  exact dif_pos t.date.valid

theorem instant?_fields {t : Instant} (h : t.Regular) : t.fields.instant? = some t := by
  have hclock : clockTime? t.fields.hour t.fields.minute t.fields.second t.fields.nano =
      some (t.secondOfDay, t.nano) := clockTime?_of_regular h
  have hoffset : t.fields.offset = 0 := rfl
  have hsecond : t.date.dayNumber * secondsPerDay + t.secondOfDay = t.second := t.second_eq.symm
  simp only [Fields.instant?, date?_fields, hclock, hoffset, Option.bind_eq_bind,
    Option.bind_some, Int.sub_zero, hsecond]
  exact dif_pos t.valid

/-- A regular instant is read back from its text. -/
theorem ofString?_iso {t : Instant} (h : t.Regular) : ofString? t.iso = some t := by
  have hdate := scanDate_isoChars t.date
    ('T' :: (clockChars t.secondOfDay t.nano ++ fractionChars t.nano ++ ['Z']))
  have htime := scanTime_clockChars t.secondOfDay_lt t.nano_lt []
  have hzone : scanZone ['Z'] = some (0, []) := rfl
  rw [ofString?, iso, String.toList_ofList, isoChars, ofChars?]
  simp only [List.append_assoc, List.cons_append] at hdate htime ⊢
  simp only [hdate, htime, hzone, Option.bind_eq_bind, Option.bind_some, true_or, or_true, if_true]
  exact instant?_fields h

/-! ## What is read is regular -/

theorem regular_of_clockTime? {h m s : Int} {nano second nano' : Nat} (hnano : nano < 1000000000)
    (hclock : clockTime? h m s nano = some (second, nano')) :
    1000000000 ≤ nano' → second % 60 = 59 := by
  obtain ⟨h', hh, hclock⟩ := Option.bind_eq_some_iff.mp hclock
  obtain ⟨m', hm, hclock⟩ := Option.bind_eq_some_iff.mp hclock
  obtain ⟨s', hs, hclock⟩ := Option.bind_eq_some_iff.mp hclock
  split at hclock
  · cases hclock
    omega
  · cases hclock
    omega

theorem regular_of_instant? {f : Fields} {t : Instant} (hnano : f.nano < 1000000000)
    (hoffset : f.offset % 60 = 0) (h : f.instant? = some t) : t.Regular := by
  obtain ⟨d, -, h⟩ := Option.bind_eq_some_iff.mp h
  obtain ⟨⟨second, nano⟩, hclock, h⟩ := Option.bind_eq_some_iff.mp h
  dsimp only at h
  split at h
  · unfold of? at h
    split at h
    · cases h
      intro hleap
      have hlast := regular_of_clockTime? hnano hclock hleap
      dsimp only
      rw [secondsPerDay]
      omega
    · cases h
  · cases h

theorem offset_of_scanZone {s rest : List Char} {n : Int} (h : scanZone s = some (n, rest)) :
    n % 60 = 0 := by
  unfold scanZone at h
  dsimp only at h
  split at h
  · cases h
    rfl
  · exact Scan.offset_emod h

theorem nano_of_scanTime {s rest : List Char} {h m sec : Int} {nano : Nat}
    (hscan : scanTime s = some ((h, m, sec, nano), rest)) : nano < 1000000000 := by
  obtain ⟨⟨h', s₁⟩, -, hscan⟩ := Option.bind_eq_some_iff.mp hscan
  obtain ⟨s₂, -, hscan⟩ := Option.bind_eq_some_iff.mp hscan
  obtain ⟨⟨m', s₃⟩, -, hscan⟩ := Option.bind_eq_some_iff.mp hscan
  obtain ⟨s₄, -, hscan⟩ := Option.bind_eq_some_iff.mp hscan
  obtain ⟨⟨sec', s₅⟩, -, hscan⟩ := Option.bind_eq_some_iff.mp hscan
  dsimp only at hscan
  split at hscan
  · obtain ⟨⟨nano', s₆⟩, hfraction, hscan⟩ := Option.bind_eq_some_iff.mp hscan
    cases hscan
    exact Scan.fraction_lt hfraction
  · cases hscan
    decide

theorem regular_of_ofString? {s : String} {t : Instant} (h : ofString? s = some t) :
    t.Regular := by
  -- the fraction and the offset decide it, whatever the date is
  obtain ⟨⟨⟨year, month, day⟩, s₁⟩, -, h⟩ := Option.bind_eq_some_iff.mp h
  dsimp only at h
  split at h
  · split at h
    · obtain ⟨s₂, -, h⟩ := Option.bind_eq_some_iff.mp h
      obtain ⟨⟨⟨hour, minute, second, nano⟩, s₃⟩, htime, h⟩ := Option.bind_eq_some_iff.mp h
      obtain ⟨⟨offset, s₄⟩, hzone, h⟩ := Option.bind_eq_some_iff.mp h
      dsimp only at h
      split at h
      · exact regular_of_instant? (nano_of_scanTime htime) (offset_of_scanZone hzone) h
      · cases h
    · cases h
  · cases h

end Instant

end Harvest.Calendar
