import Harvest.Json.Tree

/-! # Reading back numbers

A number is written by its digits, without a leading zero. Read as a numeral, up to a character that
cannot go on with it, the digits have the value of the number again.

Every scanner of a part of a numeral takes what it needs from the front and stops at such a
character. So what it makes of a text that ends there it makes of any text that goes on from there.

## Main definitions

* `Scans`: a scanner that stops at a character that ends a whole number.

## Main statements

* `mapM_map_of_forall`: a list is read back if its elements are.
* `Text.exists_decimal`: the digits of a number.
* `scans_readNumeral`: numerals are scanned so.
* `readNumeral_intDigits`: the numeral of the digits of a number.
* `readTree_numeral`, `readTree_natural`: reading a number back.
-/

namespace Harvest

/-- What is written of a list is read back if what is written of each element is. -/
theorem mapM_map_of_forall {α β : Type} {read : β → Option α} {write : α → β} {xs : List α}
    (h : ∀ x ∈ xs, read (write x) = some x) : (xs.map write).mapM read = some xs := by
  induction xs with
  | nil => rfl
  | cons x xs ih =>
    rw [List.map_cons, List.mapM_cons, h x List.mem_cons_self,
      ih fun y hy => h y (List.mem_cons_of_mem x hy)]
    rfl

/-! ## Digits -/

namespace Text

/-- Decimal digits of a number, without a leading zero. -/
structure IsDecimal (n : Nat) (ds : List Nat) : Prop where
  digits : ∀ d ∈ ds, d < 10
  value : ofDigits ds = n
  ne_nil : ds ≠ []
  lead : ds.head? = some 0 → ds = [0]

theorem ofDigits_append (ds : List Nat) (d : Nat) :
    ofDigits (ds ++ [d]) = ofDigits ds * 10 + d := by
  rw [ofDigits, List.foldl_append]
  rfl

theorem digitChar_mod (n : Nat) : digitChar (n % 10) = digitChar n := by
  rw [digitChar, Nat.mod_mod]
  rfl

/-- A number is written by its decimal digits. -/
theorem exists_decimal (n : Nat) : ∃ ds, natDigits n = ds.map digitChar ∧ IsDecimal n ds := by
  fun_induction natDigits n with
  | case1 n h =>
    refine ⟨[n], rfl, by simpa using h, by simp [ofDigits], by simp, ?_⟩
    intro hzero
    rw [Option.some.inj hzero]
  | case2 n h ih =>
    obtain ⟨ds, hds, hdec⟩ := ih
    refine ⟨ds ++ [n % 10], ?_, ?_, ?_, by simp, ?_⟩
    · rw [hds, List.map_append, List.map_singleton, digitChar_mod]
    · intro d hd
      rcases List.mem_append.mp hd with hd | hd
      · exact hdec.digits d hd
      · rw [List.mem_singleton.mp hd]
        exact Nat.mod_lt _ (by omega)
    · rw [ofDigits_append, hdec.value]
      omega
    · -- the digits in front spell a tenth of the number, which is not zero
      intro hlead
      rw [List.head?_append, List.head?_eq_some_head hdec.ne_nil, Option.some_or,
        ← List.head?_eq_some_head hdec.ne_nil] at hlead
      have hvalue := hdec.value
      rw [hdec.lead hlead] at hvalue
      simp only [ofDigits, List.foldl_cons, List.foldl_nil] at hvalue
      omega

end Text

/-! ## Numerals -/

namespace Json

open Harvest.Text Harvest.Decimal

theorem digitValue?_digitChar {d : Nat} (h : d < 10) : digitValue? (digitChar d) = some d := by
  have hall : ∀ d : Fin 10, digitValue? (digitChar d) = some d.val := by decide
  exact hall ⟨d, h⟩

/-- A character that does not go on with a whole number. -/
structure EndsWhole (c : Char) : Prop where
  digit : digitValue? c = none
  point : c ≠ '.'
  lower : c ≠ 'e'
  upper : c ≠ 'E'

theorem endsWhole_comma : EndsWhole ',' := ⟨by decide, by decide, by decide, by decide⟩

/-! ### Scanners -/

/-- A scanner takes what it needs from the front of a text, and does not look beyond a character
that ends a whole number. -/
def Scans {α : Type} (f : List Glyph → Option (α × List Glyph)) : Prop :=
  ∀ s a r, f s = some (a, r) → (∃ p, s = p ++ r) ∧
    ∀ c t, EndsWhole c → f (s ++ some c :: t) = some (a, r ++ some c :: t)

theorem exists_spanDigits (s : List Glyph) : ∃ p, s = p ++ (spanDigits s).2 := by
  fun_induction spanDigits s with
  | case1 c rest d hd ds rest' hspan ih =>
    obtain ⟨p, hp⟩ := ih
    rw [hspan] at hp
    exact ⟨some c :: p, congrArg _ hp⟩
  | case2 => exact ⟨[], rfl⟩
  | case3 => exact ⟨[], rfl⟩

theorem spanDigits_append {c : Char} (hc : digitValue? c = none) (s t : List Glyph) :
    spanDigits (s ++ some c :: t) = ((spanDigits s).1, (spanDigits s).2 ++ some c :: t) := by
  fun_induction spanDigits s with
  | case1 d rest v hd ds rest' hspan ih =>
    rw [hspan] at ih
    simp only [List.cons_append, spanDigits, hd, ih]
  | case2 d rest hd => simp only [List.cons_append, spanDigits, hd]
  | case3 s hs =>
    cases s with
    | nil => simp only [List.nil_append, spanDigits, hc]
    | cons g s =>
      cases g with
      | none => rfl
      | some d => exact absurd rfl (hs d s)

theorem someDigits?_eq {s r : List Glyph} {ds : List Nat} :
    someDigits? s = some (ds, r) ↔ spanDigits s = (ds, r) ∧ ds ≠ [] := by
  unfold someDigits?
  split
  · rename_i h
    rw [h, Prod.mk.injEq]
    constructor
    · rintro ⟨⟩
    · rintro ⟨⟨rfl, -⟩, hne⟩
      exact absurd rfl hne
  · rename_i ds' r' hne h
    rw [h, Option.some.injEq, Prod.mk.injEq]
    constructor
    · rintro ⟨rfl, rfl⟩
      exact ⟨⟨rfl, rfl⟩, hne⟩
    · exact fun h => h.1

theorem scans_someDigits? : Scans someDigits? := by
  intro s ds r h
  obtain ⟨hspan, hne⟩ := someDigits?_eq.mp h
  refine ⟨?_, fun c t hc => ?_⟩
  · have hp := exists_spanDigits s
    rwa [hspan] at hp
  · rw [someDigits?_eq, spanDigits_append hc.digit, hspan]
    exact ⟨rfl, hne⟩

theorem scans_readWhole : Scans readWhole := by
  intro s ds r h
  unfold readWhole at h
  obtain ⟨⟨ds', r'⟩, hdigits, h⟩ := Option.bind_eq_some_iff.mp h
  dsimp only at h
  split at h
  · cases h
  · rename_i hlead
    cases h
    obtain ⟨hp, happend⟩ := scans_someDigits? s ds r hdigits
    refine ⟨hp, fun c t hc => ?_⟩
    simp only [readWhole, happend c t hc, Option.bind_eq_bind, Option.bind_some, if_neg hlead]

theorem readFraction_of_ends {c : Char} {rest : List Glyph} (hc : EndsWhole c) :
    readFraction (some c :: rest) = some ([], some c :: rest) := by
  unfold readFraction
  split
  · rename_i h
    cases h
    exact absurd rfl hc.point
  · rfl

theorem scans_readFraction : Scans readFraction := by
  intro s ds r h
  unfold readFraction at h
  split at h
  · rename_i rest
    obtain ⟨⟨p, hp⟩, happend⟩ := scans_someDigits? rest ds r h
    exact ⟨⟨some '.' :: p, congrArg _ hp⟩, happend⟩
  · rename_i hpoint
    cases h
    refine ⟨⟨[], rfl⟩, fun c t hc => ?_⟩
    cases s with
    | nil => exact readFraction_of_ends hc
    | cons g s =>
      unfold readFraction
      split
      · rename_i heq
        cases heq
        exact absurd rfl (hpoint s)
      · rfl

/-- The digits of an exponent after its sign. -/
def unsignedDigits (negative : Bool) (s : List Glyph) :
    Option (Option (Bool × List Nat) × List Glyph) := do
  let (ds, rest) ← someDigits? s
  return (some (negative, ds), rest)

/-- The digits of an exponent after its letter. -/
def signedDigits (s : List Glyph) : Option (Option (Bool × List Nat) × List Glyph) :=
  match s with
  | some '-' :: rest => unsignedDigits true rest
  | some '+' :: rest => unsignedDigits false rest
  | _ => unsignedDigits false s

theorem readExponent_letter {l : Char} (h : l = 'e' ∨ l = 'E') (s : List Glyph) :
    readExponent (some l :: s) = signedDigits s := by
  rcases h with rfl | rfl
  · rfl
  · rfl

theorem Scans.pure {α : Type} (a : α) : Scans fun s => some (a, s) := by
  intro s a' r h
  cases h
  exact ⟨⟨[], rfl⟩, fun _ _ _ => rfl⟩

theorem Scans.bind {α β : Type} {f : List Glyph → Option (α × List Glyph)}
    {g : α → List Glyph → Option (β × List Glyph)} (hf : Scans f) (hg : ∀ a, Scans (g a)) :
    Scans fun s => (f s).bind fun (a, r) => g a r := by
  intro s b r hb
  obtain ⟨⟨a, r'⟩, ha, hb⟩ := Option.bind_eq_some_iff.mp hb
  obtain ⟨⟨p, hp⟩, happend⟩ := hf s a r' ha
  obtain ⟨⟨p', hp'⟩, happend'⟩ := hg a r' b r hb
  refine ⟨⟨p ++ p', by rw [hp, hp', List.append_assoc]⟩, fun c t hc => ?_⟩
  simp only [happend c t hc, Option.bind_some]
  exact happend' c t hc

theorem scans_unsignedDigits (negative : Bool) : Scans (unsignedDigits negative) :=
  scans_someDigits?.bind fun ds => Scans.pure (some (negative, ds))

theorem scans_signedDigits : Scans signedDigits := by
  intro s e r h
  unfold signedDigits at h
  split at h
  · obtain ⟨⟨p, hp⟩, happend⟩ := scans_unsignedDigits true _ e r h
    exact ⟨⟨some '-' :: p, congrArg _ hp⟩, happend⟩
  · obtain ⟨⟨p, hp⟩, happend⟩ := scans_unsignedDigits false _ e r h
    exact ⟨⟨some '+' :: p, congrArg _ hp⟩, happend⟩
  · rename_i hminus hplus
    obtain ⟨hp, happend⟩ := scans_unsignedDigits false s e r h
    refine ⟨hp, fun c t hc => ?_⟩
    -- there is a digit, so that no sign can come in front of it
    cases s with
    | nil => cases h
    | cons g s =>
      unfold signedDigits
      split
      · rename_i heq
        cases heq
        exact absurd rfl (hminus s)
      · rename_i heq
        cases heq
        exact absurd rfl (hplus s)
      · exact happend c t hc

theorem readExponent_of_no_letter {s : List Glyph}
    (h : ∀ l s', s = some l :: s' → l ≠ 'e' ∧ l ≠ 'E') : readExponent s = some (none, s) := by
  unfold readExponent
  split
  · exact absurd rfl (h _ _ rfl).1
  · exact absurd rfl (h _ _ rfl).2
  · rfl

theorem scans_readExponent : Scans readExponent := by
  intro s e r h
  by_cases hletter : ∃ l s', s = some l :: s' ∧ (l = 'e' ∨ l = 'E')
  · obtain ⟨l, s, rfl, hl⟩ := hletter
    rw [readExponent_letter hl] at h
    obtain ⟨⟨p, hp⟩, happend⟩ := scans_signedDigits s e r h
    refine ⟨⟨some l :: p, congrArg _ hp⟩, fun c t hc => ?_⟩
    rw [List.cons_append, readExponent_letter hl]
    exact happend c t hc
  · have hno : ∀ l s', s = some l :: s' → l ≠ 'e' ∧ l ≠ 'E' := by
      intro l s' hs
      rw [← not_or]
      exact fun hl => hletter ⟨l, s', hs, hl⟩
    rw [readExponent_of_no_letter hno] at h
    cases h
    refine ⟨⟨[], rfl⟩, fun c t hc => readExponent_of_no_letter fun l s' hs => ?_⟩
    cases s with
    | nil =>
      cases hs
      exact ⟨hc.lower, hc.upper⟩
    | cons g s =>
      cases hs
      exact hno l s rfl

/-- A numeral after its sign. -/
def readUnsigned (negative : Bool) (s : List Glyph) : Option (Numeral × List Glyph) := do
  let (whole, s) ← readWhole s
  let (fraction, s) ← readFraction s
  let (exponent, s) ← readExponent s
  return ({ negative, whole, fraction, exponent }, s)

theorem readNumeral_minus (s : List Glyph) :
    readNumeral (some '-' :: s) = readUnsigned true s := rfl

theorem readNumeral_of_no_minus {s : List Glyph} (h : ∀ s', s ≠ some '-' :: s') :
    readNumeral s = readUnsigned false s := by
  unfold readNumeral
  split
  rename_i hsign
  split at hsign
  · exact absurd rfl (h _)
  · cases hsign
    rfl

theorem scans_readUnsigned (negative : Bool) : Scans (readUnsigned negative) := by
  have hexponent (whole fraction : List Nat) := scans_readExponent.bind fun exponent =>
    Scans.pure (Numeral.mk negative whole fraction exponent)
  have hfraction (whole : List Nat) := scans_readFraction.bind (hexponent whole)
  exact scans_readWhole.bind hfraction

theorem scans_readNumeral : Scans readNumeral := by
  intro s n r h
  by_cases hminus : ∃ s', s = some '-' :: s'
  · obtain ⟨s, rfl⟩ := hminus
    rw [readNumeral_minus] at h
    obtain ⟨⟨p, hp⟩, happend⟩ := scans_readUnsigned true s n r h
    refine ⟨⟨some '-' :: p, congrArg _ hp⟩, fun c t hc => ?_⟩
    rw [List.cons_append, readNumeral_minus]
    exact happend c t hc
  · have hno : ∀ s', s ≠ some '-' :: s' := fun s' hs => hminus ⟨s', hs⟩
    rw [readNumeral_of_no_minus hno] at h
    obtain ⟨hp, happend⟩ := scans_readUnsigned false s n r h
    refine ⟨hp, fun c t hc => ?_⟩
    -- a numeral is not empty, so that no sign can come in front of it
    rw [readNumeral_of_no_minus fun s' hs => ?_]
    · exact happend c t hc
    · cases s with
      | nil => cases h
      | cons g s =>
        cases hs
        exact hno s rfl

/-! ### Decimal digits -/

theorem spanDigits_digits {ds : List Nat} (hds : ∀ d ∈ ds, d < 10) :
    spanDigits ((ds.map digitChar).map some) = (ds, []) := by
  induction ds with
  | nil => rfl
  | cons d ds ih =>
    have hd := digitValue?_digitChar (hds d List.mem_cons_self)
    have hrest := ih fun x hx => hds x (List.mem_cons_of_mem d hx)
    simp only [List.map_cons, spanDigits, hd, hrest]

theorem readWhole_decimal {n : Nat} {ds : List Nat} (hds : IsDecimal n ds) :
    readWhole ((ds.map digitChar).map some) = some (ds, []) := by
  have hsome : someDigits? ((ds.map digitChar).map some) = some (ds, []) :=
    someDigits?_eq.mpr ⟨spanDigits_digits hds.digits, hds.ne_nil⟩
  have hlead : ¬ (ds.head? = some 0 ∧ 1 < ds.length) := by
    rintro ⟨hzero, hlength⟩
    rw [hds.lead hzero] at hlength
    simp at hlength
  simp only [readWhole, hsome, Option.bind_eq_bind, Option.bind_some, if_neg hlead]

/-- The digits of a number are read as a numeral. -/
theorem readUnsigned_decimal {n : Nat} {ds : List Nat} (hds : IsDecimal n ds) (negative : Bool) :
    readUnsigned negative ((ds.map digitChar).map some) = some (⟨negative, ds, [], none⟩, []) := by
  have hfraction : readFraction [] = some ([], []) := rfl
  have hexponent : readExponent [] = some (none, []) := rfl
  simp only [readUnsigned, readWhole_decimal hds, hfraction, hexponent, Option.bind_eq_bind,
    Option.bind_some, Option.pure_def]

theorem value?_decimal {n : Nat} {ds : List Nat} (hds : IsDecimal n ds) (hn : n < twoTo 64) :
    Numeral.value? ⟨false, ds, [], none⟩ = some (.whole n) := by
  simp [Numeral.value?, Numeral.isWhole, hds.value, hn]

theorem value?_negative {n : Nat} {ds : List Nat} (hds : IsDecimal n ds) (hpos : 0 < n)
    (hn : n ≤ twoTo 63) : Numeral.value? ⟨true, ds, [], none⟩ = some (.whole (-(n : Int))) := by
  simp [Numeral.value?, Numeral.isWhole, hds.value, hpos, hn]

/-- A number within the range of a word is read back from its digits. -/
theorem readNumeral_intDigits {n : Int} (hmin : -(twoTo 63 : Int) ≤ n) (hmax : n < twoTo 64) :
    ∃ m : Numeral, readNumeral ((intDigits n).map some) = some (m, []) ∧
      m.value? = some (.whole n) := by
  obtain ⟨ds, hds, hdec⟩ := exists_decimal n.natAbs
  unfold intDigits
  split
  · rename_i hneg
    refine ⟨⟨true, ds, [], none⟩, ?_, ?_⟩
    · rw [hds, List.map_cons, readNumeral_minus]
      exact readUnsigned_decimal hdec true
    · rw [value?_negative hdec (by omega) (by omega)]
      congr
      omega
  · rename_i hpos
    refine ⟨⟨false, ds, [], none⟩, ?_, ?_⟩
    · rw [hds, readNumeral_of_no_minus]
      · exact readUnsigned_decimal hdec false
      · -- no digit is a sign
        intro s' hs
        obtain ⟨d, ds, rfl⟩ := List.exists_cons_of_ne_nil hdec.ne_nil
        have hchar : digitChar d = '-' := Option.some.inj (List.cons.inj hs).1
        have hvalue := digitValue?_digitChar (hdec.digits d List.mem_cons_self)
        rw [hchar] at hvalue
        cases hvalue
    · rw [value?_decimal hdec (by omega)]
      congr
      omega

/-! ### Numbers in a document -/

/-- A character that a numeral begins with. -/
def StartsNumeral (c : Char) : Prop := c = '-' ∨ (digitValue? c).isSome

theorem head_of_readUnsigned {negative : Bool} {s r : List Glyph} {n : Numeral}
    (h : readUnsigned negative s = some (n, r)) :
    ∃ d s', s = some d :: s' ∧ (digitValue? d).isSome := by
  obtain ⟨⟨ds, r'⟩, hwhole, -⟩ := Option.bind_eq_some_iff.mp h
  obtain ⟨⟨ds', r''⟩, hdigits, -⟩ := Option.bind_eq_some_iff.mp hwhole
  obtain ⟨hspan, hne⟩ := someDigits?_eq.mp hdigits
  unfold spanDigits at hspan
  split at hspan
  · rename_i d s'
    refine ⟨d, s', rfl, ?_⟩
    split at hspan
    · rename_i hd
      rw [hd]
      rfl
    · cases hspan
      exact absurd rfl hne
  · cases hspan
    exact absurd rfl hne

theorem head_of_readNumeral {s r : List Glyph} {n : Numeral} (h : readNumeral s = some (n, r)) :
    ∃ d s', s = some d :: s' ∧ StartsNumeral d := by
  by_cases hminus : ∃ s', s = some '-' :: s'
  · obtain ⟨s', rfl⟩ := hminus
    exact ⟨'-', s', rfl, .inl rfl⟩
  · rw [readNumeral_of_no_minus fun s' hs => hminus ⟨s', hs⟩] at h
    obtain ⟨d, s', hs, hd⟩ := head_of_readUnsigned h
    exact ⟨d, s', hs, .inr hd⟩

theorem StartsNumeral.not_mem {d : Char} (h : StartsNumeral d) :
    d ∉ [' ', '\n', '\t', '\r', ']', '"', '[', '\x7b', 'n', 't', 'f'] := by
  have hall : [' ', '\n', '\t', '\r', ']', '"', '[', '\x7b', 'n', 't', 'f'].all
      (fun e => e != '-' && !isDigit e) = true := by decide
  intro hmem
  have hd := List.all_eq_true.mp hall d hmem
  rw [Bool.and_eq_true, bne_iff_ne, Bool.not_eq_true', isDigit] at hd
  rcases h with h | h
  · exact hd.1 h
  · rw [hd.2] at h
    cases h

theorem readTree_start {d : Char} (hd : StartsNumeral d) (fuel : Nat) (s : List Glyph) :
    readTree (fuel + 1) (some d :: s)
      = (readNumeral (some d :: s)).map fun (n, rest) => (.number n, rest) := by
  have hne := hd.not_mem
  simp only [List.mem_cons, List.not_mem_nil, or_false, not_or] at hne
  have hskip : skipSpace (some d :: s) = some d :: s := by
    rw [skipSpace, List.dropWhile_cons_of_neg]
    simp [isSpace, hne]
  rw [readTree, hskip]
  -- the character opens none of the other values
  split
  case h_7 => cases readNumeral (some d :: s) <;> rfl
  all_goals
    rename_i h
    cases h
    simp at hne

/-- A number is read in a document, up to a character that cannot go on with it. -/
theorem readTree_numeral {s : List Glyph} {n : Numeral} (h : readNumeral s = some (n, []))
    {c : Char} (hc : EndsWhole c) (fuel : Nat) (rest : List Glyph) :
    readTree (fuel + 1) (s ++ some c :: rest) = some (.number n, some c :: rest) := by
  have hread := (scans_readNumeral s n [] h).2 c rest hc
  obtain ⟨d, s, rfl, hd⟩ := head_of_readNumeral h
  rw [List.cons_append] at hread ⊢
  rw [readTree_start hd, hread]
  rfl

/-- A natural number of 64 bits is read back. -/
theorem readTree_natural {n : Nat} (hn : n < twoTo 64) {c : Char} (hc : EndsWhole c) (fuel : Nat)
    (rest : List Glyph) :
    ∃ m : Numeral, m.value? = some (.whole n) ∧
      readTree (fuel + 1) ((natDigits n).map some ++ some c :: rest)
        = some (.number m, some c :: rest) := by
  have hdigits : intDigits n = natDigits n := if_neg (by omega)
  obtain ⟨m, hm, hvalue⟩ := readNumeral_intDigits (n := n) (by omega) (by omega)
  rw [hdigits] at hm
  exact ⟨m, hvalue, readTree_numeral hm hc fuel rest⟩

end Json

end Harvest
