import Harvest.Json.Decoder
import Harvest.Proofs.Text.Digits

/-! # Reading back documents

The text of a value is read as a document again. Each string literal gives its text, for the writer
escapes what would end a literal or may not stand in one. Each number gives a numeral of its value:
a word does so by its digits, and of a binary number it is asked. What has been nested is nested
again.

The text is followed by a character that goes on with no number: a comma, or the end of the array
or object that the value stands in. So the lemmas are about a value with such a character after it;
an object needs none.

## Main definitions

* `Value.tree`: the document that the text of a value is.
* `Value.Exact`: the numbers in a value are words, or binary numbers that read back.

## Main statements

* `readLiteral_writeLiteral`: a text is read back from its literal.
* `readTree_chars`, `readItems_chars`, `readMembers_chars`: reading the text of a value.
* `ofString?_write`: the text of an object is its document.
-/

namespace Harvest.Json

open Harvest.Text Harvest.Decimal

/-! ## String literals -/

theorem hexValue?_hexDigit {n : Nat} (h : n < 16) : hexValue? (some (hexDigit n)) = some n := by
  have hall : ∀ n : Fin 16, hexValue? (some (hexDigit n)) = some n.val := by decide
  exact hall ⟨n, h⟩

/-- Control characters without a letter of their own are written as units. -/
def pieceOf (c : Char) : Piece :=
  if c.toNat < 0x20 ∧ c ∉ ['\x08', '\x0c', '\n', '\r', '\t'] then .unit c.toNat else .char c

theorem readPieces_plain {c : Char} (hquote : c ≠ '"') (hslash : c ≠ '\\') (h : ¬ c.toNat < 0x20)
    (s : List Glyph) :
    readPieces (some c :: s) = (readPieces s).map fun (ps, rest) => (.char c :: ps, rest) := by
  rw [readPieces.eq_def]
  split
  · rename_i heq; cases heq
  · rename_i heq
    cases heq
    exact absurd rfl hquote
  · rename_i heq
    cases heq
    exact absurd rfl hslash
  · rename_i heq
    cases heq
    exact absurd rfl hslash
  · rename_i heq
    cases heq
    have hplain : (c == '\\' || decide (c.toNat < 0x20)) = false := by simp [hslash, h]
    rw [hplain, if_neg Bool.false_ne_true]
    cases readPieces s <;> rfl
  · rename_i heq; cases heq

theorem readPieces_short {c e : Char} (h : shortEscape? c = some e) (s : List Glyph) :
    readPieces (some '\\' :: some c :: s) =
      (readPieces s).map fun (ps, rest) => (.char e :: ps, rest) := by
  rw [readPieces.eq_def]
  split
  · rename_i heq; cases heq
  · rename_i heq; cases heq
  · -- no escape of one letter is the escape of a unit
    rename_i heq
    cases heq
    cases h
  · rename_i heq
    cases heq
    rw [h]
    cases readPieces s <;> rfl
  · rename_i hshort heq
    cases heq
    exact absurd rfl (hshort c s rfl)
  · rename_i heq; cases heq

theorem readPieces_escaped (c : Char) (s : List Glyph) :
    readPieces ((escaped c).map some ++ s) =
      (readPieces s).map fun (ps, rest) => (pieceOf c :: ps, rest) := by
  unfold escaped
  split
  case h_8 hquote hslash hback hfeed hnewline hreturn htab =>
    split
    · -- a control character without a letter of its own is spelled as a unit
      rename_i hcontrol
      have hpiece : pieceOf c = .unit c.toNat := by
        refine if_pos ⟨hcontrol, ?_⟩
        simp only [List.mem_cons, List.not_mem_nil, or_false, not_or]
        exact ⟨hback, hfeed, hnewline, hreturn, htab⟩
      have hunit : hexUnit? (some '0') (some '0') (some (hexDigit (c.toNat / 16)))
          (some (hexDigit (c.toNat % 16))) = some c.toNat := by
        have hzero : hexValue? (some '0') = some 0 := by decide
        simp only [hexUnit?, hzero, hexValue?_hexDigit (show c.toNat / 16 < 16 by omega),
          hexValue?_hexDigit (Nat.mod_lt c.toNat (by decide : 0 < 16)), Option.bind_eq_bind,
          Option.bind_some, Option.pure_def, Option.some.injEq]
        omega
      simp only [List.map_cons, List.map_nil, List.cons_append, List.nil_append, readPieces, hunit,
        hpiece]
      cases readPieces s <;> rfl
    · rename_i hcontrol
      have hpiece : pieceOf c = .char c := if_neg fun h => hcontrol h.1
      rw [hpiece]
      exact readPieces_plain hquote hslash hcontrol s
  all_goals exact readPieces_short rfl s

theorem readPieces_literal (cs : List Char) (rest : List Glyph) :
    readPieces ((cs.flatMap escaped).map some ++ some '"' :: rest) =
      some (cs.map pieceOf, rest) := by
  induction cs with
  | nil => rfl
  | cons c cs ih =>
    rw [List.flatMap_cons, List.map_append, List.append_assoc, readPieces_escaped, ih]
    rfl

theorem joinPieces_unit {n : Nat} (h : n < 0xD800) (ps : List Piece) :
    joinPieces (.unit n :: ps) = (joinPieces ps).map (Char.ofNat n :: ·) := by
  -- a unit that is no surrogate is a character, whatever comes next
  have hhigh : isHighSurrogate n = false := by
    simp only [isHighSurrogate, Bool.and_eq_false_iff, decide_eq_false_iff_not]
    omega
  have hlow : isLowSurrogate n = false := by
    simp only [isLowSurrogate, Bool.and_eq_false_iff, decide_eq_false_iff_not]
    omega
  rw [joinPieces.eq_def]
  split
  · rename_i heq; cases heq
  · rename_i heq; cases heq
  · rename_i heq; cases heq
  · rename_i heq
    cases heq
    simp only [hhigh, hlow, Bool.false_and, Bool.or_false, Bool.false_eq_true, if_false]
  · rename_i heq
    cases heq
    simp only [hhigh, hlow, Bool.or_false, Bool.false_eq_true, if_false]

theorem joinPieces_pieceOf (cs : List Char) : joinPieces (cs.map pieceOf) = some cs := by
  induction cs with
  | nil => rfl
  | cons c cs ih =>
    rw [List.map_cons, pieceOf]
    split
    · rename_i h
      rw [joinPieces_unit (Nat.lt_trans h.1 (by decide)), ih, Char.ofNat_toNat]
      rfl
    · rw [joinPieces, ih]
      rfl

/-- A text is read back from its literal, up to the closing quote. -/
theorem readLiteral_writeLiteral (s : String) (rest : List Glyph) :
    readLiteral ((s.toList.flatMap escaped).map some ++ some '"' :: rest) =
      some (some s, rest) := by
  rw [readLiteral, readPieces_literal]
  simp only [Option.bind_eq_bind, Option.bind_some, joinPieces_pieceOf, Option.map_some,
    String.ofList_toList, Option.pure_def]

/-! ## Binary numbers -/

/-- The number is the same when its text is read again. -/
def ReadsBack (x : Binary64) : Prop :=
  Decoder.runString Decoder.real (Value.real x).write = some x

instance (x : Binary64) : Decidable (ReadsBack x) := inferInstanceAs (Decidable (_ = _))

theorem not_mem_layout {c : Char} (h : digitValue? c = none) (hc : c ∉ ['-', '+', '.', 'e'])
    (l : Layout) (d : Nat) (p : Int) : c ∉ l.render d p := by
  have hd : c ∉ natDigits d := not_mem_natDigits h
  have hzero : c ≠ '0' := by
    rintro rfl
    cases h
  simp only [List.mem_cons, List.not_mem_nil, or_false, not_or] at hc
  obtain ⟨hminus, hplus, hpoint, he⟩ := hc
  have htake : ∀ k, c ∉ (natDigits d).take k := fun k hmem => hd (List.mem_of_mem_take hmem)
  have hdrop : ∀ k, c ∉ (natDigits d).drop k := fun k hmem => hd (List.mem_of_mem_drop hmem)
  have hzeros : ∀ k, c ∉ List.replicate k '0' :=
    fun k hmem => hzero (List.eq_of_mem_replicate hmem)
  have hsign : ∀ q : Prop, [Decidable q] → c ≠ if q then '-' else '+' := by
    intro q _
    split
    · exact hminus
    · exact hplus
  have hlead : ∀ k : Nat, c ∉ natDigits k := fun k => not_mem_natDigits h
  -- each layout is made of digits, zeros, a point, a letter and a sign
  simp only [Layout.render]
  split
  · split
    · simp [hd, hzeros, hpoint, hzero]
    · split
      · simp [htake, hdrop, hpoint]
      · simp [hzero, hpoint, hzeros, hd]
  · split
    · simp [htake, he, hsign, hlead]
    · have htail : c ∉ (natDigits d).tail := fun hmem => hd (List.mem_of_mem_tail hmem)
      simp [htake, htail, hpoint, he, hsign, hlead]

/-- The text of a number has no blanks. -/
theorem not_mem_render {c : Char} (h : digitValue? c = none) (hc : c ∉ ['-', '+', '.', 'e'])
    (x : Binary64) : c ∉ render x := by
  have hbody : c ∉ (if x.isZero then ['0', '.', '0'] else
      Layout.standard.render (shortest x).1 (shortest x).2) := by
    split
    · have hzero : c ≠ '0' := by
        rintro rfl
        cases h
      simp only [List.mem_cons, List.not_mem_nil, or_false, not_or] at hc ⊢
      exact ⟨hzero, hc.2.2.1, hzero⟩
    · exact not_mem_layout h hc _ _ _
  simp only [List.mem_cons, List.not_mem_nil, or_false, not_or] at hc
  unfold render
  dsimp only
  split
  · rw [List.mem_cons, not_or]
    exact ⟨hc.1, hbody⟩
  · exact hbody

theorem isSpace_render (x : Binary64) : ∀ g ∈ (render x).map some, isSpace g = false := by
  intro g hg
  obtain ⟨c, hc, rfl⟩ := List.mem_map.mp hg
  have hblank : ∀ b ∈ [' ', '\n', '\t', '\r'], c ≠ b := by
    rintro b hb rfl
    simp only [List.mem_cons, List.not_mem_nil, or_false] at hb
    rcases hb with rfl | rfl | rfl | rfl
    all_goals exact not_mem_render (by decide) (by decide) x hc
  simp [isSpace, hblank]

theorem readNumeral_of_readTree {fuel : Nat} {s r : List Glyph} {n : Numeral}
    (h : readTree (fuel + 1) s = some (.number n, r)) :
    readNumeral (skipSpace s) = some (n, r) := by
  rw [readTree] at h
  -- only the last of the cases gives a number
  split at h
  case h_7 =>
    obtain ⟨⟨n', r'⟩, hread, h⟩ := Option.bind_eq_some_iff.mp h
    cases h
    exact hread
  case h_2 | h_3 =>
    split at h
    · cases h
    · obtain ⟨_, -, h⟩ := Option.bind_eq_some_iff.mp h
      cases h
  all_goals
    obtain ⟨_, -, h⟩ := Option.bind_eq_some_iff.mp h
    cases h

theorem real_eq_some {d : Nat} {t : Tree} {x : Binary64} (h : Decoder.real d t = some x) :
    ∃ n, t = .number n ∧ n.value?.map Number.toBinary64 = some x := by
  cases t with
  | number n => exact ⟨n, rfl, h⟩
  | _ => cases h

/-- The text of a number that reads back is a numeral of its value. -/
theorem ReadsBack.readNumeral {x : Binary64} (h : ReadsBack x) :
    ∃ n, Json.readNumeral ((render x).map some) = some (n, []) ∧
      n.value?.map Number.toBinary64 = some x := by
  obtain ⟨t, ht, hreal⟩ := Option.bind_eq_some_iff.mp h
  obtain ⟨n, rfl, hvalue⟩ := real_eq_some hreal
  have hglyphs : glyphsOf (Value.real x).write = (render x).map some := by
    rw [glyphsOf, Value.write, String.toList_ofList, Value.chars]
  rw [hglyphs] at ht
  unfold Tree.read? at ht
  split at ht
  · rename_i t' r hread
    split at ht
    · rename_i hend
      cases ht
      -- the text has no blanks, neither in front nor behind
      have hskip : ∀ s : List Glyph, (∀ g ∈ s, isSpace g = false) → skipSpace s = s := by
        intro s hs
        cases s with
        | nil => rfl
        | cons g s => exact List.dropWhile_cons_of_neg (by simp [hs g])
      have hnumeral := readNumeral_of_readTree hread
      rw [hskip _ (isSpace_render x)] at hnumeral
      obtain ⟨p, hp⟩ := (scans_readNumeral _ _ _ hnumeral).1
      have hrest : r = [] := by
        rw [← hend, hskip r]
        exact fun g hg => isSpace_render x g (hp ▸ List.mem_append_right p hg)
      exact ⟨n, hrest ▸ hnumeral, hvalue⟩
    · cases ht
  · cases ht

/-! ## Values -/

/-- The numeral that a text is. -/
def numeralOf (s : List Char) : Numeral :=
  ((readNumeral (s.map some)).map Prod.fst).getD ⟨false, [], [], none⟩

mutual

/-- The document that the text of a value is. -/
def Value.tree : Value → Tree
  | .null => .null
  | .bool b => .bool b
  | .whole n => .number (numeralOf (intDigits n))
  | .real x => .number (numeralOf (render x))
  | .text s => .text (some s)
  | .array vs => .array (Value.trees vs)
  | .object ms => .object (Value.memberTrees ms)

def Value.trees : List Value → List Tree
  | [] => []
  | v :: vs => v.tree :: Value.trees vs

def Value.memberTrees : List (String × Value) → List (Option String × Tree)
  | [] => []
  | (k, v) :: ms => (some k, v.tree) :: Value.memberTrees ms

end

mutual

/-- The numbers in a value are words, or binary numbers that read back. -/
def Value.Exact : Value → Prop
  | .whole n => -(twoTo 63 : Int) ≤ n ∧ n < twoTo 64
  | .real x => ReadsBack x
  | .array vs => Value.AllExact vs
  | .object ms => Value.MembersExact ms
  | .null | .bool _ | .text _ => True

def Value.AllExact : List Value → Prop
  | [] => True
  | v :: vs => v.Exact ∧ Value.AllExact vs

def Value.MembersExact : List (String × Value) → Prop
  | [] => True
  | (_, v) :: ms => v.Exact ∧ Value.MembersExact ms

end

theorem numeralOf_eq {s : List Char} {n : Numeral} (h : readNumeral (s.map some) = some (n, [])) :
    numeralOf s = n := by
  rw [numeralOf, h]
  rfl

theorem endsWhole_bracket : EndsWhole ']' := ⟨by decide, by decide, by decide, by decide⟩

theorem endsWhole_brace : EndsWhole '\x7d' := ⟨by decide, by decide, by decide, by decide⟩

/-- A number has the numeral of its text. -/
theorem exists_number {v : Value} (hv : v.Exact) (h : (∃ n, v = .whole n) ∨ ∃ x, v = .real x) :
    ∃ n, readNumeral (v.chars.map some) = some (n, []) ∧ v.tree = .number n := by
  rcases h with ⟨n, rfl⟩ | ⟨x, rfl⟩
  · rw [Value.Exact] at hv
    obtain ⟨m, hm, -⟩ := readNumeral_intDigits hv.1 hv.2
    rw [Value.chars, Value.tree]
    exact ⟨m, hm, by rw [numeralOf_eq hm]⟩
  · rw [Value.Exact] at hv
    obtain ⟨m, hm, -⟩ := hv.readNumeral
    rw [Value.chars, Value.tree]
    exact ⟨m, hm, by rw [numeralOf_eq hm]⟩

/-- No text of a value begins with a blank, or with the end of an array. -/
theorem exists_head_chars {v : Value} (hv : v.Exact) :
    ∃ d s, v.chars = d :: s ∧ isSpace (some d) = false ∧ d ≠ ']' := by
  have hnumber : (∃ n, v = .whole n) ∨ (∃ x, v = .real x) →
      ∃ d s, v.chars = d :: s ∧ isSpace (some d) = false ∧ d ≠ ']' := by
    intro h
    obtain ⟨n, hn, -⟩ := exists_number hv h
    obtain ⟨d, s, hs, hd⟩ := head_of_readNumeral hn
    cases hchars : v.chars with
    | nil =>
      rw [hchars] at hs
      cases hs
    | cons d' s' =>
      rw [hchars, List.map_cons] at hs
      cases hs
      have hne := hd.not_mem
      simp only [List.mem_cons, List.not_mem_nil, or_false, not_or] at hne
      exact ⟨d, s', rfl, by simp [isSpace, hne], hne.2.2.2.2.1⟩
  cases v with
  | whole n => exact hnumber (.inl ⟨n, rfl⟩)
  | real x => exact hnumber (.inr ⟨x, rfl⟩)
  | null => exact ⟨'n', _, by rw [Value.chars], rfl, by decide⟩
  | text s => exact ⟨'"', _, by rw [Value.chars]; rfl, rfl, by decide⟩
  | array vs => exact ⟨'[', _, by rw [Value.chars]; rfl, rfl, by decide⟩
  | object ms => exact ⟨'\x7b', _, by rw [Value.chars]; rfl, rfl, by decide⟩
  | bool b =>
    cases b
    · exact ⟨'f', _, by rw [Value.chars], rfl, by decide⟩
    · exact ⟨'t', _, by rw [Value.chars], rfl, by decide⟩

/-! ## Reading documents -/

theorem skipSpace_cons {d : Char} (hd : isSpace (some d) = false) (s : List Glyph) :
    skipSpace (some d :: s) = some d :: s := List.dropWhile_cons_of_neg (by simp [hd])

theorem readTree_array {d : Char} (hd : isSpace (some d) = false) (hend : d ≠ ']') (fuel : Nat)
    (s : List Glyph) :
    readTree (fuel + 1) (some '[' :: some d :: s) =
      (readItems fuel (some d :: s)).map fun (ts, rest) => (.array ts, rest) := by
  have hopen : skipSpace (some '[' :: some d :: s) = some '[' :: some d :: s := rfl
  rw [readTree, hopen]
  simp only [skipSpace_cons hd]
  -- the array is not empty, for its end does not come next
  split
  · rename_i heq
    cases heq
    exact absurd rfl hend
  · cases readItems fuel (some d :: s) <;> rfl

theorem readTree_object (fuel : Nat) (s : List Glyph) :
    readTree (fuel + 1) (some '\x7b' :: some '"' :: s) =
      (readMembers fuel (some '"' :: s)).map fun (ms, rest) => (.object ms, rest) := by
  have hopen : skipSpace (some '\x7b' :: some '"' :: s) = some '\x7b' :: some '"' :: s := rfl
  have hquote : skipSpace (some '"' :: s) = some '"' :: s := rfl
  rw [readTree, hopen]
  simp only [hquote]
  split
  · rename_i heq
    cases heq
  · cases readMembers fuel (some '"' :: s) <;> rfl

theorem exists_head_items {v : Value} (hv : v.Exact) (vs : List Value) :
    ∃ d s, Value.charsOfItems (v :: vs) = d :: s ∧ isSpace (some d) = false ∧ d ≠ ']' := by
  obtain ⟨d, s, hs, hd⟩ := exists_head_chars hv
  cases vs with
  | nil => exact ⟨d, s, by rw [Value.charsOfItems, hs], hd⟩
  | cons w vs => exact ⟨d, s ++ ',' :: Value.charsOfItems (w :: vs), by
      rw [Value.charsOfItems, hs, List.cons_append], hd⟩

theorem exists_head_members (k : String) (v : Value) (ms : List (String × Value)) :
    ∃ s, Value.charsOfMembers ((k, v) :: ms) = '"' :: s := by
  cases ms with
  | nil => exact ⟨_, by rw [Value.charsOfMembers, writeLiteral, List.cons_append]; rfl⟩
  | cons m ms => exact ⟨_, by rw [Value.charsOfMembers, writeLiteral]; rfl⟩

theorem readTree_literal (s : String) (fuel : Nat) (rest : List Glyph) :
    readTree (fuel + 1) ((writeLiteral s).map some ++ rest) = some (.text (some s), rest) := by
  have hchars : (writeLiteral s).map some ++ rest =
      some '"' :: ((s.toList.flatMap escaped).map some ++ some '"' :: rest) := by
    simp [writeLiteral]
  have hquote : ∀ s : List Glyph, skipSpace (some '"' :: s) = some '"' :: s := fun _ => rfl
  rw [hchars, readTree, hquote]
  simp only [readLiteral_writeLiteral, Option.bind_eq_bind, Option.bind_some, Option.pure_def]

/-- An array is read when its items are. -/
theorem readTree_items {v : Value} (hv : v.Exact) {vs : List Value} {fuel : Nat}
    {rest : List Glyph}
    (h : readItems fuel ((Value.charsOfItems (v :: vs)).map some ++ some ']' :: rest) =
      some (Value.trees (v :: vs), rest)) :
    readTree (fuel + 1) ((Value.array (v :: vs)).chars.map some ++ rest) =
      some ((Value.array (v :: vs)).tree, rest) := by
  obtain ⟨d, s, hs, hspace, hend⟩ := exists_head_items hv vs
  rw [hs, List.map_cons, List.cons_append] at h
  have hchars : (Value.array (v :: vs)).chars.map some ++ rest =
      some '[' :: some d :: (s.map some ++ some ']' :: rest) := by
    rw [Value.chars, hs]
    simp
  rw [hchars, readTree_array hspace hend, h, Value.tree]
  rfl

/-- An object is read when its members are. -/
theorem readTree_members {k : String} {v : Value} {ms : List (String × Value)} {fuel : Nat}
    {rest : List Glyph}
    (h : readMembers fuel ((Value.charsOfMembers ((k, v) :: ms)).map some ++ some '\x7d' :: rest) =
      some (Value.memberTrees ((k, v) :: ms), rest)) :
    readTree (fuel + 1) ((Value.object ((k, v) :: ms)).chars.map some ++ rest) =
      some ((Value.object ((k, v) :: ms)).tree, rest) := by
  obtain ⟨s, hs⟩ := exists_head_members k v ms
  rw [hs, List.map_cons, List.cons_append] at h
  have hchars : (Value.object ((k, v) :: ms)).chars.map some ++ rest =
      some '\x7b' :: some '"' :: (s.map some ++ some '\x7d' :: rest) := by
    rw [Value.chars, hs]
    simp
  rw [hchars, readTree_object, h, Value.tree]
  rfl

/-- A key is read with the value after it, and what comes next. -/
theorem readMembers_key (k : String) (fuel : Nat) (s : List Glyph) :
    readMembers (fuel + 1) ((writeLiteral k).map some ++ some ':' :: s) = (do
      let (t, rest) ← readTree fuel s
      match skipSpace rest with
      | some ',' :: rest =>
        let (ms, rest) ← readMembers fuel rest
        return ((some k, t) :: ms, rest)
      | some '\x7d' :: rest => return ([(some k, t)], rest)
      | _ => none) := by
  have hchars : (writeLiteral k).map some ++ some ':' :: s =
      some '"' :: ((k.toList.flatMap escaped).map some ++ some '"' :: some ':' :: s) := by
    simp [writeLiteral]
  rw [hchars, readMembers]
  show (readLiteral _ >>= _) = _
  rw [readLiteral_writeLiteral]
  rfl

mutual

-- Every value takes one of the fuel, and another one as an item or a member. Each character is a
-- part of some value or stands beside one, so twice the length of the text is enough.

/-- The text of a value is read as its document, up to a character that cannot go on with a
number. -/
theorem readTree_chars (v : Value) (hv : v.Exact) {c : Char} (hc : EndsWhole c) {fuel : Nat}
    (hfuel : 2 * v.chars.length ≤ fuel) (rest : List Glyph) :
    readTree fuel (v.chars.map some ++ some c :: rest) = some (v.tree, some c :: rest) := by
  obtain ⟨d, s, hhead, -⟩ := exists_head_chars hv
  -- no text is empty, so there is fuel for the value itself
  obtain ⟨fuel, rfl⟩ : ∃ k, fuel = k + 1 := by
    rw [hhead, List.length_cons] at hfuel
    exact ⟨fuel - 1, by omega⟩
  have hnumber : (∃ n, v = .whole n) ∨ (∃ x, v = .real x) →
      readTree (fuel + 1) (v.chars.map some ++ some c :: rest) = some (v.tree, some c :: rest) := by
    intro h
    obtain ⟨n, hn, htree⟩ := exists_number hv h
    rw [htree, readTree_numeral hn hc]
  match v with
  | .whole n => exact hnumber (.inl ⟨n, rfl⟩)
  | .real x => exact hnumber (.inr ⟨x, rfl⟩)
  | .null | .bool true | .bool false =>
    rw [Value.chars, Value.tree]
    rfl
  | .text s =>
    rw [Value.chars, Value.tree]
    exact readTree_literal s fuel _
  | .array [] | .object [] =>
    rw [Value.chars, Value.tree]
    rfl
  | .array (v :: vs) =>
    rw [Value.Exact] at hv
    refine readTree_items hv.1 (readItems_chars v vs hv ?_ _)
    rw [Value.chars] at hfuel
    simp only [List.length_cons, List.length_append, List.length_nil] at hfuel
    omega
  | .object ((k, v) :: ms) =>
    rw [Value.Exact] at hv
    refine readTree_members (readMembers_chars k v ms hv ?_ _)
    rw [Value.chars] at hfuel
    simp only [List.length_cons, List.length_append, List.length_nil] at hfuel
    omega
termination_by fuel

theorem readItems_chars (v : Value) (vs : List Value) (hvs : Value.AllExact (v :: vs)) {fuel : Nat}
    (hfuel : 2 * (Value.charsOfItems (v :: vs)).length + 1 ≤ fuel) (rest : List Glyph) :
    readItems fuel ((Value.charsOfItems (v :: vs)).map some ++ some ']' :: rest) =
      some (Value.trees (v :: vs), rest) := by
  obtain ⟨fuel, rfl⟩ : ∃ k, fuel = k + 1 := ⟨fuel - 1, by omega⟩
  match vs with
  | [] =>
    rw [Value.charsOfItems] at hfuel ⊢
    have hv := readTree_chars v hvs.1 endsWhole_bracket (Nat.le_of_succ_le_succ hfuel) rest
    have hend : skipSpace (some ']' :: rest) = some ']' :: rest := rfl
    rw [readItems]
    simp only [hv, hend, Option.bind_eq_bind, Option.bind_some, Option.pure_def, Value.trees]
  | w :: vs =>
    rw [Value.charsOfItems] at hfuel ⊢
    simp only [List.length_append, List.length_cons] at hfuel
    have hlength : 2 * v.chars.length ≤ fuel := by omega
    have hrest : 2 * (Value.charsOfItems (w :: vs)).length + 1 ≤ fuel := by omega
    have hv := readTree_chars v hvs.1 endsWhole_comma hlength
      ((Value.charsOfItems (w :: vs)).map some ++ some ']' :: rest)
    have hvs := readItems_chars w vs hvs.2 hrest rest
    have hcomma : ∀ s : List Glyph, skipSpace (some ',' :: s) = some ',' :: s := fun _ => rfl
    rw [List.map_append, List.append_assoc, readItems]
    simp only [List.map_cons, List.cons_append, hv, hcomma, hvs, Option.bind_eq_bind,
      Option.bind_some, Option.pure_def, Value.trees]
termination_by fuel

theorem readMembers_chars (k : String) (v : Value) (ms : List (String × Value))
    (hms : Value.MembersExact ((k, v) :: ms)) {fuel : Nat}
    (hfuel : 2 * (Value.charsOfMembers ((k, v) :: ms)).length + 1 ≤ fuel) (rest : List Glyph) :
    readMembers fuel ((Value.charsOfMembers ((k, v) :: ms)).map some ++ some '\x7d' :: rest) =
      some (Value.memberTrees ((k, v) :: ms), rest) := by
  obtain ⟨fuel, rfl⟩ : ∃ k, fuel = k + 1 := ⟨fuel - 1, by omega⟩
  match ms with
  | [] =>
    rw [Value.charsOfMembers] at hfuel ⊢
    simp only [List.length_append, List.length_cons] at hfuel
    have hlength : 2 * v.chars.length ≤ fuel := by omega
    have hv := readTree_chars v hms.1 endsWhole_brace hlength rest
    have hend : skipSpace (some '\x7d' :: rest) = some '\x7d' :: rest := rfl
    rw [List.map_append, List.append_assoc, List.map_cons, List.cons_append, readMembers_key]
    simp only [hv, hend, Option.bind_eq_bind, Option.bind_some, Option.pure_def,
      Value.memberTrees]
  | (k', v') :: ms =>
    rw [Value.charsOfMembers] at hfuel ⊢
    simp only [List.length_append, List.length_cons] at hfuel
    have hlength : 2 * v.chars.length ≤ fuel := by omega
    have hrest : 2 * (Value.charsOfMembers ((k', v') :: ms)).length + 1 ≤ fuel := by omega
    have hv := readTree_chars v hms.1 endsWhole_comma hlength
      ((Value.charsOfMembers ((k', v') :: ms)).map some ++ some '\x7d' :: rest)
    have hms := readMembers_chars k' v' ms hms.2 hrest rest
    have hcomma : ∀ s : List Glyph, skipSpace (some ',' :: s) = some ',' :: s := fun _ => rfl
    simp only [List.map_append, List.append_assoc, List.map_cons, List.cons_append]
    rw [readMembers_key]
    simp only [hv, hcomma, hms, Option.bind_eq_bind, Option.bind_some, Option.pure_def,
      Value.memberTrees]
termination_by fuel

end

/-- The text of an object is its document. -/
theorem ofString?_write {k : String} {v : Value} {ms : List (String × Value)}
    (h : Value.MembersExact ((k, v) :: ms)) :
    Tree.ofString? (Value.object ((k, v) :: ms)).write =
      some (Value.object ((k, v) :: ms)).tree := by
  have hglyphs : glyphsOf (Value.object ((k, v) :: ms)).write =
      (Value.object ((k, v) :: ms)).chars.map some ++ [] := by
    rw [glyphsOf, Value.write, String.toList_ofList, List.append_nil]
  have hlength : 2 * (Value.charsOfMembers ((k, v) :: ms)).length + 1 ≤
      2 * (glyphsOf (Value.object ((k, v) :: ms)).write).length + 1 := by
    rw [hglyphs, Value.chars]
    simp only [List.append_nil, List.length_map, List.length_cons, List.length_append]
    omega
  have hread := readTree_members (readMembers_chars k v ms h hlength [])
  rw [← hglyphs] at hread
  rw [Tree.ofString?, Tree.read?, hread]
  rfl

end Harvest.Json
