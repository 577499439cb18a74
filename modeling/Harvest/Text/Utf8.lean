/-! # Text from bytes

A body that arrives as bytes need not be well formed. It is read as a list of glyphs: a character
where the bytes encode one, and a gap for each byte that belongs to no character. A reader can
then pass over a gap where the text does not matter and refuse it where it does.
-/

namespace Harvest.Text

/-- A character, or `none` for a byte that is part of no character. -/
abbrev Glyph := Option Char

/-- The payload of a continuation byte. -/
def continuation? (b : UInt8) : Option Nat :=
  if b &&& 0xC0 = 0x80 then some (b &&& 0x3F).toNat else none

/-- The scalar value that a lead byte and its continuation bytes encode: the shortest form only,
and no surrogates. Returns how many continuation bytes were used. -/
def scalar? (lead : UInt8) (rest : List UInt8) : Option (Char × Nat) :=
  let accept (n low used : Nat) : Option (Char × Nat) :=
    if low ≤ n ∧ n.isValidChar then some (Char.ofNat n, used) else none
  let b := lead.toNat
  if b < 0x80 then some (Char.ofNat b, 0)
  else if 0xC0 ≤ b ∧ b < 0xE0 then
    match rest with
    | b₁ :: _ => do
      let x ← continuation? b₁
      accept ((b - 0xC0) * 64 + x) 0x80 1
    | _ => none
  else if 0xE0 ≤ b ∧ b < 0xF0 then
    match rest with
    | b₁ :: b₂ :: _ => do
      let x ← continuation? b₁
      let y ← continuation? b₂
      accept (((b - 0xE0) * 64 + x) * 64 + y) 0x800 2
    | _ => none
  else if 0xF0 ≤ b ∧ b < 0xF8 then
    match rest with
    | b₁ :: b₂ :: b₃ :: _ => do
      let x ← continuation? b₁
      let y ← continuation? b₂
      let z ← continuation? b₃
      accept ((((b - 0xF0) * 64 + x) * 64 + y) * 64 + z) 0x10000 3
    | _ => none
  else none

/-- The glyphs of a list of bytes. A byte that starts no character is a gap of its own, so the
bytes after it are read afresh. -/
def glyphs : List UInt8 → List Glyph
  | [] => []
  | b :: rest =>
    match scalar? b rest with
    | some (c, used) => some c :: glyphs (rest.drop used)
    | none => none :: glyphs rest
termination_by bs => bs.length
decreasing_by
  · simp only [List.length_drop, List.length_cons]
    omega
  · exact Nat.lt_succ_self _

/-- The glyphs of a text that is known to be well formed. -/
def glyphsOf (s : String) : List Glyph :=
  s.toList.map some

/-- The bytes of a text. -/
def bytesOf (s : String) : List UInt8 :=
  s.toUTF8.toList

/-- The text of bytes that are well formed throughout. -/
def ofBytes? (bs : List UInt8) : Option String :=
  ((glyphs bs).mapM id).map String.ofList

end Harvest.Text
