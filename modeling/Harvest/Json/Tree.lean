import Harvest.Decimal.Numeral
import Harvest.Text.Utf8

/-! # JSON texts as trees

Reading a JSON text yields a tree that keeps what the text says and decides nothing about it:
members in order with repeated keys, numerals with their digits, and string literals that may
stand for no text at all (an unpaired surrogate, or bytes that are no character). Whoever uses a
part of the tree decides whether it is acceptable; a part that nobody uses needs only to be well
formed.

## Main definitions

* `Tree`: a JSON document as written.
* `Tree.read?`: reads a whole text, with blanks around it.
-/

namespace Harvest.Json

open Harvest.Text Harvest.Decimal

/-- A JSON document as written. A literal is `none` when it stands for no text. -/
inductive Tree where
  | null
  | bool (b : Bool)
  | number (n : Numeral)
  | text (s : Option String)
  | array (items : List Tree)
  | object (members : List (Option String × Tree))
deriving Inhabited

/-! ## Blanks -/

/-- The four blanks that may stand between tokens. -/
def isSpace : Glyph → Bool
  | some c => c == ' ' || c == '\n' || c == '\t' || c == '\r'
  | none => false

def skipSpace (s : List Glyph) : List Glyph := s.dropWhile isSpace

/-! ## String literals -/

/-- A piece of a string literal: a character, a unit of 16 bits given by an escape, or a gap. -/
inductive Piece where
  | char (c : Char)
  | unit (n : Nat)
  | gap
deriving Repr, DecidableEq

def hexValue? (g : Glyph) : Option Nat :=
  match g with
  | none => none
  | some c =>
    if '0' ≤ c ∧ c ≤ '9' then some (c.toNat - '0'.toNat)
    else if 'a' ≤ c ∧ c ≤ 'f' then some (c.toNat - 'a'.toNat + 10)
    else if 'A' ≤ c ∧ c ≤ 'F' then some (c.toNat - 'A'.toNat + 10)
    else none

/-- The unit that four hexadecimal digits spell. -/
def hexUnit? (a b c d : Glyph) : Option Nat := do
  return (((← hexValue? a) * 16 + (← hexValue? b)) * 16 + (← hexValue? c)) * 16 + (← hexValue? d)

/-- The character of a one-letter escape. -/
def shortEscape? : Char → Option Char
  | '"' => some '"'
  | '\\' => some '\\'
  | '/' => some '/'
  | 'b' => some '\x08'
  | 'f' => some '\x0c'
  | 'n' => some '\n'
  | 'r' => some '\r'
  | 't' => some '\t'
  | _ => none

/-- Reads the pieces of a literal up to its closing quote. -/
def readPieces : List Glyph → Option (List Piece × List Glyph)
  | [] => none
  | some '"' :: rest => some ([], rest)
  | some '\\' :: some 'u' :: a :: b :: c :: d :: rest => do
    let n ← hexUnit? a b c d
    let (ps, rest) ← readPieces rest
    return (.unit n :: ps, rest)
  | some '\\' :: some c :: rest => do
    let e ← shortEscape? c
    let (ps, rest) ← readPieces rest
    return (.char e :: ps, rest)
  | some c :: rest =>
    if c == '\\' || c.toNat < 0x20 then none
    else do
      let (ps, rest) ← readPieces rest
      return (.char c :: ps, rest)
  | none :: rest => do
    let (ps, rest) ← readPieces rest
    return (.gap :: ps, rest)

def isHighSurrogate (n : Nat) : Bool := 0xD800 ≤ n && n < 0xDC00

def isLowSurrogate (n : Nat) : Bool := 0xDC00 ≤ n && n < 0xE000

/-- Joins units to characters: a high surrogate with the low one after it. A gap anywhere leaves
no text. -/
def joinPieces : List Piece → Option (List Char)
  | [] => some []
  | .char c :: ps => (joinPieces ps).map (c :: ·)
  | .gap :: _ => none
  | .unit n :: .unit m :: ps =>
    if isHighSurrogate n && isLowSurrogate m then
      (joinPieces ps).map (Char.ofNat (0x10000 + (n - 0xD800) * 1024 + (m - 0xDC00)) :: ·)
    else if isHighSurrogate n || isLowSurrogate n then none
    else (joinPieces (.unit m :: ps)).map (Char.ofNat n :: ·)
  | .unit n :: ps =>
    if isHighSurrogate n || isLowSurrogate n then none
    else (joinPieces ps).map (Char.ofNat n :: ·)

/-- Reads a literal whose opening quote has been passed. -/
def readLiteral (s : List Glyph) : Option (Option String × List Glyph) := do
  let (ps, rest) ← readPieces s
  return ((joinPieces ps).map String.ofList, rest)

/-! ## Numerals -/

/-- The digits in front, and the rest. -/
def spanDigits : List Glyph → List Nat × List Glyph
  | some c :: rest =>
    match digitValue? c with
    | some d =>
      let (ds, rest) := spanDigits rest
      (d :: ds, rest)
    | none => ([], some c :: rest)
  | s => ([], s)

/-- At least one digit. -/
def someDigits? (s : List Glyph) : Option (List Nat × List Glyph) :=
  match spanDigits s with
  | ([], _) => none
  | (ds, rest) => some (ds, rest)

/-- The whole digits: a zero stands alone. -/
def readWhole (s : List Glyph) : Option (List Nat × List Glyph) := do
  let (ds, rest) ← someDigits? s
  if ds.head? = some 0 ∧ 1 < ds.length then none else some (ds, rest)

def readFraction (s : List Glyph) : Option (List Nat × List Glyph) :=
  match s with
  | some '.' :: rest => someDigits? rest
  | _ => some ([], s)

def readExponent (s : List Glyph) : Option (Option (Bool × List Nat) × List Glyph) :=
  let digits (isNegative : Bool) (rest : List Glyph) := do
    let (ds, rest) ← someDigits? rest
    return (some (isNegative, ds), rest)
  let signed (rest : List Glyph) :=
    match rest with
    | some '-' :: rest => digits true rest
    | some '+' :: rest => digits false rest
    | _ => digits false rest
  match s with
  | some 'e' :: rest => signed rest
  | some 'E' :: rest => signed rest
  | _ => some (none, s)

/-- Reads a numeral. -/
def readNumeral (s : List Glyph) : Option (Numeral × List Glyph) := do
  let (negative, s) := match s with
    | some '-' :: rest => (true, rest)
    | _ => (false, s)
  let (whole, s) ← readWhole s
  let (fraction, s) ← readFraction s
  let (exponent, s) ← readExponent s
  return ({ negative, whole, fraction, exponent }, s)

/-! ## Documents -/

/-- Passes over a word that must stand next. -/
def expectWord (word : List Char) (s : List Glyph) : Option (List Glyph) :=
  if s.take word.length = word.map some then some (s.drop word.length) else none

mutual

/-- Reads one value; blanks may stand before it. The fuel bounds the number of values. -/
def readTree : Nat → List Glyph → Option (Tree × List Glyph)
  | 0, _ => none
  | fuel + 1, s =>
    match skipSpace s with
    | some '"' :: rest => do
      let (t, rest) ← readLiteral rest
      return (.text t, rest)
    | some '[' :: rest =>
      match skipSpace rest with
      | some ']' :: rest => some (.array [], rest)
      | rest => do
        let (items, rest) ← readItems fuel rest
        return (.array items, rest)
    | some '\x7b' :: rest =>
      match skipSpace rest with
      | some '\x7d' :: rest => some (.object [], rest)
      | rest => do
        let (members, rest) ← readMembers fuel rest
        return (.object members, rest)
    | some 'n' :: rest => do return (.null, ← expectWord ['u', 'l', 'l'] rest)
    | some 't' :: rest => do return (.bool true, ← expectWord ['r', 'u', 'e'] rest)
    | some 'f' :: rest => do return (.bool false, ← expectWord ['a', 'l', 's', 'e'] rest)
    | rest => do
      let (n, rest) ← readNumeral rest
      return (.number n, rest)

/-- Reads the items of an array up to its end. -/
def readItems : Nat → List Glyph → Option (List Tree × List Glyph)
  | 0, _ => none
  | fuel + 1, s => do
    let (t, rest) ← readTree fuel s
    match skipSpace rest with
    | some ',' :: rest =>
      let (ts, rest) ← readItems fuel rest
      return (t :: ts, rest)
    | some ']' :: rest => return ([t], rest)
    | _ => none

/-- Reads the members of an object up to its end. -/
def readMembers : Nat → List Glyph → Option (List (Option String × Tree) × List Glyph)
  | 0, _ => none
  | fuel + 1, s =>
    match skipSpace s with
    | some '"' :: rest => do
      let (key, rest) ← readLiteral rest
      match skipSpace rest with
      | some ':' :: rest =>
        let (t, rest) ← readTree fuel rest
        match skipSpace rest with
        | some ',' :: rest =>
          let (ms, rest) ← readMembers fuel rest
          return ((key, t) :: ms, rest)
        | some '\x7d' :: rest => return ([(key, t)], rest)
        | _ => none
      | _ => none
    | _ => none

end

/-- Reads a whole text: one value, with nothing but blanks around it. -/
def Tree.read? (s : List Glyph) : Option Tree :=
  match readTree (2 * s.length + 2) s with
  | some (t, rest) => if skipSpace rest = [] then some t else none
  | none => none

/-- Reads a well-formed text. -/
def Tree.ofString? (s : String) : Option Tree := Tree.read? (glyphsOf s)

end Harvest.Json
