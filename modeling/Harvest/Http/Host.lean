import Harvest.Power
import Harvest.Text.Blank
import Harvest.Text.Digits
import Harvest.Text.Utf8

/-! # Hosts of addresses

Which texts may stand as the host of an address: a name without reserved characters, an address of
four numbers, or an address of eight in brackets. A name whose last label is a number must be an
address of numbers.
-/

namespace Harvest.Http

open Harvest.Text

/-! ## Names -/

/-- Characters that no host may contain. -/
def isReserved (c : Char) : Bool :=
  c.toNat == 0
    || ['\t', '\n', '\r', ' ', '#', '/', ':', '<', '>', '?', '@', '[', '\\', ']', '^', '|'].contains c

/-- Characters that no name may contain. -/
def isReservedInName (c : Char) : Bool :=
  isReserved c || c.toNat < 0x20 || c == '%' || c.toNat == 0x7F

def hexDigitValue? (c : Char) : Option Nat :=
  if c.isDigit then digitValue? c
  else if 'a' ≤ c ∧ c ≤ 'f' then some (c.toNat - 'a'.toNat + 10)
  else if 'A' ≤ c ∧ c ≤ 'F' then some (c.toNat - 'A'.toNat + 10)
  else none

/-- Replaces escapes of a percent sign and two hexadecimal digits by the bytes they stand for. -/
def unescape : List UInt8 → List UInt8
  | 0x25 :: a :: b :: rest =>
    match hexDigitValue? (Char.ofNat a.toNat), hexDigitValue? (Char.ofNat b.toNat) with
    | some x, some y => UInt8.ofNat (x * 16 + y) :: unescape rest
    | _, _ => 0x25 :: unescape (a :: b :: rest)
  | b :: rest => b :: unescape rest
  | [] => []

/-! ## Addresses of four numbers -/

/-- A number in base ten, eight after a zero, or sixteen after `0x`. -/
def ipv4Number? (s : List Char) : Option Nat :=
  let read (base : Nat) (ds : List Char) : Option Nat :=
    (ds.mapM fun c => (hexDigitValue? c).filter (· < base)).map fun vs =>
      vs.foldl (fun n d => n * base + d) 0
  match s with
  | [] => none
  | '0' :: 'x' :: ds => read 16 ds
  | '0' :: 'X' :: ds => read 16 ds
  | '0' :: d :: ds => read 8 (d :: ds)
  | _ => read 10 s

/-- The labels of a name; an empty one at the end does not count. -/
def labels (s : List Char) : List (List Char) :=
  let parts := s.splitOn '.'
  if 1 < parts.length ∧ parts.getLast? = some [] then parts.dropLast else parts

/-- Whether the last label of a name is a number. -/
def endsInNumber (s : List Char) : Bool :=
  match (labels s).getLast? with
  | some l => (!l.isEmpty && l.all isDigit) ||
    (match l with
      | '0' :: 'x' :: ds => ds.all fun c => (hexDigitValue? c).isSome
      | '0' :: 'X' :: ds => ds.all fun c => (hexDigitValue? c).isSome
      | _ => false)
  | none => false

/-- Whether a name that ends in a number is an address. -/
def isIpv4 (s : List Char) : Bool :=
  match (labels s).mapM ipv4Number? with
  | none => false
  | some ns =>
    ns.length ≤ 4 && ns.dropLast.all (· ≤ 255)
      && ns.getLast?.all (· < twoTo (8 * (5 - ns.length)))

/-! ## Addresses of eight numbers -/

/-- Whether a piece is a number of at most four hexadecimal digits. -/
def isIpv6Piece (s : List Char) : Bool :=
  !s.isEmpty && s.length ≤ 4 && s.all fun c => (hexDigitValue? c).isSome

/-- Whether the last piece is an address of four numbers from 0 to 255, without leading zeros. -/
def isDottedPiece (s : List Char) : Bool :=
  let parts := s.splitOn '.'
  parts.length == 4 && parts.all fun p =>
    (readNat? p).any (· ≤ 255) && (p.length == 1 || p.head? != some '0')

/-- The number of pieces of 16 bits that a run without a gap stands for. -/
def ipv6Run? (s : List Char) (last : Bool) : Option Nat :=
  if s.isEmpty then some 0
  else
    let parts := s.splitOn ':'
    match parts.getLast? with
    | none => none
    | some p =>
      if !parts.dropLast.all isIpv6Piece then none
      else if isIpv6Piece p then some parts.length
      else if last && isDottedPiece p then some (parts.length + 1)
      else none

/-- The texts before and after the first double colon. -/
def splitGap : List Char → Option (List Char × List Char)
  | ':' :: ':' :: rest => some ([], rest)
  | c :: rest => (splitGap rest).map fun (a, b) => (c :: a, b)
  | [] => none

/-- Whether a text is an address of eight numbers; one run of zeros may be left out. -/
def isIpv6 (s : List Char) : Bool :=
  match splitGap s with
  | none => ipv6Run? s true == some 8
  | some (before, after) =>
    match ipv6Run? before false, ipv6Run? after true with
    | some a, some b => a + b ≤ 7
    | _, _ => false

/-! ## Hosts -/

/-- Whether a text may stand as the host of an address on the web. -/
def isHost (s : List Char) : Bool :=
  match s with
  | [] => false
  | '[' :: rest => rest.getLast? == some ']' && isIpv6 rest.dropLast
  | _ =>
    match ofBytes? (unescape (bytesOf (String.ofList s))) with
    | none => false
    | some name =>
      let cs := name.toList
      !cs.any isReservedInName && (!endsInNumber cs || isIpv4 cs)

/-- Whether a text may stand as the host of an address of another kind. -/
def isOpaqueHost (s : List Char) : Bool :=
  match s with
  | '[' :: rest => rest.getLast? == some ']' && isIpv6 rest.dropLast
  | _ => !s.any isReserved

end Harvest.Http
