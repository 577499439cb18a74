import Harvest.Json.Value
import Harvest.Power

/-! # Decoding records

A decoder turns a document into a value of some type. It is told how many levels it may still
open, so that a document nested too deeply is refused wherever it is read and not where it is
passed over.

A record is written as an object, in any order and with unknown members passed over, or as an
array of its fields in order. A known key may not be repeated. A field that may be absent from the
end of an array has a default; a field that may be null may be absent from an object as well.

## Main definitions

* `Decoder`: a function from documents that may fail, bounded in depth.
* `Decoder.record`: decodes the fields of a record through a `Members` view.
* `Decoder.run`: reads and decodes a text.
-/

namespace Harvest.Json

open Harvest.Text Harvest.Decimal

/-- Decodes a document that opens at most the given number of levels. -/
abbrev Decoder (α : Type) := Nat → Tree → Option α

namespace Decoder

variable {α β : Type}

/-! ## Scalars -/

def bool : Decoder Bool
  | _, .bool b => some b
  | _, _ => none

def text : Decoder String
  | _, .text s => s
  | _, _ => none

/-- A whole number within bounds, both included. -/
def whole (low high : Int) : Decoder Int
  | _, .number n =>
    match n.value? with
    | some (.whole k) => if low ≤ k ∧ k ≤ high then some k else none
    | _ => none
  | _, _ => none

/-- A whole number of 64 bits without sign. -/
def uint64 : Decoder UInt64 := fun d t =>
  (whole 0 ((twoTo 64 : Int) - 1) d t).map fun n => UInt64.ofNat n.toNat

/-- A natural number that fits `bits` bits. -/
def natural (bits : Nat) : Decoder Nat := fun d t =>
  (whole 0 ((twoTo bits : Int) - 1) d t).map Int.toNat

/-- A signed number of 64 bits. -/
def int64 : Decoder Int := whole (-(twoTo 63 : Int)) ((twoTo 63 : Int) - 1)

/-- Any number, as a binary one. -/
def real : Decoder Binary64
  | _, .number n => n.value?.map Number.toBinary64
  | _, _ => none

/-- A text that a further reader accepts. -/
def textWith (read : String → Option α) : Decoder α := fun d t => text d t >>= read

/-! ## Composites -/

/-- A value or null. -/
def nullable (decode : Decoder α) : Decoder (Option α)
  | _, .null => some none
  | d, t => (decode d t).map some

/-- A list of values. -/
def list (decode : Decoder α) : Decoder (List α)
  | d + 1, .array items => items.mapM (decode d)
  | _, _ => none

/-- An object as a list of its members, all keys being texts. -/
def members (decode : Decoder α) : Decoder (List (String × α))
  | d + 1, .object ms => ms.mapM fun (k, t) => do return (← k, ← decode d t)
  | _, _ => none

/-- A name among the given ones: its text, or an object with that one key and null. -/
def choice (names : List (String × α)) : Decoder α
  | _, .text (some s) => names.lookup s
  | _ + 1, .object [(some s, .null)] => names.lookup s
  | _, _ => none

end Decoder

/-! ## Records -/

/-- The fields of a record, by name. -/
structure Members where
  /-- The fields are given by position. -/
  positional : Bool
  depth : Nat
  fields : List (String × Tree)

namespace Members

variable {α : Type}

/-- A field that must be present. -/
def required (m : Members) (name : String) (decode : Decoder α) : Option α :=
  m.fields.lookup name >>= decode m.depth

/-- A field that has a value when it is absent. -/
def orElse (m : Members) (name : String) (decode : Decoder α) (absent : α) : Option α :=
  match m.fields.lookup name with
  | some t => decode m.depth t
  | none => some absent

/-- A field that may be null, and may be absent from an object. -/
def optional (m : Members) (name : String) (decode : Decoder α) : Option (Option α) :=
  match m.fields.lookup name with
  | some t => Decoder.nullable decode m.depth t
  | none => if m.positional then none else some none

end Members

namespace Decoder

variable {α : Type}

/-- The known fields of an object: all keys are texts and no known key is repeated. -/
def knownFields (names : List String) (ms : List (Option String × Tree)) :
    Option (List (String × Tree)) := do
  let named ← ms.mapM fun (k, t) => k.map fun k => (k, t)
  let known := named.filter fun m => names.contains m.1
  if (known.map Prod.fst).Nodup then some known else none

/-- A record with the given fields. -/
def record (names : List String) (build : Members → Option α) : Decoder α
  | d + 1, .object ms => do
    let fields ← knownFields names ms
    build { positional := false, depth := d, fields }
  | d + 1, .array items =>
    if items.length ≤ names.length then
      build { positional := true, depth := d, fields := names.zip items }
    else none
  | _, _ => none

/-- Reads and decodes a text. -/
def run (decode : Decoder α) (s : List Glyph) : Option α :=
  Tree.read? s >>= decode maxDepth

/-- Reads and decodes a well-formed text. -/
def runString (decode : Decoder α) (s : String) : Option α :=
  run decode (glyphsOf s)

end Decoder

end Harvest.Json
