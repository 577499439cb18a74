import Harvest.Json.Value

/-! # Encoding records

A record is written as an object of its fields in their order. A field without a value is written
as null or left out, as the record says.
-/

namespace Harvest.Json

variable {α : Type}

/-- A word of 64 bits. -/
def Value.ofUInt64 (n : UInt64) : Value := .whole n.toNat

/-- A signed word of 64 bits. -/
def Value.ofInt64 (n : Int64) : Value := .whole n.toInt

/-- A value, or null. -/
def Value.ofOption (encode : α → Value) : Option α → Value
  | some x => encode x
  | none => .null

/-- A list of values. -/
def Value.ofList (encode : α → Value) (xs : List α) : Value := .array (xs.map encode)

/-- A field that is left out when it has no value. -/
def presentMember (name : String) (encode : α → Value) : Option α → List (String × Value)
  | some x => [(name, encode x)]
  | none => []

/-! ## By type -/

/-- Types whose values are written in one way. -/
class Encode (α : Type) where
  /-- The document of a value. -/
  enc : α → Value

namespace Encode

variable {β : Type}

instance : Encode Value := ⟨id⟩

instance : Encode Unit := ⟨fun _ => .null⟩

instance : Encode Nat := ⟨fun n => .whole n⟩

instance : Encode Int := ⟨.whole⟩

instance : Encode UInt64 := ⟨.ofUInt64⟩

instance : Encode Bool := ⟨.bool⟩

instance : Encode String := ⟨.text⟩

instance [Encode α] : Encode (Option α) := ⟨.ofOption enc⟩

instance [Encode α] : Encode (List α) := ⟨.ofList enc⟩

/-- A pair is an array of two. -/
instance [Encode α] [Encode β] : Encode (α × β) := ⟨fun (a, b) => .array [enc a, enc b]⟩

/-- An error stands in place of the value. -/
instance [Encode α] [Encode β] : Encode (Except α β) := ⟨fun
  | .ok x => enc x
  | .error e => enc e⟩

end Encode

end Harvest.Json
