import Harvest.Json.Value

/-! # Access to free-form values

A free-form value is looked into without a type of its own: whatever is absent, null or of another
kind takes a default.

## Main definitions

* `Value.get`: the member of a key.
* `Value.int`, `Value.nat`, `Value.str`, `Value.flag`, `Value.list`: the member of a key as a
  number, a text, a truth value or a list.
-/

namespace Harvest.Json.Value

/-! ## Kinds -/

/-- The number, if the value is a whole one. -/
def int? : Value → Option Int
  | .whole n => some n
  | _ => none

/-- The text, if the value is one. -/
def str? : Value → Option String
  | .text s => some s
  | _ => none

/-- The items, if the value is an array. -/
def items : Value → List Value
  | .array vs => vs
  | _ => []

/-- The members, if the value is an object. -/
def entries : Value → List (String × Value)
  | .object ms => ms
  | _ => []

/-- The texts among the items. -/
def strs (v : Value) : List String := v.items.filterMap str?

/-! ## Members -/

/-- The member of a key, or null. -/
def get (v : Value) (key : String) : Value := (v.member? key).getD .null

/-- There is a member of the key, and it is not null. -/
def has (v : Value) (key : String) : Bool :=
  match v.get key with
  | .null => false
  | _ => true

def int (v : Value) (key : String) (absent : Int := 0) : Int := (v.get key).int?.getD absent

def nat? (v : Value) (key : String) : Option Nat := (v.get key).int?.map Int.toNat

def nat (v : Value) (key : String) (absent : Nat := 0) : Nat := (v.nat? key).getD absent

def str (v : Value) (key : String) (absent : String := "") : String :=
  (v.get key).str?.getD absent

def flag (v : Value) (key : String) (absent : Bool := false) : Bool :=
  match v.get key with
  | .bool b => b
  | _ => absent

def word (v : Value) (key : String) : UInt64 := .ofNat (v.nat key)

def list (v : Value) (key : String) : List Value := (v.get key).items

end Harvest.Json.Value
