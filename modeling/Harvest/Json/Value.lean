import Harvest.Decimal.Shortest
import Harvest.Json.Tree

/-! # JSON values and their text

A value has been decided upon: its numbers are whole numbers or binary ones, its strings are
texts. The text of a value is compact; members are written in the order they have.

## Main definitions

* `Value`: a decided JSON value.
* `Value.write`: the compact text.
* `Tree.toValue?`: the value of a document, with one member for each key, sorted by key.
-/

namespace Harvest.Json

open Harvest.Text Harvest.Decimal

/-- A JSON value. -/
inductive Value where
  | null
  | bool (b : Bool)
  | whole (n : Int)
  | real (x : Binary64)
  | text (s : String)
  | array (items : List Value)
  | object (members : List (String × Value))
deriving Inhabited

/-- How deep arrays and objects may be nested in a document that is kept. -/
def maxDepth : Nat := 127

/-! ## Writing -/

/-- The written form of a character inside a literal. Only quotes, backslashes and control
characters are escaped. -/
def escaped (c : Char) : List Char :=
  match c with
  | '"' => ['\\', '"']
  | '\\' => ['\\', '\\']
  | '\x08' => ['\\', 'b']
  | '\x0c' => ['\\', 'f']
  | '\n' => ['\\', 'n']
  | '\r' => ['\\', 'r']
  | '\t' => ['\\', 't']
  | _ =>
    if c.toNat < 0x20 then
      ['\\', 'u', '0', '0', hexDigit (c.toNat / 16), hexDigit (c.toNat % 16)]
    else [c]

/-- A string literal. -/
def writeLiteral (s : String) : List Char :=
  '"' :: s.toList.flatMap escaped ++ ['"']

mutual

/-- The compact text of a value. -/
def Value.chars : Value → List Char
  | .null => ['n', 'u', 'l', 'l']
  | .bool true => ['t', 'r', 'u', 'e']
  | .bool false => ['f', 'a', 'l', 's', 'e']
  | .whole n => intDigits n
  | .real x => render x
  | .text s => writeLiteral s
  | .array items => '[' :: Value.charsOfItems items ++ [']']
  | .object members => '\x7b' :: Value.charsOfMembers members ++ ['\x7d']

/-- Items with commas between them. -/
def Value.charsOfItems : List Value → List Char
  | [] => []
  | [v] => v.chars
  | v :: w :: vs => v.chars ++ ',' :: Value.charsOfItems (w :: vs)

/-- Members with commas between them. -/
def Value.charsOfMembers : List (String × Value) → List Char
  | [] => []
  | [(k, v)] => writeLiteral k ++ ':' :: v.chars
  | (k, v) :: m :: ms => writeLiteral k ++ ':' :: v.chars ++ ',' :: Value.charsOfMembers (m :: ms)

end

/-- The compact text of a value. -/
def Value.write (v : Value) : String := String.ofList v.chars

/-! ## Free-form documents -/

/-- Sets a member in a list sorted by key; an earlier member of that key is replaced. -/
def putMember (key : String) (v : Value) : List (String × Value) → List (String × Value)
  | [] => [(key, v)]
  | (k, w) :: ms =>
    if key < k then (key, v) :: (k, w) :: ms
    else if key = k then (k, v) :: ms
    else (k, w) :: putMember key v ms

/-- Members sorted by key; of equal keys the last counts. -/
def sortMembers (ms : List (String × Value)) : List (String × Value) :=
  ms.foldl (fun acc m => putMember m.1 m.2 acc) []

/-- The value of a numeral. -/
def Value.ofNumber : Number → Value
  | .whole n => .whole n
  | .real x => .real x

/-- The value of a document that opens at most `depth` levels: every literal must stand for a
text and every numeral for a number. -/
def Tree.toValue? : Nat → Tree → Option Value
  | _, .null => some .null
  | _, .bool b => some (.bool b)
  | _, .number n => n.value?.map Value.ofNumber
  | _, .text s => s.map .text
  | 0, .array _ => none
  | 0, .object _ => none
  | depth + 1, .array items => (items.mapM (Tree.toValue? depth)).map .array
  | depth + 1, .object members => do
    let ms ← members.mapM fun (k, t) => do return (← k, ← Tree.toValue? depth t)
    return .object (sortMembers ms)

/-- Reads a free-form value. -/
def Value.read? (s : List Glyph) : Option Value :=
  Tree.read? s >>= Tree.toValue? maxDepth

/-! ## Access -/

/-- The member of a key. -/
def Value.member? (v : Value) (key : String) : Option Value :=
  match v with
  | .object ms => ms.lookup key
  | _ => none

end Harvest.Json
