import Harvest.Json.Decoder
import Harvest.Json.Encoder
import Harvest.Text.Blank
import Harvest.Text.Quoted

/-! # Work items

A work item names one killmail to fetch: its id and the hash that the source demands with it. Its
text is `id:hash`.

## Main definitions

* `WorkItem`, `WorkItem.text`: an item and its text.
* `WorkItem.parse`: reads the text, blanks around either part passed over.
-/

namespace Harvest

open Harvest.Text Harvest.Json

/-- One killmail to fetch. -/
structure WorkItem where
  id : UInt64
  hash : String
deriving DecidableEq, Inhabited

namespace WorkItem

/-- Why a text is no work item. -/
inductive ParseError where
  /-- There is no colon, or nothing after it. -/
  | format (text : String)
  /-- The part before the colon is no id. -/
  | id (text : String)
deriving DecidableEq

def ParseError.message : ParseError → String
  | .format s => "expected <id>:<hash>, got " ++ quoted s
  | .id s => "invalid killmail id: " ++ quoted s

/-- The text `id:hash`, as characters. -/
def chars (w : WorkItem) : List Char := natDigits w.id.toNat ++ ':' :: w.hash.toList

/-- The text `id:hash`. -/
def text (w : WorkItem) : String := String.ofList w.chars

/-- The parts before and after the first colon. -/
def splitAtColon (s : List Char) : Option (List Char × List Char) :=
  match s.dropWhile (· ≠ ':') with
  | _ :: hash => some (s.takeWhile (· ≠ ':'), hash)
  | [] => none

/-- Reads the text of a work item. -/
def parseChars (s : List Char) : Except ParseError WorkItem :=
  match splitAtColon s with
  | none => .error (.format (String.ofList s))
  | some (_, []) => .error (.format (String.ofList s))
  | some (id, hash) =>
    match readUInt64? (trim id) with
    | some id => .ok { id, hash := String.ofList (trim hash) }
    | none => .error (.id (String.ofList id))

/-- Reads the text of a work item. -/
def parse (s : String) : Except ParseError WorkItem := parseChars s.toList

/-! ## Stored form -/

def toValue (w : WorkItem) : Value :=
  .object [("id", .ofUInt64 w.id), ("hash", .text w.hash)]

def decode : Decoder WorkItem :=
  Decoder.record ["id", "hash"] fun m => do
    return { id := ← m.required "id" Decoder.uint64, hash := ← m.required "hash" Decoder.text }

end WorkItem

end Harvest
