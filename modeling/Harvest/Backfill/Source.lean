import Harvest.Calendar.DayKey
import Harvest.Json.Decoder
import Harvest.Killmail.WorkItem

/-! # The source of daily listings

A second source knows for each day how many killmails there were, and lists their ids and hashes.
Both documents are objects: from day keys to counts, and from ids to hashes.

## Main definitions

* `SourceError`: what can go wrong, and whether another attempt may succeed.
* `Totals.ofEntries`: the counts by day.
* `listing`: the work items of a day, by id.
-/

namespace Harvest.Backfill

open Harvest.Calendar Harvest.Json Harvest.Text

/-! ## Errors -/

/-- What can go wrong with the source of listings. -/
inductive SourceError where
  | status (code : Nat) (url : String)
  | emptyBody (url : String)
  | transport (cause : String)
  | decode (cause : String)
  | build (cause : String)
deriving DecidableEq

namespace SourceError

/-- The name of the kind of error. -/
def kind : SourceError → String
  | .status _ _ => "Status"
  | .emptyBody _ => "EmptyBody"
  | .transport _ => "Transport"
  | .decode _ => "Decode"
  | .build _ => "Build"

def message : SourceError → String
  | .status code url => url ++ " returned status " ++ showNat code
  | .emptyBody url => url ++ " returned an empty body"
  | .transport cause => "Transport error: " ++ cause
  | .decode cause => "Response could not be decoded: " ++ cause
  | .build cause => "Client construction failed: " ++ cause

/-- Whether another attempt may succeed. Of statuses only those of the server and 429 change. -/
def isRetryable : SourceError → Bool
  | .status code _ => decide (500 ≤ code) || code == 429
  | .emptyBody _ | .transport _ | .decode _ => true
  | .build _ => false

end SourceError

/-! ## Counts by day -/

/-- The number of killmails of each day, sorted by day. -/
structure Totals where
  days : List (Date × Nat)

namespace Totals

def empty : Totals := ⟨[]⟩

/-- Sets the count of a day in a list sorted by day. -/
def put (d : Date) (n : Nat) : List (Date × Nat) → List (Date × Nat)
  | [] => [(d, n)]
  | (e, m) :: rest =>
    if d = e then (d, n) :: rest
    else if d < e then (d, n) :: (e, m) :: rest
    else (e, m) :: put d n rest

/-- The counts of the entries whose key names a day; others are passed over. Of several keys for
one day the last counts. -/
def ofEntries (entries : List (String × UInt64)) : Totals :=
  ⟨entries.foldl (fun acc (key, n) =>
    match Date.ofKey? key with
    | some d => put d n.toNat acc
    | none => acc) []⟩

/-- The count of a day. -/
def day? (t : Totals) (d : Date) : Option Nat := t.days.lookup d

end Totals

/-! ## Listings -/

/-- One entry of a listing. -/
def listed (entry : String × String) : Except SourceError WorkItem :=
  match readUInt64? entry.1.toList with
  | some id => .ok { id, hash := entry.2 }
  | none => .error (.decode ("invalid killmail id " ++ quoted entry.1))

/-- The work items of a day, by id. A key that is no id spoils the listing. -/
def listing (entries : List (String × String)) : Except SourceError (List WorkItem) :=
  match entries.mapM listed with
  | .ok items => .ok (items.mergeSort fun a b => a.id ≤ b.id)
  | .error e => .error e

/-! ## Documents -/

/-- Of several members with one key the last counts; it keeps the place of the first. -/
def lastOfKey {α : Type} (entries : List (String × α)) : List (String × α) :=
  entries.foldl (fun acc (k, v) =>
    if acc.any (·.1 == k) then acc.map fun e => if e.1 == k then (k, v) else e
    else acc ++ [(k, v)]) []

/-- Reads the document of counts. -/
def readTotals (body : List UInt8) : Except SourceError Totals :=
  match (Decoder.members Decoder.uint64).run (glyphs body) with
  | some entries => .ok (Totals.ofEntries (lastOfKey entries))
  | none => .error (.decode "malformed totals")

/-- Reads the document of a day. -/
def readListing (body : List UInt8) : Except SourceError (List WorkItem) :=
  match (Decoder.members Decoder.text).run (glyphs body) with
  | some entries => listing (lastOfKey entries)
  | none => .error (.decode "malformed listing")

end Harvest.Backfill
