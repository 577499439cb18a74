import Harvest.Calendar.DayKey
import Harvest.Chunks
import Harvest.Killmail.Codec
import Harvest.Total

/-! # Archives of killmails

An archive holds at most one killmail for each id; a second one is refused and changes nothing.
Killmails are counted and found by a range of times, a list of ids, or both.

There are two archives. `MemoryArchive` keeps killmails as they are. `TableArchive` keeps rows: the
id as a signed word, the whole seconds of the time, and the text of the killmail. It compares
whole seconds only, and asks for a long list of ids in several chunks.

## Main definitions

* `Filter`: which killmails are asked for.
* `MemoryArchive`, `TableArchive`: the two archives.
* `Archive`: either of them.
-/

namespace Harvest

open Harvest.Calendar

/-- What can go wrong with an archive. -/
inductive StorageError where
  | backend (cause : String)
  | serialization (cause : String)
deriving DecidableEq

def StorageError.message : StorageError → String
  | .backend cause => "Storage backend error: " ++ cause
  | .serialization cause => "Record serialization failed: " ++ cause

/-! ## Filters -/

/-- Which killmails are asked for; what is not given does not restrict. -/
structure Filter where
  range : Option Range
  ids : Option (List UInt64)
deriving DecidableEq

namespace Filter

def all : Filter := ⟨none, none⟩

def within (r : Range) : Filter := ⟨some r, none⟩

def withIds (ids : List UInt64) : Filter := ⟨none, some ids⟩

/-- Whether a killmail is asked for. -/
def matches_ (f : Filter) (k : Killmail) : Bool :=
  f.range.all (·.contains k.time) && f.ids.all (·.contains k.id)

end Filter

/-- Whether a killmail was stored, or one of its id was there already. -/
inductive Insertion where
  | inserted
  | duplicate
deriving DecidableEq

/-! ## An archive in memory -/

/-- An archive that keeps killmails as they are, the latest first. -/
structure MemoryArchive where
  killmails : List Killmail

namespace MemoryArchive

def empty : MemoryArchive := ⟨[]⟩

def get? (a : MemoryArchive) (id : UInt64) : Option Killmail := a.killmails.find? (·.id = id)

def contains (a : MemoryArchive) (id : UInt64) : Bool := a.killmails.any (·.id = id)

def insert (a : MemoryArchive) (k : Killmail) : MemoryArchive × Insertion :=
  if a.contains k.id then (a, .duplicate) else (⟨k :: a.killmails⟩, .inserted)

def count (a : MemoryArchive) (f : Filter) : Nat := a.killmails.countP f.matches_

/-- The killmails asked for, by id. -/
def find (a : MemoryArchive) (f : Filter) : List Killmail :=
  (a.killmails.filter f.matches_).mergeSort fun x y => x.id ≤ y.id

end MemoryArchive

/-! ## An archive in a table -/

/-- A row: the id as a signed word, whole seconds of the time, and the text of the killmail. -/
structure Row where
  id : Int64
  second : Int
  record : String
deriving DecidableEq

/-- The row under which a killmail is kept. -/
def Killmail.row (k : Killmail) : Row := ⟨k.id.toInt64, k.time.second, k.write⟩

/-- An archive that keeps rows of a table, the latest first. -/
structure TableArchive where
  rows : List Row

/-- The number of ids that are asked for at once. -/
def idChunk : Nat := 500

/-- One question to the table: a range of whole seconds, and ids. -/
structure Query where
  seconds : Option (Int × Int)
  ids : Option (List Int64)

namespace Query

/-- Whether a row answers the question. -/
def selects (q : Query) (r : Row) : Bool :=
  q.seconds.all (fun (a, b) => decide (a ≤ r.second) && decide (r.second ≤ b))
    && q.ids.all (·.contains r.id)

/-- The questions that a filter is put into: one, or one for each chunk of ids. -/
def ofFilter (f : Filter) : List Query :=
  let seconds := f.range.map fun r => (r.start.second, r.stop.second)
  match f.ids with
  | none => [⟨seconds, none⟩]
  | some ids => (chunksOf idChunk ids).map fun c => ⟨seconds, some (c.map UInt64.toInt64)⟩

end Query

namespace TableArchive

def empty : TableArchive := ⟨[]⟩

def contains (a : TableArchive) (id : UInt64) : Bool := a.rows.any (·.id = id.toInt64)

def insert (a : TableArchive) (k : Killmail) : TableArchive × Insertion :=
  if a.contains k.id then (a, .duplicate) else (⟨k.row :: a.rows⟩, .inserted)

/-- The rows that answer a question, by signed id. -/
def select (a : TableArchive) (q : Query) : List Row :=
  (a.rows.filter q.selects).mergeSort fun x y => x.id.toInt ≤ y.id.toInt

def count (a : TableArchive) (f : Filter) : Nat :=
  totalOf (fun q => a.rows.countP q.selects) (Query.ofFilter f)

/-- The killmails asked for, by id. -/
def find (a : TableArchive) (f : Filter) : Except StorageError (List Killmail) :=
  let rows := (Query.ofFilter f).flatMap a.select
  match rows.mapM fun r => Killmail.read? r.record with
  | some ks => .ok (ks.mergeSort fun x y => x.id ≤ y.id)
  | none => .error (.serialization "malformed record")

/-- The first and the last whole second of the stored times. -/
def timeBounds (a : TableArchive) : Option (Instant × Instant) := do
  let seconds := a.rows.map Row.second
  let low ← seconds.min?
  let high ← seconds.max?
  return (← Instant.of? low 0, ← Instant.of? high 0)

end TableArchive

/-! ## Either archive -/

/-- An archive of killmails. -/
inductive Archive where
  | memory (a : MemoryArchive)
  | table (a : TableArchive)

namespace Archive

instance : Inhabited Archive := ⟨.memory .empty⟩

def contains (a : Archive) (id : UInt64) : Bool :=
  match a with
  | .memory a => a.contains id
  | .table a => a.contains id

def insert (a : Archive) (k : Killmail) : Archive × Insertion :=
  match a with
  | .memory a =>
    let (a, r) := a.insert k
    (.memory a, r)
  | .table a =>
    let (a, r) := a.insert k
    (.table a, r)

def count (a : Archive) (f : Filter) : Nat :=
  match a with
  | .memory a => a.count f
  | .table a => a.count f

def find (a : Archive) (f : Filter) : Except StorageError (List Killmail) :=
  match a with
  | .memory a => .ok (a.find f)
  | .table a => a.find f

end Archive

end Harvest
