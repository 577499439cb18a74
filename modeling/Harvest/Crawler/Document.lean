import Harvest.Crawler.Basic

/-! # Databases as documents

Between two runs the database of the program is kept as a document. It holds the rows of the queue
in the order in which they were first queued, and the rows of the archive, the latest first. Stores
in memory are kept as the rows that a table would hold.

## Main definitions

* `Database.toValue`, `Database.decode`: the document of a database.
-/

namespace Harvest

open Harvest.Json

namespace Database

/-! ## Writing -/

/-- The rows of a queue. -/
def queueRows : Queue → List (Scored RowKey)
  | .table q => q.rows
  | .memory q => q.entries.map fun e => ⟨e.item.rowKey, e.score⟩

/-- The rows of an archive. -/
def archiveRows : Archive → List Row
  | .table a => a.rows
  | .memory a => a.killmails.map Killmail.row

def queueRowValue (r : Scored RowKey) : Value :=
  .object [("id", .ofInt64 r.item.id), ("hash", .text r.item.hash), ("score", .whole r.score)]

def archiveRowValue (r : Row) : Value :=
  .object [("id", .ofInt64 r.id), ("second", .whole r.second), ("record", .text r.record)]

def toValue (d : Database) : Value :=
  .object [("queue", .ofList queueRowValue (queueRows d.queue)),
    ("killmails", .ofList archiveRowValue (archiveRows d.archive))]

/-! ## Reading -/

def queueRowDecoder : Decoder (Scored RowKey) :=
  Decoder.record ["id", "hash", "score"] fun m => do
    return { item := ⟨← m.required "id" wordDecoder, ← m.required "hash" Decoder.text⟩
             score := ← m.required "score" Decoder.int64 }

def archiveRowDecoder : Decoder Row :=
  Decoder.record ["id", "second", "record"] fun m => do
    return { id := ← m.required "id" wordDecoder, second := ← m.required "second" Decoder.int64
             record := ← m.required "record" Decoder.text }

def decode : Decoder Database :=
  Decoder.record ["queue", "killmails"] fun m => do
    return { queue := .table ⟨← m.required "queue" (Decoder.list queueRowDecoder)⟩
             archive := .table ⟨← m.required "killmails" (Decoder.list archiveRowDecoder)⟩ }

end Database

end Harvest
