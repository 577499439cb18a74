import Harvest.Backup.Folder
import Harvest.Calendar.DayKey
import Harvest.Killmail.WorkItem

/-! # Backups of fetched bodies

The body of an imported killmail is kept in a file, in the directory of the day of the killmail.
The file is named for the work item and holds the body together with the id and the hash, which
the body need not contain.
-/

namespace Harvest.Backup

open Harvest.Calendar Harvest.Json Harvest.Text

/-- Why a body was not kept. -/
inductive Failure where
  /-- The file could not be written. -/
  | write (cause : String)
  /-- The body is no document. -/
  | encode (cause : String)
deriving DecidableEq

def Failure.message : Failure → String
  | .write cause => "Backup write failed: " ++ cause
  | .encode cause => "Backup envelope could not be encoded: " ++ cause

/-- The document in which a body is kept. -/
def envelope (w : WorkItem) (body : Value) : Value :=
  .object [("id", .ofUInt64 w.id), ("hash", .text w.hash), ("killmail", body)]

/-- The path of the file of an item, below the directory of the day. A slash within the hash leads
into a further directory. -/
def fileChars (w : WorkItem) : List Char := w.chars ++ ".json".toList

/-- The path of the file of an item, from the root. -/
def path (d : Date) (w : WorkItem) : String := d.key ++ "/" ++ String.ofList (fileChars w)

/-- The directories above the file, and its name. -/
def location (d : Date) (w : WorkItem) : List String × String :=
  let cs := fileChars w
  let name := (cs.reverse.takeWhile (· ≠ '/')).reverse
  (d.key :: splitPath (cs.take (cs.length - name.length)), String.ofList name)

/-- Writes a file at a location, with the directories above it. -/
def place (f : Folder) (directories : List String) (name content : String) :
    Folder × Option Folder :=
  if directories.any fun n => n.toList.contains '\x00' then (f, none)
  else
    match f.descend .root directories with
    | (f, none) => (f, none)
    | (f, some p) => (f, f.write p name content)

/-- Keeps the body of an item. -/
def store (f : Folder) (d : Date) (w : WorkItem) (body : List UInt8) :
    Folder × Except Failure Unit :=
  match Value.read? (glyphs body) with
  | none => (f, .error (.encode "malformed body"))
  | some v =>
    let (directories, name) := location d w
    match place f directories name (envelope w v).write with
    | (_, some f) => (f, .ok ())
    | (f, none) => (f, .error (.write (path d w)))

end Harvest.Backup
