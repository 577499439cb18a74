import Harvest.Archive.Basic

/-! # Faults of an archive

Which questions to an archive fail on command.
-/

namespace Harvest

/-- The faults of an archive. -/
structure ArchiveFaults where
  /-- Look-ups of these ids fail. -/
  lookups : List UInt64
  /-- Insertions of these ids fail. -/
  inserts : List UInt64
  counts : Bool
  finds : Bool
  /-- The text of the failures. -/
  cause : String
deriving Inhabited

namespace ArchiveFaults

def none : ArchiveFaults := ⟨[], [], false, false, ""⟩

/-- Counts, unless counts fail. -/
def count (f : ArchiveFaults) (a : Archive) (filter : Filter) : Except StorageError Nat :=
  if f.counts then .error (.backend f.cause) else .ok (a.count filter)

/-- Finds, unless finding fails. -/
def find (f : ArchiveFaults) (a : Archive) (filter : Filter) :
    Except StorageError (List Killmail) :=
  if f.finds then .error (.backend f.cause) else a.find filter

end ArchiveFaults

end Harvest
