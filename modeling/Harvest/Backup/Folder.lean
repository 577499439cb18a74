/-! # A folder of files

A folder holds files and directories at places below its root. Places above the root can be named
as well, by going up; what is there is taken to be directories only.

A path is a list of names. The name `..` goes one level up, and a name of more than 255 bytes, or
one with a zero character, can be given to nothing. A path may be of any length, and there is no
topmost level: where a file system has such bounds depends on where the folder lies.

## Main definitions

* `Folder.descend`: goes down a path and makes the missing directories.
* `Folder.write`: writes a file into a directory.
* `Folder.files`: the files below the root, sorted by path.
-/

namespace Harvest.Backup

/-! ## Places -/

/-- A place: some levels above the root, and from there down by names. -/
structure Place where
  above : Nat
  names : List String
deriving DecidableEq, Repr

namespace Place

/-- The root of the folder. -/
def root : Place := ⟨0, []⟩

/-- The place of a name within a directory. -/
def child (p : Place) (name : String) : Place := { p with names := p.names ++ [name] }

/-- The directory that a place lies in. -/
def parent (p : Place) : Place :=
  if p.names = [] then { p with above := p.above + 1 } else { p with names := p.names.dropLast }

/-- Whether a place is the root or lies below it. -/
def isInside (p : Place) : Bool := p.above == 0

/-- The names, with slashes between them. -/
def text (p : Place) : String := String.intercalate "/" p.names

end Place

/-! ## Names and paths -/

/-- The most bytes that a name can have. -/
def longestName : Nat := 255

/-- Whether something can be given a name. -/
def isName (name : String) : Bool :=
  name.utf8ByteSize ≤ longestName && !name.toList.contains '\x00'

/-- The names between slashes; empty ones and those that mean the directory itself are left out. -/
def splitPath (path : List Char) : List String :=
  ((path.splitBy fun _ c => c ≠ '/').map fun part => String.ofList (part.filter (· ≠ '/'))).filter
    fun name => name ≠ "" && name ≠ "."

/-! ## Folders -/

/-- What is at a place. -/
inductive Entry where
  | directory
  | file (content : String)
deriving DecidableEq

/-- The entries of a folder, in the order in which they were made. -/
structure Folder where
  entries : List (Place × Entry)

namespace Folder

def empty : Folder := ⟨[]⟩

instance : Inhabited Folder := ⟨empty⟩

/-- What is at a place. The root and all above it are directories. -/
def entry? (f : Folder) (p : Place) : Option Entry :=
  if p.names = [] then some .directory else f.entries.lookup p

/-- Puts an entry in place of the one before. -/
def put (f : Folder) (p : Place) (e : Entry) : Folder :=
  ⟨f.entries.filter (·.1 ≠ p) ++ [(p, e)]⟩

/-- Goes one name down from a directory, which is made if it is missing. -/
def enter (f : Folder) (p : Place) (name : String) : Folder × Option Place :=
  if name = ".." then (f, some p.parent)
  else if isName name then
    match f.entry? (p.child name) with
    | some .directory => (f, some (p.child name))
    | some (.file _) => (f, none)
    | none => (f.put (p.child name) .directory, some (p.child name))
  else (f, none)

/-- Goes down a path from a directory. The directories made stay if the path leads nowhere. -/
def descend (f : Folder) (p : Place) : List String → Folder × Option Place
  | [] => (f, some p)
  | name :: names =>
    match f.enter p name with
    | (f, some q) => f.descend q names
    | (f, none) => (f, none)

/-- Writes a file into a directory, over the one before. -/
def write (f : Folder) (p : Place) (name content : String) : Option Folder :=
  if isName name then
    match f.entry? (p.child name) with
    | some .directory => none
    | _ => some (f.put (p.child name) (.file content))
  else none

/-- The files below the root with their contents, sorted by path. -/
def files (f : Folder) : List (String × String) :=
  let inside := f.entries.filterMap fun (p, e) =>
    match e with
    | .file content => if p.isInside then some (p.text, content) else none
    | .directory => none
  inside.mergeSort fun a b => decide (a.1 ≤ b.1)

end Folder

end Harvest.Backup
