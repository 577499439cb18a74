import Harvest.CommandLine.Session
import Harvest.Crawler.Document
import Std.Time.DateTime.Timestamp

/-! # The program

The command line on real files. The settings, the database and the backups are files; a command is
run by `Session.run`, and what it has changed is written back afterwards.

No network is within reach of the program, so every call to a source fails. Time is virtual: a
command starts at the present instant, and one that would go on forever is stopped after an hour of
its own time.
-/

open Harvest Harvest.Calendar Harvest.CommandLine

namespace Harvest.Program

/-! ## Surroundings -/

/-- The names of the variables of the environment that override settings. -/
def overridingNames : List String :=
  ["KILLFEED_ESI_HOST", "KILLFEED_ESI_USER_AGENT", "KILLFEED_ZKB_USER_AGENT", "KILLFEED_DATABASE",
    "KILLFEED_BACKUP_DIR", "KILLFEED_LOG_LEVEL"]

def readEnvironment : IO Environment := do
  let values ← overridingNames.mapM fun name => do return (name, ← IO.getEnv name)
  return fun name => (values.lookup name).join

/-- The present instant. -/
def present : IO Instant := do
  let nanos := (← Std.Time.Timestamp.now).toNanosecondsSinceUnixEpoch.val
  return (Instant.of? (nanos / 1000000000) (nanos % 1000000000).toNat).getD Instant.epoch

def surroundings (start : Instant) : Crawler.Surroundings :=
  { network := .unreachable, start, limit := some 3600000, turns := 10000000 }

/-! ## Files -/

/-- The text of a file, if it can be read. -/
def readText? (path : String) : IO (Option String) := do
  try return some (← IO.FS.readFile path)
  catch _ => return none

/-- The path of the directory that a file lies in, if it names one. -/
def directoryOf? (path : String) : Option String :=
  match (path.toList.reverse.dropWhile (· ≠ '/')).drop 1 with
  | [] => none
  | cs => some (String.ofList cs.reverse)

/-- Writes a file, with the directories above it. -/
def writeText (path content : String) : IO Unit := do
  if let some directory := directoryOf? path then IO.FS.createDirAll directory
  IO.FS.writeFile path content

/-- The session of a command line: the files and the database that it names. -/
def openSession (environment : Environment) (words : List String) : IO Session := do
  let named := (Invocation.parse words).toOption.bind (·.settings)
  let mut session : Session := { files := [], environment, databases := [], backups := .empty }
  if let some path := named then
    if let some content ← readText? path then
      session := { session with files := [(path, content)] }
  if let .ok settings := Settings.load (named.map session.file) environment then
    let path := settings.storage.database
    if let some content ← readText? path then
      session := match Database.decode.runString content with
        | some d => { session with databases := [(path, d)] }
        | none => { session with files := (path, content) :: session.files }
  return session

/-- Writes what a session has changed. -/
def closeSession (session : Session) (words : List String) : IO Unit := do
  for (path, d) in session.databases do
    writeText path (d.toValue.write ++ "\n")
  let named := (Invocation.parse words).toOption.bind (·.settings)
  if let .ok settings := Settings.load (named.map session.file) session.environment then
    for (path, content) in session.backups.files do
      writeText (settings.backup.directory ++ "/" ++ path) content

end Harvest.Program

open Harvest.Program

/-- Runs a command line and gives its exit code. -/
def main (words : List String) : IO UInt32 := do
  let before ← openSession (← readEnvironment) words
  let (after, report) := before.run (surroundings (← present)) words
  closeSession after words
  for message in report.messages do
    IO.println message
  if let some text := report.output then
    IO.println text
  if let some error := report.error then
    IO.eprintln error
  return report.code.toUInt32
