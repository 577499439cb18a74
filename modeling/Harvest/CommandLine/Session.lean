import Harvest.CommandLine.Command
import Harvest.CommandLine.LogFilter
import Harvest.Crawler.Basic

/-! # Sessions

A session runs command lines one after another on the same files and databases. A run ends with an
exit code: 0, 1 with an error, or 2 if the command line is not understood.

## Main definitions

* `Session`: files, databases and the environment.
* `Session.run`: one command line.
-/

namespace Harvest.CommandLine

open Harvest.Calendar Harvest.Text

/-! ## State -/

/-- Everything that command lines work on. -/
structure Session where
  /-- Text files by path. -/
  files : List (String × String)
  environment : Environment
  databases : List (String × Database)
  backups : Backup.Folder

/-- What a run comes to. -/
structure RunReport where
  code : Nat
  /-- The messages logged. -/
  messages : List String
  /-- The error, in one line. -/
  error : Option String
  /-- The text that was asked for. -/
  output : Option String
deriving DecidableEq

namespace RunReport

def success (messages : List String) : RunReport := ⟨0, messages, none, none⟩

/-- A run that fails; the cause is passed over where the line says what failed. -/
def failure (error : String) : RunReport := ⟨1, [], some ("Error: " ++ error), none⟩

def halted : Halt → RunReport
  | .help => ⟨0, [], none, some ("Usage: killfeed [OPTIONS] <COMMAND>\n\nCommands: "
      ++ String.intercalate ", " commandNames)⟩
  | .version => ⟨0, [], none, some "killfeed 0.1.0"⟩
  | .usage => ⟨2, [], none, none⟩

end RunReport

/-! ## Files and databases -/

namespace Session

/-- The settings file of a path. -/
def file (s : Session) (path : String) : String × Except String String :=
  match s.files.lookup path with
  | some content => (path, .ok content)
  | none => (path, .error "No such file or directory (os error 2)")

/-- A database that is not kept after a run. -/
def isPassing (path : String) : Bool := path == "" || path == ":memory:"

/-- Opens the database of a path, which is made if it is missing. A text file is no database, and
neither is a directory. -/
def openDatabase (s : Session) (path : String) : Except CrawlerError Database :=
  if isPassing path then .ok .empty
  else if (s.files.lookup path).isSome then .error (.storage (.backend "file is not a database"))
  else if path.toList.getLast? = some '/' then
    .error (.storage (.backend "unable to open database file"))
  else .ok ((s.databases.lookup path).getD .empty)

/-- Keeps the database of a path. -/
def keepDatabase (s : Session) (path : String) (d : Database) : Session :=
  if isPassing path then s
  else { s with databases := (path, d) :: s.databases.filter (·.1 ≠ path) }

/-- Keeps what a crawler has changed. -/
def keep (s : Session) (c : Crawler) : Session :=
  { s.keepDatabase c.settings.storage.database c.database with backups := c.backups }

/-! ## Messages -/

/-- The messages, unless the settings suppress them. -/
def logged (c : Crawler) (messages : List String) : RunReport :=
  .success (if logsMessages c.settings.logLevel then messages else [])

def summaryText (s : Import.Summary) : String :=
  showNat s.imported ++ " imported, " ++ showNat s.skipped ++ " skipped, " ++ showNat s.dropped
    ++ " dropped"

def dayText (d : Backfill.DayReport) : String :=
  d.date.iso ++ ": " ++ showNat d.after ++ " / " ++ showNat d.total ++ " (was " ++ showNat d.before
    ++ ", enqueued " ++ showNat d.enqueued ++ ")"

def reportText (r : Backfill.Report) : String :=
  "Reconciled " ++ showNat r.days.length ++ " days, " ++ showNat r.enqueued ++ " enqueued, "
    ++ showNat r.missing ++ " still missing"

/-! ## Commands -/

/-- The work items with the instants of their dispatch, a millisecond apart. -/
def dated (start : Instant) (items : List WorkItem) : List (Instant × WorkItem) :=
  items.zipIdx.map fun (w, i) => ((start.add? (.ofMillis i)).getD start, w)

/-- Runs the importer until it ends, with a message that starts with a text. -/
def runImporter (s : Session) (c : Crawler) (u : Crawler.Surroundings) (config : Import.Config)
    (pace : Import.Pace) (head : String) : Session × RunReport :=
  match c.importing u config pace false [] with
  | .error e => (s, .failure e.message)
  | .ok (c, service) =>
    (s.keep c, logged c [head ++ summaryText service.scene.crew.world.depot.summary])

/-- Runs a command. -/
def perform (s : Session) (c : Crawler) (u : Crawler.Surroundings) :
    Command → Session × RunReport
  | .serve =>
    s.runImporter c u (c.settings.importConfig .service) c.settings.importPace "Stopped: "
  | .importing maxConcurrency spacingMs drain =>
    if maxConcurrency = some 0 then (s, .failure "--max-concurrency must be at least 1")
    else
      let config := c.settings.importConfig (if drain then .drain else .service)
      let pace := c.settings.importPace
      s.runImporter c u
        { config with maxConcurrency := maxConcurrency.getD config.maxConcurrency }
        { pace with spacing := spacingMs.getD pace.spacing } "Import finished: "
  | .add items =>
    let c := c.add (dated u.start items)
    (s.keep c, logged c ["Queued " ++ showNat items.length ++ " killmails"])
  | .history start stop direction statsOnly =>
    let first := start.getD (Backfill.Request.yesterday u.start.date).start
    match c.backfill u ⟨first, stop.getD first, direction, statsOnly⟩ with
    | (c, .error _) => (s.keep c, .failure "reconciliation aborted")
    | (c, .ok report) => (s.keep c, logged c (report.days.map dayText ++ [reportText report]))
  | .tracking =>
    match c.tracking u with
    | .error e => (s, .failure e.message)
    | .ok _ => (s, .success [])

/-- Runs a command line. -/
def run (s : Session) (u : Crawler.Surroundings) (words : List String) : Session × RunReport :=
  match Invocation.parse words with
  | .error halt => (s, .halted halt)
  | .ok i =>
    match Settings.load (i.settings.map s.file) s.environment with
    | .error _ => (s, .failure "loading configuration")
    | .ok settings =>
      match s.openDatabase settings.storage.database with
      | .error _ => (s, .failure "starting killfeed")
      | .ok database =>
        match Crawler.build settings database s.backups with
        | .error _ => (s, .failure "starting killfeed")
        | .ok c => s.perform c u i.command

end Session

end Harvest.CommandLine
