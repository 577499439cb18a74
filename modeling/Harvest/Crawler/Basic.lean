import Harvest.Backup.Basic
import Harvest.Crawler.Service
import Harvest.Settings.Derived

/-! # The crawler

The parts put together: one database holds the queue and the archive, and a folder holds the
backups. Each command of the program is a function of these, of the network, and of the instant at
which it starts.

## Main definitions

* `Crawler`, `Crawler.build`: the program with its settings.
* `Crawler.add`, `Crawler.importing`, `Crawler.tracking`, `Crawler.backfill`: its commands.
-/

namespace Harvest

open Harvest.Calendar Harvest.Admission Harvest.Api

/-! ## State and errors -/

/-- The stores of the program. -/
structure Database where
  queue : Queue
  archive : Archive

namespace Database

def empty : Database := ⟨.table .empty, .table .empty⟩

instance : Inhabited Database := ⟨empty⟩

end Database

/-- What a command can fail with. -/
inductive CrawlerError where
  | settings (cause : SettingsError)
  | api (cause : Failure)
  | storage (cause : StorageError)
  | queue (cause : QueueError)
  | listings (cause : Backfill.SourceError)
  | backfill (cause : Backfill.Abort)
  /-- A span of the settings is longer than can be measured. -/
  | outOfRange
deriving DecidableEq

def CrawlerError.message : CrawlerError → String
  | .settings cause => cause.message
  | .api cause => "Gateway error: " ++ cause.message
  | .storage cause => "Storage error: " ++ cause.message
  | .queue cause => "Queue error: " ++ cause.message
  | .listings cause => "History source error: " ++ cause.message
  | .backfill cause => cause.message
  | .outOfRange => "Settings error: span out of range"

/-- The program with its settings. -/
structure Crawler where
  settings : Settings
  database : Database
  backups : Backup.Folder

namespace Crawler

/-- Puts the parts together, if the settings allow for it. -/
def build (s : Settings) (database : Database) (backups : Backup.Folder) :
    Except CrawlerError Crawler :=
  match s.validate with
  | .error e => .error (.settings e)
  | .ok _ =>
    match Client.build? s.apiConfig with
    | .error e => .error (.api e)
    | .ok _ => .ok { settings := s, database, backups }

/-- The settings of the tracker, without which no loop is started. -/
def tracker (c : Crawler) : Except CrawlerError TrackerConfig :=
  match c.settings.tracker with
  | .ok (.ok t) => .ok t
  | .ok (.error _) => .error .outOfRange
  | .error e => .error (.settings e)

/-! ## Plans -/

/-- How the source answers the importer. The pauses between attempts take time. -/
def deliver (c : Crawler) (net : Network) (start : Instant) (w : WorkItem) : Import.Delivery :=
  let api := c.settings.apiConfig
  match Client.execute api net start (.get (Path.killmail w.id w.hash)),
      Client.fetchKillmail api net start w with
  | .ok call, .ok (r, _) => ⟨(call.info.attempts - 1) * api.retry.backoff.millis, some r⟩
  | _, _ => ⟨0, none⟩

/-- The importer on a network. -/
def importScript (c : Crawler) (config : Import.Config) (pace : Import.Pace) (net : Network)
    (start : Instant) : Import.Script :=
  { config, pace, gate := c.settings.gate, fetch := c.deliver net start, backupFails := false
    archiveFaults := .none }

/-- The plan of a run. -/
def plan (c : Crawler) (tracker : TrackerConfig) (importer : Import.Script) (r : Backfill.Request)
    (net : Network) (start : Instant) (limit : Option Nat) : Service.Plan :=
  let client := c.settings.listingClient
  { api := c.settings.apiConfig, network := net, tracker
    trackerInterval := c.settings.health.pollIntervalMs
    pollerInterval := c.settings.health.statusPollIntervalMs, limit, start
    backfill :=
      { config := c.settings.backfillConfig, pace := c.settings.backfillPace, request := r
        clock := start, totals := Backfill.Client.totals client net
        day := Backfill.Client.day client net, cancelAt := none, importer } }

/-- The stores at the start of a run, with items to be announced at given times. -/
def opening (c : Crawler) (stopping : Bool) (announced : List (Nat × WorkItem)) (start : Instant) :
    Service :=
  let world := Import.World.start c.database.queue c.database.archive .green
  let upcoming := announced.map fun (time, w) =>
    (time, Import.Happening.push w (dispatchScore ((start.add? (.ofMillis time)).getD start)))
  { scene := { crew := .start { world with stopping } .none upcoming, walk := .start
               dayFailures := [], dayCalls := [], endedAt := none, staffed := true }
    health := .initial }

/-- The stores after a run; bodies are backed up in the order of their imports. -/
def closing (c : Crawler) (s : Service) : Crawler :=
  let world := s.scene.crew.world
  let backups := world.depot.backups.foldr
    (fun b f => (Backup.store f b.killmail.time.date b.item b.body).1) c.backups
  { c with database := ⟨world.queue, world.depot.archive⟩, backups }

/-! ## Commands -/

/-- Queues items, each at the instant of its dispatch. -/
def add (c : Crawler) (items : List (Instant × WorkItem)) : Crawler :=
  let queue := items.foldl (fun q (now, w) => q.push w (dispatchScore now)) c.database.queue
  { c with database := { c.database with queue } }

/-- Takes the first item off the queue. -/
def pop (c : Crawler) : Crawler × Except QueueError (Option WorkItem) :=
  let (queue, r) := c.database.queue.popMin
  ({ c with database := { c.database with queue } }, r)

/-- A single day that no backfill asks for. -/
def noRequest : Backfill.Request := .day default

/-- What a command runs in: the network, the instant of its start, the time after which the user
stops it, and the number of turns that are taken at most. -/
structure Surroundings where
  network : Network
  start : Instant
  limit : Option Nat
  turns : Nat

/-- The importer with the settings of the crawler. -/
def serviceScript (c : Crawler) (u : Surroundings) : Import.Script :=
  c.importScript (c.settings.importConfig .service) c.settings.importPace u.network u.start

/-- Runs the importer beside the health loops until it ends. It may be told to stop from the start,
and the feed may announce items meanwhile. -/
def importing (c : Crawler) (u : Surroundings) (config : Import.Config) (pace : Import.Pace)
    (stopping : Bool) (announced : List (Nat × WorkItem)) :
    Except CrawlerError (Crawler × Service) := do
  let tracker ← c.tracker
  let script := c.importScript config pace u.network u.start
  let p := c.plan tracker script noRequest u.network u.start u.limit
  let agents : List Service.Agent :=
    [.inner (.crew .loop), .tracker, .poller, .inner (.crew .director), .closer]
  let s := p.run agents (fun s => s.scene.crew.finishedAt.isSome)
    (c.opening stopping announced u.start) u.turns
  return (c.closing s, s)

/-- Runs the health loops alone. -/
def tracking (c : Crawler) (u : Surroundings) : Except CrawlerError Service := do
  let tracker ← c.tracker
  let p := c.plan tracker (c.serviceScript u) noRequest u.network u.start u.limit
  return p.run [.tracker, .poller, .closer] Service.Plan.isStopping (c.opening false [] u.start)
    u.turns

/-- What came of the walk. -/
def walked (s : Service) : Except CrawlerError Backfill.Report :=
  match s.scene.walk.result? with
  | some (.ok report) => .ok report
  | some (.error e) => .error (.backfill e)
  | none => .error (.backfill .cancelled)

/-- Runs a backfill beside the importer and the health loops; one that only compares counts runs
alone. -/
def backfill (c : Crawler) (u : Surroundings) (r : Backfill.Request) :
    Crawler × Except CrawlerError Backfill.Report :=
  match Backfill.Client.build? c.settings.listingClient with
  | .error e => (c, .error (.listings e))
  | .ok _ =>
    let opening := c.opening false [] u.start
    if r.statsOnly then
      let p := c.plan .standard (c.serviceScript u) r u.network u.start u.limit
      let alone := { opening with scene := { opening.scene with staffed := false } }
      let s := p.run [.inner .walker, .closer] (fun s => s.scene.isOver) alone u.turns
      (c, walked s)
    else
      match c.tracker with
      | .error e => (c, .error e)
      | .ok tracker =>
        let p := c.plan tracker (c.serviceScript u) r u.network u.start u.limit
        let agents : List Service.Agent :=
          [.tracker, .poller, .inner (.crew .loop), .inner .walker, .closer]
        let s := p.run agents (fun s => s.scene.isOver) opening u.turns
        (c.closing s, walked s)

end Crawler

end Harvest
