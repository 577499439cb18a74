import Harvest.Json.Decoder
import Harvest.Json.Encoder

/-! # Settings

The settings of the whole program are a document of sections. Every field has a default, so that
an empty document is complete; fields that are not known are passed over.

## Main definitions

* `Settings`: all sections.
* `Settings.decode`, `Settings.toValue`: reading and writing.
-/

namespace Harvest

open Harvest.Json

/-! ## Sections -/

/-- The source of killmails. -/
structure ApiSettings where
  baseUrl : String
  userAgent : String
  timeoutMs : Nat
  maxAttempts : Nat
  retryBackoffMs : Nat
deriving DecidableEq

/-- The health of the source. -/
structure HealthSettings where
  pollIntervalMs : Nat
  yellowPenaltyMs : Nat
  minActiveCount : Int
  downtimeStart : String
  downtimeEnd : String
  statusPollIntervalMs : Nat
  loadMaxAgeSecs : Nat
  retentionSecs : Nat
deriving DecidableEq

/-- The importer. -/
structure ImportSettings where
  maxConcurrency : Nat
  spacingMs : Nat
  idleWaitMs : Nat
deriving DecidableEq

/-- Backfills from the source of listings. -/
structure BackfillSettings where
  baseUrl : String
  userAgent : String
  dayAttempts : Nat
  dayBackoffMs : Nat
  maxMissingDates : Nat
  datePasses : Nat
  drainPollMs : Nat
  enqueueBatch : Nat
  pauseMs : Nat
deriving DecidableEq

/-- The live feed. -/
structure FeedSettings where
  url : String
  channel : String
  reconnectDelayMs : Nat
deriving DecidableEq

/-- Where the stores are kept. -/
structure StorageSettings where
  database : String
deriving DecidableEq

/-- Whether and where backups are kept. -/
structure BackupSettings where
  enabled : Bool
  directory : String
deriving DecidableEq

/-- All settings. -/
structure Settings where
  api : ApiSettings
  health : HealthSettings
  importer : ImportSettings
  backfill : BackfillSettings
  feed : FeedSettings
  storage : StorageSettings
  backup : BackupSettings
  logLevel : String
deriving DecidableEq

/-! ## Defaults -/

/-- How the program names itself to the sources. -/
def standardUserAgent : String := "killfeed/0.1 (+https://github.com/l3p/killfeed)"

def ApiSettings.standard : ApiSettings :=
  { baseUrl := "https://esi.evetech.net", userAgent := standardUserAgent
    timeoutMs := 3000, maxAttempts := 3, retryBackoffMs := 2000 }

def HealthSettings.standard : HealthSettings :=
  { pollIntervalMs := 1000, yellowPenaltyMs := 250, minActiveCount := 100
    downtimeStart := "10:58", downtimeEnd := "11:25", statusPollIntervalMs := 30000
    loadMaxAgeSecs := 120, retentionSecs := 360 }

def ImportSettings.standard : ImportSettings :=
  { maxConcurrency := 10, spacingMs := 50, idleWaitMs := 2000 }

def BackfillSettings.standard : BackfillSettings :=
  { baseUrl := "https://zkillboard.com", userAgent := standardUserAgent
    dayAttempts := 3, dayBackoffMs := 10000, maxMissingDates := 3, datePasses := 2
    drainPollMs := 1000, enqueueBatch := 250, pauseMs := 500 }

def FeedSettings.standard : FeedSettings :=
  { url := "wss://zkillboard.com/websocket/", channel := "killstream", reconnectDelayMs := 2000 }

def StorageSettings.standard : StorageSettings := ⟨"killfeed.db"⟩

def BackupSettings.standard : BackupSettings := ⟨false, "backups"⟩

def Settings.standard : Settings :=
  { api := .standard, health := .standard, importer := .standard, backfill := .standard
    feed := .standard, storage := .standard, backup := .standard, logLevel := "info" }

/-! ## Reading -/

/-- A word of 64 or 32 bits. -/
def word64 : Decoder Nat := Decoder.natural 64

def word32 : Decoder Nat := Decoder.natural 32

def ApiSettings.decode : Decoder ApiSettings :=
  Decoder.record ["base_url", "user_agent", "timeout_ms", "max_attempts", "retry_backoff_ms"]
    fun m => do
      let d := ApiSettings.standard
      return { baseUrl := ← m.orElse "base_url" Decoder.text d.baseUrl
               userAgent := ← m.orElse "user_agent" Decoder.text d.userAgent
               timeoutMs := ← m.orElse "timeout_ms" word64 d.timeoutMs
               maxAttempts := ← m.orElse "max_attempts" word32 d.maxAttempts
               retryBackoffMs := ← m.orElse "retry_backoff_ms" word64 d.retryBackoffMs }

def HealthSettings.decode : Decoder HealthSettings :=
  Decoder.record ["poll_interval_ms", "yellow_penalty_ms", "min_active_count", "downtime_start",
      "downtime_end", "status_poll_interval_ms", "load_signal_max_age_secs",
      "tracking_retention_secs"] fun m => do
    let d := HealthSettings.standard
    return { pollIntervalMs := ← m.orElse "poll_interval_ms" word64 d.pollIntervalMs
             yellowPenaltyMs := ← m.orElse "yellow_penalty_ms" word64 d.yellowPenaltyMs
             minActiveCount := ← m.orElse "min_active_count" Decoder.int64 d.minActiveCount
             downtimeStart := ← m.orElse "downtime_start" Decoder.text d.downtimeStart
             downtimeEnd := ← m.orElse "downtime_end" Decoder.text d.downtimeEnd
             statusPollIntervalMs :=
               ← m.orElse "status_poll_interval_ms" word64 d.statusPollIntervalMs
             loadMaxAgeSecs := ← m.orElse "load_signal_max_age_secs" word64 d.loadMaxAgeSecs
             retentionSecs := ← m.orElse "tracking_retention_secs" word64 d.retentionSecs }

def ImportSettings.decode : Decoder ImportSettings :=
  Decoder.record ["max_concurrency", "spacing_ms", "idle_wait_ms"] fun m => do
    let d := ImportSettings.standard
    return { maxConcurrency := ← m.orElse "max_concurrency" word64 d.maxConcurrency
             spacingMs := ← m.orElse "spacing_ms" word64 d.spacingMs
             idleWaitMs := ← m.orElse "idle_wait_ms" word64 d.idleWaitMs }

def BackfillSettings.decode : Decoder BackfillSettings :=
  Decoder.record ["base_url", "user_agent", "day_attempts", "day_backoff_ms", "max_missing_dates",
      "date_passes", "drain_poll_ms", "enqueue_batch", "pause_ms"] fun m => do
    let d := BackfillSettings.standard
    return { baseUrl := ← m.orElse "base_url" Decoder.text d.baseUrl
             userAgent := ← m.orElse "user_agent" Decoder.text d.userAgent
             dayAttempts := ← m.orElse "day_attempts" word32 d.dayAttempts
             dayBackoffMs := ← m.orElse "day_backoff_ms" word64 d.dayBackoffMs
             maxMissingDates := ← m.orElse "max_missing_dates" word32 d.maxMissingDates
             datePasses := ← m.orElse "date_passes" word32 d.datePasses
             drainPollMs := ← m.orElse "drain_poll_ms" word64 d.drainPollMs
             enqueueBatch := ← m.orElse "enqueue_batch" word64 d.enqueueBatch
             pauseMs := ← m.orElse "pause_ms" word64 d.pauseMs }

def FeedSettings.decode : Decoder FeedSettings :=
  Decoder.record ["url", "channel", "reconnect_delay_ms"] fun m => do
    let d := FeedSettings.standard
    return { url := ← m.orElse "url" Decoder.text d.url
             channel := ← m.orElse "channel" Decoder.text d.channel
             reconnectDelayMs := ← m.orElse "reconnect_delay_ms" word64 d.reconnectDelayMs }

def StorageSettings.decode : Decoder StorageSettings :=
  Decoder.record ["database"] fun m => do
    return ⟨← m.orElse "database" Decoder.text StorageSettings.standard.database⟩

def BackupSettings.decode : Decoder BackupSettings :=
  Decoder.record ["enabled", "dir"] fun m => do
    let d := BackupSettings.standard
    return ⟨← m.orElse "enabled" Decoder.bool d.enabled, ← m.orElse "dir" Decoder.text d.directory⟩

namespace Settings

def decode : Decoder Settings :=
  Decoder.record ["esi", "health", "importer", "history", "feed", "storage", "backup", "log_level"]
    fun m => do
      return { api := ← m.orElse "esi" ApiSettings.decode .standard
               health := ← m.orElse "health" HealthSettings.decode .standard
               importer := ← m.orElse "importer" ImportSettings.decode .standard
               backfill := ← m.orElse "history" BackfillSettings.decode .standard
               feed := ← m.orElse "feed" FeedSettings.decode .standard
               storage := ← m.orElse "storage" StorageSettings.decode .standard
               backup := ← m.orElse "backup" BackupSettings.decode .standard
               logLevel := ← m.orElse "log_level" Decoder.text standard.logLevel }

/-! ## Writing -/

/-- A natural number. -/
def number (n : Nat) : Value := .whole n

def toValue (s : Settings) : Value :=
  .object [
    ("esi", .object [("base_url", .text s.api.baseUrl), ("user_agent", .text s.api.userAgent),
      ("timeout_ms", number s.api.timeoutMs), ("max_attempts", number s.api.maxAttempts),
      ("retry_backoff_ms", number s.api.retryBackoffMs)]),
    ("health", .object [("poll_interval_ms", number s.health.pollIntervalMs),
      ("yellow_penalty_ms", number s.health.yellowPenaltyMs),
      ("min_active_count", .whole s.health.minActiveCount),
      ("downtime_start", .text s.health.downtimeStart),
      ("downtime_end", .text s.health.downtimeEnd),
      ("status_poll_interval_ms", number s.health.statusPollIntervalMs),
      ("load_signal_max_age_secs", number s.health.loadMaxAgeSecs),
      ("tracking_retention_secs", number s.health.retentionSecs)]),
    ("importer", .object [("max_concurrency", number s.importer.maxConcurrency),
      ("spacing_ms", number s.importer.spacingMs), ("idle_wait_ms", number s.importer.idleWaitMs)]),
    ("history", .object [("base_url", .text s.backfill.baseUrl),
      ("user_agent", .text s.backfill.userAgent), ("day_attempts", number s.backfill.dayAttempts),
      ("day_backoff_ms", number s.backfill.dayBackoffMs),
      ("max_missing_dates", number s.backfill.maxMissingDates),
      ("date_passes", number s.backfill.datePasses),
      ("drain_poll_ms", number s.backfill.drainPollMs),
      ("enqueue_batch", number s.backfill.enqueueBatch), ("pause_ms", number s.backfill.pauseMs)]),
    ("feed", .object [("url", .text s.feed.url), ("channel", .text s.feed.channel),
      ("reconnect_delay_ms", number s.feed.reconnectDelayMs)]),
    ("storage", .object [("database", .text s.storage.database)]),
    ("backup", .object [("enabled", .bool s.backup.enabled), ("dir", .text s.backup.directory)]),
    ("log_level", .text s.logLevel)]

end Settings

end Harvest
