import Harvest.Admission.Gate
import Harvest.Admission.Monitor
import Harvest.Backfill.Client
import Harvest.Backfill.Rehearsal
import Harvest.Power
import Harvest.Settings.Basic

/-! # What follows from the settings

Settings are read from a file, overridden by the environment, checked, and turned into the settings
of each part of the program.

## Main definitions

* `Settings.load`: reading, overriding and checking.
* `Settings.validate`: what is refused.
* `Settings.apiConfig`, `Settings.tracker` and others: the settings of the parts.
-/

namespace Harvest

open Harvest.Calendar Harvest.Admission Harvest.Text

/-! ## Reading and checking -/

/-- Why there are no settings. -/
inductive SettingsError where
  /-- The file cannot be read. -/
  | unreadable (path cause : String)
  | parse (cause : String)
  | invalid (reason : String)
deriving DecidableEq

namespace SettingsError

def message : SettingsError → String
  | .unreadable path cause => "Failed to read config file '" ++ path ++ "': " ++ cause
  | .parse cause => "Failed to parse config: " ++ cause
  | .invalid reason => "Invalid config: " ++ reason

end SettingsError

/-- The values of environment variables. -/
abbrev Environment := String → Option String

namespace Settings

/-- Reads settings. -/
def parse (s : String) : Except SettingsError Settings :=
  match decode.runString s with
  | some settings => .ok settings
  | none => .error (.parse "malformed settings")

/-- Sets what the environment overrides. To name a directory for backups enables them. -/
def override (s : Settings) (env : Environment) : Settings :=
  { s with
    api := { s.api with
      baseUrl := (env "KILLFEED_ESI_HOST").getD s.api.baseUrl
      userAgent := (env "KILLFEED_ESI_USER_AGENT").getD s.api.userAgent }
    backfill := { s.backfill with
      userAgent := (env "KILLFEED_ZKB_USER_AGENT").getD s.backfill.userAgent }
    storage := ⟨(env "KILLFEED_DATABASE").getD s.storage.database⟩
    backup :=
      match env "KILLFEED_BACKUP_DIR" with
      | some directory => ⟨true, directory⟩
      | none => s.backup
    logLevel := (env "KILLFEED_LOG_LEVEL").getD s.logLevel }

/-- The daily window of downtime. -/
def window (s : Settings) : Except SettingsError Window :=
  match Window.parse s.health.downtimeStart s.health.downtimeEnd with
  | .ok w => .ok w
  | .error e => .error (.invalid ("health downtime window: " ++ e.message))

/-- Refuses settings that the program cannot run with; the first fault counts. -/
def validate (s : Settings) : Except SettingsError Unit :=
  match s.window with
  | .error e => .error e
  | .ok _ =>
    if s.importer.maxConcurrency = 0 then
      .error (.invalid "importer.max_concurrency must be at least 1")
    else if s.api.maxAttempts = 0 then .error (.invalid "esi.max_attempts must be at least 1")
    else .ok ()

/-- The settings of a file, if one is given, under an environment. A file is given by its path and
its content, or by why it cannot be read. -/
def load (file : Option (String × Except String String)) (env : Environment) :
    Except SettingsError Settings := do
  let settings ← match file with
    | none => .ok standard
    | some (_, .ok content) => parse content
    | some (path, .error cause) => .error (.unreadable path cause)
  let settings := settings.override env
  settings.validate
  return settings

/-! ## The parts -/

def apiConfig (s : Settings) : Api.Config :=
  { baseUrl := s.api.baseUrl, userAgent := s.api.userAgent, timeout := .ofMillis s.api.timeoutMs
    retry := .of s.api.maxAttempts (.ofMillis s.api.retryBackoffMs) }

def gate (s : Settings) : Gate := ⟨s.health.pollIntervalMs, s.health.yellowPenaltyMs⟩

/-- The span of a number of seconds, which is taken as a signed word. -/
def span? (seconds : Nat) : Option Span := Span.ofSeconds? (Int.bmod seconds (twoTo 64))

/-- The settings of the tracker; the spans may be too long. -/
def tracker (s : Settings) : Except SettingsError (Except Api.OutOfRange TrackerConfig) :=
  match s.window with
  | .error e => .error e
  | .ok window =>
    match span? s.health.loadMaxAgeSecs, span? s.health.retentionSecs with
    | some loadMaxAge, some retention =>
      .ok (.ok { policy := ⟨s.health.minActiveCount, window⟩, loadMaxAge, retention })
    | _, _ => .ok (.error ⟨⟩)

def importConfig (s : Settings) (mode : Import.Mode) : Import.Config :=
  { maxConcurrency := s.importer.maxConcurrency, mode
    parties := { backup := s.backup.enabled, observer := true } }

def importPace (s : Settings) : Import.Pace := ⟨s.importer.spacingMs, s.importer.idleWaitMs⟩

def listingClient (s : Settings) : Backfill.ClientConfig :=
  { Backfill.ClientConfig.standard with
    baseUrl := s.backfill.baseUrl, userAgent := s.backfill.userAgent }

def backfillConfig (s : Settings) : Backfill.Config :=
  { dayAttempts := s.backfill.dayAttempts, maxMissingDates := s.backfill.maxMissingDates
    datePasses := s.backfill.datePasses, enqueueBatch := s.backfill.enqueueBatch, tracked := true }

def backfillPace (s : Settings) : Backfill.Pace :=
  ⟨s.backfill.dayBackoffMs, s.backfill.drainPollMs, s.backfill.pauseMs⟩

end Settings

end Harvest
