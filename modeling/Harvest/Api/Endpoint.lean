import Harvest.Api.Client
import Harvest.Killmail.Codec

/-! # Endpoints of the source

The documents that the source serves: killmails as raw bodies, its own status, and the parties
named in killmails, which are fetched only when they have changed.
-/

namespace Harvest.Api

open Harvest.Calendar Harvest.Json Harvest.Text Harvest.Admission

/-! ## Documents -/

/-- The status of the source. -/
structure ServerStatus where
  players : Int
  version : Option String
  startTime : Option Instant
  /-- Only a chosen few are admitted. -/
  vip : Option Bool
deriving DecidableEq

structure Character where
  name : String
  corporation : UInt64
  alliance : Option UInt64
  securityStatus : Option Decimal.Binary64
deriving DecidableEq

structure Corporation where
  name : String
  ticker : String
  memberCount : UInt64
  alliance : Option UInt64
deriving DecidableEq

structure Alliance where
  name : String
  ticker : String
  executorCorporation : Option UInt64
deriving DecidableEq

namespace ServerStatus

def toValue (s : ServerStatus) : Value :=
  .object [("players", .whole s.players), ("server_version", .ofOption .text s.version),
    ("start_time", .ofOption instantValue s.startTime), ("vip", .ofOption .bool s.vip)]

def decode : Decoder ServerStatus :=
  Decoder.record ["players", "server_version", "start_time", "vip"] fun m => do
    return { players := ← m.required "players" Decoder.int64
             version := ← m.orElse "server_version" (Decoder.nullable Decoder.text) none
             startTime := ← m.orElse "start_time" (Decoder.nullable instantDecoder) none
             vip := ← m.orElse "vip" (Decoder.nullable Decoder.bool) none }

/-- The load signal that the status stands for. -/
def load (s : ServerStatus) (now : Instant) : Load :=
  { activeCount := s.players, maintenance := s.vip.getD false, observedAt := now }

end ServerStatus

namespace Character

def toValue (c : Character) : Value :=
  .object [("name", .text c.name), ("corporation_id", .ofUInt64 c.corporation),
    ("alliance_id", .ofOption .ofUInt64 c.alliance),
    ("security_status", .ofOption .real c.securityStatus)]

def decode : Decoder Character :=
  Decoder.record ["name", "corporation_id", "alliance_id", "security_status"] fun m => do
    return { name := ← m.required "name" Decoder.text
             corporation := ← m.required "corporation_id" Decoder.uint64
             alliance := ← m.idOr "alliance_id"
             securityStatus := ← m.orElse "security_status" (Decoder.nullable Decoder.real) none }

end Character

namespace Corporation

def toValue (c : Corporation) : Value :=
  .object [("name", .text c.name), ("ticker", .text c.ticker),
    ("member_count", .ofUInt64 c.memberCount), ("alliance_id", .ofOption .ofUInt64 c.alliance)]

def decode : Decoder Corporation :=
  Decoder.record ["name", "ticker", "member_count", "alliance_id"] fun m => do
    return { name := ← m.required "name" Decoder.text
             ticker := ← m.required "ticker" Decoder.text
             memberCount := ← m.orElse "member_count" Decoder.uint64 0
             alliance := ← m.idOr "alliance_id" }

end Corporation

namespace Alliance

def toValue (a : Alliance) : Value :=
  .object [("name", .text a.name), ("ticker", .text a.ticker),
    ("executor_corporation_id", .ofOption .ofUInt64 a.executorCorporation)]

def decode : Decoder Alliance :=
  Decoder.record ["name", "ticker", "executor_corporation_id"] fun m => do
    return { name := ← m.required "name" Decoder.text
             ticker := ← m.required "ticker" Decoder.text
             executorCorporation := ← m.idOr "executor_corporation_id" }

end Alliance

/-! ## Calls -/

/-- A call decoded: the document, or what went wrong. -/
structure Fetched (α : Type) where
  result : Except Failure α
  reported : List Telemetry

/-- A document that may not have changed. -/
structure Conditional (α : Type) where
  /-- None when it has not changed. -/
  value : Option α
  cache : CacheDirectives

namespace Client

variable {α : Type}

/-- The raw body of a killmail. -/
def fetchKillmail (c : Config) (net : Network) (now : Instant) (w : WorkItem) :
    Except Broken (Except FetchError (List UInt8) × List Telemetry) :=
  match execute c net now (.get (Path.killmail w.id w.hash)) with
  | .error e => .error e
  | .ok call =>
    let result : Except FetchError (List UInt8) :=
      match call.info.error with
      | some f => .error ⟨call.info.status, f.message⟩
      | none =>
        if call.info.status = 200 then .ok call.body
        else .error ⟨call.info.status, "unexpected status " ++ showNat call.info.status⟩
    .ok (result, call.reported)

/-- The status of the source, with the status of the answer. -/
def serverStatus (c : Config) (net : Network) (now : Instant) :
    Except Broken (Fetched (ServerStatus × Nat)) :=
  match execute c net now (.get Path.status) with
  | .error e => .error e
  | .ok call =>
    let result : Except Failure (ServerStatus × Nat) :=
      match call.info.error with
      | some f => .error f
      | none =>
        match ServerStatus.decode.run (glyphs call.body) with
        | some s => .ok (s, call.info.status)
        | none => .error (.decode "malformed status")
    .ok { result, reported := call.reported }

/-- The load signal of the source. -/
def loadSignal (c : Config) (net : Network) (now : Instant) :
    Except Broken (Except Failure Load × List Telemetry) :=
  match serverStatus c net now with
  | .error e => .error e
  | .ok f => .ok (f.result.map fun s => s.1.load now, f.reported)

/-- A document at a path, unless it is still the version held. -/
def fetchConditional (c : Config) (net : Network) (now : Instant) (decode : Decoder α)
    (path : String) (etag : Option String) : Except Broken (Fetched (Conditional α)) :=
  match execute c net now { Request.get path with etag } with
  | .error e => .error e
  | .ok call =>
    match call.info.error with
    | some f => .ok { result := .error f, reported := call.reported }
    | none =>
      match call.info.cacheDirectives now with
      | .error _ => .error ⟨call.reported⟩
      | .ok cache =>
        if call.info.isNotModified then
          .ok { result := .ok { value := none, cache }, reported := call.reported }
        else
          let result : Except Failure (Conditional α) :=
            match decode.run (glyphs call.body) with
            | some v => .ok { value := some v, cache }
            | none => .error (.decode "malformed document")
          .ok { result, reported := call.reported }

end Client

end Harvest.Api
