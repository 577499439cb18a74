import Harvest.Killmail.Codec

/-! # Decoding fetched killmails

The body that the source serves for a work item becomes a stored killmail. The body must name the
killmail that was asked for.
-/

namespace Harvest

open Harvest.Text Harvest.Json

/-- Why a body is no killmail of a work item. -/
inductive DecodeError where
  /-- The body is no payload. -/
  | malformed
  /-- The body is the payload of another killmail. -/
  | otherKillmail (expected got : UInt64)
deriving DecidableEq

def DecodeError.message : DecodeError → String
  | .malformed => "Payload could not be decoded"
  | .otherKillmail expected got =>
    "Payload is for killmail " ++ showNat got.toNat ++ ", expected " ++ showNat expected.toNat

/-- The stored killmail of a payload that was fetched for a work item. -/
def WorkItem.accept (w : WorkItem) (p : Payload) : Except DecodeError Killmail :=
  if p.id = w.id then .ok (p.toKillmail w.hash) else .error (.otherKillmail w.id p.id)

/-- The stored killmail of a body that was fetched for a work item. -/
def WorkItem.decodeBody (w : WorkItem) (body : List UInt8) : Except DecodeError Killmail :=
  match Payload.decode.run (glyphs body) with
  | some p => w.accept p
  | none => .error .malformed

end Harvest
