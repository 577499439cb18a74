import Harvest.Calendar.DayKey
import Harvest.Calendar.Timestamp
import Harvest.Json.Encoder
import Harvest.Killmail.Basic

/-! # Killmails as documents

The written form of payloads and stored killmails: fields in a fixed order, ids of parties left
out when unknown.
-/

namespace Harvest

open Harvest.Calendar Harvest.Json

/-! ## Values of fields -/

/-- An instant as its text. -/
def instantDecoder : Decoder Instant := Decoder.textWith Instant.ofString?

/-- A signed word of 64 bits. -/
def wordDecoder : Decoder Int64 := fun d t => (Decoder.int64 d t).map Int64.ofInt

def instantValue (t : Instant) : Value := .text t.iso

/-- A range of instants as its two ends. -/
def rangeValue (r : Range) : Value :=
  .object [("start", instantValue r.start), ("end", instantValue r.stop)]

def rangeDecoder : Decoder Range :=
  Decoder.record ["start", "end"] fun m => do
    return { start := ← m.required "start" instantDecoder
             stop := ← m.required "end" instantDecoder }

/-- A field of an id that may be unknown. -/
def Json.Members.idOr (m : Members) (name : String) : Option (Option UInt64) :=
  m.orElse name (Decoder.nullable Decoder.uint64) none

/-- The member of an id that is left out when unknown. -/
def idMember (name : String) : Option UInt64 → List (String × Value) :=
  presentMember name Value.ofUInt64

/-! ## Positions and items -/

def Position.toValue (p : Position) : Value :=
  .object [("x", .real p.x), ("y", .real p.y), ("z", .real p.z)]

def Position.decode : Decoder Position :=
  Decoder.record ["x", "y", "z"] fun m => do
    return { x := ← m.required "x" Decoder.real
             y := ← m.required "y" Decoder.real
             z := ← m.required "z" Decoder.real }

mutual

def Item.toValue : Item → Value
  | ⟨flag, itemType, destroyed, dropped, singleton, items⟩ =>
    .object <|
      [("flag", .ofInt64 flag), ("item_type_id", .ofUInt64 itemType)]
        ++ idMember "quantity_destroyed" destroyed
        ++ idMember "quantity_dropped" dropped
        ++ [("singleton", .ofInt64 singleton)]
        ++ (if items.isEmpty then [] else [("items", .array (Item.toValues items))])

def Item.toValues : List Item → List Value
  | [] => []
  | i :: is => i.toValue :: Item.toValues is

end

/-- Items with at most `nesting` levels of containers. -/
def Item.decodeNested : Nat → Decoder Item
  | 0 => fun _ _ => none
  | nesting + 1 =>
    Decoder.record
      ["flag", "item_type_id", "quantity_destroyed", "quantity_dropped", "singleton", "items"]
      fun m => do
        return { flag := ← m.required "flag" wordDecoder
                 itemType := ← m.required "item_type_id" Decoder.uint64
                 destroyed := ← m.idOr "quantity_destroyed"
                 dropped := ← m.idOr "quantity_dropped"
                 singleton := ← m.orElse "singleton" wordDecoder 0
                 items := ← m.orElse "items" (Decoder.list (Item.decodeNested nesting)) [] }

/-- An item opens a level of its own, so no deeper nesting can occur. -/
def Item.decode : Decoder Item := fun d t => Item.decodeNested (d + 1) d t

/-! ## Parties -/

def Victim.toValue (v : Victim) : Value :=
  .object <|
    idMember "character_id" v.character
      ++ idMember "corporation_id" v.corporation
      ++ idMember "alliance_id" v.alliance
      ++ idMember "faction_id" v.faction
      ++ [("damage_taken", .ofUInt64 v.damageTaken), ("ship_type_id", .ofUInt64 v.shipType)]
      ++ presentMember "position" Position.toValue v.position
      ++ [("items", .array (Item.toValues v.items))]

def Victim.decode : Decoder Victim :=
  Decoder.record
    ["character_id", "corporation_id", "alliance_id", "faction_id", "damage_taken",
      "ship_type_id", "position", "items"]
    fun m => do
      return { character := ← m.idOr "character_id"
               corporation := ← m.idOr "corporation_id"
               alliance := ← m.idOr "alliance_id"
               faction := ← m.idOr "faction_id"
               damageTaken := ← m.orElse "damage_taken" Decoder.uint64 0
               shipType := ← m.required "ship_type_id" Decoder.uint64
               position := ← m.orElse "position" (Decoder.nullable Position.decode) none
               items := ← m.orElse "items" (Decoder.list Item.decode) [] }

def Attacker.toValue (a : Attacker) : Value :=
  .object <|
    idMember "character_id" a.character
      ++ idMember "corporation_id" a.corporation
      ++ idMember "alliance_id" a.alliance
      ++ idMember "faction_id" a.faction
      ++ [("damage_done", .ofUInt64 a.damageDone), ("final_blow", .bool a.finalBlow),
          ("security_status", .real a.securityStatus)]
      ++ idMember "ship_type_id" a.shipType
      ++ idMember "weapon_type_id" a.weaponType

def Attacker.decode : Decoder Attacker :=
  Decoder.record
    ["character_id", "corporation_id", "alliance_id", "faction_id", "damage_done", "final_blow",
      "security_status", "ship_type_id", "weapon_type_id"]
    fun m => do
      return { character := ← m.idOr "character_id"
               corporation := ← m.idOr "corporation_id"
               alliance := ← m.idOr "alliance_id"
               faction := ← m.idOr "faction_id"
               damageDone := ← m.orElse "damage_done" Decoder.uint64 0
               finalBlow := ← m.orElse "final_blow" Decoder.bool false
               securityStatus := ← m.orElse "security_status" Decoder.real Decimal.Binary64.zero
               shipType := ← m.idOr "ship_type_id"
               weaponType := ← m.idOr "weapon_type_id" }

/-! ## Killmails -/

def Payload.toValue (p : Payload) : Value :=
  .object <|
    [("killmail_id", .ofUInt64 p.id), ("killmail_time", instantValue p.time),
      ("solar_system_id", .ofUInt64 p.solarSystem)]
      ++ idMember "moon_id" p.moon
      ++ idMember "war_id" p.war
      ++ [("victim", p.victim.toValue), ("attackers", .ofList Attacker.toValue p.attackers)]

def Payload.decode : Decoder Payload :=
  Decoder.record
    ["killmail_id", "killmail_time", "solar_system_id", "moon_id", "war_id", "victim",
      "attackers"]
    fun m => do
      return { id := ← m.required "killmail_id" Decoder.uint64
               time := ← m.required "killmail_time" instantDecoder
               solarSystem := ← m.required "solar_system_id" Decoder.uint64
               moon := ← m.idOr "moon_id"
               war := ← m.idOr "war_id"
               victim := ← m.required "victim" Victim.decode
               attackers := ← m.orElse "attackers" (Decoder.list Attacker.decode) [] }

def Killmail.toValue (k : Killmail) : Value :=
  .object
    [("id", .ofUInt64 k.id), ("hash", .text k.hash), ("killmail_time", instantValue k.time),
      ("solar_system_id", .ofUInt64 k.solarSystem),
      ("moon_id", .ofOption .ofUInt64 k.moon), ("war_id", .ofOption .ofUInt64 k.war),
      ("is_npc", .bool k.npc), ("is_solo", .bool k.solo),
      ("victim", k.victim.toValue), ("attackers", .ofList Attacker.toValue k.attackers)]

def Killmail.decode : Decoder Killmail :=
  Decoder.record
    ["id", "hash", "killmail_time", "solar_system_id", "moon_id", "war_id", "is_npc", "is_solo",
      "victim", "attackers"]
    fun m => do
      return { id := ← m.required "id" Decoder.uint64
               hash := ← m.required "hash" Decoder.text
               time := ← m.required "killmail_time" instantDecoder
               solarSystem := ← m.required "solar_system_id" Decoder.uint64
               moon := ← m.optional "moon_id" Decoder.uint64
               war := ← m.optional "war_id" Decoder.uint64
               npc := ← m.required "is_npc" Decoder.bool
               solo := ← m.required "is_solo" Decoder.bool
               victim := ← m.required "victim" Victim.decode
               attackers := ← m.required "attackers" (Decoder.list Attacker.decode) }

/-- The stored text of a killmail. -/
def Killmail.write (k : Killmail) : String := k.toValue.write

/-- Reads the stored text of a killmail. -/
def Killmail.read? (s : String) : Option Killmail := Killmail.decode.runString s

end Harvest
