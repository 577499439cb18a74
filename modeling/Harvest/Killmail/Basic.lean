import Harvest.Calendar.Instant
import Harvest.Decimal.Binary64
import Harvest.Killmail.WorkItem

/-! # Killmails

A killmail says who was destroyed when and where, and by whom. `Payload` is what the source
serves; `Killmail` is the stored record, which also carries the hash of its work item and two
flags derived from the attackers.
-/

namespace Harvest

open Harvest.Calendar Harvest.Decimal

/-- A place in a solar system. -/
structure Position where
  x : Binary64
  y : Binary64
  z : Binary64
deriving DecidableEq

/-- A fitted or carried item; containers hold further items. -/
structure Item where
  flag : Int64
  itemType : UInt64
  destroyed : Option UInt64
  dropped : Option UInt64
  singleton : Int64
  items : List Item

mutual

/-- Whether two items are the same, with all that they contain. -/
def Item.decideEq : (a b : Item) → Decidable (a = b)
  | ⟨flag, itemType, destroyed, dropped, singleton, items⟩,
    ⟨flag', itemType', destroyed', dropped', singleton', items'⟩ =>
    have := Item.decideEqAll items items'
    decidable_of_iff (flag = flag' ∧ itemType = itemType' ∧ destroyed = destroyed' ∧
      dropped = dropped' ∧ singleton = singleton' ∧ items = items') (by rw [Item.mk.injEq])

def Item.decideEqAll : (as bs : List Item) → Decidable (as = bs)
  | [], [] => isTrue rfl
  | [], _ :: _ | _ :: _, [] => isFalse nofun
  | a :: as, b :: bs =>
    have := Item.decideEq a b
    have := Item.decideEqAll as bs
    decidable_of_iff (a = b ∧ as = bs) (by rw [List.cons.injEq])

end

instance : DecidableEq Item := Item.decideEq

/-- The destroyed party. -/
structure Victim where
  character : Option UInt64
  corporation : Option UInt64
  alliance : Option UInt64
  faction : Option UInt64
  damageTaken : UInt64
  shipType : UInt64
  position : Option Position
  items : List Item
deriving DecidableEq

/-- One of the destroying parties. -/
structure Attacker where
  character : Option UInt64
  corporation : Option UInt64
  alliance : Option UInt64
  faction : Option UInt64
  damageDone : UInt64
  finalBlow : Bool
  securityStatus : Binary64
  shipType : Option UInt64
  weaponType : Option UInt64
deriving DecidableEq

/-- Ids of corporations below this one belong to no player. -/
def firstPlayerCorporation : UInt64 := 98000000

/-- Whether an attacker belongs to a corporation of players. -/
def Attacker.inPlayerCorporation (a : Attacker) : Bool :=
  match a.corporation with
  | some c => firstPlayerCorporation ≤ c
  | none => false

/-- A killmail as served. -/
structure Payload where
  id : UInt64
  time : Instant
  solarSystem : UInt64
  moon : Option UInt64
  war : Option UInt64
  victim : Victim
  attackers : List Attacker
deriving DecidableEq

/-- A killmail as stored. -/
structure Killmail where
  id : UInt64
  hash : String
  time : Instant
  solarSystem : UInt64
  moon : Option UInt64
  war : Option UInt64
  /-- No attacker is known to be a player. -/
  npc : Bool
  /-- The only attacker is a player. -/
  solo : Bool
  victim : Victim
  attackers : List Attacker
deriving DecidableEq

/-- Whether there are attackers, and none of them is known to be a player. -/
def npcOnly (attackers : List Attacker) : Bool :=
  !attackers.isEmpty && attackers.all (!·.inPlayerCorporation)

/-- Whether there is a single attacker, and it is a player. -/
def soloPlayer : List Attacker → Bool
  | [a] => a.inPlayerCorporation
  | _ => false

/-- The stored record of a payload fetched for a hash. -/
def Payload.toKillmail (p : Payload) (hash : String) : Killmail :=
  { id := p.id, hash, time := p.time, solarSystem := p.solarSystem, moon := p.moon, war := p.war
    npc := npcOnly p.attackers, solo := soloPlayer p.attackers
    victim := p.victim, attackers := p.attackers }

end Harvest
