import MapADroid.Lib.Dict
import MapADroid.Lib.Run
import MapADroid.Lib.Trace
import MapADroid.PrioQueue.Spawns

/- `DbPogoProtoSubmit.spawnpoints`: what is learned of a spawnpoint from the wild mons seen at it.

   A session reads the rows of the spawnpoints of a proto, changes them, and commits. A
   commit writes the columns that the session changed to the rows as they are by then, and
   adds the new rows; it fails where a changed row is gone or a new one is there already.
   Sessions overlap in any way, so what one of them learned can be overwritten by another;
   rows are also converted to another event and deleted in between.

   The lower half of `spawndef` says in which quarters of an hour the spawnpoint was seen
   and the upper half in which it was not. -/
namespace MapADroid.Mons
open Lib

variable {L : Type}

/-- A row of `trs_spawn`; of `calc_endminsec` the two numbers. -/
structure TrsSpawn (L : Type) where
  location : L
  spawndef : Int
  earliestUnseen : Int
  lastScanned : Option Int
  /-- Set by the database where it is none. -/
  firstDetection : Option Int
  lastNonScanned : Option Int
  calcEndminsec : Option (Fin 60 × Fin 60)
  eventid : Int
  deriving DecidableEq

/-- A mon of `wild_pokemon`, and the clock as it is handled: where the quarter is taken, and at the end. -/
structure WildPokemon where
  /-- `none` where it is no hexadecimal number. -/
  spawnpointId : Option Int
  timeTillHidden : Int
  now : Int
  nowAtEnd : Int

/-- `default_spawndef`: seen in no quarter. -/
def defaultSpawndef : Int := 240

/-- `_get_current_spawndef_pos`. -/
def getCurrentSpawndefPos (now : Int) : Option Nat :=
  let minuteValue := now % 3600 / 60
  if minuteValue < 15 then some 4
  else if minuteValue < 30 then some 5
  else if minuteValue < 45 then some 6
  else if minuteValue < 60 then some 7
  else none

/-- An item of a `BitArray`, counted from the most significant bit. -/
def setItem (bits : BitVec 8) (i : Nat) (b : Bool) : BitVec 8 :=
  if b then bits ||| BitVec.twoPow 8 (7 - i) else bits &&& ~~~BitVec.twoPow 8 (7 - i)

/-- The two items of a quarter. -/
def setSeen (bits : BitVec 8) (pos : Option Nat) (p : Nat) : BitVec 8 :=
  if pos = some p then setItem (setItem bits (p - 4) false) p true else bits

/-- `_set_spawn_see_minutesgroup`; a number that has no eight bits raises. -/
def setSpawnSeeMinutesgroup (spawndef : Int) (pos : Option Nat) : Option Int :=
  if 0 ≤ spawndef ∧ spawndef < 256 then
    some (setSeen (setSeen (setSeen (setSeen (BitVec.ofInt 8 spawndef) pos 4) pos 5) pos 6) pos 7).toNat
  else none

/-- The end of a mon is known. -/
def WildPokemon.timed (mon : WildPokemon) : Bool := 0 ≤ mon.timeTillHidden && mon.timeTillHidden ≤ 90000

/-- `calcendtime`: the minute and the second the mon is hidden at. -/
def calcendtime (receivedTimestamp timeTillHidden : Int) : Fin 60 × Fin 60 :=
  let second := receivedTimestamp + timeTillHidden / 1000
  (⟨(second % 3600 / 60).toNat, by omega⟩, ⟨(second % 60).toNat, by omega⟩)

/-- The row of a spawnpoint learns its quarters during its own event, and from another event where neither
is the default one. -/
def eventCounts (currentEvent eventid : Int) : Bool := currentEvent = eventid || currentEvent ≠ 1 && eventid ≠ 1

/-- A row that there is already; an exception without an event. -/
def updateSpawn (receivedTimestamp : Int) (currentEvent : Option Int) (mon : WildPokemon) (spawn : TrsSpawn L) :
    Option (TrsSpawn L) :=
  (setSpawnSeeMinutesgroup spawn.spawndef (getCurrentSpawndefPos mon.now)).bind fun newspawndef =>
    currentEvent.map fun event =>
      let spawndef := if eventCounts event spawn.eventid then newspawndef else spawn.spawndef
      if mon.timed then
        { spawn with
          earliestUnseen := min spawn.earliestUnseen mon.timeTillHidden
          spawndef
          lastScanned := some receivedTimestamp
          calcEndminsec := some (calcendtime receivedTimestamp mon.timeTillHidden) }
      else { spawn with spawndef, lastNonScanned := some mon.nowAtEnd }

/-- A new row. -/
def newSpawn (location : L) (receivedTimestamp : Int) (currentEvent : Option Int) (mon : WildPokemon) :
    Option (TrsSpawn L) :=
  (setSpawnSeeMinutesgroup defaultSpawndef (getCurrentSpawndefPos mon.now)).map fun newspawndef =>
    if mon.timed then
      { location
        spawndef := newspawndef
        earliestUnseen := mon.timeTillHidden
        lastScanned := some receivedTimestamp
        firstDetection := some receivedTimestamp
        lastNonScanned := none
        calcEndminsec := some (calcendtime receivedTimestamp mon.timeTillHidden)
        eventid := currentEvent.getD 1 }
    else
      { location
        spawndef := newspawndef
        earliestUnseen := 99999999
        lastScanned := none
        firstDetection := none
        lastNonScanned := some mon.nowAtEnd
        calcEndminsec := none
        eventid := currentEvent.getD 1 }

/-- What was seen at a spawnpoint: the quarter, whether the event counted, and where the end was known the
time left and the end. -/
structure Sighting where
  pos : Option Nat
  counted : Bool
  timed : Option (Int × (Fin 60 × Fin 60))
  deriving DecidableEq

inductive SpawnEvent where
  | sighted (s : Sighting)
  | gone
  deriving DecidableEq

def sighting (receivedTimestamp : Int) (counted : Bool) (mon : WildPokemon) : Sighting where
  pos := getCurrentSpawndefPos mon.now
  counted
  timed := if mon.timed then some (mon.timeTillHidden, calcendtime receivedTimestamp mon.timeTillHidden) else none

/-- The rows a session has read, what it made of them, and its new rows. -/
structure SpawnSession (L : Type) where
  read : Dict Int (TrsSpawn L)
  spawndef : Dict Int (TrsSpawn L)
  added : List (Int × TrsSpawn L)
  /-- What was seen, a history variable. -/
  sightings : List (Int × SpawnEvent)

/-- One mon of the loop. -/
def handleWild (position : Int → L) (receivedTimestamp : Int) (currentEvent : Option Int) (session : SpawnSession L)
    (mon : WildPokemon) : Option (SpawnSession L) :=
  mon.spawnpointId.bind fun spawnid =>
    match session.spawndef.get? spawnid with
    | some spawn =>
      (updateSpawn receivedTimestamp currentEvent mon spawn).map fun updated =>
        { session with
          spawndef := session.spawndef.insert spawnid updated
          sightings := session.sightings ++
            [(spawnid, .sighted (sighting receivedTimestamp (currentEvent.any (eventCounts · spawn.eventid)) mon))] }
    | none =>
      (newSpawn (position spawnid) receivedTimestamp currentEvent mon).map fun new =>
        { session with
          added := session.added ++ [(spawnid, new)]
          sightings := session.sightings ++ [(spawnid, .sighted (sighting receivedTimestamp true mon))] }

/-- `spawnpoints`, of the mons of all cells: the rows are read, then the loop; `none` where an exception is raised. -/
def spawnpoints (position : Int → L) (receivedTimestamp : Int) (currentEvent : Option Int) (wild : List WildPokemon)
    (table : Dict Int (TrsSpawn L)) : Option (SpawnSession L) :=
  let read := table.filter fun k _ => wild.any fun mon => mon.spawnpointId = some k
  wild.foldlM (handleWild position receivedTimestamp currentEvent) ⟨read, read, [], []⟩

/-! ## The table -/

/-- A column that the session changed. -/
def written {υ : Type} [DecidableEq υ] (read now current : υ) : υ := if now = read then current else now

/-- The row as it is by the commit, with the columns that the session changed. -/
def writeRow (read now current : TrsSpawn L) : TrsSpawn L :=
  { current with
    spawndef := written read.spawndef now.spawndef current.spawndef
    earliestUnseen := written read.earliestUnseen now.earliestUnseen current.earliestUnseen
    lastScanned := written read.lastScanned now.lastScanned current.lastScanned
    lastNonScanned := written read.lastNonScanned now.lastNonScanned current.lastNonScanned
    calcEndminsec := written read.calcEndminsec now.calcEndminsec current.calcEndminsec }

/-- Some column of the row was changed. -/
def rowChanged (read now : TrsSpawn L) : Bool :=
  read.spawndef ≠ now.spawndef || read.earliestUnseen ≠ now.earliestUnseen || read.lastScanned ≠ now.lastScanned ||
    read.lastNonScanned ≠ now.lastNonScanned || read.calcEndminsec ≠ now.calcEndminsec

/-- The commit goes through: no row that was changed is gone, and the new rows are new, each a row of its own. -/
def SpawnSession.commits (session : SpawnSession L) (table : Dict Int (TrsSpawn L)) : Bool :=
  (session.spawndef.items.all fun i =>
    (session.read.get? i.1).all fun read => !rowChanged read i.2 || (table.get? i.1).isSome) &&
  decide (session.added.map Prod.fst).Nodup && session.added.all fun i => (table.get? i.1).isNone

def SpawnSession.commit (session : SpawnSession L) (table : Dict Int (TrsSpawn L)) : Dict Int (TrsSpawn L) :=
  (table.mapValues fun k current =>
    match session.read.get? k, session.spawndef.get? k with
    | some read, some now => writeRow read now current
    | _, _ => current).update (.ofList session.added)

/-- The table and the sessions that have not ended. -/
structure Spawns (L : Type) where
  table : Dict Int (TrsSpawn L)
  session : Nat → Option (SpawnSession L)
  /-- What was committed, and which rows were deleted: a history variable. -/
  history : List (Int × SpawnEvent)

inductive SpawnAction where
  | spawnpoints (n : Nat) (receivedTimestamp : Int) (currentEvent : Option Int) (wild : List WildPokemon)
  | commit (n : Nat)
  | rollback (n : Nat)
  /-- `convert_spawnpoints`. -/
  | convertSpawnpoints (spawnpointIds : List Int) (eventId : Int)
  /-- `delete_all_except`. -/
  | deleteAllExcept (spawns : List Int)
  /-- `delete_including_spawns`, of an event that there is. -/
  | deleteIncludingSpawns (eventId : Int)

namespace Spawns

def init : Spawns L := ⟨.empty, fun _ => none, []⟩

/-- The rows that are kept; those that are not are gone. -/
def keep (s : Spawns L) (p : Int → TrsSpawn L → Bool) : Spawns L :=
  { s with
    table := s.table.filter p
    history := s.history ++ (s.table.items.filter fun i => !p i.1 i.2).map fun i => (i.1, .gone) }

def endSession (s : Spawns L) (n : Nat) : Spawns L := { s with session := Function.update s.session n none }

/-- The commit of a session, or its failure. -/
def commit (s : Spawns L) (n : Nat) (session : SpawnSession L) : Spawns L :=
  if session.commits s.table then
    { s.endSession n with table := session.commit s.table, history := s.history ++ session.sightings }
  else s.endSession n

def step (position : Int → L) (s : Spawns L) : SpawnAction → Option (Spawns L)
  | .spawnpoints n receivedTimestamp currentEvent wild =>
    match s.session n with
    | some _ => none
    | none =>
      let session := Mons.spawnpoints position receivedTimestamp currentEvent wild s.table
      some { s with session := Function.update s.session n session }
  | .commit n => (s.session n).map (s.commit n)
  | .rollback n => (s.session n).map fun _ => s.endSession n
  | .convertSpawnpoints spawnpointIds eventId =>
    let convert k (row : TrsSpawn L) := if k ∈ spawnpointIds then { row with eventid := eventId } else row
    some { s with table := s.table.mapValues convert }
  | .deleteAllExcept spawns => some (s.keep fun k _ => k ∈ spawns)
  | .deleteIncludingSpawns eventId => some (s.keep fun _ row => row.eventid ≠ eventId)

end Spawns

end MapADroid.Mons
