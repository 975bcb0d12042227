import MapADroid.Mitm.RedisMitmMapper

/- `MitmDataHandler`, `PlayerData` and `LatestMitmDataHolder`: the store in memory. -/
namespace MapADroid.Mitm
open Lib

variable {P : Type}

/-- `LatestMitmDataHolder`. -/
abbrev LatestMitmDataHolder (P : Type) := Dict String (LatestMitmDataEntry P)

namespace LatestMitmDataHolder

def update (h : LatestMitmDataHolder P) (key : String) (value : P) (received retrieval : Timestamp)
    (location : Option (Location ℚ)) : LatestMitmDataHolder P :=
  if ignoresUpdate (h.get? key) retrieval then h
  else (h.erase key).insert key ⟨location, received, retrieval, value⟩

end LatestMitmDataHolder

structure PlayerData (P : Type) where
  level : Int
  pokeStopVisits : Int
  injected : Bool
  latestDataHolder : LatestMitmDataHolder P
  /-- The ids of the last GMO that had none in common with those before. -/
  lastCellIds : List Int
  lastPossiblyMoved : Timestamp
  lastKnownLocation : Option (Location ℚ)
  questsHeld : Option (List Int)

namespace PlayerData

/-- `PlayerData.__init__`. -/
def new : PlayerData P where
  level := 0
  pokeStopVisits := 0
  injected := false
  latestDataHolder := .empty
  lastCellIds := []
  lastPossiblyMoved := .int 0
  lastKnownLocation := none
  questsHeld := none

def getSpecificLatestData (p : PlayerData P) (key : String) (earliest : Option Timestamp) :
    Option (LatestMitmDataEntry P) :=
  answersRequest (p.latestDataHolder.get? key) earliest

/-- `__parse_gmo_for_location` with the ids of the cells. -/
def parseGmoForLocation (p : PlayerData P) (ids : List Int) (timestamp : Timestamp)
    (location : Option (Location ℚ)) : PlayerData P :=
  if ids = [] then p
  else
    let moved :=
      if ids.toFinset ∩ p.lastCellIds.toFinset = ∅ then
        { p with lastCellIds := ids, lastPossiblyMoved := timestamp }
      else p
    match location with
    | some l => { moved with lastKnownLocation := some l }
    | none => moved

/-- `update_latest`. Where the cells of a GMO cannot be read it raises after the holder is updated. -/
def updateLatest (rd : PayloadReader P) (p : PlayerData P) (key : String) (value : P)
    (received retrieval : Timestamp) (location : Option (Location ℚ)) : PlayerData P :=
  let p := { p with latestDataHolder :=
    LatestMitmDataHolder.update p.latestDataHolder key value received retrieval location }
  if key = gmoKey then
    match rd.cells value with
    | none => p
    | some ids => { p.parseGmoForLocation ids received location with injected := true }
  else p

end PlayerData

/-- `__worker_data`. -/
structure MitmDataHandler (P : Type) where
  workerData : Dict String (PlayerData P)

namespace MitmDataHandler

def empty : MitmDataHandler P := ⟨.empty⟩

/-- The data of a worker, new where there is none (`__ensure_worker_data`). -/
def player (m : MitmDataHandler P) (worker : String) : PlayerData P :=
  (m.workerData.get? worker).getD .new

def setPlayer (m : MitmDataHandler P) (worker : String) (p : PlayerData P) : MitmDataHandler P :=
  ⟨m.workerData.insert worker p⟩

theorem player_setPlayer (m : MitmDataHandler P) (worker : String) (p : PlayerData P) (w : String) :
    (m.setPlayer worker p).player w = if w = worker then p else m.player w :=
  Dict.getD_get?_insert _ _ _ _ _

/-! ## Requests -/

def requestLatest (m : MitmDataHandler P) (worker key : String) (earliest : Option Timestamp) :
    Option (LatestMitmDataEntry P) := (m.player worker).getSpecificLatestData key earliest

def getLastPossiblyMoved (m : MitmDataHandler P) (worker : String) : Timestamp :=
  (m.player worker).lastPossiblyMoved

def getLastKnownLocation (m : MitmDataHandler P) (worker : String) : Option (Location ℚ) :=
  (m.player worker).lastKnownLocation

def getLevel (m : MitmDataHandler P) (worker : String) : Int := (m.player worker).level

def getInjectionStatus (m : MitmDataHandler P) (worker : String) : Bool := (m.player worker).injected

def getPokeStopVisits (m : MitmDataHandler P) (worker : String) : Int := (m.player worker).pokeStopVisits

def getQuestsHeld (m : MitmDataHandler P) (worker : String) : Option (List Int) := (m.player worker).questsHeld

/-! ## Updates -/

/-- `update_latest` at time `time`. -/
def updateLatest (rd : PayloadReader P) (m : MitmDataHandler P) (time : Int) (u : Update P) :
    MitmDataHandler P :=
  m.setPlayer u.worker
    ((m.player u.worker).updateLatest rd u.key u.value (u.raw time) (u.receiver time) u.location)

def setInjectionStatus (m : MitmDataHandler P) (worker : String) (status : Bool) : MitmDataHandler P :=
  m.setPlayer worker { m.player worker with injected := status }

def setLevel (m : MitmDataHandler P) (worker : String) (level : Int) : MitmDataHandler P :=
  m.setPlayer worker { m.player worker with level := level }

def setPokestopVisits (m : MitmDataHandler P) (worker : String) (visits : Int) : MitmDataHandler P :=
  m.setPlayer worker { m.player worker with pokeStopVisits := visits }

def setQuestsHeld (m : MitmDataHandler P) (worker : String) (quests : Option (List Int)) :
    MitmDataHandler P :=
  m.setPlayer worker { m.player worker with questsHeld := quests }

end MitmDataHandler

end MapADroid.Mitm
