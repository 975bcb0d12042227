import MapADroid.Mitm.Entry
import MapADroid.Lib.Dict
import Mathlib.Data.Finset.Basic

/- `RedisMitmMapper`, one call after another: the keys it uses in Redis and what each
   method does to them.

   What is stored as JSON is read back as it was; the two numbers read back with `int`
   are not if they were floats. -/
namespace MapADroid.Mitm
open Lib

/-- The Redis keys, and the answers `get_level` has cached in this process. -/
structure Redis (P : Type) where
  lastPossiblyMoved : Dict String Timestamp
  latestData : Dict (String × String) (LatestMitmDataEntry P)
  lastKnownLocation : Dict String (Location ℚ)
  isInjected : Dict String Bool
  lastCellIds : Dict String (List Int)
  pokestopsVisited : Dict String Int
  level : Dict String Int
  questsHeld : Dict String (Option (List Int))
  /-- The answer to a worker and when it expires. -/
  levelCached : Dict String (Int × ℚ)

namespace Redis

variable {P : Type}

def empty : Redis P where
  lastPossiblyMoved := .empty
  latestData := .empty
  lastKnownLocation := .empty
  isInjected := .empty
  lastCellIds := .empty
  pokestopsVisited := .empty
  level := .empty
  questsHeld := .empty
  levelCached := .empty

/-- The cell ids of the last GMO that changed them, none where nothing is stored. -/
def cellIds (s : Redis P) (worker : String) : List Int := (s.lastCellIds.get? worker).getD []

/-! ## Commands that set a key -/

def setLatest (s : Redis P) (worker key : String) (e : LatestMitmDataEntry P) : Redis P :=
  { s with latestData := s.latestData.insert (worker, key) e }

def setCellIds (s : Redis P) (worker : String) (ids : List Int) : Redis P :=
  { s with lastCellIds := s.lastCellIds.insert worker ids }

def setMoved (s : Redis P) (worker : String) (timestamp : Timestamp) : Redis P :=
  { s with lastPossiblyMoved := s.lastPossiblyMoved.insert worker timestamp }

def setLocation (s : Redis P) (worker : String) (location : Location ℚ) : Redis P :=
  { s with lastKnownLocation := s.lastKnownLocation.insert worker location }

/-- `set_injection_status`. -/
def setInjectionStatus (s : Redis P) (worker : String) (status : Bool) : Redis P :=
  { s with isInjected := s.isInjected.insert worker status }

/-- `set_level`. It is decorated with `cached` too, but its result is `None`, which a
cached value that answers a call never is. -/
def setLevel (s : Redis P) (worker : String) (level : Int) : Redis P :=
  { s with level := s.level.insert worker level }

def setPokestopVisits (s : Redis P) (worker : String) (visits : Int) : Redis P :=
  { s with pokestopsVisited := s.pokestopsVisited.insert worker visits }

def setQuestsHeld (s : Redis P) (worker : String) (quests : Option (List Int)) : Redis P :=
  { s with questsHeld := s.questsHeld.insert worker quests }

/-! ## Requests -/

def requestLatest (s : Redis P) (worker key : String) (earliest : Option Timestamp) :
    Option (LatestMitmDataEntry P) :=
  answersRequest (s.latestData.get? (worker, key)) earliest

/-- `get_last_possibly_moved`: `int` of the text stored, `none` where that raises since it
is the text of a float. -/
def getLastPossiblyMoved (s : Redis P) (worker : String) : Option Int :=
  match s.lastPossiblyMoved.get? worker with
  | none => some 0
  | some (.int i) => some i
  | some (.float _) => none

def getLastKnownLocation (s : Redis P) (worker : String) : Option (Location ℚ) :=
  s.lastKnownLocation.get? worker

/-- `get_injection_status`: where nothing is stored the answer is `None`, which counts as false. -/
def getInjectionStatus (s : Redis P) (worker : String) : Bool :=
  (s.isInjected.get? worker).getD false

/-- `get_level` at time `now`: the cached answer for thirty seconds, then the one stored. -/
def getLevel (s : Redis P) (now : ℚ) (worker : String) : Int × Redis P :=
  let read := (s.level.get? worker).getD 0
  let kept := { s with levelCached := s.levelCached.insert worker (read, now + 30) }
  match s.levelCached.get? worker with
  | some (level, expires) => if now < expires then (level, s) else (read, kept)
  | none => (read, kept)

/-! ## Updates -/

/-- The location of a GMO, if there is one, is the last known one. -/
def locate (s : Redis P) (worker : String) : Option (Location ℚ) → Redis P
  | some l => s.setLocation worker l
  | none => s

/-- `__parse_gmo_for_location` with the ids of the cells. -/
def parseGmoForLocation (s : Redis P) (worker : String) (ids : List Int) (timestamp : Timestamp)
    (location : Option (Location ℚ)) : Redis P :=
  if ids = [] then s
  else
    let moved :=
      if ids.toFinset ≠ (s.cellIds worker).toFinset then
        (s.setCellIds worker ids).setMoved worker timestamp
      else s
    moved.locate worker location

/-- `update_latest` at time `time`. Where the cells of a GMO cannot be read it raises
after the entry is stored. -/
def updateLatest (rd : PayloadReader P) (s : Redis P) (time : Int) (u : Update P) : Redis P :=
  if ignoresUpdate (s.requestLatest u.worker u.key none) (u.receiver time) then s
  else
    let stored := s.setLatest u.worker u.key (u.entry time)
    if u.key = gmoKey then
      match rd.cells u.value with
      | none => stored
      | some ids =>
        (stored.parseGmoForLocation u.worker ids (u.raw time) u.location).setInjectionStatus u.worker true
    else stored

end Redis

end MapADroid.Mitm
