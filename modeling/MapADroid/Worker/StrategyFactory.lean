import Mathlib.Data.Finset.Insert
import Mathlib.Data.Int.Order.Basic

/- `StrategyFactory`: which area a worker is to scan next.

   A device has a list of walker areas and an index into it. A lookup starts at the index,
   one back if the last area was not finished, and takes the first area whose check goes
   through, at most to the end of the list and once more from its start. The area found,
   if it is loaded, gets the worker registered, whatever becomes of the strategy that is
   then made for it. -/
namespace MapADroid.Worker

inductive AlgoType where
  | countdown | timer | round | period | coords | idle
  deriving DecidableEq, Repr

/-- A row of `settings_walkerarea`. -/
structure SettingsWalkerarea where
  areaId : Int
  algoType : AlgoType
  algoValue : Option String
  maxWalkers : Option Int
  eventid : Option Int
  deriving DecidableEq

/-- The walker of a device, and where it is in it. -/
structure DeviceMappingsEntry where
  walkerAreas : List SettingsWalkerarea
  walkerAreaIndex : Int := -1
  finished : Bool := false
  deriving DecidableEq

/-- What the check of an area depends on: the event, the other workers registered, the coords left, the rounds
done, and `check_walker_value_type` at the time. -/
structure Surroundings where
  eventId : Int
  workersRegisteredToRoute : Nat
  coordsScannable : Nat
  roundsProcessed : Int
  checkWalkerValueType : String → Bool

/-- Whether an area is to be scanned; `none` where an exception is raised. -/
def preCheckValue (int : String → Option Int) (w : SettingsWalkerarea) (u : Surroundings) : Option Bool :=
  if ∃ maxWalkers ∈ w.maxWalkers, 0 < maxWalkers ∧ maxWalkers ≤ u.workersRegisteredToRoute then some false
  else if ∃ eventid ∈ w.eventid, eventid ≠ u.eventId then some false
  else if u.workersRegisteredToRoute = 0 ∧ u.coordsScannable = 0 then some false
  else
    match w.algoType with
    | .countdown => some true
    | .round =>
      match w.algoValue with
      | none => some false
      | some value =>
        match int value with
        | none => some false
        | some rounds => some (rounds > u.roundsProcessed)
    | _ =>
      match w.algoValue with
      | none => if w.algoType = .coords then some true else none
      | some value => if value = "" then some true else some (u.checkWalkerValueType value)

structure WalkerConfiguration where
  walkerSettings : SettingsWalkerarea
  walkerIndex : Nat
  areaId : Int
  totalAreasInWalker : Nat
  deriving DecidableEq

/-- How the search for a walker area ends. -/
inductive Found where
  | raised
  | none
  | walker (c : WalkerConfiguration)
  deriving DecidableEq

/-- The loop of `__get_walker_settings` from an index, of which `k` checks have been made: what it finds, and
the index and `finished` of the device after it. -/
def preCheckLoop (check : Nat → SettingsWalkerarea → Option Bool) (areas : List SettingsWalkerarea) (k index : Nat)
    (finished loopExit : Bool) : Found × Nat × Bool :=
  if h : index < areas.length then
    let w := areas[index]
    match check k w with
    | none => (.raised, index, finished)
    | some true => (.walker ⟨w, index, w.areaId, areas.length⟩, index, finished)
    | some false =>
      if index + 1 ≥ areas.length then
        -- the settings of the device are reset, and the second time there is no area left
        if loopExit then (.none, 0, false) else preCheckLoop check areas (k + 1) 0 false true
      else preCheckLoop check areas (k + 1) (index + 1) finished loopExit
  else (.none, index, finished)
termination_by (if loopExit then 0 else areas.length) + (areas.length - index)
decreasing_by
  · rw [if_pos trivial, if_neg ‹_›]
    omega
  · split
    · omega
    · omega

/-- Back to the last area if that was not finished. -/
def updateWalkerIndex (e : DeviceMappingsEntry) : DeviceMappingsEntry :=
  if e.walkerAreaIndex > 0 ∧ ¬ e.finished then { e with walkerAreaIndex := e.walkerAreaIndex - 1 } else e

/-- `__get_walker_settings`. -/
def getWalkerSettings (int : String → Option Int) (look : Nat → Surroundings) (e : DeviceMappingsEntry) :
    Found × DeviceMappingsEntry :=
  if e.walkerAreas = [] then (.none, e)
  else
    let e := if e.walkerAreaIndex < 0 then { e with walkerAreaIndex := 0, finished := false } else e
    let e := updateWalkerIndex e
    let (found, index, finished) := preCheckLoop (fun k w => preCheckValue int w (look k)) e.walkerAreas 0
      e.walkerAreaIndex.toNat e.finished false
    (found, { e with walkerAreaIndex := index, finished })

/-- `__update_settings_of_origin`: on to the next area, and from the last to the first. -/
def updateSettingsOfOrigin (e : DeviceMappingsEntry) (c : WalkerConfiguration) : DeviceMappingsEntry :=
  { e with
    walkerAreaIndex := if c.walkerIndex + 1 ≥ c.totalAreasInWalker then 0 else c.walkerIndex + 1
    finished := false }

/-! ## Strategies -/

inductive WorkerType where
  | undefined | raidMitm | monMitm | ivMitm | stops | idle | configmode | init
  deriving DecidableEq, Repr

/-- A scan strategy: its kind, the area it is for, and the walker settings it obeys, if any. -/
structure AbstractWorkerStrategy where
  workerType : WorkerType
  areaId : Int
  walker : Option SettingsWalkerarea
  deriving DecidableEq

/-- The strategy of a worker that is not to scan. -/
def nopStrategy (walker : Option SettingsWalkerarea) : AbstractWorkerStrategy := ⟨.configmode, 0, walker⟩

end MapADroid.Worker
