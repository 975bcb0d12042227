import Mathlib.Algebra.Field.Rat
import Mathlib.Logic.Function.Basic
import MapADroid.Lib.Run
import MapADroid.Route.Pool

/- A route manager and the workers that ask it for locations (`RouteManagerBase`).

   A call of `get_next_location` can be switched away from at its awaits and nowhere
   else, so it is described by the await it is suspended at (`Call`), and one action
   runs it to its next await. An update of the routepool is two actions: it starts, which
   pickles the routepool and divides the route among the copies, and it finishes, which
   puts the copies in place of the entries. `_manager_mutex` admits one update at a time;
   everything else goes on meanwhile.

   The entries are Python objects. A call keeps the one it found when it began, which is
   not the one in the routepool any more once an update has finished. A `Ref` names an
   object by the update, or the call, that made it and by its worker.

   The manager is not shutting down. A call checks that the worker is registered, and may
   then have to wait for `start_routemanager` or for the end of a calculation before it
   looks at the routepool; it does not check again. What the prio queue yields, which
   coords are left, what `RoutecalcUtil` calculates and what clocks read is left to the
   actions. -/
namespace MapADroid.Route
open Lib

/-- A reference to a `RoutePoolEntry`. -/
structure Ref where
  made : Nat
  origin : Origin
  deriving DecidableEq, Repr

/-- Where a call of `get_next_location` is suspended. -/
inductive Call (K : Type) where
  /-- Nowhere: there is no call, and the last one returned this. -/
  | returned (location : Option (Location K))
  /-- It awaits `start_routemanager` or `_wait_for_calc_end`. -/
  | waiting
  /-- It created its entry and awaits `_update_routepool`. -/
  | joining
  /-- It awaits `pop_event`, not for the first time if an event was passed on or is
  invalid. -/
  | popping (r : Ref) (again : Bool)
  /-- It awaits `_any_coords_left_after_finishing_route`. -/
  | leaving (r : Ref)
  /-- It awaits `calculate_route`, up to the update. -/
  | recalculating (r : Ref)
  /-- It awaits the update of `calculate_route`. -/
  | replacing (r : Ref)
  /-- It awaits `_update_routepool` to get a new queue. -/
  | refilling (r : Ref)
  deriving DecidableEq

/-- The entry a suspended call keeps. -/
def Call.ref? {K : Type} : Call K → Option Ref
  | returned _ | waiting | joining => none
  | popping r _ | leaving r | recalculating r | replacing r | refilling r => some r

/-- There is no call. -/
def Call.idle {K : Type} : Call K → Bool
  | returned _ => true
  | _ => false

/-- There is no call, or it has not looked up its entry yet. -/
def Call.away {K : Type} : Call K → Bool
  | returned _ | waiting => true
  | _ => false

/-- An update in progress: the call that awaits it, if one does, and the copies. -/
structure Update (K : Type) where
  holder : Option Origin
  pool : Routepool K

/-- `RouteManagerBase`. -/
structure State (K : Type) where
  heap : Ref → RoutePoolEntry K
  /-- The references made before are in use. -/
  next : Nat
  routepool : Dict Origin Ref
  route : List (Location K)
  currentRouteRoundCoords : List (Location K)
  coordsToBeIgnored : List (Location K)
  stoplist : List (Location K)
  workersRegistered : List Origin
  workerStartPosition : Dict Origin (Location K)
  roundcount : ℚ
  updating : Option (Update K)
  calls : Origin → Call K
  /-- The latest read of the clock. -/
  time : ℚ

/-- What the subclasses decide; `_check_coords_before_returning` is given the stoplist
and the coords to be ignored. -/
structure Manager (K : Type) where
  hasPrioQueue : Bool
  starveRoute : Bool
  deleteCoordAfterFetch : Bool
  shouldGetNewCoordsAfterFinishingRoute : Bool
  checkCoordsBeforeReturning : List (Location K) → List (Location K) → Location K → Bool

/-- `RouteManagerMon` and `RouteManagerRaids`. -/
def normalManager (K : Type) (hasPrioQueue starveRoute : Bool) : Manager K where
  hasPrioQueue := hasPrioQueue
  starveRoute := starveRoute
  deleteCoordAfterFetch := false
  shouldGetNewCoordsAfterFinishingRoute := false
  checkCoordsBeforeReturning _ _ _ := true

inductive Action (K : Type) where
  /-- `get_next_location` with nothing to wait for, to its first await. -/
  | getNextLocation (w : Origin) (now : ℚ)
  /-- `get_next_location`, to the await of `start_routemanager` or `_wait_for_calc_end`. -/
  | awaitStart (w : Origin)
  /-- The routemanager is started, and no calculation is in progress. -/
  | started (w : Origin) (now : ℚ)
  /-- `start_routemanager` failed, or the calculation took too long. -/
  | notStarted (w : Origin)
  /-- `pop_event` returned an event. -/
  | popEvent (w : Origin) (timestampDue : ℚ) (location : Location K) (now : ℚ)
  /-- `pop_event` raised. -/
  | noEvent (w : Origin)
  /-- `_any_coords_left_after_finishing_route` returned. -/
  | anyCoordsLeft (w : Origin) (left : Bool)
  /-- `calculate_route` of the call has the new route and starts its update. -/
  | calculated (w : Origin) (newRoute : List (Location K))
  /-- `_update_routepool` of the call has the mutex and starts. -/
  | startUpdate (w : Origin)
  /-- The update in progress finishes. -/
  | finishUpdate
  /-- `calculate_route` of `RouteManagerQuests` fetched the stops. -/
  | fetchStops (locationsOfStops : List (Location K))
  /-- `calculate_route` from elsewhere has the new route and starts its update. -/
  | calculateRoute (newRoute : List (Location K))
  | registerWorker (w : Origin)
  | unregisterWorker (w : Origin) (removeRoutepoolEntry : Bool)
  | redoStopImmediately (w : Origin) (location : Location K)
  | redoStopAtEnd (w : Origin) (location : Location K)
  | addCoordToBeRemoved (location : Location K)
  | setWorkerStartposition (w : Origin) (location : Location K)

variable {K : Type}

/-- `RouteManagerQuests`. -/
def questManager [LinearOrder K] (g : Geo K) (maxClustering : Nat) (maxRadius : K) : Manager K where
  hasPrioQueue := false
  starveRoute := false
  deleteCoordAfterFetch := true
  shouldGetNewCoordsAfterFinishingRoute := true
  checkCoordsBeforeReturning stoplist ignored stop :=
    let inRange := stop ∈ stoplist ||
      maxClustering ≠ 1 && stoplist.any fun s => g.distance s stop < maxRadius
    !(stop ∈ ignored || !inRange)

/-- `statistics.median` of numbers, of which there are some. -/
def median (data : List Nat) : ℚ :=
  let data := data.insertionSort (· ≤ ·)
  let n := data.length
  if n % 2 = 1 then (data.getD (n / 2) 0 : ℚ)
  else ((data.getD (n / 2 - 1) 0 : ℚ) + (data.getD (n / 2) 0 : ℚ)) / 2

/-- The loop that takes locations off a queue until one is to be visited. -/
def popGood (check : Location K → Bool) :
    List (Location K) → Option (Location K) × List (Location K)
  | [] => (none, [])
  | nextCoord :: queue => if check nextCoord then (some nextCoord, queue) else popGood check queue

namespace State

def setEntry (s : State K) (r : Ref) (entry : RoutePoolEntry K) : State K :=
  { s with heap := Function.update s.heap r entry }

/-- Assignments to fields of an entry. -/
def modifyEntry (s : State K) (r : Ref) (f : RoutePoolEntry K → RoutePoolEntry K) : State K :=
  s.setEntry r (f (s.heap r))

def setCall (s : State K) (w : Origin) (call : Call K) : State K :=
  { s with calls := Function.update s.calls w call }

def setUpdating (s : State K) (updating : Option (Update K)) : State K :=
  { s with updating }

section
variable (s : State K) (r : Ref) (entry : RoutePoolEntry K) (w : Origin) (call : Call K)
  (f : RoutePoolEntry K → RoutePoolEntry K)

@[simp] theorem setEntry_heap_self : (s.setEntry r entry).heap r = entry :=
  Function.update_self ..

theorem setEntry_heap_of_ne {r' : Ref} (h : r' ≠ r) : (s.setEntry r entry).heap r' = s.heap r' :=
  Function.update_of_ne h ..

@[simp] theorem modifyEntry_heap_self : (s.modifyEntry r f).heap r = f (s.heap r) :=
  setEntry_heap_self ..

theorem modifyEntry_heap_of_ne {r' : Ref} (h : r' ≠ r) :
    (s.modifyEntry r f).heap r' = s.heap r' := setEntry_heap_of_ne _ _ _ h

@[simp] theorem setCall_calls_self : (s.setCall w call).calls w = call :=
  Function.update_self ..

theorem setCall_calls_of_ne {v : Origin} (h : v ≠ w) : (s.setCall w call).calls v = s.calls v :=
  Function.update_of_ne h ..

@[simp] theorem modifyEntry_routepool : (s.modifyEntry r f).routepool = s.routepool := rfl
@[simp] theorem setCall_heap : (s.setCall w call).heap = s.heap := rfl
@[simp] theorem setUpdating_calls (updating : Option (Update K)) :
    (s.setUpdating updating).calls = s.calls := rfl

end

def setTime (s : State K) (now : ℚ) : State K := { s with time := now }

/-- The entry of a worker in the routepool. -/
def entryOf? (s : State K) (w : Origin) : Option (RoutePoolEntry K) :=
  (s.routepool.get? w).map s.heap

/-- The routepool as it is pickled. -/
def pickled (s : State K) : Routepool K := s.routepool.mapValues fun _ r => s.heap r

/-- `self._routepool = new_routepool`. -/
def install (s : State K) (pool : Routepool K) : State K :=
  { s with
    heap := fun r => if r.made = s.next then (pool.get? r.origin).getD (s.heap r) else s.heap r
    next := s.next + 1
    routepool := pool.mapValues fun origin _ => ⟨s.next, origin⟩ }

variable [LinearOrder K]

/-- `coords_to_use`. -/
def coordsToUse (s : State K) : List (Location K) :=
  s.currentRouteRoundCoords.filter fun location => location ∉ s.coordsToBeIgnored

/-- `_worker_changed_update_routepools`, up to the await of the executor. -/
def workerChanged (g : Geo K) (s : State K) : Option (Routepool K) :=
  updatedRoutepool g s.coordsToUse s.pickled

/-- `__set_routepool_entry_location`. -/
def setRoutepoolEntryLocation (s : State K) (origin : Origin) (pos : Location K) : State K :=
  match s.routepool.get? origin with
  | none => s
  | some r => s.modifyEntry r fun entry => { entry with currentPos := pos }

/-- `_get_worker_rounds_run_through`. -/
def getWorkerRoundsRunThrough (s : State K) : ℚ :=
  let temp := s.routepool.items.map fun i => (s.heap i.2).rounds
  if temp.length = 0 then 0 else median temp

/-- `_check_coords_before_returning`. -/
def checkCoords (m : Manager K) (s : State K) (location : Location K) : Bool :=
  m.checkCoordsBeforeReturning s.stoplist s.coordsToBeIgnored location

/-- What `_check_coord_and_remove_from_route_if_applicable` does to a coord that is to be
visited. -/
def removeFromRoute (m : Manager K) (s : State K) (nextCoord : Location K) : State K :=
  if m.deleteCoordAfterFetch then
    { s with
      currentRouteRoundCoords := s.currentRouteRoundCoords.filter fun coord => coord ≠ nextCoord }
  else s

/-- The loop of `_other_worker_closer_to_prioq`: the distance to beat, and who beat it. -/
def closerWorker (g : Geo K) (heap : Ref → RoutePoolEntry K) (prioqcoord : Location K)
    (origin : Origin) (originEntry : RoutePoolEntry K) :
    List (Origin × Ref) → K × Option Origin → K × Option Origin
  | [], temp => temp
  | (worker, r) :: rest, temp =>
    let entry := heap r
    let prioDistance := g.distance entry.currentPos prioqcoord
    closerWorker g heap prioqcoord origin originEntry rest
      (if worker = origin || entry.prioCoord.isSome || originEntry.lastPositionType = .prioq then temp
      else if prioDistance < temp.1 then (prioDistance, some worker)
      else temp)

/-- The worker `_other_worker_closer_to_prioq` passes the event to, if it does. -/
def otherWorkerCloserToPrioq (g : Geo K) (s : State K) (prioqcoord : Location K)
    (origin : Origin) : Option Origin :=
  if s.routepool.items.length = 1 then none
  else match s.entryOf? origin with
    | none => none
    | some entry => (closerWorker g s.heap prioqcoord origin entry s.routepool.items
        (g.distance entry.currentPos prioqcoord, none)).2

/-- An assignment to `prio_coord` of the entry of a worker, where it has one. -/
def setPrioCoord (s : State K) (w : Origin) (location : Location K) : State K :=
  match s.routepool.get? w with
  | none => s
  | some r => s.modifyEntry r fun entry => { entry with prioCoord := some location }

/-! ## The sections of `get_next_location` -/

/-- From `popleft` on. -/
def takeNext (m : Manager K) (s : State K) (w : Origin) (r : Ref) : State K :=
  let next := popGood (s.checkCoords m) (s.heap r).queue
  let s := s.modifyEntry r fun entry => { entry with queue := next.2 }
  match next.1 with
  | none => s.setCall w (.returned none)
  | some nextCoord =>
    ((s.removeFromRoute m nextCoord).setRoutepoolEntryLocation w nextCoord).setCall w
      (.returned (some nextCoord))

/-- After the update for a new queue, which may have failed. -/
def refilled (m : Manager K) (s : State K) (w : Origin) (r : Ref) (updated : Bool) : State K :=
  let entry := s.heap r
  if !updated || (s.routepool.get? w).isNone then s.setCall w (.returned none)
  else match entry.queue, entry.subroute with
    | [], [] => s.setCall w (.returned none)
    | [], subroute =>
      (s.modifyEntry r fun entry => { entry with queue := subroute }).takeNext m w r
    | _ :: _, _ :: _ => s.takeNext m w r
    | _ :: _, [] => s.setCall w (.returned none)

/-- The round count follows the rounds of the workers. -/
def countRounds (s : State K) : State K :=
  if s.roundcount < s.getWorkerRoundsRunThrough then
    { s with roundcount := s.getWorkerRoundsRunThrough }
  else s

/-- "Moving on with route". -/
def moveOn (m : Manager K) (s : State K) (w : Origin) (r : Ref) : State K :=
  let s := s.modifyEntry r fun entry => { entry with lastPositionType := .normal }
  if s.roundcount < s.getWorkerRoundsRunThrough ∧ s.route.length = 0 then
    s.countRounds.setCall w (.returned none)
  else
    let s := s.countRounds
    if (s.heap r).queue.length = 0 then
      let s := s.modifyEntry r fun entry => { entry with rounds := entry.rounds + 1 }
      if m.shouldGetNewCoordsAfterFinishingRoute then s.setCall w (.leaving r)
      else s.setCall w (.refilling r)
    else s.takeNext m w r

/-- With the entry at hand. -/
def withEntry (m : Manager K) (s : State K) (w : Origin) (r : Ref) : State K :=
  if m.hasPrioQueue && ((s.heap r).lastPositionType ≠ .prioq || m.starveRoute) then
    s.setCall w (.popping r false)
  else s.moveOn m w r

/-- After the update for a new entry, which may have failed. -/
def joined (m : Manager K) (s : State K) (w : Origin) (updated : Bool) : State K :=
  match s.routepool.get? w with
  | some r => if updated then s.withEntry m w r else s.setCall w (.returned none)
  | none => s.setCall w (.returned none)

/-- A new entry. -/
def create [Field K] (s : State K) (w : Origin) (now : ℚ) : State K :=
  let entry : RoutePoolEntry K :=
    { subroute := [], timeAdded := now, queue := [], rounds := 0,
      currentPos := (s.workerStartPosition.get? w).getD ⟨0, 0⟩, prioCoord := none,
      lastPositionType := .normal }
  let r : Ref := ⟨s.next, w⟩
  ({ s with next := s.next + 1, routepool := s.routepool.insert w r }.setEntry r entry).setCall w
    .joining

/-- A prio event that was passed on. -/
def takePrio (s : State K) (w : Origin) (r : Ref) (prioevent : Location K) : State K :=
  let s := s.modifyEntry r fun entry => { entry with prioCoord := none }
  let s := s.setRoutepoolEntryLocation w prioevent
  let s := s.modifyEntry r fun entry => { entry with lastPositionType := .prioq }
  s.setCall w (.returned (some prioevent))

/-- From the look at the routepool on. -/
def lookUpEntry [Field K] (m : Manager K) (s : State K) (w : Origin) (now : ℚ) : State K :=
  match s.routepool.get? w with
  | none => s.create w now
  | some r => match (s.heap r).prioCoord with
    | some prioevent => s.takePrio w r prioevent
    | none => s.withEntry m w r

/-- The beginning, where there is nothing to wait for. -/
def getNextLocation [Field K] (m : Manager K) (s : State K) (w : Origin) (now : ℚ) : State K :=
  if w ∉ s.workersRegistered then s.setCall w (.returned none)
  else s.lookUpEntry m w now

/-- The beginning, up to the waits. -/
def awaitStart (s : State K) (w : Origin) : State K :=
  s.setCall w (if w ∈ s.workersRegistered then .waiting else .returned none)

/-- After `pop_event`. -/
def popEvent (g : Geo K) (m : Manager K) (s : State K) (w : Origin) (r : Ref) (again : Bool)
    (timestampDue : ℚ) (nextCoord : Location K) (now : ℚ) : State K :=
  if !again && now < timestampDue then s.moveOn m w r
  else if s.checkCoords m nextCoord then
    let s := s.removeFromRoute m nextCoord
    match s.otherWorkerCloserToPrioq g nextCoord w with
    | some closerWorker => (s.setPrioCoord closerWorker nextCoord).setCall w (.popping r true)
    | none =>
      let s := s.modifyEntry r fun entry => { entry with lastPositionType := .prioq }
      (s.setRoutepoolEntryLocation w nextCoord).setCall w (.returned (some nextCoord))
  else s.setCall w (.popping r true)

/-! ## Updates -/

/-- `_update_routepool` of a call, from where it has the mutex. -/
def startUpdate (g : Geo K) (m : Manager K) (s : State K) (w : Origin) : Option (State K) :=
  match s.calls w, s.workerChanged g with
  | .joining, none => some (s.joined m w false)
  | .refilling r, none => some (s.refilled m w r false)
  | .joining, some pool => some (s.setUpdating (some ⟨some w, pool⟩))
  | .refilling _, some pool => some (s.setUpdating (some ⟨some w, pool⟩))
  | _, _ => none

/-- `_update_routepool` that no call awaits; a failure is ignored. -/
def startUnawaited (g : Geo K) (s : State K) : State K :=
  match s.workerChanged g with
  | none => s
  | some pool => s.setUpdating (some ⟨none, pool⟩)

/-- The critical section of `calculate_route`, up to the update. -/
def setRoute (s : State K) (newRoute : List (Location K)) : State K :=
  { s with route := newRoute, currentRouteRoundCoords := newRoute }

/-- `calculate_route` of a call; whether the update fails is ignored. -/
def calculated (g : Geo K) (s : State K) (w : Origin) (r : Ref) (newRoute : List (Location K)) :
    State K :=
  let s := s.setRoute newRoute
  match s.workerChanged g with
  | none => s.setCall w (.refilling r)
  | some pool => (s.setUpdating (some ⟨some w, pool⟩)).setCall w (.replacing r)

/-- The copies are put into place, and the call that awaited it goes on. -/
def finishUpdate (m : Manager K) (s : State K) (update : Update K) : State K :=
  let s := (s.install update.pool).setUpdating none
  match update.holder with
  | none => s
  | some w => match s.calls w with
    | .joining => s.joined m w true
    | .refilling r => s.refilled m w r true
    | .replacing r => s.setCall w (.refilling r)
    | _ => s

/-! ## The other methods -/

/-- `register_worker`. -/
def registerWorker (s : State K) (w : Origin) : State K :=
  if w ∈ s.workersRegistered then s
  else { s with workersRegistered := s.workersRegistered ++ [w] }

/-- `unregister_worker`. -/
def unregisterWorker (g : Geo K) (s : State K) (w : Origin) (removeRoutepoolEntry : Bool) :
    State K :=
  let s := { s with workersRegistered := s.workersRegistered.filter fun v => v ≠ w }
  if removeRoutepoolEntry && (s.routepool.get? w).isSome then
    { s with routepool := s.routepool.erase w }.startUnawaited g
  else s

/-- `redo_stop_at_end`. -/
def redoStopAtEnd (m : Manager K) (s : State K) (w : Origin) (location : Location K) : State K :=
  let s := match s.routepool.get? w with
    | none => s
    | some r => s.modifyEntry r fun entry => { entry with queue := entry.queue ++ [location] }
  if m.deleteCoordAfterFetch then
    { s with currentRouteRoundCoords := s.currentRouteRoundCoords ++ [location] }
  else s

/-- `add_coord_to_be_removed`. -/
def addCoordToBeRemoved [Field K] (s : State K) (location : Location K) : State K :=
  if location.lat < -90 ∨ 90 < location.lat ∨ location.lng < -180 ∨ 180 < location.lng then s
  else { s with coordsToBeIgnored := location :: s.coordsToBeIgnored }

end State

variable [Field K] [LinearOrder K]

/-- One action. -/
def step (g : Geo K) (m : Manager K) (s : State K) : Action K → Option (State K)
  | .getNextLocation w now => match s.calls w with
    | .returned _ =>
      if now < s.time then none else some ((s.setTime now).getNextLocation m w now)
    | _ => none
  | .awaitStart w => match s.calls w with
    | .returned _ => some (s.awaitStart w)
    | _ => none
  | .started w now => match s.calls w with
    | .waiting => if now < s.time then none else some ((s.setTime now).lookUpEntry m w now)
    | _ => none
  | .notStarted w => match s.calls w with
    | .waiting => some (s.setCall w (.returned none))
    | _ => none
  | .popEvent w timestampDue location now => match s.calls w with
    | .popping r again =>
      if now < s.time then none
      else some ((s.setTime now).popEvent g m w r again timestampDue location now)
    | _ => none
  | .noEvent w => match s.calls w with
    | .popping r _ => some (s.moveOn m w r)
    | _ => none
  | .anyCoordsLeft w left => match s.calls w with
    | .leaving r => some (s.setCall w (if left then .recalculating r else .returned none))
    | _ => none
  | .calculated w newRoute => match s.calls w, s.updating with
    | .recalculating r, none => some (s.calculated g w r newRoute)
    | _, _ => none
  | .startUpdate w => if s.updating.isSome then none else s.startUpdate g m w
  | .finishUpdate => s.updating.map (s.finishUpdate m)
  | .fetchStops locationsOfStops => some { s with stoplist := locationsOfStops }
  | .calculateRoute newRoute =>
    if s.updating.isSome then none else some ((s.setRoute newRoute).startUnawaited g)
  | .registerWorker w =>
    if s.updating.isSome then none else some (s.registerWorker w)
  | .unregisterWorker w removeRoutepoolEntry =>
    if s.updating.isSome then none else some (s.unregisterWorker g w removeRoutepoolEntry)
  | .redoStopImmediately w location => some (s.setPrioCoord w location)
  | .redoStopAtEnd w location => some (s.redoStopAtEnd m w location)
  | .addCoordToBeRemoved location => some (s.addCoordToBeRemoved location)
  | .setWorkerStartposition w location =>
    some { s with workerStartPosition := s.workerStartPosition.insert w location }

/-- The worker whose call an action runs. -/
def actor (s : State K) : Action K → Option Origin
  | .getNextLocation w _ | .awaitStart w | .started w _ | .notStarted w | .popEvent w _ _ _ | .noEvent w
  | .anyCoordsLeft w _ | .calculated w _ | .startUpdate w => some w
  | .finishUpdate => s.updating.bind Update.holder
  | _ => none

/-- The action ends a call of `w`, which returns `location`. -/
def Returns (s : State K) (a : Action K) (t : State K) (w : Origin)
    (location : Option (Location K)) : Prop :=
  actor s a = some w ∧ t.calls w = .returned location

/-- `step` as a relation: for each action, where the call was and what became of it. -/
inductive Step (g : Geo K) (m : Manager K) (s : State K) : Action K → State K → Prop where
  | getNextLocation {w : Origin} {now : ℚ} {last : Option (Location K)}
      (hw : s.calls w = .returned last) (hnow : s.time ≤ now) :
      Step g m s (.getNextLocation w now) ((s.setTime now).getNextLocation m w now)
  | awaitStart {w : Origin} {last : Option (Location K)} (hw : s.calls w = .returned last) :
      Step g m s (.awaitStart w) (s.awaitStart w)
  | started {w : Origin} {now : ℚ} (hw : s.calls w = .waiting) (hnow : s.time ≤ now) :
      Step g m s (.started w now) ((s.setTime now).lookUpEntry m w now)
  | notStarted {w : Origin} (hw : s.calls w = .waiting) :
      Step g m s (.notStarted w) (s.setCall w (.returned none))
  | popEvent {w : Origin} {r : Ref} {again : Bool} {now : ℚ} (due : ℚ) (location : Location K)
      (hw : s.calls w = .popping r again) (hnow : s.time ≤ now) :
      Step g m s (.popEvent w due location now)
        ((s.setTime now).popEvent g m w r again due location now)
  | noEvent {w : Origin} {r : Ref} {again : Bool} (hw : s.calls w = .popping r again) :
      Step g m s (.noEvent w) (s.moveOn m w r)
  | anyCoordsLeft {w : Origin} {r : Ref} (left : Bool) (hw : s.calls w = .leaving r) :
      Step g m s (.anyCoordsLeft w left)
        (s.setCall w (if left then .recalculating r else .returned none))
  | calculated {w : Origin} {r : Ref} (newRoute : List (Location K))
      (hw : s.calls w = .recalculating r) (hfree : s.updating = none) :
      Step g m s (.calculated w newRoute) (s.calculated g w r newRoute)
  | startUpdate {w : Origin} {t : State K} (hfree : s.updating = none)
      (ht : s.startUpdate g m w = some t) : Step g m s (.startUpdate w) t
  | finishUpdate {update : Update K} (hupdating : s.updating = some update) :
      Step g m s .finishUpdate (s.finishUpdate m update)
  | fetchStops (locationsOfStops : List (Location K)) :
      Step g m s (.fetchStops locationsOfStops) { s with stoplist := locationsOfStops }
  | calculateRoute (newRoute : List (Location K)) (hfree : s.updating = none) :
      Step g m s (.calculateRoute newRoute) ((s.setRoute newRoute).startUnawaited g)
  | registerWorker (w : Origin) : Step g m s (.registerWorker w) (s.registerWorker w)
  | unregisterWorker (w : Origin) (remove : Bool) (hfree : s.updating = none) :
      Step g m s (.unregisterWorker w remove) (s.unregisterWorker g w remove)
  | redoStopImmediately (w : Origin) (location : Location K) :
      Step g m s (.redoStopImmediately w location) (s.setPrioCoord w location)
  | redoStopAtEnd (w : Origin) (location : Location K) :
      Step g m s (.redoStopAtEnd w location) (s.redoStopAtEnd m w location)
  | addCoordToBeRemoved (location : Location K) :
      Step g m s (.addCoordToBeRemoved location) (s.addCoordToBeRemoved location)
  | setWorkerStartposition (w : Origin) (location : Location K) :
      Step g m s (.setWorkerStartposition w location)
        { s with workerStartPosition := s.workerStartPosition.insert w location }

theorem step_some {g : Geo K} {m : Manager K} {s t : State K} {a : Action K}
    (h : step g m s a = some t) : Step g m s a t := by
  cases a with
  | getNextLocation w now =>
    simp only [step] at h
    split at h
    · next hw =>
      split at h
      · cases h
      · next hnow => cases h; exact .getNextLocation hw (not_lt.mp hnow)
    · cases h
  | awaitStart w =>
    simp only [step] at h
    split at h
    · next hw => cases h; exact .awaitStart hw
    · cases h
  | started w now =>
    simp only [step] at h
    split at h
    · next hw =>
      split at h
      · cases h
      · next hnow => cases h; exact .started hw (not_lt.mp hnow)
    · cases h
  | notStarted w =>
    simp only [step] at h
    split at h
    · next hw => cases h; exact .notStarted hw
    · cases h
  | popEvent w due location now =>
    simp only [step] at h
    split at h
    · next hw =>
      split at h
      · cases h
      · next hnow => cases h; exact .popEvent due location hw (not_lt.mp hnow)
    · cases h
  | noEvent w =>
    simp only [step] at h
    split at h
    · next hw => cases h; exact .noEvent hw
    · cases h
  | anyCoordsLeft w left =>
    simp only [step] at h
    split at h
    · next hw => cases h; exact .anyCoordsLeft left hw
    · cases h
  | calculated w newRoute =>
    simp only [step] at h
    split at h
    · next hw hfree => cases h; exact .calculated newRoute hw hfree
    · cases h
  | startUpdate w =>
    simp only [step] at h
    split at h
    · cases h
    · next hfree => exact .startUpdate (by simpa using hfree) h
  | finishUpdate =>
    simp only [step] at h
    obtain ⟨update, hupdating, rfl⟩ := Option.map_eq_some_iff.mp h
    exact .finishUpdate hupdating
  | fetchStops locationsOfStops => cases h; exact .fetchStops locationsOfStops
  | calculateRoute newRoute =>
    simp only [step] at h
    split at h
    · cases h
    · next hfree => cases h; exact .calculateRoute newRoute (by simpa using hfree)
  | registerWorker w =>
    simp only [step] at h
    split at h
    · cases h
    · cases h; exact .registerWorker w
  | unregisterWorker w remove =>
    simp only [step] at h
    split at h
    · cases h
    · next hfree => cases h; exact .unregisterWorker w remove (by simpa using hfree)
  | redoStopImmediately w location => cases h; exact .redoStopImmediately w location
  | redoStopAtEnd w location => cases h; exact .redoStopAtEnd w location
  | addCoordToBeRemoved location => cases h; exact .addCoordToBeRemoved location
  | setWorkerStartposition w location => cases h; exact .setWorkerStartposition w location

end MapADroid.Route
