import MapADroid.Route.Manager

/- The managers that do not divide a route among their workers (`RouteManagerLeveling`
   and `RouteManagerIV`).

   In level mode an update goes through the routepool and gives each worker whose queue is
   empty the stops it has not visited yet. It changes the entries themselves, and awaits
   the database and a calculation for each of them. The calls of workers go on meanwhile; one
   that creates an entry makes the loop raise, since the routepool has changed its size.

   An update of iv leaves the routepool as it is. Its workers get prio events only. -/
namespace MapADroid.Route
open Lib

variable {K : Type} [Field K] [LinearOrder K]

namespace Leveling

/-- The loop of an update over the routepool. -/
structure Visit where
  /-- The call that awaits the update, if one does. -/
  holder : Option Origin
  /-- The size of the routepool when the loop began. -/
  size : Nat
  /-- The workers the loop has not come to. -/
  left : List Origin
  /-- The entry whose stops are looked up. -/
  current : Option Ref
  deriving DecidableEq, Repr

structure State (K : Type) where
  manager : Route.State K
  /-- The update that has `_manager_mutex`. -/
  visit : Option Visit

inductive Action (K : Type) where
  /-- What is done as in the other modes. -/
  | usual (a : Route.Action K)
  /-- `_update_routepool` of the call has the mutex and starts. -/
  | startUpdate (w : Origin)
  /-- The loop goes on to the next worker. -/
  | nextOrigin
  /-- The worker has no device, no account or no stops left. -/
  | noStops
  /-- `_local_recalc_subroute` returned. -/
  | recalculated (newRoute : List (Location K))
  /-- Something the loop awaits raised. -/
  | raised
  /-- `calculate_route` from elsewhere has the new route and starts its update. -/
  | calculateRoute (newRoute : List (Location K))
  | unregisterWorker (w : Origin) (removeRoutepoolEntry : Bool)

/-- `RouteManagerLeveling`. -/
def levelManager (K : Type) [LinearOrder K] : Manager K where
  hasPrioQueue := false
  starveRoute := false
  deleteCoordAfterFetch := false
  shouldGetNewCoordsAfterFinishingRoute := false
  checkCoordsBeforeReturning _ ignored stop := !ignored.contains stop

/-- What is done as in the other modes, and whether it needs the mutex. -/
def usual? : Route.Action K → Option Bool
  | .getNextLocation _ _ | .awaitStart _ | .started _ _ | .notStarted _ | .redoStopImmediately _ _
  | .redoStopAtEnd _ _ | .addCoordToBeRemoved _ | .setWorkerStartposition _ _ => some false
  | .registerWorker _ => some true
  | _ => none

namespace State

/-- The call that awaited the update goes on. -/
def resume (s : Route.State K) (updated : Bool) : Option Origin → Route.State K
  | none => s
  | some w => match s.calls w with
    | .joining => s.joined (levelManager K) w updated
    | .refilling r => s.refilled (levelManager K) w r updated
    | _ => s

/-- `_worker_changed_update_routepools`, up to the loop. -/
def start (s : Route.State K) (holder : Option Origin) : State K :=
  if s.workersRegistered.length = 0 then ⟨resume s false holder, none⟩
  else ⟨s, some ⟨holder, s.routepool.items.length, s.routepool.keys, none⟩⟩

/-- The update raises, and with it the call that awaits it. -/
def raise (s : Route.State K) (visit : Visit) : State K :=
  match visit.holder with
  | none => ⟨s, none⟩
  | some w => ⟨s.setCall w (.returned none), none⟩

/-- The head of the loop. -/
def nextOrigin (s : Route.State K) (visit : Visit) : State K :=
  if s.routepool.items.length ≠ visit.size then raise s visit
  else match visit.left with
    | [] => ⟨resume s true visit.holder, none⟩
    | origin :: left => match s.routepool.get? origin with
      | none => ⟨s, some { visit with left }⟩
      | some r =>
        if 0 < (s.heap r).queue.length then ⟨s, some { visit with left }⟩
        else ⟨s, some { visit with left, current := some r }⟩

/-- The new subroute is assigned; it has to have a first location. -/
def recalculated (s : Route.State K) (visit : Visit) (r : Ref) (newRoute : List (Location K)) : State K :=
  let s := s.modifyEntry r fun entry => { entry with subroute := newRoute, queue := newRoute }
  if newRoute.length = 0 then raise s visit else ⟨s, some { visit with current := none }⟩

/-- `unregister_worker`. -/
def unregisterWorker (s : Route.State K) (w : Origin) (removeRoutepoolEntry : Bool) : State K :=
  let s := { s with workersRegistered := s.workersRegistered.filter fun v => v ≠ w }
  if removeRoutepoolEntry && (s.routepool.get? w).isSome then
    start { s with routepool := s.routepool.erase w } none
  else ⟨s, none⟩

end State

/-- One action. -/
def step (g : Geo K) (s : State K) : Action K → Option (State K)
  | .usual a => match usual? a with
    | none => none
    | some locks =>
      if locks && s.visit.isSome then none
      else (Route.step g (levelManager K) s.manager a).map fun t => ⟨t, s.visit⟩
  | .startUpdate w => match s.visit, s.manager.calls w with
    | none, .joining => some (State.start s.manager (some w))
    | none, .refilling _ => some (State.start s.manager (some w))
    | _, _ => none
  | .nextOrigin => match s.visit with
    | some ⟨holder, size, left, none⟩ => some (State.nextOrigin s.manager ⟨holder, size, left, none⟩)
    | _ => none
  | .noStops => match s.visit with
    | some ⟨holder, size, left, some _⟩ => some ⟨s.manager, some ⟨holder, size, left, none⟩⟩
    | _ => none
  | .recalculated newRoute => match s.visit with
    | some ⟨holder, size, left, some r⟩ =>
      some (State.recalculated s.manager ⟨holder, size, left, some r⟩ r newRoute)
    | _ => none
  | .raised => s.visit.map (State.raise s.manager)
  | .calculateRoute newRoute =>
    if s.visit.isSome then none else some (State.start (s.manager.setRoute newRoute) none)
  | .unregisterWorker w remove =>
    if s.visit.isSome then none else some (State.unregisterWorker s.manager w remove)

end Leveling

namespace Iv

/-- `RouteManagerIV`, as far as it is like the others. -/
def ivManager (K : Type) : Manager K := normalManager K true true

/-- `get_next_location`, from the look at the routepool on: an event that was passed on is not taken. -/
def lookUpEntry (s : State K) (w : Origin) (now : ℚ) : State K :=
  match s.routepool.get? w with
  | none => s.create w now
  | some r => s.setCall w (.popping r false)

/-- The beginning, where there is nothing to wait for. -/
def getNextLocation (s : State K) (w : Origin) (now : ℚ) : State K :=
  if w ∉ s.workersRegistered then s.setCall w (.returned none)
  else lookUpEntry s w now

/-- After the update for a new entry, which fails where there are no coords. -/
def joined (s : State K) (w : Origin) : State K :=
  match s.currentRouteRoundCoords, s.routepool.get? w with
  | _ :: _, some r => s.setCall w (.popping r false)
  | _, _ => s.setCall w (.returned none)

/-- After `pop_event`: the event is not passed on. -/
def popEvent (s : State K) (w : Origin) (r : Ref) (timestampDue : ℚ) (nextCoord : Location K) (now : ℚ) :
    State K :=
  if now < timestampDue then s.setCall w (.returned none)
  else
    let s := s.modifyEntry r fun entry => { entry with lastPositionType := .prioq }
    (s.setRoutepoolEntryLocation w nextCoord).setCall w (.returned (some nextCoord))

/-- `unregister_worker`. -/
def unregisterWorker (s : State K) (w : Origin) (removeRoutepoolEntry : Bool) : State K :=
  { s with
    workersRegistered := s.workersRegistered.filter fun v => v ≠ w
    routepool := if removeRoutepoolEntry then s.routepool.erase w else s.routepool }

/-- One action. -/
def step (s : State K) : Action K → Option (State K)
  | .getNextLocation w now => match s.calls w with
    | .returned _ => if now < s.time then none else some (getNextLocation (s.setTime now) w now)
    | _ => none
  | .awaitStart w => match s.calls w with
    | .returned _ => some (s.awaitStart w)
    | _ => none
  | .started w now => match s.calls w with
    | .waiting => if now < s.time then none else some (lookUpEntry (s.setTime now) w now)
    | _ => none
  | .notStarted w => match s.calls w with
    | .waiting => some (s.setCall w (.returned none))
    | _ => none
  | .startUpdate w => match s.calls w with
    | .joining => some (joined s w)
    | _ => none
  | .popEvent w timestampDue location now => match s.calls w with
    | .popping r _ =>
      if now < s.time then none else some (popEvent (s.setTime now) w r timestampDue location now)
    | _ => none
  -- The call waits for a second and tries again.
  | .noEvent w => match s.calls w with
    | .popping _ _ => some s
    | _ => none
  | .calculateRoute newRoute => some (s.setRoute newRoute)
  | .registerWorker w => some (s.registerWorker w)
  | .unregisterWorker w removeRoutepoolEntry => some (unregisterWorker s w removeRoutepoolEntry)
  | .redoStopImmediately w location => some (s.setPrioCoord w location)
  | .redoStopAtEnd w location => some (s.redoStopAtEnd (ivManager K) w location)
  | .addCoordToBeRemoved location => some (s.addCoordToBeRemoved location)
  | .setWorkerStartposition w location =>
    some { s with workerStartPosition := s.workerStartPosition.insert w location }
  | _ => none

end Iv

end MapADroid.Route
