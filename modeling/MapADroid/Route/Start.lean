import MapADroid.Lib.Methods
import MapADroid.Location

/- Starting and stopping a route manager (`RouteManagerBase`, `RouteManagerQuests` and the
   `calculate_route` of `RouteManagerInit`).

   A start sets the flag first and calculates the route then. Whatever raises on the way
   leaves the flag set, and the manager counts as started without a task that checks its
   routepool. Only the way out for want of coords stops the manager
   (`failed_start_stopped_iff`).

   A start holds `_manager_mutex`, and the flags change only while that is held; so no one
   else changes them on the way. What the awaited calls come to is left open. The prio
   queue is left out, its `start` and `stop` do not raise. -/
namespace MapADroid.Route.Start
open Lib

inductive Raised where
  /-- `RoutemanagerShuttingDown`. -/
  | shuttingDown
  /-- What a call raised that was awaited. -/
  | awaited
  deriving DecidableEq, Repr

/-- What a start changes of a route manager. -/
structure RouteManager (K : Type) where
  isStarted : Bool
  shutdownRoute : Bool
  startCalc : Bool
  /-- There is a task that checks the routepool. -/
  checkRoutepoolsThread : Bool
  route : List (Location K)
  currentRouteRoundCoords : List (Location K)
  coordsToBeIgnored : List (Location K)
  stoplist : List (Location K)
  deriving DecidableEq, Repr

def RouteManager.initRouteQueue {K : Type} (s : RouteManager K) : RouteManager K :=
  if 0 < s.route.length then { s with currentRouteRoundCoords := s.route } else s

/-- Started or not, in the same way. -/
def RouteManager.SameFlags {K : Type} (s t : RouteManager K) : Prop :=
  t.isStarted = s.isStarted ∧ t.shutdownRoute = s.shutdownRoute ∧ t.checkRoutepoolsThread = s.checkRoutepoolsThread

theorem RouteManager.sameFlags_initRouteQueue {K : Type} (s : RouteManager K) : s.SameFlags s.initRouteQueue := by
  unfold initRouteQueue
  split <;> exact ⟨rfl, rfl, rfl⟩

@[simp] theorem RouteManager.initRouteQueue_isStarted {K : Type} (s : RouteManager K) :
    s.initRouteQueue.isStarted = s.isStarted := s.sameFlags_initRouteQueue.1

@[simp] theorem RouteManager.initRouteQueue_shutdownRoute {K : Type} (s : RouteManager K) :
    s.initRouteQueue.shutdownRoute = s.shutdownRoute := s.sameFlags_initRouteQueue.2.1

@[simp] theorem RouteManager.initRouteQueue_checkRoutepoolsThread {K : Type} (s : RouteManager K) :
    s.initRouteQueue.checkRoutepoolsThread = s.checkRoutepoolsThread := s.sameFlags_initRouteQueue.2.2

/-- What the awaited calls come to; `none` where they raise. -/
structure Course (K : Type) where
  locationsOfStops : Option (List (Location K))
  coordsFresh : Option (List (Location K))
  newRoute : Option (List (Location K))
  /-- `_update_routepool`, which is awaited for the sake of the routepool only. -/
  updateRoutepool : Option Bool

/-- A method of a route manager. -/
abbrev Managing (K : Type) (α : Type) := Method (RouteManager K) Raised α

variable {K : Type}

/-- An awaited call. -/
def awaited {α : Type} : Option α → Managing K α
  | none => throw .awaited
  | some a => pure a

/-- `_start_check_routepools`. -/
def startCheckRoutepools : Managing K Unit := modify fun s => { s with checkRoutepoolsThread := true }

/-- `_stop_internal_tasks`. -/
def stopInternalTasks : Managing K Unit :=
  modify fun s => { s with checkRoutepoolsThread := false, shutdownRoute := false }

/-- `_init_route_queue`. -/
def initRouteQueue : Managing K Unit := modify RouteManager.initRouteQueue

/-- `_quit_route` of the managers other than `RouteManagerQuests`. -/
def quitRoute : Managing K Unit := modify fun s => { s with isStarted := false }

/-- `stop_routemanager`, which calls the `_quit_route` of the class. -/
def stopRoutemanager (quitRoute : Managing K Unit) : Managing K Unit := do
  if !(← get).shutdownRoute then
    modify fun s => { s with shutdownRoute := true }
    modify fun s => { s with isStarted := false }
    quitRoute
    stopInternalTasks

variable [DecidableEq K]

/-- The coords that are not to be ignored, if those are heeded. -/
def RouteManager.coordsLeft (s : RouteManager K) (dynamic : Bool) (coords : List (Location K)) : List (Location K) :=
  if dynamic then coords.filter fun coord => coord ∉ s.coordsToBeIgnored else coords

namespace RouteManagerBase

/-- `calculate_route`. -/
def calculateRoute (quitRoute : Managing K Unit) (course : Course K) (dynamic : Bool) : Managing K Unit := do
  let coordsFresh ← awaited course.coordsFresh
  let coords := (← get).coordsLeft dynamic coordsFresh
  if coords.isEmpty && dynamic then
    stopRoutemanager quitRoute
    throw .shuttingDown
  modify fun s => { s with startCalc := true }
  let newRoute ← ensure (awaited course.newRoute) fun s => { s with startCalc := false }
  modify fun s => { s with route := newRoute, currentRouteRoundCoords := newRoute }
  initRouteQueue
  let _ ← awaited course.updateRoutepool

/-- `start_routemanager`, which calls the `calculate_route` of the class. -/
def startRoutemanager (calculateRoute : Managing K Unit) : Managing K Bool := do
  if !(← get).isStarted then
    modify fun s => { s with isStarted := true }
    modify fun s => { s with coordsToBeIgnored := [] }
    calculateRoute
    startCheckRoutepools
    initRouteQueue
  return true

end RouteManagerBase

/-- `RouteManagerInit.calculate_route`. -/
def RouteManagerInit.calculateRoute (course : Course K) (dynamic : Bool) : Managing K Unit := do
  let coordsFresh ← awaited course.coordsFresh
  let coords := (← get).coordsLeft dynamic coordsFresh
  modify fun s => { s with route := coords, currentRouteRoundCoords := coords }
  initRouteQueue
  let _ ← awaited course.updateRoutepool

namespace RouteManagerQuests

def quitRoute : Managing K Unit := do
  if (← get).isStarted then
    modify fun s => { s with shutdownRoute := true }
    modify fun s => { s with isStarted := false }

def calculateRoute (course : Course K) (dynamic : Bool) : Managing K Unit := do
  let locationsOfStops ← awaited course.locationsOfStops
  modify fun s => { s with stoplist := locationsOfStops }
  RouteManagerBase.calculateRoute quitRoute course dynamic

/-- `start_routemanager`: what it does with the flags it finds when it is called, and from
where it has the mutex. -/
def startRoutemanager (called : RouteManager K) (course : Course K) : Managing K Bool := do
  if called.shutdownRoute then
    return false
  if called.isStarted then
    return true
  modify fun s => { s with isStarted := true }
  calculateRoute course true
  startCheckRoutepools
  return true

end RouteManagerQuests

/-! ## Calculations -/

section
omit [DecidableEq K]
variable {α : Type} (s : RouteManager K)

@[simp] theorem call_awaited_some (a : α) : call (awaited (some a)) s = (.ok a, s) := rfl

@[simp] theorem call_awaited_none : call (awaited (none : Option α)) s = (.error .awaited, s) := rfl

/-- A manager that is shutting down is not stopped once more. -/
theorem call_stopRoutemanager {quitRoute : Managing K Unit}
    (hquit : ∀ s : RouteManager K, s.isStarted = false → call quitRoute s = (.ok (), s)) :
    call (stopRoutemanager quitRoute) s = (.ok (), if s.shutdownRoute then s else
      { s with isStarted := false, shutdownRoute := false, checkRoutepoolsThread := false }) := by
  cases h : s.shutdownRoute <;> simp [stopRoutemanager, stopInternalTasks, h, hquit]

/-- The method raises. -/
def Raises (method : Managing K α) : Prop := ∃ e, (call method s).1 = .error e

end

/-- There are no coords, or all of them are to be ignored. -/
def NoCoords (course : Course K) (s : RouteManager K) : Prop :=
  ∃ coords, course.coordsFresh = some coords ∧ ∀ coord ∈ coords, coord ∈ s.coordsToBeIgnored

theorem noCoords_iff {course : Course K} {s : RouteManager K} {coords : List (Location K)}
    (h : course.coordsFresh = some coords) : NoCoords course s ↔ s.coordsLeft true coords = [] := by
  simp [NoCoords, RouteManager.coordsLeft, h, List.filter_eq_nil_iff]

/-- Nothing raises that a calculation awaits. -/
def Calculates (course : Course K) : Prop :=
  course.coordsFresh.isSome ∧ course.newRoute.isSome ∧ course.updateRoutepool.isSome

/-- A calculation does not touch the flags, unless it lacks coords. -/
theorem RouteManagerBase.calculateRoute_spec (quitRoute : Managing K Unit) (course : Course K) (dynamic : Bool)
    (s : RouteManager K) (h : ¬(dynamic = true ∧ NoCoords course s)) :
    s.SameFlags (call (calculateRoute quitRoute course dynamic) s).2 ∧
      (Raises s (calculateRoute quitRoute course dynamic) ↔ ¬Calculates course) := by
  unfold calculateRoute Calculates Raises
  cases hfresh : course.coordsFresh with
  | none => simp [RouteManager.SameFlags]
  | some coordsFresh =>
    have hcoords : ¬(s.coordsLeft dynamic coordsFresh = [] ∧ dynamic = true) := by
      rintro ⟨hnil, rfl⟩
      exact h ⟨rfl, (noCoords_iff hfresh).mpr hnil⟩
    cases hroute : course.newRoute with
    | none => simp [hcoords, RouteManager.SameFlags]
    | some newRoute =>
      cases hupdate : course.updateRoutepool with
      | none => simp [hcoords, initRouteQueue, RouteManager.SameFlags]
      | some updated => simp [hcoords, initRouteQueue, RouteManager.SameFlags]

/-- Without coords it stops the manager and raises. -/
theorem RouteManagerBase.call_calculateRoute_noCoords {quitRoute : Managing K Unit} {course : Course K}
    {s : RouteManager K} (h : NoCoords course s)
    (hquit : ∀ s : RouteManager K, s.isStarted = false → call quitRoute s = (.ok (), s)) :
    call (calculateRoute quitRoute course true) s = (.error .shuttingDown, if s.shutdownRoute then s else
      { s with isStarted := false, shutdownRoute := false, checkRoutepoolsThread := false }) := by
  obtain ⟨coords, hfresh, hall⟩ := h
  have hnil := (noCoords_iff hfresh).mp ⟨coords, hfresh, hall⟩
  simp [calculateRoute, hfresh, hnil, call_stopRoutemanager s hquit]

theorem RouteManagerInit.calculateRoute_spec (course : Course K) (dynamic : Bool) (s : RouteManager K) :
    s.SameFlags (call (calculateRoute course dynamic) s).2 ∧
      (Raises s (calculateRoute course dynamic) ↔
        ¬(course.coordsFresh.isSome ∧ course.updateRoutepool.isSome)) := by
  unfold calculateRoute Raises
  cases hfresh : course.coordsFresh with
  | none => simp [RouteManager.SameFlags]
  | some coordsFresh =>
    cases hupdate : course.updateRoutepool with
    | none => simp [initRouteQueue, RouteManager.SameFlags]
    | some updated => simp [initRouteQueue, RouteManager.SameFlags]

omit [DecidableEq K] in
theorem RouteManagerQuests.call_quitRoute {s : RouteManager K} (h : s.isStarted = false) :
    call quitRoute s = (.ok (), s) := by simp [quitRoute, h]

/-! ## Failed starts -/

/-- If the method raises then the manager is not started afterwards. -/
def LeavesStopped {α : Type} (method : Managing K α) (s : RouteManager K) : Prop :=
  Raises s method → (call method s).2.isStarted = false

/-- What `get_next_location` of a registered worker does first. -/
inductive First where
  | raises
  | starts
  | goesOn
  deriving DecidableEq, Repr

def RouteManager.getNextLocation (s : RouteManager K) : First :=
  if s.shutdownRoute then .raises else if s.isStarted then .goesOn else .starts

omit [DecidableEq K] in
/-- What follows the calculation of a start does not raise and leaves the manager started. -/
theorem leavesStopped_iff_of_call {start : Managing K Bool} {calculateRoute : Managing K Unit}
    {s called : RouteManager K} (after : Managing K Bool)
    (hstart : call start s = andThen (fun _ => after) (call calculateRoute called))
    (hafter : ∀ t, ¬Raises t after) :
    LeavesStopped start s ↔
      (Raises called calculateRoute → (call calculateRoute called).2.isStarted = false) := by
  unfold LeavesStopped Raises
  rw [hstart]
  cases call calculateRoute called with
  | mk result t =>
    cases result with
    | ok _ =>
      simp only [andThen_ok, reduceCtorEq, exists_false, false_imp_iff, iff_true]
      exact fun hraises => absurd hraises (hafter t)
    | error e => simp

omit [DecidableEq K] in
/-- A calculation that does not touch the flag has to come to an end. -/
theorem calculates_of_sameFlags {calculateRoute : Managing K Unit} {called : RouteManager K} {p : Prop}
    (hcalled : called.isStarted = true) (hsame : called.SameFlags (call calculateRoute called).2)
    (hraises : Raises called calculateRoute ↔ ¬p) :
    (Raises called calculateRoute → (call calculateRoute called).2.isStarted = false) ↔ p := by
  rw [hraises, hsame.1, hcalled]
  simp

variable {s : RouteManager K}

omit [DecidableEq K] in
theorem RouteManagerBase.leavesStopped_iff {calculateRoute : Managing K Unit} (hs : s.isStarted = false) :
    LeavesStopped (startRoutemanager calculateRoute) s ↔
      (Raises { s with isStarted := true, coordsToBeIgnored := [] } calculateRoute →
        (call calculateRoute { s with isStarted := true, coordsToBeIgnored := [] }).2.isStarted = false) := by
  apply leavesStopped_iff_of_call (do startCheckRoutepools; initRouteQueue; return true)
  · simp [startRoutemanager, hs]
  · intro t
    simp [Raises, startCheckRoutepools, initRouteQueue]

theorem RouteManagerQuests.leavesStopped_iff {called : RouteManager K} (course : Course K)
    (hcalled : called.isStarted = false) (hshutdown : called.shutdownRoute = false) :
    LeavesStopped (startRoutemanager called course) s ↔
      (Raises { s with isStarted := true } (calculateRoute course true) →
        (call (calculateRoute course true) { s with isStarted := true }).2.isStarted = false) := by
  apply leavesStopped_iff_of_call (do startCheckRoutepools; return true)
  · simp [startRoutemanager, hcalled, hshutdown]
  · intro t
    simp [Raises, startCheckRoutepools]

/-- The calculation of a start stops the manager if it raises for want of coords only. -/
theorem RouteManagerQuests.calculateRoute_spec (course : Course K) (hs : s.isStarted = true) :
    (Raises s (calculateRoute course true) → (call (calculateRoute course true) s).2.isStarted = false) ↔
      course.locationsOfStops.isSome ∧
        (NoCoords course s ∧ s.shutdownRoute = false ∨ ¬NoCoords course s ∧ Calculates course) := by
  cases hstops : course.locationsOfStops with
  | none => simp [Raises, calculateRoute, hstops, hs]
  | some locationsOfStops =>
    let s' : RouteManager K := { s with stoplist := locationsOfStops }
    have hcall : call (calculateRoute course true) s =
        call (RouteManagerBase.calculateRoute quitRoute course true) s' := by
      simp [calculateRoute, hstops, s']
    have hraises : Raises s (calculateRoute course true) ↔
        Raises s' (RouteManagerBase.calculateRoute quitRoute course true) := by
      rw [Raises, hcall]
      rfl
    have hcoords : NoCoords course s' ↔ NoCoords course s := Iff.rfl
    rw [hraises, hcall]
    by_cases hno : NoCoords course s
    · have hstopped := RouteManagerBase.call_calculateRoute_noCoords (hcoords.mpr hno)
        fun _ => RouteManagerQuests.call_quitRoute
      rw [Raises, hstopped]
      cases hshutdown : s.shutdownRoute <;> simp [hno, hshutdown, hs, s']
    · obtain ⟨hsame, hends⟩ := RouteManagerBase.calculateRoute_spec quitRoute course true s'
        fun h => hno (hcoords.mp h.2)
      have hstarted : s'.isStarted = true := hs
      rw [calculates_of_sameFlags hstarted hsame hends]
      simp [hno]

/-- Which starts are such that the manager is not started if they raise. The flags of
`called` are those that a quest manager has when it is called, `held` when it has the
mutex. -/
theorem failed_start_stopped_iff (course : Course K) {s : RouteManager K} (hs : s.isStarted = false) :
    (∀ quitRoute, LeavesStopped (RouteManagerBase.startRoutemanager
      (RouteManagerBase.calculateRoute quitRoute course false)) s ↔ Calculates course) ∧
    (LeavesStopped (RouteManagerBase.startRoutemanager (RouteManagerInit.calculateRoute course false)) s ↔
      course.coordsFresh.isSome ∧ course.updateRoutepool.isSome) ∧
    ∀ held : RouteManager K, LeavesStopped (RouteManagerQuests.startRoutemanager s course) held ↔
      s.shutdownRoute = true ∨ course.locationsOfStops.isSome ∧
        (NoCoords course held ∧ held.shutdownRoute = false ∨ ¬NoCoords course held ∧ Calculates course) := by
  refine ⟨fun quitRoute => ?_, ?_, fun held => ?_⟩
  · rw [RouteManagerBase.leavesStopped_iff hs]
    obtain ⟨hsame, hends⟩ := RouteManagerBase.calculateRoute_spec quitRoute course false
      { s with isStarted := true, coordsToBeIgnored := [] } (by simp)
    exact calculates_of_sameFlags rfl hsame hends
  · rw [RouteManagerBase.leavesStopped_iff hs]
    obtain ⟨hsame, hends⟩ := RouteManagerInit.calculateRoute_spec course false
      { s with isStarted := true, coordsToBeIgnored := [] }
    exact calculates_of_sameFlags rfl hsame hends
  · cases hshutdown : s.shutdownRoute with
    | true =>
      -- It returns at once.
      simp [LeavesStopped, Raises, RouteManagerQuests.startRoutemanager, hshutdown]
    | false =>
      rw [RouteManagerQuests.leavesStopped_iff course hs hshutdown,
        RouteManagerQuests.calculateRoute_spec course rfl]
      simp [NoCoords]

/-- `__init__`. -/
def RouteManager.new (K : Type) : RouteManager K := ⟨false, false, false, false, [], [], [], []⟩

/-- There are stops, but there is nothing that calculates a route of them. -/
def noSolution : Course Nat := ⟨some [⟨0, 1⟩], some [⟨0, 1⟩], none, some true⟩

/-- All stops have been scanned. -/
def nothingLeft : Course Nat := ⟨some [], some [], none, some true⟩

theorem nothing_left_stopped : LeavesStopped
    (RouteManagerQuests.startRoutemanager (RouteManager.new Nat) nothingLeft) (RouteManager.new Nat) := by
  refine ((failed_start_stopped_iff nothingLeft rfl).2.2 (RouteManager.new Nat)).mpr (Or.inr ⟨rfl, Or.inl ⟨?_, rfl⟩⟩)
  exact ⟨[], rfl, by simp⟩

theorem failed_start_left_started : ¬∀ (course : Course Nat) (s : RouteManager Nat), s.isStarted = false →
    LeavesStopped (RouteManagerBase.startRoutemanager (RouteManagerBase.calculateRoute quitRoute course false)) s ∧
      LeavesStopped (RouteManagerQuests.startRoutemanager s course) s := by
  intro h
  obtain ⟨hbase, _⟩ := h noSolution (RouteManager.new Nat) rfl
  have hstarted := hbase ⟨.awaited, by decide⟩
  exact absurd hstarted (by decide)

/-- The next `get_next_location` goes on with a manager that never finished its start. -/
theorem goesOn_of_failed_start (quitRoute : Managing K Unit) {course : Course K} {s : RouteManager K}
    (hs : s.isStarted = false) (hshutdown : s.shutdownRoute = false) (h : ¬Calculates course) :
    let t := (call (RouteManagerBase.startRoutemanager
      (RouteManagerBase.calculateRoute quitRoute course false)) s).2
    t.getNextLocation = .goesOn ∧ t.checkRoutepoolsThread = s.checkRoutepoolsThread := by
  obtain ⟨⟨hstarted, hsame, hthread⟩, hends⟩ := RouteManagerBase.calculateRoute_spec quitRoute course false
    { s with isStarted := true, coordsToBeIgnored := [] } (by simp)
  obtain ⟨e, he⟩ := hends.mpr h
  have hcall : call (RouteManagerBase.startRoutemanager (RouteManagerBase.calculateRoute quitRoute course false)) s =
      (.error e, (call (RouteManagerBase.calculateRoute quitRoute course false)
        { s with isStarted := true, coordsToBeIgnored := [] }).2) := by
    rw [← andThen_error (fun _ => do startCheckRoutepools; initRouteQueue; return true) e, ← he]
    simp [RouteManagerBase.startRoutemanager, hs]
  intro t
  have ht : t = (call (RouteManagerBase.calculateRoute quitRoute course false)
      { s with isStarted := true, coordsToBeIgnored := [] }).2 := congrArg Prod.snd hcall
  rw [← ht] at hstarted hsame hthread
  exact ⟨by simp [RouteManager.getNextLocation, hstarted, hsame, hshutdown], hthread⟩

end MapADroid.Route.Start
