import MapADroid.Lib.Methods
import MapADroid.Location

/- Processing the stops at a quest location (`QuestStrategy._process_stop_at_location`).

   The location goes back to the end of the route in three places: where the first GMO is not
   usable, where a spin has to be tried again, and at last where the layer cannot be scanned. It
   is dropped where the last GMO shows no stop that can be spun. None of them looks at the others
   (`retriedOrDropped_iff`).

   What the awaited calls come to is in a `Course`. The route manager of the area is there; whether
   the worker has an entry in its routepool is asked at each place. -/
namespace MapADroid.Worker.StopProcessing
open Lib

inductive PositionStopType where
  | gmoNotAvailable | gmoEmpty | gym | visitedStopInLevelModeToIgnore | stopDisabled | stopClosed | stopCooldown
  | noFort | spinnableStop
  deriving DecidableEq, Repr

def PositionStopType.typeContainsStopAtAll : PositionStopType → Bool
  | .spinnableStop | .visitedStopInLevelModeToIgnore | .stopClosed | .stopCooldown | .stopDisabled => true
  | _ => false

/-- The result of a fort search, where there is one. -/
inductive FortSearchResultTypes where
  | undefined | quest | time | cooldown | inventory | limit | unavailable | outOfRange | full
  deriving DecidableEq, Repr

inductive Raised where
  /-- `AbortStopProcessingException`. -/
  | abortStopProcessing
  /-- `InternalStopWorkerException`. -/
  | stopWorker
  /-- What a call raised that was awaited. -/
  | awaited
  deriving DecidableEq, Repr

/-- A fort of a GMO; what is missing has its default. -/
structure Fort where
  id : String
  latitude : ℚ
  longitude : ℚ
  type : Int
  visited : Bool
  enabled : Bool
  closed : Bool
  cooldownCompleteMs : Int

structure Cell where
  id : Nat
  forts : List Fort

/-- A stop of the database near the current location. -/
structure Pokestop where
  pokestopId : String
  location : Location ℚ
  /-- Within the last three days. -/
  lastUpdatedRecently : Bool

/-- What `_wait_for_data_after_moving` comes to for a GMO. -/
inductive Received where
  | raised
  | nothing
  | gmo (cells : List Cell)

/-- What the calls of one check of the current position come to. -/
structure Check where
  received : Received
  nearby : List Pokestop
  restartPogo : Bool
  reboot : Bool

/-- The places where the location is appended to the end of the route. -/
inductive Place where
  | ensureStopPresent | handleStop | processStopAtLocation
  deriving DecidableEq

structure Course where
  distance : Location ℚ → Location ℚ → ℚ
  currentLocation : Location ℚ
  /-- The cells around the current location. -/
  s2cellIdsValid : List Nat
  levelmode : Bool
  ignoreSpinnedStops : Bool
  firstCheck : Check
  secondCheck : Check
  /-- The fort searches that are waited for; `none` where the wait raises. -/
  firstSearch : Option FortSearchResultTypes
  secondSearch : Option FortSearchResultTypes
  /-- `check_stop_has_quest`; `none` where it raises. -/
  stopHasQuest : Option Bool
  /-- `LAST_ACTION_TIME` can be set. -/
  lastActionTime : Bool
  /-- `_ready_for_scan` after `_check_layer`; `none` where this raises. -/
  readyForScan : Option Bool
  inRoutepool : Place → Bool

/-- What an execution changes: how often the location was appended to the queue of the worker, what
was added to the coords to be ignored, and `_spinnable_data_failcount`. -/
structure Processed where
  appended : Nat
  ignored : List (Location ℚ)
  spinnableDataFailcount : Nat
  deriving DecidableEq

abbrev Processing (α : Type) := Method Processed Raised α

def stopSpinDistance : ℚ := 80

/-- `routemanager_redo_stop_at_end` of the current location. -/
def redoStopAtEnd (c : Course) (place : Place) : Processing Unit :=
  modify fun s => if c.inRoutepool place then { s with appended := s.appended + 1 } else s

/-- `add_coord_to_be_removed` takes these. -/
def valid (location : Location ℚ) : Bool :=
  -90 ≤ location.lat && location.lat ≤ 90 && -180 ≤ location.lng && location.lng ≤ 180

/-- `routemanager_add_coords_to_be_removed`, of each location. -/
def addCoordsToBeRemoved (locations : List (Location ℚ)) : Processing Unit :=
  modify fun s => { s with ignored := s.ignored ++ locations.filter valid }

/-- `_spinnable_data_failure`. -/
def spinnableDataFailure (check : Check) : Processing Unit := do
  if 3 < (← get).spinnableDataFailcount then do
    modify fun s => { s with spinnableDataFailcount := 0 }
    if !check.restartPogo && !check.reboot then throw .stopWorker else pure ()
  else modify fun s => { s with spinnableDataFailcount := s.spinnableDataFailcount + 1 }

/-- What a fort makes of the position, if it is a stop within reach. -/
def fortStopType (c : Course) (fort : Fort) : Option PositionStopType :=
  if fort.latitude = 0 || fort.longitude = 0 || fort.type = 0 then none
  else if stopSpinDistance ≤ c.distance ⟨fort.latitude, fort.longitude⟩ c.currentLocation then none
  else if c.levelmode && c.ignoreSpinnedStops && fort.visited then some .visitedStopInLevelModeToIgnore
  else if !fort.enabled then some .stopDisabled
  else if fort.closed then some .stopClosed
  else if fort.cooldownCompleteMs ≠ 0 then some .stopCooldown
  else some .spinnableStop

/-- The types of the stops in the surrounding cells. -/
def stopTypes (c : Course) (cells : List Cell) : List PositionStopType :=
  (cells.filter fun cell => cell.id ∈ c.s2cellIdsValid).flatMap fun cell => cell.forts.filterMap (fortStopType c)

/-- These reset `_spinnable_data_failcount`. -/
def PositionStopType.resetsFailcount : PositionStopType → Bool
  | .visitedStopInLevelModeToIgnore | .stopCooldown | .spinnableStop => true
  | _ => false

/-- The only one, or the first of these that is there. -/
def stopTypeAmong (types : List PositionStopType) : Option PositionStopType :=
  [.spinnableStop, .stopCooldown, .stopClosed, .stopDisabled, .visitedStopInLevelModeToIgnore].find? (· ∈ types)

/-- The stops `_check_if_stop_was_nearby_and_update_location` deletes. -/
def deletedStops (c : Course) (check : Check) (cells : List Cell) : List (Location ℚ) :=
  let found := cells.flatMap fun cell =>
    (cell.forts.filter fun fort => fort.latitude ≠ 0 && fort.longitude ≠ 0 && fort.id ≠ "").map Fort.id
  (check.nearby.filter fun stop => stop.pokestopId ∉ found && !stop.lastUpdatedRecently &&
    c.distance stop.location c.currentLocation < 100).map Pokestop.location

/-- `_current_position_has_spinnable_stop`. -/
def currentPositionHasSpinnableStop (c : Course) (check : Check) : Processing PositionStopType :=
  match check.received with
  | .raised => throw .awaited
  | .nothing => do
    spinnableDataFailure check
    pure .gmoNotAvailable
  | .gmo [] => do
    spinnableDataFailure check
    pure .gmoEmpty
  | .gmo cells =>
    match stopTypeAmong (stopTypes c cells) with
    | none => do
      addCoordsToBeRemoved (deletedStops c check cells)
      spinnableDataFailure check
      pure .noFort
    | some stopType => do
      modify fun s =>
        if (stopTypes c cells).any PositionStopType.resetsFailcount then { s with spinnableDataFailcount := 0 } else s
      pure stopType

/-- The check of the position, made again after a GMO that is not usable. -/
def checkPosition (c : Course) : Processing PositionStopType := do
  let stopType ← currentPositionHasSpinnableStop c c.firstCheck
  if c.levelmode then
    if stopType ∈ [.gmoNotAvailable, .gmoEmpty, .noFort] then throw .abortStopProcessing else pure stopType
  else if stopType ∈ [.gmoNotAvailable, .gmoEmpty] then do
    redoStopAtEnd c .ensureStopPresent
    currentPositionHasSpinnableStop c c.secondCheck
  else pure stopType

/-- The location is dropped where no stop at it can be spun. -/
def judge (c : Course) (stopType : PositionStopType) : Processing PositionStopType :=
  if !stopType.typeContainsStopAtAll || stopType ∈ [.stopClosed, .stopDisabled] ||
      stopType = .visitedStopInLevelModeToIgnore then do
    addCoordsToBeRemoved [c.currentLocation]
    throw .abortStopProcessing
  else pure stopType

/-- `_ensure_stop_present`. -/
def ensureStopPresent (c : Course) : Processing PositionStopType := checkPosition c >>= judge c

/-- The loop of `_handle_stop`, over what is waited for. -/
def handleStop (c : Course) : List (Option FortSearchResultTypes) → Processing Unit
  | [] => pure ()
  | none :: _ => throw .awaited
  | some result :: rest =>
    match result with
    | .inventory => redoStopAtEnd c .handleStop
    | .cooldown =>
      if c.levelmode then pure ()
      else match c.stopHasQuest with
        | none => throw .awaited
        | some true => pure ()
        | some false => redoStopAtEnd c .handleStop
    | .quest => pure ()
    | .full => pure ()
    -- a softban, or no result: it is waited once more
    | _ => handleStop c rest

/-- With a stop that is there: it is spun, or on cooldown. -/
def processStop (c : Course) (stopTypePresent : PositionStopType) : Processing Unit :=
  if stopTypePresent = .stopCooldown then setLastActionTime
  else if stopTypePresent = .spinnableStop then do
    handleStop c [c.firstSearch, c.secondSearch]
    setLastActionTime
  else pure ()
where
  setLastActionTime : Processing Unit := if c.lastActionTime then pure () else throw .awaited

/-- What is done in any case. -/
def checkLayer (c : Course) : Processing Unit :=
  match c.readyForScan with
  | none => throw .awaited
  | some true => pure ()
  | some false => redoStopAtEnd c .processStopAtLocation

/-- `_process_stop_at_location`. -/
def processStopAtLocation (c : Course) : Processing Unit :=
  finishing
    (handling (ensureStopPresent c >>= processStop c) fun e => if e = .abortStopProcessing then pure () else throw e)
    (checkLayer c)

/-! ## What is asked of an execution -/

/-- No usable GMO was received. -/
def Check.unusable (check : Check) : Bool :=
  match check.received with
  | .nothing => true
  | .gmo [] => true
  | _ => false

/-- An execution, with this `_spinnable_data_failcount` before. -/
def processed (c : Course) (failcount : Nat) : Processed := (call (processStopAtLocation c) ⟨0, [], failcount⟩).2

/-- The current location is appended once at most, and not if it is dropped; it is not dropped without
a usable GMO. -/
structure RetriedOrDropped (c : Course) (failcount : Nat) : Prop where
  once : (processed c failcount).appended ≤ 1
  either : ¬ (0 < (processed c failcount).appended ∧ c.currentLocation ∈ (processed c failcount).ignored)
  seen : c.firstCheck.unusable = true → c.secondCheck.unusable = true →
    c.currentLocation ∉ (processed c failcount).ignored

/-- `_spinnable_data_failure` raises. -/
def Check.fails (check : Check) (failcount : Nat) : Bool := 3 < failcount && !check.restartPogo && !check.reboot

/-- The check whose outcome counts, with the failcount before: none where the first one is not usable and
the restart fails. -/
def decisive (c : Course) (failcount : Nat) : Option (Check × Nat) :=
  if !c.firstCheck.unusable then some (c.firstCheck, failcount)
  else if c.firstCheck.fails failcount then none
  else some (c.secondCheck, if 3 < failcount then 0 else failcount + 1)

/-- The type a check finds, unless the wait raises. -/
def Check.stopType (c : Course) (check : Check) : Option PositionStopType :=
  match check.received with
  | .raised => none
  | .nothing => some .gmoNotAvailable
  | .gmo [] => some .gmoEmpty
  | .gmo cells => some ((stopTypeAmong (stopTypes c cells)).getD .noFort)

/-- A check drops the location: there is no GMO, no stop or none that can be spun, or the stop at the
location is deleted. -/
def Check.drops (c : Course) (check : Check) (failcount : Nat) : Bool :=
  valid c.currentLocation &&
    match check.received, check.stopType c with
    | _, some .gmoNotAvailable => !check.fails failcount
    | _, some .gmoEmpty => !check.fails failcount
    | .gmo cells, some .noFort => !check.fails failcount || c.currentLocation ∈ deletedStops c check cells
    | _, some .stopClosed => true
    | _, some .stopDisabled => true
    | _, some .visitedStopInLevelModeToIgnore => true
    | _, _ => false

/-- A result after which the stop is to be tried again. -/
def retriesAfter (c : Course) (search : Option FortSearchResultTypes) : Bool :=
  search = some .inventory || search = some .cooldown && c.stopHasQuest = some false

/-- A result after which another one is waited for. -/
def waitsAgain (search : Option FortSearchResultTypes) : Bool :=
  search ∈ [some .undefined, some .time, some .limit, some .unavailable, some .outOfRange]

/-- The location is appended since the first GMO is not usable. -/
def appendedFirst (c : Course) (failcount : Nat) : Bool :=
  c.firstCheck.unusable && !c.firstCheck.fails failcount && c.inRoutepool .ensureStopPresent

/-- After this check, the spin has to be tried again. -/
def Check.retries (c : Course) (check : Check) : Bool :=
  check.stopType c = some .spinnableStop &&
    (retriesAfter c c.firstSearch || waitsAgain c.firstSearch && retriesAfter c c.secondSearch)

/-- It is appended since the spin has to be tried again. -/
def appendedForSpin (c : Course) (failcount : Nat) : Bool :=
  (decisive c failcount).any (fun check => check.1.retries c) && c.inRoutepool .handleStop

/-- It is appended since the layer cannot be scanned. -/
def appendedLast (c : Course) : Bool := c.readyForScan = some false && c.inRoutepool .processStopAtLocation

/-- The last check drops the location. -/
def dropped (c : Course) (failcount : Nat) : Bool :=
  (decisive c failcount).any fun check => check.1.drops c check.2

/-- At most one of the three places appends the location, none does where it is dropped, and it is not
dropped without a usable GMO. -/
structure OnePlace (c : Course) (failcount : Nat) : Prop where
  spin : appendedFirst c failcount = true → appendedForSpin c failcount = false
  layer : appendedLast c = true → appendedFirst c failcount = false ∧ appendedForSpin c failcount = false
  dropped : dropped c failcount = true → appendedFirst c failcount = false ∧ appendedLast c = false ∧
    ¬ (c.firstCheck.unusable = true ∧ c.secondCheck.unusable = true)

/-! ## What the calls do -/

variable {c : Course} {s : Processed}

theorem call_spinnableDataFailure (check : Check) (s : Processed) :
    call (spinnableDataFailure check) s =
      (if check.fails s.spinnableDataFailcount then .error .stopWorker else .ok (),
        { s with spinnableDataFailcount :=
          if 3 < s.spinnableDataFailcount then 0 else s.spinnableDataFailcount + 1 }) := by
  unfold spinnableDataFailure Check.fails
  rw [call_bind, call_get, andThen_ok]
  split
  · next hlarge =>
    rw [call_bind, call_modify, andThen_ok, decide_eq_true hlarge, Bool.true_and]
    split
    · rfl
    · rfl
  · next hsmall =>
    rw [decide_eq_false hsmall]
    rfl

theorem call_addCoordsToBeRemoved (locations : List (Location ℚ)) (s : Processed) :
    call (addCoordsToBeRemoved locations) s = (.ok (), { s with ignored := s.ignored ++ locations.filter valid }) := rfl

/-- A GMO that is not usable. -/
theorem call_check_unusable {check : Check} (h : check.unusable = true) (s : Processed) :
    ∃ stopType, (stopType = .gmoNotAvailable ∨ stopType = .gmoEmpty) ∧ check.stopType c = some stopType ∧
      call (currentPositionHasSpinnableStop c check) s =
        (if check.fails s.spinnableDataFailcount then .error .stopWorker else .ok stopType,
          { s with spinnableDataFailcount :=
            if 3 < s.spinnableDataFailcount then 0 else s.spinnableDataFailcount + 1 }) := by
  unfold Check.unusable at h
  unfold currentPositionHasSpinnableStop Check.stopType
  split at h
  · next hreceived =>
    refine ⟨.gmoNotAvailable, Or.inl rfl, by rw [hreceived], ?_⟩
    rw [hreceived, call_bind, call_spinnableDataFailure]
    split <;> rfl
  · next hreceived =>
    refine ⟨.gmoEmpty, Or.inr rfl, by rw [hreceived], ?_⟩
    rw [hreceived, call_bind, call_spinnableDataFailure]
    split <;> rfl
  · cases h

/-- One that is, or a wait that raises. -/
theorem call_check_usable {check : Check} (h : check.unusable = false) (s : Processed) :
    (check.stopType c = none ∧ call (currentPositionHasSpinnableStop c check) s = (.error .awaited, s)) ∨
    (∃ cells failcount, check.received = .gmo cells ∧ check.stopType c = some .noFort ∧
      call (currentPositionHasSpinnableStop c check) s =
        (if check.fails s.spinnableDataFailcount then .error .stopWorker else .ok .noFort,
          { s with ignored := s.ignored ++ (deletedStops c check cells).filter valid,
                   spinnableDataFailcount := failcount })) ∨
    ∃ stopType failcount, stopType.typeContainsStopAtAll = true ∧ check.stopType c = some stopType ∧
      call (currentPositionHasSpinnableStop c check) s =
        (.ok stopType, { s with spinnableDataFailcount := failcount }) := by
  unfold Check.unusable at h
  unfold currentPositionHasSpinnableStop Check.stopType
  cases hreceived : check.received with
  | raised => exact Or.inl ⟨rfl, rfl⟩
  | nothing =>
    rw [hreceived] at h
    cases h
  | gmo cells =>
    cases cells with
    | nil =>
      rw [hreceived] at h
      cases h
    | cons cell rest =>
      right
      dsimp only
      cases hamong : stopTypeAmong (stopTypes c (cell :: rest)) with
      | none =>
        refine Or.inl ⟨cell :: rest, if 3 < s.spinnableDataFailcount then 0 else s.spinnableDataFailcount + 1, rfl,
          rfl, ?_⟩
        rw [call_bind, call_addCoordsToBeRemoved, andThen_ok, call_bind, call_spinnableDataFailure]
        split <;> rfl
      | some stopType =>
        have hstop : stopType.typeContainsStopAtAll = true := by
          have hmem := List.mem_of_find?_eq_some hamong
          revert hmem
          cases stopType <;> decide
        refine Or.inr ⟨stopType, if (stopTypes c (cell :: rest)).any PositionStopType.resetsFailcount then 0
          else s.spinnableDataFailcount, hstop, rfl, ?_⟩
        rw [call_bind, call_modify, andThen_ok, call_pure]
        split <;> rfl

/-! ## What becomes of a check -/

theorem call_redoStopAtEnd (place : Place) (s : Processed) :
    call (redoStopAtEnd c place) s =
      (.ok (), if c.inRoutepool place then { s with appended := s.appended + 1 } else s) := rfl

/-- One search, and what comes after it. -/
theorem call_handleStop_cons (hlevel : c.levelmode = false) (search : Option FortSearchResultTypes)
    (rest : List (Option FortSearchResultTypes)) (s : Processed) :
    (call (handleStop c (search :: rest)) s).2 =
      if retriesAfter c search then (call (redoStopAtEnd c .handleStop) s).2
      else if waitsAgain search then (call (handleStop c rest) s).2 else s := by
  cases search with
  | none => rfl
  | some result =>
    cases result with
    | cooldown =>
      rw [handleStop, hlevel]
      simp only [retriesAfter, waitsAgain]
      cases c.stopHasQuest with
      | none => rfl
      | some hasQuest => cases hasQuest <;> rfl
    | _ => rfl

/-- What the loop appends. -/
theorem call_handleStop (hlevel : c.levelmode = false) (s : Processed) :
    (call (handleStop c [c.firstSearch, c.secondSearch]) s).2 =
      if retriesAfter c c.firstSearch || waitsAgain c.firstSearch && retriesAfter c c.secondSearch then
        (call (redoStopAtEnd c .handleStop) s).2
      else s := by
  rw [call_handleStop_cons hlevel, call_handleStop_cons hlevel]
  cases retriesAfter c c.firstSearch <;> cases waitsAgain c.firstSearch <;> cases retriesAfter c c.secondSearch <;>
    simp [handleStop]

theorem call_setLastActionTime (c : Course) (s : Processed) : (call (processStop.setLastActionTime c) s).2 = s := by
  unfold processStop.setLastActionTime
  split <;> rfl

/-- What follows where it does not raise does not change the state. -/
theorem andThen_snd {α β : Type} {f : α → Processing β} (hf : ∀ a s, (call (f a) s).2 = s)
    (r : Except Raised α × Processed) : (andThen f r).2 = r.2 := by
  obtain ⟨result, t⟩ := r
  cases result with
  | ok a => exact hf a t
  | error e => rfl

/-- A stop that can be spun. -/
theorem call_spinnableStop (c : Course) (s : Processed) :
    (call (judge c .spinnableStop >>= processStop c) s).2 =
      (call (handleStop c [c.firstSearch, c.secondSearch]) s).2 := by
  show (call (handleStop c [c.firstSearch, c.secondSearch] >>= fun _ => processStop.setLastActionTime c) s).2 = _
  rw [call_bind, andThen_snd fun _ => call_setLastActionTime c]

theorem call_stopCooldown (c : Course) (s : Processed) :
    (call (judge c .stopCooldown >>= processStop c) s).2 = s := call_setLastActionTime c s

/-- Any other type: the location is dropped. -/
theorem call_otherType (c : Course) {stopType : PositionStopType} (hspinnable : stopType ≠ .spinnableStop)
    (hcooldown : stopType ≠ .stopCooldown) (s : Processed) :
    (call (judge c stopType >>= processStop c) s).2 =
      { s with ignored := s.ignored ++ [c.currentLocation].filter valid } := by
  cases stopType with
  | spinnableStop => exact absurd rfl hspinnable
  | stopCooldown => exact absurd rfl hcooldown
  | _ => rfl

/-- The current location is added. -/
theorem mem_ignored_append (c : Course) (ignored : List (Location ℚ)) :
    c.currentLocation ∈ ignored ++ [c.currentLocation].filter valid ↔
      c.currentLocation ∈ ignored ∨ valid c.currentLocation = true := by
  rw [List.mem_append, List.mem_filter]
  simp

/-- An execution that has come to a check appends and drops by it alone. -/
structure Follows (c : Course) (check : Check) (s t : Processed) : Prop where
  appended : t.appended = s.appended + (check.retries c && c.inRoutepool .handleStop).toNat
  ignored : c.currentLocation ∈ t.ignored ↔
    c.currentLocation ∈ s.ignored ∨ check.drops c s.spinnableDataFailcount = true

/-- What a check and the rest leave. -/
abbrev afterCheck (c : Course) (check : Check) (s : Processed) : Processed :=
  (andThen (fun stopType => judge c stopType >>= processStop c)
    (call (currentPositionHasSpinnableStop c check) s)).2

theorem follows_unusable {check : Check} (h : check.unusable = true) (s : Processed) :
    Follows c check s (afterCheck c check s) := by
  obtain ⟨stopType, hempty, htype, hcall⟩ := call_check_unusable (c := c) h s
  have hdrops : check.drops c s.spinnableDataFailcount =
      (valid c.currentLocation && !check.fails s.spinnableDataFailcount) := by
    unfold Check.drops
    rw [htype]
    rcases hempty with rfl | rfl <;> cases check.received <;> rfl
  have hother : stopType ≠ .spinnableStop ∧ stopType ≠ .stopCooldown := by
    rcases hempty with rfl | rfl <;> decide
  have hretries : check.retries c = false := by
    rw [Check.retries, htype, decide_eq_false fun heq => hother.1 (Option.some.inj heq)]
    rfl
  unfold afterCheck
  rw [hcall]
  cases hfails : check.fails s.spinnableDataFailcount with
  | true =>
    refine ⟨by rw [hretries]; rfl, ?_⟩
    rw [hdrops, hfails]
    simp
  | false =>
    rw [if_neg Bool.false_ne_true, andThen_ok, call_otherType c hother.1 hother.2]
    refine ⟨by rw [hretries]; rfl, ?_⟩
    rw [hdrops, hfails, mem_ignored_append, Bool.not_false, Bool.and_true]

/-- Without a stop, those of the database may be deleted. -/
theorem follows_noFort {check : Check} {cells : List Cell} (hreceived : check.received = .gmo cells)
    (htype : check.stopType c = some .noFort) {failcount : Nat} (s : Processed)
    (hcall : call (currentPositionHasSpinnableStop c check) s =
      (if check.fails s.spinnableDataFailcount then .error .stopWorker else .ok .noFort,
        { s with ignored := s.ignored ++ (deletedStops c check cells).filter valid,
                 spinnableDataFailcount := failcount })) :
    Follows c check s (afterCheck c check s) := by
  have hretries : check.retries c = false := by
    rw [Check.retries, htype]
    rfl
  have hdrops : check.drops c s.spinnableDataFailcount = (valid c.currentLocation &&
      (!check.fails s.spinnableDataFailcount || c.currentLocation ∈ deletedStops c check cells)) := by
    rw [Check.drops, htype, hreceived]
  unfold afterCheck
  rw [hcall]
  cases hfails : check.fails s.spinnableDataFailcount with
  | true =>
    refine ⟨by rw [hretries]; rfl, ?_⟩
    rw [hdrops, hfails]
    simp [and_comm]
  | false =>
    rw [if_neg Bool.false_ne_true, andThen_ok, call_otherType c (by decide) (by decide)]
    refine ⟨by rw [hretries]; rfl, ?_⟩
    rw [hdrops, hfails, mem_ignored_append, List.mem_append, List.mem_filter, or_assoc]
    simp only [Bool.not_false, Bool.true_or, Bool.and_true]
    refine or_congr_right ⟨?_, Or.inr⟩
    rintro (⟨_, hvalid⟩ | hvalid)
    · exact hvalid
    · exact hvalid

/-- With a stop, its type decides. -/
theorem follows_stop (hlevel : c.levelmode = false) {check : Check} {stopType : PositionStopType}
    (hstop : stopType.typeContainsStopAtAll = true) (htype : check.stopType c = some stopType) {failcount : Nat}
    (s : Processed) (hcall : call (currentPositionHasSpinnableStop c check) s =
      (.ok stopType, { s with spinnableDataFailcount := failcount })) :
    Follows c check s (afterCheck c check s) := by
  unfold afterCheck
  rw [hcall, andThen_ok]
  by_cases hspinnable : stopType = .spinnableStop
  · subst hspinnable
    have hdrops : check.drops c s.spinnableDataFailcount = false := by
      rw [Check.drops, htype]
      simp
    rw [call_spinnableStop, call_handleStop hlevel, call_redoStopAtEnd]
    refine ⟨?_, ?_⟩
    · rw [Check.retries, htype, decide_eq_true rfl, Bool.true_and]
      split
      · next hretries =>
        rw [hretries, Bool.true_and]
        cases hpool : c.inRoutepool .handleStop <;> simp
      · next hnot =>
        rw [Bool.eq_false_of_not_eq_true hnot]
        rfl
    · rw [hdrops]
      split
      · split <;> simp
      · simp
  have hretries : check.retries c = false := by
    rw [Check.retries, htype, decide_eq_false fun heq => hspinnable (Option.some.inj heq)]
    rfl
  by_cases hcooldown : stopType = .stopCooldown
  · subst hcooldown
    rw [call_stopCooldown]
    refine ⟨by rw [hretries]; rfl, ?_⟩
    rw [Check.drops, htype]
    simp
  · have hdrops : check.drops c s.spinnableDataFailcount = valid c.currentLocation := by
      rw [Check.drops, htype]
      revert hstop hspinnable hcooldown
      cases stopType <;> simp [PositionStopType.typeContainsStopAtAll]
    rw [call_otherType c hspinnable hcooldown]
    refine ⟨by rw [hretries]; rfl, ?_⟩
    rw [mem_ignored_append, hdrops]

theorem follows (hlevel : c.levelmode = false) (check : Check) (s : Processed) :
    Follows c check s (afterCheck c check s) := by
  cases hunusable : check.unusable with
  | true => exact follows_unusable hunusable s
  | false =>
    rcases call_check_usable (c := c) hunusable s with ⟨htype, hcall⟩ | ⟨cells, failcount, hreceived, htype, hcall⟩ |
      ⟨stopType, failcount, hstop, htype, hcall⟩
    · unfold afterCheck
      rw [hcall]
      refine ⟨?_, ?_⟩
      · rw [Check.retries, htype]
        rfl
      · rw [Check.drops, htype]
        simp
    · exact follows_noFort hreceived htype s hcall
    · exact follows_stop hlevel hstop htype s hcall

/-! ## A whole execution -/

theorem call_ensure_process (c : Course) (s : Processed) :
    call (ensureStopPresent c >>= processStop c) s =
      andThen (fun stopType => judge c stopType >>= processStop c) (call (checkPosition c) s) := by
  rw [ensureStopPresent, bind_assoc, call_bind]

/-- After a check that is not made again. -/
theorem ensure_process_usable (hlevel : c.levelmode = false) (h : c.firstCheck.unusable = false) (s : Processed) :
    (call (ensureStopPresent c >>= processStop c) s).2 = afterCheck c c.firstCheck s := by
  have hkept : call (checkPosition c) s = call (currentPositionHasSpinnableStop c c.firstCheck) s := by
    unfold checkPosition
    rw [call_bind]
    rcases call_check_usable (c := c) h s with ⟨_, hcall⟩ | ⟨cells, failcount, _, _, hcall⟩ |
      ⟨stopType, failcount, hstop, _, hcall⟩
    · rw [hcall]
      rfl
    · rw [hcall]
      cases c.firstCheck.fails s.spinnableDataFailcount with
      | true => rfl
      | false =>
        rw [if_neg Bool.false_ne_true, andThen_ok, hlevel]
        rfl
    · rw [hcall, andThen_ok, hlevel]
      cases stopType with
      | gmoNotAvailable => cases hstop
      | gmoEmpty => cases hstop
      | _ => rfl
  rw [call_ensure_process, hkept]

/-- After one that is. -/
theorem ensure_process_unusable (hlevel : c.levelmode = false) (h : c.firstCheck.unusable = true) (s : Processed) :
    (call (ensureStopPresent c >>= processStop c) s).2 =
      if c.firstCheck.fails s.spinnableDataFailcount then
        { s with spinnableDataFailcount := if 3 < s.spinnableDataFailcount then 0 else s.spinnableDataFailcount + 1 }
      else afterCheck c c.secondCheck
        { s with appended := s.appended + (c.inRoutepool .ensureStopPresent).toNat,
                 spinnableDataFailcount :=
                  if 3 < s.spinnableDataFailcount then 0 else s.spinnableDataFailcount + 1 } := by
  obtain ⟨stopType, hempty, _, hcall⟩ := call_check_unusable (c := c) h s
  rw [call_ensure_process, checkPosition, call_bind, hcall]
  cases c.firstCheck.fails s.spinnableDataFailcount with
  | true => rfl
  | false =>
    have hagain : stopType ∈ [PositionStopType.gmoNotAvailable, .gmoEmpty] := by rcases hempty with rfl | rfl <;> decide
    rw [if_neg Bool.false_ne_true, if_neg Bool.false_ne_true, andThen_ok, hlevel, if_neg Bool.false_ne_true,
      if_pos hagain, call_bind, call_redoStopAtEnd, andThen_ok]
    cases c.inRoutepool .ensureStopPresent <;> rfl

theorem call_checkLayer (c : Course) (s : Processed) :
    (call (checkLayer c) s).2 = { s with appended := s.appended + (appendedLast c).toNat } := by
  unfold checkLayer appendedLast
  cases c.readyForScan with
  | none => rfl
  | some ready =>
    cases ready with
    | true => rfl
    | false =>
      dsimp only
      rw [call_redoStopAtEnd]
      cases c.inRoutepool .processStopAtLocation <;> rfl

/-- Whatever is raised, the layer is checked. -/
theorem processed_eq (c : Course) (failcount : Nat) :
    processed c failcount =
      let t := (call (ensureStopPresent c >>= processStop c) ⟨0, [], failcount⟩).2
      { t with appended := t.appended + (appendedLast c).toNat } := by
  unfold processed processStopAtLocation
  rw [call_finishing, atLast_snd, call_handling, call_checkLayer]
  cases hcall : call (ensureStopPresent c >>= processStop c) ⟨0, [], failcount⟩ with
  | mk result t =>
    cases result with
    | ok a => rfl
    | error e =>
      rw [recover_error]
      split <;> rfl

/-- How often an execution appends the location, and whether it drops it. -/
theorem processed_spec (hlevel : c.levelmode = false) (failcount : Nat) :
    (processed c failcount).appended = (appendedFirst c failcount).toNat + (appendedForSpin c failcount).toNat +
        (appendedLast c).toNat ∧
      (c.currentLocation ∈ (processed c failcount).ignored ↔ dropped c failcount = true) := by
  rw [processed_eq]
  dsimp only
  unfold appendedFirst appendedForSpin dropped decisive
  cases hunusable : c.firstCheck.unusable with
  | false =>
    rw [ensure_process_usable hlevel hunusable]
    have hfollows := follows hlevel c.firstCheck ⟨0, [], failcount⟩
    refine ⟨?_, ?_⟩
    · rw [hfollows.appended]
      simp
    · rw [hfollows.ignored]
      simp
  | true =>
    rw [ensure_process_unusable hlevel hunusable]
    dsimp only
    cases hfails : c.firstCheck.fails failcount with
    | true => simp
    | false =>
      have hfollows := follows hlevel c.secondCheck ⟨0 + (c.inRoutepool .ensureStopPresent).toNat, [],
        if 3 < failcount then 0 else failcount + 1⟩
      refine ⟨?_, ?_⟩
      · rw [if_neg Bool.false_ne_true, hfollows.appended]
        simp
      · rw [if_neg Bool.false_ne_true, hfollows.ignored]
        simp

/-- A check that drops the location shows no stop that can be spun. -/
theorem retries_of_drops {check : Check} {failcount : Nat} (h : check.drops c failcount = true) :
    check.retries c = false := by
  have hspinnable : check.stopType c ≠ some .spinnableStop := by
    intro htype
    rw [Check.drops, htype] at h
    simp at h
  rw [Check.retries, decide_eq_false hspinnable, Bool.false_and]

theorem appendedForSpin_of_dropped {failcount : Nat} (h : dropped c failcount = true) :
    appendedForSpin c failcount = false := by
  unfold dropped at h
  unfold appendedForSpin
  cases hdecisive : decisive c failcount with
  | none => rfl
  | some check =>
    rw [hdecisive, Option.any_some] at h
    rw [Option.any_some, retries_of_drops h, Bool.false_and]

/-- Exactly then the location is retried or dropped, once. -/
theorem retriedOrDropped_iff (hlevel : c.levelmode = false) (failcount : Nat) :
    RetriedOrDropped c failcount ↔ OnePlace c failcount := by
  obtain ⟨happended, hdropped⟩ := processed_spec hlevel failcount
  have hspin : dropped c failcount = true → appendedForSpin c failcount = false := appendedForSpin_of_dropped
  have hretried : RetriedOrDropped c failcount ↔
      (appendedFirst c failcount).toNat + (appendedForSpin c failcount).toNat + (appendedLast c).toNat ≤ 1 ∧
      ¬ (0 < (appendedFirst c failcount).toNat + (appendedForSpin c failcount).toNat + (appendedLast c).toNat ∧
        dropped c failcount = true) ∧
      (c.firstCheck.unusable = true → c.secondCheck.unusable = true → ¬ dropped c failcount = true) := by
    rw [← happended, ← hdropped]
    exact ⟨fun h => ⟨h.once, h.either, h.seen⟩, fun h => ⟨h.1, h.2.1, h.2.2⟩⟩
  have hplace : OnePlace c failcount ↔
      (appendedFirst c failcount = true → appendedForSpin c failcount = false) ∧
      (appendedLast c = true → appendedFirst c failcount = false ∧ appendedForSpin c failcount = false) ∧
      (dropped c failcount = true → appendedFirst c failcount = false ∧ appendedLast c = false ∧
        ¬ (c.firstCheck.unusable = true ∧ c.secondCheck.unusable = true)) :=
    ⟨fun h => ⟨h.spin, h.layer, h.dropped⟩, fun h => ⟨h.1, h.2.1, h.2.2⟩⟩
  rw [hretried, hplace]
  cases appendedFirst c failcount <;> cases appendedLast c <;> cases hdrop : dropped c failcount <;>
    cases hretry : appendedForSpin c failcount <;> simp_all

/-- A spinnable stop of which the quest is received. -/
def spun : Course where
  distance _ _ := 0
  currentLocation := ⟨1, 1⟩
  s2cellIdsValid := [7]
  levelmode := false
  ignoreSpinnedStops := false
  firstCheck := ⟨.gmo [⟨7, [⟨"stop", 1, 1, 1, false, true, false, 0⟩]⟩], [], true, true⟩
  secondCheck := ⟨.nothing, [], true, true⟩
  firstSearch := some .quest
  secondSearch := none
  stopHasQuest := none
  lastActionTime := true
  readyForScan := some true
  inRoutepool _ := true

theorem spun_retriedOrDropped : RetriedOrDropped spun 0 :=
  (retriedOrDropped_iff rfl 0).mpr ⟨by decide +kernel, by decide +kernel, by decide +kernel⟩

/-- No GMO is received. -/
def unseen : Course := { spun with firstCheck := spun.secondCheck }

/-- The location is appended, and dropped without a GMO. -/
theorem unseen_appended_and_dropped : ¬ ∀ (c : Course) (failcount : Nat), c.levelmode = false →
    RetriedOrDropped c failcount := by
  intro h
  have heither := (h unseen 0 rfl).either
  exact heither (by decide +kernel)

end MapADroid.Worker.StopProcessing
