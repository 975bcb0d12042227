import MapADroid.Lib.Methods
import MapADroid.Mitm.Entry

/- Waiting for data of a device (`AbstractMitmBaseStrategy._wait_for_data`).

   The latest data is requested once before the loop and then in every round of it. A request
   that finds no proper location leaves what an earlier one found as it was, so what is
   returned may be the data of the request before the loop; it is data for which that request
   or a round met every check, with its own time (`data_fresh`). A wait for a GMO or an
   encounter that ends without data counts towards a restart of the game, and restarts count
   towards a reboot of the device. What a strategy reads out of the data is part of
   what a request reads, and what the awaited calls come to is arbitrary. -/
namespace MapADroid.Worker.WaitForData
open Lib Mitm

variable {P D : Type}

inductive ReceivedType where
  | undefined
  | gym
  | stop
  | mon
  | clear
  | gmo
  | fortSearchResult
  deriving DecidableEq

/-- The protos that are waited for. -/
inductive ProtoIdentifier where
  | fortSearch
  | encounter
  | fortDetails
  | gmo
  deriving DecidableEq

inductive Raised where
  /-- `InternalStopWorkerException`. -/
  | stopWorker
  /-- What a call raised that was awaited. -/
  | awaited
  /-- The loop is not over. -/
  | waiting
  deriving DecidableEq

/-! ## The checks -/

/-- What is read for a request: `get_last_known_location`, `request_latest`, `routemanager_get_max_radius`, and the
    part of `_check_for_data_content` that looks into the data. -/
structure Reading (P D : Type) where
  lastKnownLocation : Option (Location ℚ)
  latest : Option (LatestMitmDataEntry P)
  maxRadius : ℚ
  contents : P → ReceivedType × Option D

/-- What is read during a round of the loop, or right after it. -/
structure Round (P D : Type) where
  stopWorkerEvent : Bool
  now : ℚ
  reading : Reading P D
  /-- A call of the round raises. -/
  raises : Bool
  routemanagerPresent : Bool
  stopWorkerEventAfter : Bool
  positionTypeKnown : Bool

/-- What comes of calls that may start the game: the restarts of it and the reboots (`true`) within them, and whether
    they return. -/
structure Nested where
  reboots : List Bool
  comesBack : Bool
  deriving DecidableEq

/-- What `_restart_pogo` comes to. -/
structure Restart where
  /-- `stop_pogo` and what is awaited before it. -/
  stopComesBack : Bool
  successfulStop : Bool
  startPogo : Nested
  reboot : Nested
  deriving DecidableEq

/-- What `_handle_proto_timeout` comes to; `false` where a call raises. -/
structure Handling where
  collected : Bool
  threshRead : Bool
  rebootRead : Bool
  reboot : Nested
  restart : Restart
  deriving DecidableEq

/-- The settings of the device that are read, where they are set. -/
structure DeviceSettings where
  mitmWaitTimeout : Option ℚ
  restartThresh : Option Int
  rebootThresh : Option Int
  reboot : Option Bool
  deriving DecidableEq

/-- The arguments of a wait, and what is read and comes of calls during it. -/
structure Course (P D : Type) where
  timestamp : Option ℚ
  proto : ProtoIdentifier
  timeout : Option ℚ
  /-- `time.time()` at the start. -/
  startedAt : ℚ
  /-- A call before the loop raises. -/
  raises : Bool
  first : Reading P D
  rounds : Nat → Round P D
  currentLocation : Location ℚ
  distance : Location ℚ → Location ℚ → ℚ
  maximumValidDistance : ℚ
  /-- The strategy is a `QuestStrategy`. -/
  quest : Bool
  collected : Bool
  handling : Handling

/-- `MINIMUM_DISTANCE_ALLOWANCE_FOR_GMO`. -/
def minimumDistanceAllowanceForGmo : ℚ := 5

/-- `TIMESTAMP_NEVER`. -/
def timestampNever : Timestamp := .int 0

/-- `FALLBACK_MITM_WAIT_TIMEOUT`. -/
def fallbackMitmWaitTimeout : ℚ := 30

/-- A location that a device reports once it has one. -/
def properLocation (l : Location ℚ) : Bool :=
  !(l.lat = l.lng && l.lng = 1000) &&
    (l.lat ≠ 0 && l.lng ≠ 0 && -90 ≤ l.lat && l.lat ≤ 90 && -180 ≤ l.lng && l.lng ≤ 180)

/-- `_is_location_within_allowed_range`. -/
def isLocationWithinAllowedRange (c : Course P D) (maxRadius : ℚ) (latestLocation : Location ℚ) : Bool :=
  let maxDistanceForWorker :=
    if c.maximumValidDistance > maxRadius ∧ maxRadius > minimumDistanceAllowanceForGmo then maxRadius
    else c.maximumValidDistance
  c.distance latestLocation c.currentLocation ≤ maxDistanceForWorker

/-- `check_data`. -/
def checkData (c : Course P D) (r : Reading P D) : Bool :=
  match r.lastKnownLocation with
  | none => false
  | some l => properLocation l && (c.proto ≠ .gmo || isLocationWithinAllowedRange c r.maxRadius l)

/-- The checks of `_check_for_data_content` that all strategies make; the quest strategies refuse data without a time. -/
def recent (c : Course P D) (e : LatestMitmDataEntry P) (timestamp : Int) : Bool :=
  !(c.quest && !e.timestampOfDataRetrieval.truthy) && (timestamp : ℚ) ≤ e.timestampOfDataRetrieval.val

/-- `_check_for_data_content`. -/
def checkForDataContent (c : Course P D) (r : Reading P D) (timestamp : Int) : ReceivedType × Option D :=
  match r.latest with
  | none => (.undefined, none)
  | some e => if recent c e timestamp then r.contents e.data else (.undefined, none)

/-- What the requests have found. -/
structure Found (D : Type) where
  typeOfDataReturned : ReceivedType
  data : Option D
  lastTimeReceived : Timestamp
  deriving DecidableEq

/-- `_request_data`: the data, the entry and the type. -/
def requestData (c : Course P D) (r : Reading P D) (f : Found D) (timestamp : Int) :
    Option D × Option (LatestMitmDataEntry P) × ReceivedType :=
  if checkData c r then
    let content := checkForDataContent c r timestamp
    (content.2, r.latest, content.1)
  else (f.data, none, f.typeOfDataReturned)

/-! ## What a timeout leads to -/

/-- What happens to a worker, as far as its counters are concerned. -/
inductive Event where
  | received
  | timedOut
  /-- The reboot counter goes up. -/
  | escalated
  | restartOrdered
  | restarted
  | rebootOrdered
  | rebooted
  deriving DecidableEq

/-- `WorkerState`, with a record that is not in the source. -/
structure WorkerState where
  restartCount : Nat
  rebootCount : Nat
  maintenanceEarlyDetectionTriggered : Bool
  record : List Event
  deriving DecidableEq

namespace WorkerState

def init : WorkerState := ⟨0, 0, false, []⟩

/-- The assignments that go with an event. -/
def set (s : WorkerState) : Event → WorkerState
  | .received => { s with restartCount := 0, rebootCount := 0, maintenanceEarlyDetectionTriggered := false }
  | .timedOut => { s with restartCount := s.restartCount + 1 }
  | .escalated => { s with rebootCount := s.rebootCount + 1 }
  | .restartOrdered => { s with restartCount := 0, maintenanceEarlyDetectionTriggered := true }
  | .restarted => { s with restartCount := 0 }
  | .rebootOrdered => s
  | .rebooted => { s with restartCount := 0, rebootCount := 0 }

def note (s : WorkerState) (e : Event) : WorkerState := { s.set e with record := s.record ++ [e] }

end WorkerState

abbrev Working (α : Type) := Method WorkerState Raised α

/-- Something happens, with the assignments that go with it. -/
def happen (e : Event) : Working Unit := modify (·.note e)

/-- A call that is awaited. -/
def await (comesBack : Bool) : Working Unit := if comesBack then pure () else throw .awaited

/-- `start_pogo`, with the screens it handles and the wait for the injection. -/
def startPogo (p : Nested) : Working Unit := do
  modify fun s => p.reboots.foldl (fun s reboots => s.note (if reboots then .rebooted else .restarted)) s
  await p.comesBack

/-- `_reboot`; where the device may not be rebooted, it starts the game. -/
def reboot (p : Nested) : Working Unit := do
  startPogo p
  happen .rebooted

/-- `_restart_pogo`. -/
def restartPogo (r : Restart) : Working Unit := do
  await r.stopComesBack
  happen .restarted
  if r.successfulStop then startPogo r.startPogo else reboot r.reboot

/-- `_reset_restart_count_and_collect_stats`. -/
def resetRestartCountAndCollectStats (collected : Bool) : Working Unit := do
  happen .received
  await collected

/-- The reboot counter is above its threshold, and the device may be rebooted. -/
def toBeRebooted (settings : DeviceSettings) (h : Handling) : Working Bool := do
  if (settings.rebootThresh.getD 3 : Int) < (← get).rebootCount then do
    await h.rebootRead
    pure (settings.reboot.getD true)
  else pure false

/-- `_handle_proto_timeout`. -/
def handleProtoTimeout (settings : DeviceSettings) (h : Handling) : Working Unit := do
  await h.collected
  happen .timedOut
  await h.threshRead
  if (settings.restartThresh.getD 5 : Int) < (← get).restartCount then do
    happen .escalated
    if ← toBeRebooted settings h then do
      happen .rebootOrdered
      reboot h.reboot
      throw .stopWorker
    else do
      happen .restartOrdered
      restartPogo h.restart

/-! ## The wait -/

/-- `raise_stop_worker_if_applicable`. -/
def raiseStopWorkerIfApplicable (r : Round P D) : Working Unit := do
  if !r.routemanagerPresent || r.stopWorkerEventAfter then throw .stopWorker
  if !r.positionTypeKnown then throw .stopWorker

/-- The condition of the loop in its round `n`. -/
def Course.goesOn (c : Course P D) (timestamp : Int) (timeout : ℚ) (n : Nat) : Bool :=
  !(c.rounds n).stopWorkerEvent && (⌊(c.rounds n).now⌋ ≤ ⌊timestamp + timeout⌋ || timeout = 0)

/-- The `while` loop, from its round `n` on. -/
def waitLoop (c : Course P D) (timestamp : Int) (timeout : ℚ) : Nat → Nat → Found D → Working (Found D)
  | 0, _, _ => throw .waiting
  | fuel + 1, n, f => do
    if c.goesOn timestamp timeout n then do
      let r := c.rounds n
      await !r.raises
      let (data, latest, type) := requestData c r.reading f timestamp
      raiseStopWorkerIfApplicable r
      if type = .undefined then waitLoop c timestamp timeout fuel (n + 1) ⟨type, data, timestampNever⟩
      else
        match latest with
        | some e => pure ⟨type, data, e.timestampOfDataRetrieval⟩
        | none => waitLoop c timestamp timeout fuel (n + 1) ⟨type, data, f.lastTimeReceived⟩
    else pure f

/-- The timestamp that is waited for. -/
def Course.after (c : Course P D) : Int := ⌊c.timestamp.getD c.startedAt⌋

def Course.timeoutUsed (c : Course P D) (settings : DeviceSettings) : ℚ :=
  match c.timeout with
  | none => settings.mitmWaitTimeout.getD fallbackMitmWaitTimeout
  | some timeout => if timeout < 0 then 0 else timeout

/-- What the request before the loop finds. -/
def firstFound (c : Course P D) : Found D :=
  let (data, latest, type) := requestData c c.first ⟨.undefined, none, timestampNever⟩ c.after
  ⟨type, data, (latest.map LatestMitmDataEntry.timestampOfDataRetrieval).getD timestampNever⟩

/-- What `_wait_for_data` does with the outcome `f` of its loop. -/
def countOutcome (settings : DeviceSettings) (c : Course P D) (f : Found D) : Working Unit :=
  if c.proto = .gmo ∨ c.proto = .encounter then
    if f.typeOfDataReturned ≠ .undefined then resetRestartCountAndCollectStats c.collected
    else handleProtoTimeout settings c.handling
  else pure ()

/-- `_wait_for_data`. -/
def waitForData (settings : DeviceSettings) (c : Course P D) (fuel : Nat) : Working (Found D) := do
  await !c.raises
  let f ← waitLoop c c.after (c.timeoutUsed settings) fuel 0 (firstFound c)
  countOutcome settings c f
  pure f

theorem call_await (b : Bool) (s : WorkerState) :
    call (await b) s = if b then (.ok (), s) else (.error .awaited, s) := by
  cases b <;> rfl

theorem call_await_eq_ok {b : Bool} {a : Unit} {s t : WorkerState} (h : call (await b) s = (.ok a, t)) : t = s := by
  rw [call_await] at h
  split at h
  · exact (Prod.mk.inj h).2.symm
  · cases h

theorem call_raiseStopWorker (r : Round P D) (s : WorkerState) :
    call (raiseStopWorkerIfApplicable r) s = (.ok (), s) ∨
      call (raiseStopWorkerIfApplicable r) s = (.error .stopWorker, s) := by
  unfold raiseStopWorkerIfApplicable
  by_cases hpresent : (!r.routemanagerPresent || r.stopWorkerEventAfter) = true
  · exact .inr (by simp [hpresent])
  · by_cases hposition : (!r.positionTypeKnown) = true
    · exact .inr (by simp [hpresent, hposition])
    · exact .inl (by simp [hpresent, hposition])

/-- **A round of the loop**: it is the last one, or the loop goes on with what the request found. -/
inductive RoundMove (c : Course P D) (timestamp : Int) (timeout : ℚ) (fuel n : Nat) (f : Found D) (s : WorkerState) :
    Except Raised (Found D) × WorkerState → Prop where
  | ended (hover : c.goesOn timestamp timeout n = false) : RoundMove c timestamp timeout fuel n f s (.ok f, s)
  | raised {e : Raised} (he : e ≠ .waiting) : RoundMove c timestamp timeout fuel n f s (.error e, s)
  | found {type : ReceivedType} {data : Option D} {e : LatestMitmDataEntry P}
    (hrequest : requestData c (c.rounds n).reading f timestamp = (data, some e, type)) (hne : type ≠ .undefined) :
    RoundMove c timestamp timeout fuel n f s (.ok ⟨type, data, e.timestampOfDataRetrieval⟩, s)
  | unfound {data : Option D} (hgoes : c.goesOn timestamp timeout n = true) : RoundMove c timestamp timeout fuel n f s
      (call (waitLoop c timestamp timeout fuel (n + 1) ⟨.undefined, data, timestampNever⟩) s)
  | kept {type : ReceivedType} {data : Option D} (hgoes : c.goesOn timestamp timeout n = true)
    (hrequest : requestData c (c.rounds n).reading f timestamp = (data, none, type)) (hne : type ≠ .undefined) :
    RoundMove c timestamp timeout fuel n f s
      (call (waitLoop c timestamp timeout fuel (n + 1) ⟨type, data, f.lastTimeReceived⟩) s)

theorem waitLoop_round (c : Course P D) (timestamp : Int) (timeout : ℚ) (fuel n : Nat) (f : Found D) (s : WorkerState) :
    RoundMove c timestamp timeout fuel n f s (call (waitLoop c timestamp timeout (fuel + 1) n f) s) := by
  rw [waitLoop]
  split
  · next hgoes =>
    rw [call_bind, call_await]
    cases (c.rounds n).raises with
    | true => exact .raised (by decide)
    | false =>
      obtain ⟨data, latest, type, hrequest⟩ : ∃ data latest type,
          requestData c (c.rounds n).reading f timestamp = (data, latest, type) := ⟨_, _, _, rfl⟩
      simp only [Bool.not_false, if_true, andThen_ok, hrequest, call_bind]
      rcases call_raiseStopWorker (c.rounds n) s with hcall | hcall
      · rw [hcall, andThen_ok, call_ite]
        split
        · next hundefined =>
          rw [hundefined]
          exact .unfound hgoes
        · next hne =>
          cases latest with
          | some e => exact .found hrequest hne
          | none => exact .kept hgoes hrequest hne
      · rw [hcall]
        exact .raised (by decide)
  · next hover => exact .ended (Bool.eq_false_iff.mpr hover)

/-- The loop changes nothing about the worker. -/
theorem waitLoop_state (c : Course P D) (timestamp : Int) (timeout : ℚ) (fuel n : Nat) (f : Found D) (s : WorkerState) :
    (call (waitLoop c timestamp timeout fuel n f) s).2 = s := by
  induction fuel generalizing n f with
  | zero => rfl
  | succ fuel ih =>
    have hround := waitLoop_round c timestamp timeout fuel n f s
    generalize call (waitLoop c timestamp timeout (fuel + 1) n f) s = result at hround
    cases hround with
    | ended => rfl
    | raised => rfl
    | found => rfl
    | unfound => exact ih (n + 1) _
    | kept => exact ih (n + 1) _

/-- The loop ends, once the time is over or the worker is stopped. -/
theorem waitLoop_ends {c : Course P D} {timestamp : Int} {timeout : ℚ} {m : Nat}
    (hover : c.goesOn timestamp timeout m = false) (fuel n : Nat) (hn : n ≤ m) (hfuel : m < n + fuel) (f : Found D)
    (s : WorkerState) : (call (waitLoop c timestamp timeout fuel n f) s).1 ≠ .error .waiting := by
  induction fuel generalizing n f with
  | zero => omega
  | succ fuel ih =>
    have hnext : c.goesOn timestamp timeout n = true → n + 1 ≤ m := by
      intro hgoes
      have hne : n ≠ m := by
        rintro rfl
        rw [hover] at hgoes
        cases hgoes
      omega
    have hround := waitLoop_round c timestamp timeout fuel n f s
    generalize call (waitLoop c timestamp timeout (fuel + 1) n f) s = result at hround
    cases hround with
    | ended => exact nofun
    | raised he => exact fun h => he (Except.error.inj h)
    | found => exact nofun
    | unfound hgoes => exact ih (n + 1) (hnext hgoes) (by omega) _
    | kept hgoes => exact ih (n + 1) (hnext hgoes) (by omega) _

/-! ## What is returned -/

/-- `f` is what a request found that met every check. -/
def FromReading (c : Course P D) (f : Found D) (r : Reading P D) : Prop :=
  ∃ e location, r.latest = some e ∧ r.lastKnownLocation = some location ∧ properLocation location = true ∧
    (c.proto = .gmo → isLocationWithinAllowedRange c r.maxRadius location = true) ∧
    (c.after : ℚ) ≤ e.timestampOfDataRetrieval.val ∧
    (f.typeOfDataReturned, f.data) = r.contents e.data ∧ f.lastTimeReceived = e.timestampOfDataRetrieval

/-- The readings of the request before the loop, and of its rounds. -/
def readings (c : Course P D) : Nat → Reading P D
  | 0 => c.first
  | n + 1 => (c.rounds n).reading

variable {c : Course P D} {f f' : Found D}

theorem checkData_eq_true {r : Reading P D} (h : checkData c r = true) :
    ∃ location, r.lastKnownLocation = some location ∧ properLocation location = true ∧
      (c.proto = .gmo → isLocationWithinAllowedRange c r.maxRadius location = true) := by
  rw [checkData] at h
  split at h
  · cases h
  · next location hlocation =>
    rw [Bool.and_eq_true, Bool.or_eq_true, decide_eq_true_eq] at h
    exact ⟨location, hlocation, h.1, fun hgmo => h.2.resolve_left fun hne => hne hgmo⟩

theorem checkForDataContent_ne {r : Reading P D} {timestamp : Int}
    (h : (checkForDataContent c r timestamp).1 ≠ .undefined) :
    ∃ e, r.latest = some e ∧ (timestamp : ℚ) ≤ e.timestampOfDataRetrieval.val ∧
      checkForDataContent c r timestamp = r.contents e.data := by
  rw [checkForDataContent] at h ⊢
  split at h
  · exact absurd rfl h
  · next e hentry =>
    split at h
    · next hrecent =>
      rw [if_pos hrecent]
      rw [recent, Bool.and_eq_true, decide_eq_true_eq] at hrecent
      exact ⟨e, hentry, hrecent.2, rfl⟩
    · exact absurd rfl h

/-- A request that finds something found it now, or left what was found before. -/
theorem requestData_found {r : Reading P D} {type : ReceivedType} {data : Option D}
    {latest : Option (LatestMitmDataEntry P)} (h : requestData c r f c.after = (data, latest, type))
    (htype : type ≠ .undefined) :
    (∃ e, latest = some e ∧ FromReading c ⟨type, data, e.timestampOfDataRetrieval⟩ r) ∨
      (latest = none ∧ type = f.typeOfDataReturned ∧ data = f.data) := by
  unfold requestData at h
  split at h
  · next hcheck =>
    obtain ⟨hdata, hrest⟩ := Prod.mk.inj h
    obtain ⟨hlatest, htype'⟩ := Prod.mk.inj hrest
    obtain ⟨location, hlocation, hproper, hrange⟩ := checkData_eq_true hcheck
    obtain ⟨e, hentry, hrecent, hcontents⟩ := checkForDataContent_ne (htype' ▸ htype)
    have hfound : (type, data) = r.contents e.data := by rw [← hcontents, ← htype', ← hdata]
    exact .inl ⟨e, hlatest.symm.trans hentry, e, location, hentry, hlocation, hproper, hrange, hrecent, hfound, rfl⟩
  · obtain ⟨hdata, hrest⟩ := Prod.mk.inj h
    obtain ⟨hlatest, htype'⟩ := Prod.mk.inj hrest
    exact .inr ⟨hlatest.symm, htype'.symm, hdata.symm⟩

/-- What the loop returns was found in one of its rounds, or before it. -/
theorem waitLoop_found {timeout : ℚ} (fuel n : Nat) {s : WorkerState}
    (hf : f.typeOfDataReturned ≠ .undefined → ∃ m ≤ n, FromReading c f (readings c m))
    (h : (call (waitLoop c c.after timeout fuel n f) s).1 = .ok f') (hne : f'.typeOfDataReturned ≠ .undefined) :
    ∃ m ≤ n + fuel, FromReading c f' (readings c m) := by
  induction fuel generalizing n f with
  | zero => cases h
  | succ fuel ih =>
    have hnext : n + 1 + fuel = n + (fuel + 1) := by omega
    have hround := waitLoop_round c c.after timeout fuel n f s
    generalize call (waitLoop c c.after timeout (fuel + 1) n f) s = result at h hround
    cases hround with
    | ended =>
      obtain rfl := Except.ok.inj h
      obtain ⟨m, hm, hfrom⟩ := hf hne
      exact ⟨m, by omega, hfrom⟩
    | raised => cases h
    | found hrequest hdefined =>
      obtain rfl := Except.ok.inj h
      rcases requestData_found hrequest hdefined with ⟨e, he, hfrom⟩ | ⟨hnone, _, _⟩
      · obtain rfl := Option.some.inj he
        exact ⟨n + 1, by omega, hfrom⟩
      · cases hnone
    | unfound hgoes => exact hnext ▸ ih (n + 1) (fun hdefined => absurd rfl hdefined) h
    | @kept type data hgoes hrequest hdefined =>
      rcases requestData_found hrequest hdefined with ⟨e, he, _⟩ | ⟨_, hsame, hdata⟩
      · cases he
      · have hkept : (⟨type, data, f.lastTimeReceived⟩ : Found D) = f := by rw [hsame, hdata]
        rw [hkept] at h
        have hbefore : f.typeOfDataReturned ≠ .undefined → ∃ m ≤ n + 1, FromReading c f (readings c m) := by
          intro hbefore
          obtain ⟨m, hm, hfrom⟩ := hf hbefore
          exact ⟨m, Nat.le_succ_of_le hm, hfrom⟩
        exact hnext ▸ ih (n + 1) hbefore h

theorem firstFound_found (h : (firstFound c).typeOfDataReturned ≠ .undefined) :
    FromReading c (firstFound c) (readings c 0) := by
  obtain ⟨data, latest, type, hrequest⟩ : ∃ data latest type,
      requestData c c.first ⟨.undefined, none, timestampNever⟩ c.after = (data, latest, type) := ⟨_, _, _, rfl⟩
  have hfirst : firstFound c
      = ⟨type, data, (latest.map LatestMitmDataEntry.timestampOfDataRetrieval).getD timestampNever⟩ := by
    rw [firstFound, hrequest]
  rw [hfirst] at h ⊢
  rcases requestData_found hrequest h with ⟨e, rfl, hfrom⟩ | ⟨_, hsame, _⟩
  · exact hfrom
  · exact absurd hsame h

/-- **What a wait returns is fresh**: data that `_wait_for_data` returns is what one request found, when the device
    reported a proper location, in the allowed range where a GMO was waited for; it is not older than the time waited
    from, and the time returned is its own. The wait for a GMO or an encounter then takes back all timeouts. -/
theorem data_fresh {settings : DeviceSettings} {fuel : Nat} {s t : WorkerState}
    (h : call (waitForData settings c fuel) s = (.ok f, t)) (hfound : f.typeOfDataReturned ≠ .undefined) :
    (∃ m ≤ fuel, FromReading c f (readings c m)) ∧
      (c.proto = .gmo ∨ c.proto = .encounter → t.restartCount = 0 ∧ t.rebootCount = 0) := by
  rw [waitForData] at h
  obtain ⟨_, s1, hawait, hstarted⟩ := call_bind_eq_ok_iff.mp h
  obtain rfl := call_await_eq_ok hawait
  obtain ⟨f', s2, hloop, hended⟩ := call_bind_eq_ok_iff.mp hstarted
  have hfrom := waitLoop_found fuel 0 (fun hne => ⟨0, Nat.le_refl 0, firstFound_found hne⟩) (congrArg Prod.fst hloop)
  obtain ⟨_, s3, hhandled, hreturned⟩ := call_bind_eq_ok_iff.mp hended
  obtain ⟨hf, rfl⟩ := Prod.mk.inj hreturned
  obtain rfl := Except.ok.inj hf
  refine ⟨by simpa using hfrom hfound, fun hproto => ?_⟩
  rw [countOutcome, if_pos hproto, if_pos hfound] at hhandled
  obtain ⟨_, s4, hreset, hcollected⟩ := call_bind_eq_ok_iff.mp hhandled
  obtain ⟨_, rfl⟩ := Prod.mk.inj hreset
  obtain rfl := call_await_eq_ok hcollected
  exact ⟨rfl, rfl⟩

/-- A wait for a GMO: the device has no location at first, and reports data that is too old in the first round. -/
def patientWait : Course Nat Nat where
  timestamp := some (1000 + 1 / 2)
  proto := .gmo
  timeout := none
  startedAt := 1001
  raises := false
  first := ⟨none, none, 50, fun data => (.gmo, some data)⟩
  rounds n := ⟨false, 1001 + n, ⟨some ⟨10, 20⟩, some ⟨none, .int 1010, .int (999 + n), 40 + n⟩, 50,
    fun data => (.gmo, some data)⟩, false, true, false, true⟩
  currentLocation := ⟨10, 20⟩
  distance _ _ := 3
  maximumValidDistance := 100
  quest := false
  collected := true
  handling := ⟨true, true, true, ⟨[], true⟩, ⟨true, true, ⟨[], true⟩, ⟨[], true⟩⟩⟩

theorem data_fresh_patientWait :
    ∃ m ≤ 5, FromReading patientWait ⟨.gmo, some 41, .int 1000⟩ (readings patientWait m) := by
  have h : call (waitForData ⟨none, none, none, none⟩ patientWait 5) ⟨4, 2, true, []⟩ =
      (.ok ⟨.gmo, some 41, .int 1000⟩, ⟨0, 0, false, [.received]⟩) := by decide +kernel
  exact (data_fresh h (by decide)).1

end MapADroid.Worker.WaitForData
