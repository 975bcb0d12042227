import MapADroid.Lib.Cached
import MapADroid.Mitm.Threads

/- `MitmMapperClient` and `MitmMapperServer`: the store in memory behind gRPC, and the messages
   of `mitm_mapper.proto` between the two.

   A client does not submit the level or the visits it was last told to set, and keeps
   some answers for a while. The server hands an update of the latest data to a thread and
   acknowledges it at once; for every other request its loop looks whether there are data of
   the worker, makes them if there are none, and uses them, while the threads go on. A scalar
   field that is not set reads as zero, a message that is not set as one with nothing set. -/
namespace MapADroid.Mitm.Grpc
open Lib

variable {P : Type}

/-! ## Messages -/

abbrev Int32Field := { i : Int // -2 ^ 31 ≤ i ∧ i < 2 ^ 31 }

abbrev Uint64Field := { i : Int // 0 ≤ i ∧ i < 2 ^ 64 }

/-- A number as the value of a field, `none` where setting the field raises. -/
def field {p : Int → Prop} [DecidablePred p] (i : Int) : Option { i : Int // p i } :=
  if h : p i then some ⟨i, h⟩ else none

theorem field_eq_some {p : Int → Prop} [DecidablePred p] {i : Int} {f : { i : Int // p i }} :
    field i = some f ↔ f.val = i := by
  unfold field
  split
  · next h => simp [Subtype.ext_iff, eq_comm]
  · next h =>
    constructor
    · intro hf
      cases hf
    · rintro rfl
      exact absurd f.property h

/-- What the value of an update may be. -/
inductive Kind where
  | list
  | dictionary
  deriving DecidableEq

/-- How values are put into messages, as `Struct` or `ListValue`. -/
structure Protobuf (P : Type) where
  /-- `isinstance`; `none` if a value is neither. -/
  kind : P → Option Kind
  isEmpty : P → Bool
  /-- What `MessageToDict` makes of the message a value was put into, `none` where it cannot be put into one. -/
  packed : P → Option P
  emptyList : P
  kind_packed : ∀ {v w}, packed v = some w → kind w = kind v
  isEmpty_packed : ∀ {v w}, packed v = some w → isEmpty w = isEmpty v
  packed_packed : ∀ {v w}, packed v = some w → packed w = some w
  kind_emptyList : kind emptyList = some .list
  isEmpty_emptyList : isEmpty emptyList = true

/-- Lists of numbers, small enough to be put into a message as they are. -/
def plain : Protobuf (List Int) where
  kind _ := some .list
  isEmpty l := l.isEmpty
  packed := some
  emptyList := []
  kind_packed h := by cases h; rfl
  isEmpty_packed h := by cases h; rfl
  packed_packed h := by cases h; rfl
  kind_emptyList := rfl
  isEmpty_emptyList := rfl

/-- `LatestMitmDataEntry` of the protocol; `data` is what `MessageToDict` makes of the member that is set. -/
structure EntryMessage (P : Type) where
  location : Option (Location ℚ)
  timestampReceived : Option Uint64Field
  timestampOfDataRetrieval : Option Uint64Field
  data : Option (Kind × P)

inductive Request (P : Type) where
  | updateLatest (worker key : String) (data : EntryMessage P)
  | requestLatest (worker key : String) (timestampEarliest : Option Uint64Field)
  | setLevel (worker : String) (level : Int32Field)
  | setPokestopVisits (worker : String) (pokestopVisits : Int32Field)
  | getPokestopVisits (worker : String)
  | getLevel (worker : String)
  | getInjectionStatus (worker : String)
  | setInjected (worker : String) (isInjected : Bool)
  | getLastKnownLocation (worker : String)
  | setQuestsHeld (worker : String) (questsHeld : Option (List Int32Field))
  | getQuestsHeld (worker : String)

inductive Response (P : Type) where
  | ack
  | latestMitmDataEntry (entry : Option (EntryMessage P))
  | pokestopVisits (stopsVisited : Uint64Field)
  | level (level : Int32Field)
  | injectionStatus (isInjected : Bool)
  | lastKnownLocation (location : Option (Location ℚ))
  | questsHeld (questsHeld : Option (List Int32Field))

/-- A value as the member of the `oneof`: not set if it is empty, `none` where it raises. -/
def content (pb : Protobuf P) (value : P) : Option (Option (Kind × P)) :=
  match pb.kind value with
  | none => none
  | some kind => if pb.isEmpty value then some none else (pb.packed value).map fun v => some (kind, v)

/-! ## Calls of the client -/

/-- A call of a method of the client. -/
inductive Call (P : Type) where
  | setLevel (worker : String) (level : Int)
  | setPokestopVisits (worker : String) (pokestopVisits : Int)
  | updateLatest (worker key : String) (value : P) (raw receiver : Option Timestamp) (location : Option (Location ℚ))
  | requestLatest (worker key : String) (timestampEarliest : Option Int)
  | getPokeStopVisits (worker : String)
  | getLevel (worker : String)
  | getInjectionStatus (worker : String)
  | setInjectionStatus (worker : String) (status : Bool)
  | getLastKnownLocation (worker : String)
  | setQuestsHeld (worker : String) (questsHeld : Option (List Int))
  | getQuestsHeld (worker : String)
  deriving DecidableEq

/-- What a call returns. -/
inductive Result (P : Type) where
  | nothing
  | number (i : Int)
  | flag (b : Bool)
  | location (location : Option (Location ℚ))
  | latest (entry : Option (LatestMitmDataEntry (Option P)))
  | quests (questsHeld : Option (List Int))
  deriving DecidableEq

/-- How far a call comes by itself. -/
inductive Begun (P : Type) where
  | returned (result : Result P)
  | raised
  /-- It waits for the response to a request. -/
  | sent (request : Request P)

/-- The request a call sends, if setting its fields does not raise. -/
def Begun.ofRequest : Option (Request P) → Begun P
  | some request => .sent request
  | none => .raised

structure MitmMapperClient where
  levelCache : Dict String Int
  pokestopVisitsCache : Dict String Int
  /-- The answers of `get_level`. -/
  levels : Cached String Int
  /-- The answers of `get_poke_stop_visits`. -/
  visits : Cached String Int
  /-- The answers of `get_quests_held`; one that is `None` is not given again. -/
  quests : Cached String (Option (List Int))

namespace MitmMapperClient

/-- `MitmMapperClient.__init__`. -/
def new : MitmMapperClient := ⟨.empty, .empty, .empty, .empty, .empty⟩

/-- The level set last, as this client knows it. -/
def lastLevel (c : MitmMapperClient) (worker : String) : Int := (c.levelCache.get? worker).getD 0

/-- The visits set last, as this client knows them. -/
def lastVisits (c : MitmMapperClient) (worker : String) : Int := (c.pokestopVisitsCache.get? worker).getD 0

/-! ### Before the request -/

/-- `set_level`. `cached` has no effect on it, since its result is `None`. -/
def setLevel (c : MitmMapperClient) (worker : String) (level : Int) : Begun P × MitmMapperClient :=
  if c.lastLevel worker = level then (.returned .nothing, c)
  else
    (.ofRequest ((field level).map (.setLevel worker)), { c with levelCache := c.levelCache.insert worker level })

/-- `set_pokestop_visits`. -/
def setPokestopVisits (c : MitmMapperClient) (worker : String) (pokestopVisits : Int) :
    Begun P × MitmMapperClient :=
  if c.lastVisits worker = pokestopVisits then (.returned .nothing, c)
  else
    (.ofRequest ((field pokestopVisits).map (.setPokestopVisits worker)),
      { c with pokestopVisitsCache := c.pokestopVisitsCache.insert worker pokestopVisits })

/-- A timestamp of an update: set if it is not zero. -/
def timestampField : Option Timestamp → Option (Option Uint64Field)
  | some t => if t.truthy then (field t.toInt).map some else some none
  | none => some none

/-- `update_latest`. -/
def updateLatest (pb : Protobuf P) (worker key : String) (value : P) (raw receiver : Option Timestamp)
    (location : Option (Location ℚ)) : Option (Request P) := do
  let timestampReceived ← timestampField raw
  let timestampOfDataRetrieval ← timestampField receiver
  let data ← content pb value
  return .updateLatest worker key { location, timestampReceived, timestampOfDataRetrieval, data }

/-- `request_latest`. -/
def requestLatest (worker key : String) (timestampEarliest : Option Int) : Option (Request P) := do
  let earliest ← timestampField (timestampEarliest.map .int)
  return .requestLatest worker key earliest

/-- `set_quests_held`: an empty list is not set. -/
def setQuestsHeld (worker : String) (questsHeld : Option (List Int)) : Option (Request P) :=
  match questsHeld with
  | none | some [] => some (.setQuestsHeld worker none)
  | some quests => (quests.mapM field).map fun ids => .setQuestsHeld worker (some ids)

/-- A call up to its first request. -/
def begin (pb : Protobuf P) (now : ℚ) (c : MitmMapperClient) : Call P → Begun P × MitmMapperClient
  | .setLevel worker level => c.setLevel worker level
  | .setPokestopVisits worker pokestopVisits => c.setPokestopVisits worker pokestopVisits
  | .updateLatest worker key value raw receiver location =>
    (.ofRequest (updateLatest pb worker key value raw receiver location), c)
  | .requestLatest worker key earliest => (.ofRequest (requestLatest worker key earliest), c)
  | .getPokeStopVisits worker =>
    match c.visits.find? now worker with
    | some visits => (.returned (.number visits), c)
    | none => (.sent (.getPokestopVisits worker), c)
  | .getLevel worker =>
    match c.levels.find? now worker with
    | some level => (.returned (.number level), c)
    | none => (.sent (.getLevel worker), c)
  | .getInjectionStatus worker => (.sent (.getInjectionStatus worker), c)
  | .setInjectionStatus worker status => (.sent (.setInjected worker status), c)
  | .getLastKnownLocation worker => (.sent (.getLastKnownLocation worker), c)
  | .setQuestsHeld worker questsHeld => (.ofRequest (setQuestsHeld worker questsHeld), c)
  | .getQuestsHeld worker =>
    match c.quests.find? now worker with
    | some (some quests) => (.returned (.quests (some quests)), c)
    | _ => (.sent (.getQuestsHeld worker), c)

/-- The request a call sends if it sends one. -/
def request (pb : Protobuf P) : Call P → Option (Request P)
  | .setLevel worker level => (field level).map (.setLevel worker)
  | .setPokestopVisits worker pokestopVisits => (field pokestopVisits).map (.setPokestopVisits worker)
  | .updateLatest worker key value raw receiver location => updateLatest pb worker key value raw receiver location
  | .requestLatest worker key earliest => requestLatest worker key earliest
  | .getPokeStopVisits worker => some (.getPokestopVisits worker)
  | .getLevel worker => some (.getLevel worker)
  | .getInjectionStatus worker => some (.getInjectionStatus worker)
  | .setInjectionStatus worker status => some (.setInjected worker status)
  | .getLastKnownLocation worker => some (.getLastKnownLocation worker)
  | .setQuestsHeld worker questsHeld => setQuestsHeld worker questsHeld
  | .getQuestsHeld worker => some (.getQuestsHeld worker)

theorem ofRequest_eq_sent {o : Option (Request P)} {r : Request P} : Begun.ofRequest o = .sent r ↔ o = some r := by
  cases o <;> simp [Begun.ofRequest]

theorem request_of_begin {pb : Protobuf P} {now : ℚ} {c : MitmMapperClient} {call : Call P} {r : Request P}
    (h : (c.begin pb now call).1 = .sent r) : request pb call = some r := by
  cases call with
  | setLevel worker level =>
    simp only [begin, setLevel] at h
    split at h
    · cases h
    · exact ofRequest_eq_sent.mp h
  | setPokestopVisits worker visits =>
    simp only [begin, setPokestopVisits] at h
    split at h
    · cases h
    · exact ofRequest_eq_sent.mp h
  | updateLatest worker key value raw receiver location => exact ofRequest_eq_sent.mp h
  | requestLatest worker key earliest => exact ofRequest_eq_sent.mp h
  | setQuestsHeld worker questsHeld => exact ofRequest_eq_sent.mp h
  | getPokeStopVisits worker | getLevel worker | getQuestsHeld worker =>
    simp only [begin] at h
    split at h
    · cases h
    · exact congrArg some (Begun.sent.inj h)
  | getInjectionStatus worker | setInjectionStatus worker status | getLastKnownLocation worker =>
    exact congrArg some (Begun.sent.inj h)

/-! ### After the response -/

/-- `__transform_proto_data_entry`. The message of the location is there whether it was set or not. -/
def transformProtoDataEntry (pb : Protobuf P) (entry : EntryMessage P) : LatestMitmDataEntry (Option P) where
  location := some (entry.location.getD ⟨0, 0⟩)
  timestampReceived := .int (entry.timestampReceived.elim 0 Subtype.val)
  timestampOfDataRetrieval := .int (entry.timestampOfDataRetrieval.elim 0 Subtype.val)
  data := entry.data.bind fun content => if pb.isEmpty content.2 then none else some content.2

/-- The rest of a call, given the response. -/
def answered (pb : Protobuf P) (now : ℚ) (c : MitmMapperClient) : Call P → Response P → Result P × MitmMapperClient
  | .requestLatest _ _ _, .latestMitmDataEntry entry => (.latest (entry.map (transformProtoDataEntry pb)), c)
  | .getPokeStopVisits worker, .pokestopVisits visited =>
    (.number visited, { c with visits := c.visits.keep now 30 worker visited })
  | .getLevel worker, .level level => (.number level, { c with levels := c.levels.keep now 60 worker level })
  | .getInjectionStatus _, .injectionStatus isInjected => (.flag isInjected, c)
  | .getLastKnownLocation _, .lastKnownLocation location => (.location location, c)
  | .getQuestsHeld worker, .questsHeld questsHeld =>
    let quests := questsHeld.map (·.map Subtype.val)
    (.quests quests, { c with quests := c.quests.keep now 1 worker quests })
  | _, _ => (.nothing, c)

/-- The rest of a call, given an `AioRpcError`. -/
def failed (now : ℚ) (c : MitmMapperClient) : Call P → Result P × MitmMapperClient
  | .requestLatest _ _ _ => (.latest none, c)
  | .getPokeStopVisits worker =>
    (.number (c.lastVisits worker), { c with visits := c.visits.keep now 30 worker (c.lastVisits worker) })
  | .getLevel worker =>
    (.number (c.lastLevel worker), { c with levels := c.levels.keep now 60 worker (c.lastLevel worker) })
  | .getInjectionStatus _ => (.flag false, c)
  | .getLastKnownLocation _ => (.location none, c)
  | .getQuestsHeld worker => (.quests none, { c with quests := c.quests.keep now 1 worker none })
  | .setLevel _ _ | .setPokestopVisits _ _ | .updateLatest _ _ _ _ _ _ | .setInjectionStatus _ _
  | .setQuestsHeld _ _ => (.nothing, c)

end MitmMapperClient

/-! ## The server -/

/-- An update, and how far its thread is. -/
structure Thread (P : Type) where
  update : Update P
  place : Place P

/-- `MitmMapperServer`: the store in memory, and the threads that update it. -/
structure MitmMapperServer (P : Type) where
  store : Store P
  threads : List (Thread P)

namespace MitmMapperServer

def new : MitmMapperServer P := ⟨.empty, []⟩

def handler (s : MitmMapperServer P) : MitmDataHandler P := s.store.handler

/-- An assignment to the data of a worker, which are there. -/
def assign (s : MitmMapperServer P) (worker : String) (f : PlayerData P → PlayerData P) : MitmMapperServer P :=
  match s.store.workerData.get? worker with
  | none => s
  | some r => { s with store := s.store.modify r f }

/-- The arguments `UpdateLatest` gives to `update_latest`. -/
def toUpdate (pb : Protobuf P) (worker key : String) (data : EntryMessage P) : Update P where
  worker := worker
  key := key
  value := data.data.elim pb.emptyList Prod.snd
  timestampReceivedRaw := some (.int (data.timestampReceived.elim 0 Subtype.val))
  timestampReceivedReceiver := some (.int (data.timestampOfDataRetrieval.elim 0 Subtype.val))
  location := some (data.location.getD ⟨0, 0⟩)

/-- A timestamp of a stored entry: set if it is not zero, which raises if it is a float. -/
def storedTimestamp (t : Timestamp) : Option (Option Uint64Field) :=
  if t.truthy then
    match t with
    | .int i => (field i).map some
    | .float _ => none
  else some none

/-- The data of a stored entry; what is neither list nor dictionary is not set. -/
def storedContent (pb : Protobuf P) (data : P) : Option (Option (Kind × P)) :=
  if (pb.kind data).isSome then content pb data else some none

/-- `__transform_latest_mitm_data_entry`. -/
def transformLatestMitmDataEntry (pb : Protobuf P) (latest : LatestMitmDataEntry P) : Option (EntryMessage P) := do
  let timestampOfDataRetrieval ← storedTimestamp latest.timestampOfDataRetrieval
  let timestampReceived ← storedTimestamp latest.timestampReceived
  let data ← storedContent pb latest.data
  return { location := latest.location, timestampReceived, timestampOfDataRetrieval, data }

/-- `__transform_single_response`. -/
def transformSingleResponse (pb : Protobuf P) : Option (LatestMitmDataEntry P) → Option (Response P)
  | none => some (.latestMitmDataEntry none)
  | some latest => (transformLatestMitmDataEntry pb latest).map fun entry => .latestMitmDataEntry (some entry)

/-- `GetQuestsHeld`: with no ids there is no message either. -/
def getQuestsHeld (questsHeld : Option (List Int)) : Option (Response P) :=
  match questsHeld with
  | none | some [] => some (.questsHeld none)
  | some quests => (quests.mapM field).map fun ids => .questsHeld (some ids)

/-- The response to a request, once there are data of its worker; `none` where there is none and the
request fails. -/
def handle (pb : Protobuf P) (s : MitmMapperServer P) : Request P → Option (Response P) × MitmMapperServer P
  | .updateLatest worker key data =>
    (some .ack, { s with threads := s.threads ++ [⟨toUpdate pb worker key data, .check⟩] })
  | .requestLatest worker key earliest =>
    (transformSingleResponse pb (s.handler.requestLatest worker key (earliest.map fun t => .int t)), s)
  | .setLevel worker level => (some .ack, s.assign worker fun p => { p with level := level })
  | .setPokestopVisits worker visits => (some .ack, s.assign worker fun p => { p with pokeStopVisits := visits })
  | .getPokestopVisits worker => ((field (s.handler.getPokeStopVisits worker)).map .pokestopVisits, s)
  | .getLevel worker => ((field (s.handler.getLevel worker)).map .level, s)
  | .getInjectionStatus worker => (some (.injectionStatus (s.handler.getInjectionStatus worker)), s)
  | .setInjected worker isInjected => (some .ack, s.assign worker fun p => { p with injected := isInjected })
  | .getLastKnownLocation worker => (some (.lastKnownLocation (s.handler.getLastKnownLocation worker)), s)
  -- `SetQuestsHeld` returns no `Ack`
  | .setQuestsHeld worker questsHeld =>
    (none, s.assign worker fun p => { p with questsHeld := questsHeld.map (·.map Subtype.val) })
  | .getQuestsHeld worker => (getQuestsHeld (s.handler.getQuestsHeld worker), s)

theorem assign_threads (s : MitmMapperServer P) (worker : String) (f : PlayerData P → PlayerData P) :
    (s.assign worker f).threads = s.threads := by
  unfold assign
  split <;> rfl

/-- No object is made, and the dictionary stays. -/
theorem assign_store (s : MitmMapperServer P) (worker : String) (f : PlayerData P → PlayerData P) :
    (s.assign worker f).store.workerData = s.store.workerData ∧ (s.assign worker f).store.next = s.store.next := by
  unfold assign
  split <;> exact ⟨rfl, rfl⟩

theorem player_assign {s : MitmMapperServer P} (h : s.store.WellFormed) {worker : String}
    (hworker : (s.store.workerData.get? worker).isSome = true) (f : PlayerData P → PlayerData P) (w : String) :
    (s.assign worker f).handler.player w = if w = worker then f (s.handler.player w) else s.handler.player w := by
  obtain ⟨r, hr⟩ := Option.isSome_iff_exists.mp hworker
  unfold assign
  rw [hr]
  exact h.player_modify hr f w

/-- Serving a request makes no object, and leaves the threads alone but for a new one. -/
theorem handle_store (pb : Protobuf P) (s : MitmMapperServer P) (request : Request P) :
    (s.handle pb request).2.store.workerData = s.store.workerData ∧
      (s.handle pb request).2.store.next = s.store.next := by
  cases request with
  | setLevel worker level => exact s.assign_store worker _
  | setPokestopVisits worker visits => exact s.assign_store worker _
  | setInjected worker isInjected => exact s.assign_store worker _
  | setQuestsHeld worker questsHeld => exact s.assign_store worker _
  | _ => exact ⟨rfl, rfl⟩

theorem handle_threads (pb : Protobuf P) (s : MitmMapperServer P) (request : Request P) :
    (s.handle pb request).2.threads = s.threads ∨ ∃ worker key data, request = .updateLatest worker key data ∧
      (s.handle pb request).2.threads = s.threads ++ [⟨toUpdate pb worker key data, .check⟩] := by
  cases request with
  | updateLatest worker key data => exact .inr ⟨worker, key, data, rfl, rfl⟩
  | setLevel worker level => exact .inl (s.assign_threads worker _)
  | setPokestopVisits worker visits => exact .inl (s.assign_threads worker _)
  | setInjected worker isInjected => exact .inl (s.assign_threads worker _)
  | setQuestsHeld worker questsHeld => exact .inl (s.assign_threads worker _)
  | _ => exact .inl rfl

/-- Thread `j` goes on; the update, if it makes it now. -/
def goOn (rd : PayloadReader P) (s : MitmMapperServer P) (j : Nat) : Option (List (Update P) × MitmMapperServer P) :=
  match s.threads[j]? with
  | none | some ⟨_, .ended⟩ => none
  | some ⟨u, place⟩ =>
    let (next, store) := place.goOn rd s.store u
    some (if place.makes s.store u then [u] else [], ⟨store, s.threads.set j ⟨u, next⟩⟩)

theorem goOn_some {rd : PayloadReader P} {s t : MitmMapperServer P} {j : Nat} {updates : List (Update P)}
    (h : s.goOn rd j = some (updates, t)) : ∃ u place, s.threads[j]? = some ⟨u, place⟩ ∧
      updates = (if place.makes s.store u then [u] else []) ∧ t.store = (place.goOn rd s.store u).2 ∧
      t.threads = s.threads.set j ⟨u, (place.goOn rd s.store u).1⟩ := by
  unfold goOn at h
  split at h
  · cases h
  · cases h
  · next u place _ hj =>
    cases h
    exact ⟨u, place, hj, rfl, rfl, rfl⟩

end MitmMapperServer

/-- The worker whose data the loop of the server looks up for a request. -/
def Request.worker? : Request P → Option String
  | .updateLatest _ _ _ => none
  | .requestLatest worker _ _ | .setLevel worker _ | .setPokestopVisits worker _ | .getPokestopVisits worker
  | .getLevel worker | .getInjectionStatus worker | .setInjected worker _ | .getLastKnownLocation worker
  | .setQuestsHeld worker _ | .getQuestsHeld worker => some worker

end MapADroid.Mitm.Grpc
