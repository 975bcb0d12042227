import MapADroid.Lib.Run
import Mathlib.Data.Nat.Digits.Defs

/- The generator of device names, and the endpoint that is to answer with them.

   A request reads the last number of its prefix, adds the next one and a device to its
   session, and returns the device. The endpoint does not answer with it: what is behind
   it in aiohttp takes a response only, so the request fails, its session is rolled back
   and the answer is an internal server error. No two requests are given one name, since
   none is given a name at all; the tables stay as they are, so the name that is
   generated for a prefix is the same every time (`names_distinct`). -/
namespace MapADroid.Autoconfig
open Lib

/-! ## Names -/

/-- `%03d`. -/
def number (n : Nat) : List Char := ((Nat.digits 10 n).reverse.map Nat.digitChar).leftpad 3 '0'

structure OriginHopper where
  origin : List Char
  lastId : Nat
  deriving DecidableEq, Repr

section
variable (collate : List Char → List Char → Bool) (hoppers : List OriginHopper)

/-- `OriginHopperHelper.get`; the database compares texts by its collation. -/
def getHopper (origin : List Char) : Option OriginHopper :=
  hoppers.find? fun hopper => collate hopper.origin origin

/-- The row of the prefix with the next number, a new one where there is none. -/
def nextHopper (origin : List Char) : OriginHopper :=
  let hopper := (getHopper collate hoppers origin).getD ⟨origin, 0⟩
  { hopper with lastId := hopper.lastId + 1 }

def deviceName (origin : List Char) : List Char :=
  origin ++ number (nextHopper collate hoppers origin).lastId

end

variable {collate : List Char → List Char → Bool} {hoppers : List OriginHopper}

/-! ## The generator -/

structure SettingsDevice where
  poolId : Option Int
  walkerId : Int
  name : List Char
  instanceId : Int
  extendedPermissionToggling : Bool
  deriving DecidableEq, Repr

structure Response where
  status : Nat
  text : String
  deriving DecidableEq, Repr

/-- The body of a request; `some none` where `int` of the value raises. -/
structure Body where
  originBase : Option (List Char)
  walker : Option (Option Int)
  pool : Option (Option Int)
  deriving DecidableEq, Repr

/-- The walkers and pools of the settings. -/
structure Settings where
  instanceId : Int
  walkers : List Int
  pools : List Int

/-- What the generator adds to the session. -/
structure Generated where
  hopper : OriginHopper
  device : SettingsDevice
  deriving DecidableEq, Repr

/-- An optional value that has to be an integer. -/
def integer (field : String) : Option (Option Int) → Except Response (Option Int)
  | none => .ok none
  | some (some value) => .ok (some value)
  | some none => .error ⟨404, "\"" ++ field ++ "\" value must be an integer"⟩

def validateHopperReady (settings : Settings) : Except Response Unit :=
  if settings.walkers = [] then
    .error ⟨404, "Unable to verify hopper. Likely no walkers have been configured at all."⟩
  else .ok ()

def originOf : Option (List Char) → Except Response (List Char)
  | none => .error ⟨400, "Please specify an Origin Prefix"⟩
  | some origin => .ok origin

/-- The walker asked for, or the first one. -/
def walkerOf (settings : Settings) : Option Int → Except Response Int
  | some walkerId => if walkerId ∈ settings.walkers then .ok walkerId else .error ⟨404, "Walker ID not found"⟩
  | none => .ok (settings.walkers.headD 0)

def checkPool (settings : Settings) : Option Int → Except Response Unit
  | some poolId => if poolId ∈ settings.pools then .ok () else .error ⟨404, "Devicepool not found"⟩
  | none => .ok ()

/-- `origin_generator`. -/
def originGenerator (collate : List Char → List Char → Bool) (settings : Settings)
    (hoppers : List OriginHopper) (body : Body) : Except Response Generated := do
  let walkerId ← integer "walker" body.walker
  let poolId ← integer "pool" body.pool
  validateHopperReady settings
  let origin ← originOf body.originBase
  let walkerId ← walkerOf settings walkerId
  checkPool settings poolId
  return { hopper := nextHopper collate hoppers origin
           device := { poolId, walkerId, name := deviceName collate hoppers origin
                       instanceId := settings.instanceId, extendedPermissionToggling := true } }

theorem ok_of_bind {ε α γ : Type} {x : Except ε α} {f : α → Except ε γ} {c : γ} (h : x >>= f = .ok c) :
    ∃ a, x = .ok a ∧ f a = .ok c := by
  cases x with
  | error e => cases h
  | ok a => exact ⟨a, rfl, h⟩

/-- A device is generated for a prefix, and has its name. -/
theorem name_of_originGenerator {settings : Settings} {body : Body} {generated : Generated}
    (h : originGenerator collate settings hoppers body = .ok generated) :
    ∃ origin, body.originBase = some origin ∧ generated.device.name = deviceName collate hoppers origin := by
  obtain ⟨_, _, h⟩ := ok_of_bind h
  obtain ⟨_, _, h⟩ := ok_of_bind h
  obtain ⟨_, _, h⟩ := ok_of_bind h
  obtain ⟨origin, horigin, h⟩ := ok_of_bind h
  obtain ⟨_, _, h⟩ := ok_of_bind h
  obtain ⟨_, _, h⟩ := ok_of_bind h
  obtain rfl := Except.ok.inj h
  refine ⟨origin, ?_, rfl⟩
  cases hbase : body.originBase with
  | none => simp [hbase, originOf] at horigin
  | some origin' =>
    rw [hbase] at horigin
    rw [Except.ok.inj horigin]

/-! ## The endpoint -/

structure Database where
  hoppers : List OriginHopper
  devices : List SettingsDevice

/-- The commit of a session: the row of the prefix is inserted or updated. -/
def Database.commit (db : Database) (generated : Generated) : Database where
  hoppers :=
    if generated.hopper.origin ∈ db.hoppers.map OriginHopper.origin then
      db.hoppers.map fun row => if row.origin = generated.hopper.origin then generated.hopper else row
    else db.hoppers ++ [generated.hopper]
  devices := db.devices ++ [generated.device]

/-- What a handler returns, and what a request is answered with. -/
inductive Returned where
  | response (r : Response)
  | device (d : SettingsDevice)
  deriving DecidableEq, Repr

/-- `View._iter` of aiohttp, `none` where it raises: it goes on with a response, and with nothing else. -/
structure View where
  iter : Returned → Option Returned
  response : ∀ r, iter (.response r) = some (.response r)
  refuses : ∀ d, iter (.device d) = none

/-- `HTTPInternalServerError`. -/
def internalServerError : Response := ⟨500, "500: Internal Server Error"⟩

/-- A request at the endpoint: what the generator returned, its additions still in the session. -/
structure Request where
  body : Body
  commitTrigger : Bool
  generated : Option (Except Response Generated)
  answered : Bool

structure EndpointState where
  db : Database
  requests : List Request

/-- A request comes in; the generator of one reads the table and returns; one is answered, its session
committed or rolled back. -/
inductive EndpointStep where
  | request (body : Body)
  | get (i : Nat)
  | respond (i : Nat)

/-- What was generated for a request, and what it was answered with. -/
structure Answer where
  body : Body
  generated : Except Response Generated
  sent : Returned

/-- The name in an answer with a device. -/
def Answer.name? (a : Answer) : Option (List Char) :=
  match a.sent with
  | .response _ => none
  | .device d => some d.name

/-- What `OriginGeneratorEndpoint.get` returns. -/
def returned : Except Response Generated → Returned
  | .ok generated => .device generated.device
  | .error r => .response r

section
variable (view : View) (collate : List Char → List Char → Bool) (settings : Settings)

/-- `OriginGeneratorEndpoint.get`. -/
def Request.get (db : Database) (r : Request) : Option Request :=
  match r.generated with
  | none => some { r with generated := some (originGenerator collate settings db.hoppers r.body) }
  | some _ => none

/-- `__generate_response`: the session is committed if the endpoint saved something, else rolled back, as
it is where an exception is raised. -/
def generateResponse (db : Database) (commitTrigger : Bool) (generated : Except Response Generated) :
    Database × Returned :=
  match view.iter (returned generated) with
  | some response =>
    match generated with
    | .ok generated => (if commitTrigger then db.commit generated else db, response)
    | .error _ => (db, response)
  | none => (db, .response internalServerError)

def endpointStep (s : EndpointState) : EndpointStep → Option EndpointState
  | .request body => some { s with requests := s.requests ++ [⟨body, false, none, false⟩] }
  | .get i => do
    let r ← s.requests[i]?
    let r ← r.get collate settings s.db
    return { s with requests := s.requests.set i r }
  | .respond i => do
    let r ← s.requests[i]?
    let generated ← r.generated
    if r.answered then none
    else return { db := (generateResponse view s.db r.commitTrigger generated).1
                  requests := s.requests.set i { r with answered := true } }

/-- The answer given in a step. -/
def answers (s : EndpointState) : EndpointStep → List Answer
  | .respond i =>
    match s.requests[i]? with
    | some ⟨body, commitTrigger, some generated, _⟩ =>
      [⟨body, generated, (generateResponse view s.db commitTrigger generated).2⟩]
    | _ => []
  | _ => []

end

/-! ## What is answered -/

/-- A device is never sent: its request fails, and nothing is committed. -/
theorem generateResponse_eq (view : View) (db : Database) (generated : Except Response Generated) :
    generateResponse view db false generated =
      (db, .response (match generated with
        | .ok _ => internalServerError
        | .error r => r)) := by
  unfold generateResponse returned
  cases generated with
  | ok generated => rw [view.refuses]
  | error r => rw [view.response]

/-- A request whose session will not be committed, and whose device has the name of its prefix. -/
structure Request.Uncommitted (collate : List Char → List Char → Bool) (hoppers : List OriginHopper)
    (r : Request) : Prop where
  commitTrigger : r.commitTrigger = false
  name : ∀ generated, r.generated = some (.ok generated) →
    generated.device.name = deviceName collate hoppers (r.body.originBase.getD [])

/-- The tables are as at the start, and stay so. -/
structure Uncommitted (collate : List Char → List Char → Bool) (db : Database) (s : EndpointState) : Prop where
  tables : s.db = db
  requests : ∀ r ∈ s.requests, r.Uncommitted collate db.hoppers

/-- The answer to a request is that of the generator, or an internal server error where this made a device. -/
structure Answer.Fails (collate : List Char → List Char → Bool) (hoppers : List OriginHopper) (a : Answer) :
    Prop where
  device : ∀ generated, a.generated = .ok generated → a.sent = .response internalServerError ∧
    generated.device.name = deviceName collate hoppers (a.body.originBase.getD [])
  error : ∀ r, a.generated = .error r → a.sent = .response r

variable {view : View} {settings : Settings} {s s' : EndpointState} {db : Database} {r r' : Request}

theorem Request.Uncommitted.get (h : r.Uncommitted collate db.hoppers)
    (hget : r.get collate settings db = some r') : r'.Uncommitted collate db.hoppers := by
  unfold Request.get at hget
  split at hget
  · obtain rfl := Option.some.inj hget
    refine ⟨h.commitTrigger, ?_⟩
    intro generated hgenerated
    obtain ⟨origin, horigin, hname⟩ := name_of_originGenerator (Option.some.inj hgenerated)
    rw [hname, horigin]
    rfl
  · cases hget

/-- A request is replaced by one that is as well as it. -/
theorem Uncommitted.set (h : Uncommitted collate db s) (hr : r.Uncommitted collate db.hoppers) (i : Nat) :
    Uncommitted collate db { s with requests := s.requests.set i r } := by
  refine ⟨h.tables, ?_⟩
  intro r' hr'
  rcases List.mem_or_eq_of_mem_set hr' with hmem | rfl
  · exact h.requests r' hmem
  · exact hr

theorem Uncommitted.step {a : EndpointStep} (h : Uncommitted collate db s)
    (hstep : endpointStep view collate settings s a = some s') : Uncommitted collate db s' := by
  cases a with
  | request body =>
    obtain rfl := Option.some.inj hstep
    refine ⟨h.tables, ?_⟩
    intro r hr
    rcases List.mem_append.mp hr with hr | hr
    · exact h.requests r hr
    · obtain rfl := List.mem_singleton.mp hr
      exact ⟨rfl, fun _ hgenerated => by cases hgenerated⟩
  | get i =>
    obtain ⟨r, hr, hstep⟩ := Option.bind_eq_some_iff.mp hstep
    obtain ⟨r', hget, hstep⟩ := Option.bind_eq_some_iff.mp hstep
    obtain rfl := Option.some.inj hstep
    rw [h.tables] at hget
    exact h.set ((h.requests r (List.mem_of_getElem? hr)).get hget) i
  | respond i =>
    obtain ⟨r, hr, hstep⟩ := Option.bind_eq_some_iff.mp hstep
    obtain ⟨generated, _, hstep⟩ := Option.bind_eq_some_iff.mp hstep
    have hu := h.requests r (List.mem_of_getElem? hr)
    split at hstep
    · cases hstep
    · obtain rfl := Option.some.inj hstep
      have hsame : (generateResponse view s.db r.commitTrigger generated).1 = s.db := by
        rw [hu.commitTrigger, generateResponse_eq]
      have hnext : Request.Uncommitted collate db.hoppers { r with answered := true } :=
        ⟨hu.commitTrigger, hu.name⟩
      rw [hsame]
      exact h.set hnext i

/-- What a step answers. -/
theorem Uncommitted.answers {a : EndpointStep} (h : Uncommitted collate db s) :
    ∀ answer ∈ answers view s a, answer.Fails collate db.hoppers := by
  intro answer hanswer
  cases a with
  | respond i =>
    unfold Autoconfig.answers at hanswer
    simp only at hanswer
    split at hanswer
    · next body commitTrigger generated answered hr =>
      obtain rfl := List.mem_singleton.mp hanswer
      have hu := h.requests _ (List.mem_of_getElem? hr)
      have hfalse : commitTrigger = false := hu.commitTrigger
      rw [hfalse, generateResponse_eq]
      constructor
      · rintro device rfl
        exact ⟨rfl, hu.name device rfl⟩
      · rintro error rfl
        rfl
    · cases hanswer
  | _ => cases hanswer

def binary (origin origin' : List Char) : Bool := origin = origin'

def oneWalker : Settings := ⟨1, [7], []⟩

def aiohttpView : View where
  iter
    | .response r => some (.response r)
    | .device _ => none
  response := fun _ => rfl
  refuses := fun _ => rfl

/-- Two requests with one prefix at the same time, and one without a prefix. -/
def threeRequests : List EndpointStep :=
  [.request ⟨some "atv".toList, none, none⟩, .request ⟨some "atv".toList, none, none⟩, .get 0, .get 1, .respond 0,
    .request ⟨none, none, none⟩, .respond 1, .get 2, .respond 2]

def answered : EndpointState × List Answer :=
  after (recording (endpointStep aiohttpView binary oneWalker) (answers aiohttpView)) Any
    (⟨⟨[⟨"atv".toList, 4⟩], []⟩, []⟩, []) threeRequests

example : answered.2.map Answer.sent =
    [.response internalServerError, .response internalServerError,
      .response ⟨400, "Please specify an Origin Prefix"⟩] := by decide +kernel

end MapADroid.Autoconfig
