import MapADroid.Lib.Methods
import MapADroid.Madmin.Resources

/- Requests that create or change a resource (`AbstractResourceEndpoint._update_or_create_object`).

   The attributes are set one by one, the session is committed, and the keys that were not
   handled then are handled after it. `__generate_response` commits once more if the
   trigger says so, and rolls back else. -/
namespace MapADroid.Madmin
open Lib Geofence

variable {Db α : Type}

/-- The columns of a `SettingsWalkerToWalkerarea` that are read. -/
structure SettingsWalkerToWalkerarea where
  walkerareaId : Int
  areaOrder : Int
  deriving DecidableEq

/-- A new row of one of the tables that lists are kept in. -/
inductive Mapping where
  | monivlistToMon (monlistId monId : Json) (monOrder : Nat)
  | walkerToWalkerarea (walkerId walkerareaId : Json) (areaOrder : Int)

/-- The database, its driver and SQLAlchemy, for the instance of a request. -/
structure Backend (Db : Type) extends Builtins where
  instanceId : Int
  /-- `_fetch_from_db`. -/
  fetch : Db → Endpoint → String → Except Error (Option DbEntry)
  fetch_endpoint : ∀ {db e identifier entry}, fetch db e identifier = .ok (some entry) → entry.table.endpoint = e
  /-- Adds a `SettingsRoutecalc` in a savepoint; with its id. -/
  addRoutecalc : Db → Except Error (Db × Json)
  /-- Writes an object and the new rows; with the object as it is known then. -/
  flush : Db → Option DbEntry → List Mapping → Except Error (Db × Option DbEntry)
  /-- Reads an object anew. -/
  refresh : Db → Option DbEntry → Except Error DbEntry
  deleteMonIds : Db → Json → Db
  deleteWalkerareas : Db → Json → Db
  /-- `SettingsWalkerToWalkerareaHelper.get`. Whether the driver takes the value does not depend on the rows. -/
  walkerareasOf : Json → Except Error (Db → List SettingsWalkerToWalkerarea)
  /-- Whether the object of a relationship is there. -/
  related : Db → DbEntry → String → Except Error Bool
  /-- Assigns to a relationship. -/
  relate : DbEntry → String → Json → Except Error DbEntry

inductive Answer where
  | missing (names : List String)
  | failed (err : Error)
  | created | updated | internalServerError

def Answer.status : Answer → Nat
  | .missing _ => 405
  | .failed _ => 400
  | .created => 201
  | .updated => 204
  | .internalServerError => 500

/-- What a request has done so far. -/
structure Session (Db : Type) where
  committed : Db
  /-- What its transaction sees. -/
  current : Db
  tracked : Option DbEntry
  mappings : List Mapping
  commitTrigger : Bool

/-- What ends a request early: something that is raised, or an answer. -/
inductive Exit where
  | raised (err : Error)
  | answered (answer : Answer)

abbrev Request (Db α : Type) := Method (Session Db) Exit α

namespace Request
variable (b : Backend Db)

def raising (result : Except Error α) : Request Db α :=
  match result with
  | .ok a => pure a
  | .error err => throw (.raised err)

/-- `session.add`. -/
def add (entry : DbEntry) : Request Db Unit := modify fun s => { s with tracked := some entry }

/-- `session.commit`. -/
def commit : Request Db Unit := do
  let s ← get
  let written ← raising (b.flush s.current s.tracked s.mappings)
  modify fun s => { s with committed := written.1, current := written.1, tracked := written.2, mappings := [] }

/-- `_save` of the object. -/
def save (entry : DbEntry) : Request Db Unit := do
  modify fun s => { s with commitTrigger := true }
  add entry

/-- Leaves with an answer and nothing to commit. -/
def giveUp (answer : Answer) : Request Db α := do
  modify fun s => { s with commitTrigger := false }
  throw (.answered answer)

end Request
open Request

/-! ## The endpoints -/

section
variable (b : Backend Db)

/-- `_create_instance` of the endpoints that serve one class. -/
def instanceOf (table : Table) (key : String) (identifier : Option String) : DbEntry :=
  ((DbEntry.new table).setattr "instance_id" (.int b.instanceId)).setattr key ((identifier.map Json.str).getD .null)

/-- `AreaEndpoint._create_instance`. -/
def AreaEndpoint.createInstance (db : Db) (identifier : Option String) (data : Dict String Json) :
    Except Error (Db × DbEntry) := do
  let mode ← workerType ((data.get? "mode").getD .null)
  match createAreaInstance mode with
  | none => .error .attributeError
  | some (table, value) =>
    let area := (((DbEntry.new table).setattr "mode" (.str value)).setattr "instance_id" (.int b.instanceId)).setattr
      "area_id" ((identifier.map Json.str).getD .null)
    if (Table.attribute? table.vars "routecalc").isSome then do
      let added ← b.addRoutecalc db
      .ok (added.1, area.setattr "routecalc" added.2)
    else .ok (db, area)

/-- `_create_instance`. -/
def createInstance (db : Db) (e : Endpoint) (identifier : Option String) (data : Dict String Json) :
    Except Error (Db × DbEntry) :=
  match e with
  | .area => AreaEndpoint.createInstance b db identifier data
  | .auth => .ok (db, instanceOf b .auth "auth_id" identifier)
  | .device => .ok (db, instanceOf b .device "device_id" identifier)
  | .devicepool => .ok (db, instanceOf b .devicepool "pool_id" identifier)
  | .geofence => .ok (db, instanceOf b .geofence "geofence_id" identifier)
  | .monIvList => .ok (db, instanceOf b .monivlist "monlist_id" identifier)
  | .pogoauth => .ok (db, instanceOf b .pogoauth "account_id" identifier)
  | .routecalc => .ok (db, instanceOf b .routecalc "routecalc_id" identifier)
  | .walker => .ok (db, instanceOf b .walker "walker_id" identifier)
  | .walkerarea => .ok (db, instanceOf b .walkerarea "walkerarea_id" identifier)

/-- `AuthLevel[name].value`. -/
def AuthLevel.value : String → Option Nat
  | "MADMIN_PUBLIC_PAGE" => some 1
  | "MITM_DATA" => some 2
  | "MADMIN_ADMIN" => some 4
  | _ => none

namespace AuthEndpoint

/-- The loop over the names. One that is no level raises a `KeyError`, which ends the loop. -/
def permissions : Nat → List String → Nat
  | levels, [] => levels
  | levels, name :: names =>
    match AuthLevel.value name with
    | some level => permissions (levels ||| level) names
    | none => levels

/-- The `permissions` of a value. One that cannot be split has none. -/
def permissionsOf (value : Json) : Nat :=
  match value with
  | .str names => if names = "" then 0 else permissions 0 ((List.splitOn ',' names.toList).map String.ofList)
  | _ => 0

def handleAdditionalKeys (entry : DbEntry) (key : String) (value : Json) : DbEntry × Bool :=
  if key = "auth_level" then (entry.setattr "auth_level" (.int (permissionsOf value)), true) else (entry, false)

end AuthEndpoint

def DeviceEndpoint.handleAdditionalKeys (entry : DbEntry) (key : String) (value : Json) :
    Except Error (DbEntry × Bool) :=
  if key = "ggl_login_mail" then .ok (entry.setattr "ggl_login_mail" value, true)
  else if key = "walker" then do
    let walkerId ← b.toInt value
    .ok (entry.setattr "walker_id" (.int walkerId), true)
  else .ok (entry, false)

def GeofenceEndpoint.handleAdditionalKeys (entry : DbEntry) (key : String) (value : Json) : DbEntry × Bool :=
  if key = "fence_data_raw" ∨ key = "fence_data" then (entry.setattr "fence_data" (.str (b.written value)), true)
  else (entry, false)

/-- The lines of a fence are stored as `Geofence.FenceData` has it. -/
theorem GeofenceEndpoint.fenceData_of_lines (entry : DbEntry) (dbEntry : SettingsGeofence) {key : String}
    (hkey : key = "fence_data_raw" ∨ key = "fence_data") (lines : List String) :
    (GeofenceEndpoint.handleAdditionalKeys b entry key (.list (lines.map Json.str))).1.getattr "fence_data" =
      .str (String.ofList
        (b.printing.handleAdditionalKeys dbEntry key (lines.map String.toList)).1.fenceData) := by
  rw [GeofenceEndpoint.handleAdditionalKeys, if_pos hkey, DbEntry.getattr_setattr_self, Builtins.written_lines,
    Printing.handleAdditionalKeys, if_pos hkey]

def RoutecalcEndpoint.handleAdditionalKeys (entry : DbEntry) (key : String) (value : Json) : DbEntry × Bool :=
  if key = "routefile_raw" ∨ key = "routefile" then
    (entry.setattr "routefile" (.str (if value.truthy then b.written value else "[]")), true)
  else (entry, false)

def Json.isText (text : String) : Json → Bool
  | .str value => value = text
  | _ => false

def PogoauthEndpoint.handleAdditionalKeys (entry : DbEntry) (key : String) (value : Json) : DbEntry × Bool :=
  if key = "device_id" ∧ (entry.getattr "login_type").isText "google" then (entry.setattr "device_id" value, true)
  else (entry, false)

namespace MonIvListEndpoint

/-- `SettingsMonivlistHelper.set_mon_ids`. -/
def setMonIds (monlistId ids : Json) : Request Db Unit := do
  modify fun s => { s with current := b.deleteMonIds s.current monlistId }
  let monIds ← raising ids.elements
  modify fun s => { s with mappings := s.mappings ++ monIds.zipIdx.map fun m => .monivlistToMon monlistId m.1 m.2 }

def handleAdditionalKeys (entry : DbEntry) (key : String) (value : Json) : Request Db (DbEntry × Bool) :=
  if key = "mon_ids_iv" then do
    setMonIds b (entry.getattr "monlist_id") value
    modify fun s => { s with commitTrigger := true }
    pure (entry, true)
  else pure (entry, false)

end MonIvListEndpoint

namespace WalkerEndpoint

/-- `SettingsWalkerToWalkerareaHelper.set`. -/
def setWalkerareas (walkerId walkerAreas : Json) : Request Db Unit := do
  modify fun s => { s with current := b.deleteWalkerareas s.current walkerId }
  let areas ← raising walkerAreas.elements
  modify fun s => { s with mappings := s.mappings ++ areas.zipIdx.map fun a => .walkerToWalkerarea walkerId a.1 a.2 }

def handleAdditionalKeys (entry : DbEntry) (key : String) (value : Json) : Request Db (DbEntry × Bool) :=
  if key = "setup" then do
    setWalkerareas b (entry.getattr "walker_id") value
    pure (entry, true)
  else pure (entry, false)

end WalkerEndpoint

def Json.isId (id : Int) : Json → Bool
  | .int value => value = id
  | _ => false

namespace WalkerareaEndpoint

/-- Where a new row goes. -/
def nextOrder (rows : List SettingsWalkerToWalkerarea) : Int :=
  match rows.getLast? with
  | some row => row.areaOrder + 1
  | none => 0

def handleAdditionalKeys (entry : DbEntry) (key : String) (value : Json) : Request Db (DbEntry × Bool) :=
  if key = "walker_id" then do
    let rowsIn ← raising (b.walkerareasOf value)
    let s ← get
    let rows := (rowsIn s.current).mergeSort fun x y => x.areaOrder ≤ y.areaOrder
    if rows.any fun row => (entry.getattr "walkerarea_id").isId row.walkerareaId then pure (entry, true)
    else do
      let mapping := Mapping.walkerToWalkerarea value (entry.getattr "walkerarea_id") (nextOrder rows)
      modify fun s => { s with commitTrigger := true, mappings := s.mappings ++ [mapping] }
      pure (entry, true)
  else pure (entry, false)

end WalkerareaEndpoint

/-- `_handle_additional_keys`; with the entry after it. -/
def handleAdditionalKeys (e : Endpoint) (entry : DbEntry) (key : String) (value : Json) :
    Request Db (DbEntry × Bool) :=
  match e with
  | .area | .devicepool => pure (entry, false)
  | .auth => pure (AuthEndpoint.handleAdditionalKeys entry key value)
  | .device => raising (DeviceEndpoint.handleAdditionalKeys b entry key value)
  | .geofence => pure (GeofenceEndpoint.handleAdditionalKeys b entry key value)
  | .monIvList => MonIvListEndpoint.handleAdditionalKeys b entry key value
  | .pogoauth => pure (PogoauthEndpoint.handleAdditionalKeys entry key value)
  | .routecalc => pure (RoutecalcEndpoint.handleAdditionalKeys b entry key value)
  | .walker => WalkerEndpoint.handleAdditionalKeys b entry key value
  | .walkerarea => WalkerareaEndpoint.handleAdditionalKeys b entry key value

/-! ## A request -/

inductive DataHandlingMethodology where
  | create | replace | update
  deriving DecidableEq, Repr

/-- The object of an identifier, if one is given and there is one. -/
def fetched (db : Db) (e : Endpoint) (identifier : Option String) : Except Error (Option DbEntry) :=
  match identifier with
  | some identifier => if identifier = "" then .ok none else b.fetch db e identifier
  | none => .ok none

/-- The object that a request is about. Without one, `methodology in DataHandlingMethodology.UPDATE` raises, so
that neither answer for it is given. -/
def openEntry (db : Db) (e : Endpoint) (identifier : Option String) (methodology : DataHandlingMethodology)
    (data : Dict String Json) : Except Error (Db × DbEntry) := do
  let found ← fetched b db e identifier
  match found, methodology with
  | some entry, _ => .ok (db, entry)
  | none, .create | none, .replace => createInstance b db e identifier data
  | none, .update => .error .typeError

/-- The letters of a text in lower case. No other letter has one of these words as its lower case. -/
def lower (text : String) : List Char := text.toList.map Char.toLower

/-- A value as it is assigned. -/
def convert : Json → Json
  | .str value =>
    if lower value = "none".toList ∨ lower value = "undefined".toList then .null
    else if lower value = "true".toList then .int 1
    else if lower value = "false".toList then .int 0
    else .str value
  | .bool value => .int (if value then 1 else 0)
  | value => value

/-- `getattr(db_entry, key, None) is not None`. -/
def present (db : Db) (entry : DbEntry) : Attribute → Except Error Bool
  | .column name .. => .ok !(entry.getattr name).isNull
  | .relationship name => b.related db entry name

/-- `setattr`. -/
def assign (entry : DbEntry) (value : Json) : Attribute → Except Error DbEntry
  | .column name .. => .ok (entry.setattr name value)
  | .relationship name => b.relate entry name value

/-- An attribute that requests may set: `vars` have no other attribute than columns and relationships. -/
def settable (e : Endpoint) (vars : List Attribute) (key : String) : Option Attribute :=
  if key ∈ e.attributesToIgnore ∨ key.toList.head? = some '_' then none else Table.attribute? vars key

/-- The loop over the data before the commit; with the keys that were handled. -/
def setAttributes (e : Endpoint) (vars : List Attribute) :
    List (String × Json) → DbEntry → List String → Request Db (DbEntry × List String)
  | [], entry, handled => pure (entry, handled)
  | (key, value) :: items, entry, handled =>
    match settable e vars key with
    | none => setAttributes e vars items entry handled
    | some a => do
      let r ← handleAdditionalKeys b e entry key value
      if r.2 then setAttributes e vars items r.1 (key :: handled)
      else do
        let s ← get
        let found ← raising (present b s.current r.1 a)
        -- `primary_key` is asked for, but either answer will do.
        if !found && value.isNull then giveUp (.missing [key])
        else do
          let entry ← raising (assign b r.1 (convert value) a)
          setAttributes e vars items entry handled

/-- The loop over the data after the commit. -/
def handleOthers (e : Endpoint) (handled : List String) : List (String × Json) → DbEntry → Request Db DbEntry
  | [], entry => pure entry
  | (key, value) :: items, entry =>
    if key ∈ handled then handleOthers e handled items entry
    else do
      let r ← handleAdditionalKeys b e entry key value
      handleOthers e handled items r.1

def refreshed : Request Db DbEntry := do
  let s ← get
  raising (b.refresh s.current s.tracked)

/-- What `try` encloses. -/
def updating (e : Endpoint) (identifier : Option String) (methodology : DataHandlingMethodology)
    (data : Dict String Json) : Request Db Answer := do
  let s ← get
  let opened ← raising (openEntry b s.current e identifier methodology data)
  modify fun s => { s with current := opened.1 }
  let names := missing e opened.2 data
  if names ≠ [] then giveUp (.missing names)
  else do
    let r ← setAttributes b e opened.2.table.vars data.items opened.2 []
    add r.1
    commit b
    let entry ← refreshed b
    let entry ← handleOthers b e r.2 data.items entry
    save entry
    pure (if methodology = .update then .updated else .created)

/-- `_update_or_create_object`. -/
def updateOrCreateObject (e : Endpoint) (identifier : Option String) (methodology : DataHandlingMethodology)
    (data : Dict String Json) : Request Db Answer :=
  handling (updating b e identifier methodology data) fun
    | .raised err => do
      modify fun s => { s with commitTrigger := false }
      pure (.failed err)
    | .answered answer => pure answer

/-- The session that a request starts with. -/
def Session.start (db : Db) : Session Db := ⟨db, db, none, [], false⟩

/-- `__generate_response`: the answer and the database after the request. -/
def generateResponse (m : Request Db Answer) (db : Db) : Answer × Db :=
  match call m (Session.start db) with
  | (.error _, s) => (.internalServerError, s.committed)
  | (.ok answer, s) =>
    if s.commitTrigger then
      match call (commit b) s with
      | (.ok _, s) => (answer, s.committed)
      | (.error _, s) => (.internalServerError, s.committed)
    else (answer, s.committed)

end

end MapADroid.Madmin
