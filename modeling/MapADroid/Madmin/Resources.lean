import MapADroid.Geofence.FenceData
import MapADroid.Worker.StrategyFactory

/- The resources of MADmin's REST endpoints, with the JSON values they are sent.

   `vars` of a class lists its columns and relationships; what else is in it starts with
   an underscore and is passed over. Each endpoint serves one class, the one of the areas
   those of the six modes. -/
namespace MapADroid.Madmin
open Lib Geofence RouteCalc

inductive Json where
  | null
  | bool (value : Bool)
  | int (value : Int)
  | float (value : ℚ)
  | str (value : String)
  | list (values : List Json)
  | dict (items : List (String × Json))

inductive Error where
  | typeError | valueError | attributeError
  /-- What the driver or SQLAlchemy raises. -/
  | database (text : String)

namespace Json

def isNull : Json → Bool
  | .null => true
  | _ => false

/-- `bool` of a value. -/
def truthy : Json → Bool
  | .null => false
  | .bool value => value
  | .int value => value ≠ 0
  | .float value => value ≠ 0
  | .str value => value ≠ ""
  | .list values => !values.isEmpty
  | .dict items => !items.isEmpty

/-- What a `for` loop runs over: the characters of a text, the keys of a dictionary. -/
def elements : Json → Except Error (List Json)
  | .str value => .ok (value.toList.map fun c => .str (String.singleton c))
  | .list values => .ok values
  | .dict items => .ok (items.map fun item => .str item.1)
  | _ => .error .typeError

end Json

/-- `repr` and `int` of texts and floats. -/
structure Builtins where
  printing : Printing
  float : ℚ → List Char
  int : String → Option Int

namespace Builtins
variable (p : Builtins)

def comma : List Char := [',', ' ']

mutual

def reprValue : Json → List Char
  | .null => "None".toList
  | .bool value => if value then "True".toList else "False".toList
  | .int value => (toString value).toList
  | .float value => p.float value
  | .str value => p.printing.reprText value.toList
  | .list values => '[' :: (List.intercalate comma (reprValues values) ++ [']'])
  | .dict items => Char.ofNat 123 :: (List.intercalate comma (reprItems items) ++ [Char.ofNat 125])

def reprValues : List Json → List (List Char)
  | [] => []
  | value :: values => reprValue value :: reprValues values

def reprItems : List (String × Json) → List (List Char)
  | [] => []
  | (key, value) :: items =>
    (p.printing.reprText key.toList ++ ':' :: ' ' :: reprValue value) :: reprItems items

end

/-- `str(value).replace("'", "\"")`. -/
def written (value : Json) : String :=
  match value with
  | .str text => String.ofList (text.toList.map Printing.toQuote)
  | value => String.ofList ((p.reprValue value).map Printing.toQuote)

/-- `int(value)`. -/
def toInt : Json → Except Error Int
  | .bool value => .ok (if value then 1 else 0)
  | .int value => .ok value
  | .float value => .ok (value.num.tdiv value.den)
  | .str value =>
    match p.int value with
    | some n => .ok n
    | none => .error .valueError
  | _ => .error .typeError

theorem reprValues_str (texts : List String) :
    p.reprValues (texts.map Json.str) = (texts.map String.toList).map p.printing.reprText := by
  induction texts with
  | nil => rfl
  | cons text texts ih => simp only [List.map_cons, reprValues, reprValue, ih]

/-- Lines are written as `GeofenceEndpoint` is taken to write them in `Geofence.FenceData`. -/
theorem written_lines (texts : List String) :
    p.written (.list (texts.map Json.str)) =
      String.ofList ((p.printing.strList (texts.map String.toList)).map Printing.toQuote) := by
  unfold written
  simp only [reprValue, reprValues_str]
  rfl

end Builtins

/-! ## The tables -/

/-- An attribute of a class: a column, or an object that another column points to. -/
inductive Attribute where
  | column (name : String) (nullable autoincrement : Bool)
  | relationship (name : String)
  deriving DecidableEq, Repr

namespace Attribute

def name : Attribute → String
  | .column name .. => name
  | .relationship name => name

def optional (name : String) : Attribute := .column name true false

def required (name : String) : Attribute := .column name false false

/-- A primary key that the database numbers. -/
def identity (name : String) : Attribute := .column name false true

end Attribute
open Attribute

inductive Table where
  | areaIdle | areaIvMitm | areaMonMitm | areaPokestop | areaRaidsMitm | areaInitMitm
  | auth | device | devicepool | geofence | monivlist | pogoauth | routecalc | walker | walkerarea
  deriving DecidableEq, Repr

inductive Endpoint where
  | area | auth | device | devicepool | geofence | monIvList | pogoauth | routecalc | walker | walkerarea
  deriving DecidableEq, Repr

/-- The endpoint that serves a table. -/
def Table.endpoint : Table → Endpoint
  | .areaIdle | .areaIvMitm | .areaMonMitm | .areaPokestop | .areaRaidsMitm | .areaInitMitm => .area
  | .auth => .auth
  | .device => .device
  | .devicepool => .devicepool
  | .geofence => .geofence
  | .monivlist => .monIvList
  | .pogoauth => .pogoauth
  | .routecalc => .routecalc
  | .walker => .walker
  | .walkerarea => .walkerarea

namespace Table

/-- What the classes of the areas inherit from `SettingsArea`. -/
def inherited : List Attribute :=
  [optional "guid", required "instance_id", required "name", required "mode", relationship "instance"]

/-- What all classes of areas but the idle one start with. -/
def fenced : List Attribute :=
  [identity "area_id", required "geofence_included", optional "geofence_excluded", required "routecalc"]

/-- The columns that devices and their pools share. -/
def delays : List Attribute :=
  ["post_walk_delay", "post_teleport_delay", "walk_after_teleport_distance", "cool_down_sleep",
    "post_turn_screen_on_delay", "post_pogo_start_delay", "restart_pogo", "inventory_clear_rounds",
    "mitm_wait_timeout", "vps_delay", "reboot", "reboot_thresh", "restart_thresh", "post_screenshot_delay",
    "screenshot_x_offset", "screenshot_y_offset", "screenshot_type", "screenshot_quality",
    "startcoords_of_walker"].map optional

/-- `vars` of the class. -/
def vars : Table → List Attribute
  | .areaIdle =>
    [identity "area_id", required "geofence_included", required "routecalc", relationship "settings_geofence",
      relationship "settings_routecalc"] ++ inherited
  | .areaIvMitm =>
    fenced ++ ["speed", "max_distance", "delay_after_prio_event", "priority_queue_clustering_timedelta",
      "remove_from_queue_backlog", "starve_route", "monlist_id"].map optional ++
    [required "all_mons", optional "min_time_left_seconds", optional "encounter_all",
      relationship "settings_geofence", relationship "monlist", relationship "settings_routecalc"] ++ inherited
  | .areaMonMitm =>
    fenced ++ ["coords_spawns_known", "speed", "max_distance", "delay_after_prio_event",
      "priority_queue_clustering_timedelta", "remove_from_queue_backlog", "starve_route",
      "monlist_id"].map optional ++
    [required "all_mons", optional "min_time_left_seconds", optional "max_clustering",
      optional "include_event_id", optional "encounter_all", relationship "settings_geofence",
      relationship "monlist", relationship "settings_routecalc"] ++ inherited
  | .areaPokestop =>
    fenced ++ ["level", "speed", "max_distance", "ignore_spinned_stops", "cleanup_every_spin"].map optional ++
    [required "layer", relationship "settings_geofence", relationship "settings_routecalc"] ++ inherited
  | .areaRaidsMitm =>
    fenced ++ ["including_stops", "speed", "max_distance", "delay_after_prio_event",
      "priority_queue_clustering_timedelta", "remove_from_queue_backlog", "starve_route",
      "monlist_id"].map optional ++
    [required "all_mons", optional "encounter_all", relationship "settings_geofence", relationship "monlist",
      relationship "settings_routecalc"] ++ inherited
  | .areaInitMitm =>
    fenced ++ [required "init_type", optional "init_mode_rounds", optional "monlist_id", required "all_mons",
      optional "speed", optional "max_distance", relationship "settings_geofence", relationship "monlist",
      relationship "settings_routecalc"] ++ inherited
  | .auth =>
    [identity "auth_id", optional "guid", required "instance_id", required "username", required "password",
      required "auth_level", relationship "instance"]
  | .device =>
    [identity "device_id", optional "guid", required "instance_id", required "name", required "walker_id",
      optional "pool_id", optional "adbname"] ++ delays ++
    ["screendetection", "ggl_login_mail", "clear_game_data", "account_rotation", "rotation_waittime",
      "rotate_on_lvl_30", "injection_thresh_reboot", "enhanced_mode_quest_safe_items", "mac_address",
      "interface_type", "softbar_enabled", "extended_permission_toggling", "extended_login"].map optional ++
    [relationship "instance", relationship "pool", relationship "walker"]
  | .devicepool =>
    [identity "pool_id", optional "guid", required "instance_id", required "name"] ++ delays ++
    ["injection_thresh_reboot", "screendetection", "enhanced_mode_quest_safe_items",
      "extended_login"].map optional ++ [relationship "instance"]
  | .geofence =>
    [required "geofence_id", optional "guid", required "instance_id", required "name", required "fence_type",
      required "fence_data"]
  | .monivlist =>
    [identity "monlist_id", optional "guid", required "instance_id", required "name", relationship "instance"]
  | .pogoauth =>
    [required "instance_id", identity "account_id", optional "device_id", required "login_type",
      required "username", required "password", optional "key_blob", required "level", optional "last_burn",
      optional "last_burn_type", optional "last_softban_action", optional "last_softban_action_location",
      relationship "device", relationship "instance"]
  | .routecalc =>
    [required "routecalc_id", optional "guid", required "instance_id", optional "recalc_status",
      required "last_updated", optional "routefile"]
  | .walker =>
    [identity "walker_id", optional "guid", required "instance_id", required "name", relationship "instance"]
  | .walkerarea =>
    [identity "walkerarea_id", optional "guid", required "instance_id", optional "name", required "area_id",
      required "algo_type", optional "algo_value", optional "max_walkers", optional "eventid",
      relationship "area", relationship "instance"]

/-- The attribute of a name, if it is in `vars`. -/
def attribute? (vars : List Attribute) (key : String) : Option Attribute :=
  vars.find? fun a => a.name = key

end Table

/-- `_attributes_to_ignore`. -/
def Endpoint.attributesToIgnore : Endpoint → List String
  | .area => ["area_id", "mode", "guid", "routecalc", "instance_id"]
  | .auth => ["auth_id", "guid", "instance_id"]
  | .device => ["device_id", "guid"]
  | .devicepool => ["pool_id", "guid"]
  | .geofence => ["geofence_id", "guid"]
  | .monIvList => ["monlist_id", "guid"]
  | .pogoauth => ["account_id", "guid"]
  | .routecalc => ["routecalc_id", "guid"]
  | .walker => ["walker_id", "guid"]
  | .walkerarea => ["walkerarea_id", "guid"]

/-- An object of one of the classes. An attribute that was not set is `None`; what JSON lacks, such as a
date, stands as its text. -/
structure DbEntry where
  table : Table
  attributes : Dict String Json

namespace DbEntry

def new (table : Table) : DbEntry := ⟨table, .empty⟩

def getattr (entry : DbEntry) (key : String) : Json := (entry.attributes.get? key).getD .null

def setattr (entry : DbEntry) (key : String) (value : Json) : DbEntry :=
  { entry with attributes := entry.attributes.insert key value }

@[simp] theorem getattr_setattr_self (entry : DbEntry) (key : String) (value : Json) :
    (entry.setattr key value).getattr key = value := by
  simp [getattr, setattr]

end DbEntry

/-- A column that has to be set. -/
def Attribute.needed : Attribute → Bool
  | .column _ nullable autoincrement => !nullable && !autoincrement
  | .relationship _ => false

/-- The needed columns that neither the data nor the entry has a value for. -/
def missing (e : Endpoint) (entry : DbEntry) (data : Dict String Json) : List String :=
  (entry.table.vars.filter fun a =>
    a.name ∉ e.attributesToIgnore && a.needed && ((data.get? a.name).getD .null).isNull &&
      (entry.getattr a.name).isNull).map Attribute.name

/-! ## Creating an object -/

/-- `WorkerType(mode)`. -/
def workerType : Json → Except Error Worker.WorkerType
  | .null => .ok .undefined
  | .str mode =>
    match mode with
    | "raids_mitm" => .ok .raidMitm
    | "mon_mitm" => .ok .monMitm
    | "iv_mitm" => .ok .ivMitm
    | "pokestops" => .ok .stops
    | "idle" => .ok .idle
    | "configmode" => .ok .configmode
    | "init" => .ok .init
    | _ => .error .valueError
  | _ => .error .valueError

/-- `create_area_instance`, with the `value` of the mode. -/
def createAreaInstance : Worker.WorkerType → Option (Table × String)
  | .idle => some (.areaIdle, "idle")
  | .ivMitm => some (.areaIvMitm, "iv_mitm")
  | .monMitm => some (.areaMonMitm, "mon_mitm")
  | .stops => some (.areaPokestop, "pokestops")
  | .raidMitm => some (.areaRaidsMitm, "raids_mitm")
  | .init => some (.areaInitMitm, "init")
  | .undefined | .configmode => none

theorem createAreaInstance_endpoint {mode : Worker.WorkerType} {area : Table × String}
    (h : createAreaInstance mode = some area) : area.1.endpoint = .area := by
  cases mode with
  | undefined | configmode => cases h
  | _ =>
    obtain rfl := Option.some.inj h
    rfl

end MapADroid.Madmin
