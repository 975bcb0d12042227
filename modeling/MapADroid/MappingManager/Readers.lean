import MapADroid.Lib.Dict
import MapADroid.Location
import Mathlib.Data.Int.Order.Basic

/- What `MappingManager` reads from the database to build its configuration.

   A reader awaits one answer after another, and any of them can be an error instead:
   `Reading` counts the answers, and `fails` says which ones do not come. All readers see
   one content of the database. The polygons of a geofence, the texts `int` reads and the
   mon ids of the game files are parameters. -/
namespace MapADroid.MappingManager
open Lib

inductive Mode where
  | idle | ivMitm | monMitm | pokestops | raidsMitm | init
  deriving DecidableEq, Repr

/-- A row of `settings_area` with its subclass; `none` for NULL or a column the subclass lacks. -/
structure SettingsArea where
  areaId : Int
  name : String
  mode : Mode
  geofenceIncluded : Option Int
  geofenceExcluded : Option String
  routecalc : Int
  monlistId : Option Int
  allMons : Bool
  level : Bool
  layer : Int
  deriving DecidableEq, Repr

structure SettingsGeofence where
  geofenceId : Int
  name : String
  fenceData : String
  deriving DecidableEq, Repr

structure SettingsDevice where
  name : String
  walkerId : Int
  poolId : Option Int
  deriving DecidableEq, Repr

structure SettingsAuth where
  username : String
  password : String
  deriving DecidableEq, Repr

/-- The rows of the instance. -/
structure Database where
  monivlists : List (Int × List Int)
  areas : List SettingsArea
  routecalcs : List Int
  geofences : List SettingsGeofence
  devices : List SettingsDevice
  walkers : List Int
  walkerareas : List Int
  walkerToWalkerareas : List (Int × Int)
  pools : List Int
  auths : List SettingsAuth

/-- `parse_geofences_file` and `int` are `none` where they raise. -/
structure Setup (F : Type) where
  configmode : Bool
  parseGeofencesFile : String → Option F
  int : String → Option Int
  monIds : List Int

inductive Error where
  /-- A query, or the reading of a file, failed. -/
  | read
  | valueError
  | runtimeError (text : String)
  deriving DecidableEq, Repr

/-- The number of answers so far is the state. -/
abbrev Reading (α : Type) := StateT Nat (Except Error) α

variable {α : Type}

/-- The next answer. -/
def query (fails : Nat → Bool) (a : α) : Reading α := fun n => if fails n then .error .read else .ok (a, n + 1)

/-- `try: ... except Exception: raise RuntimeError(text)`. -/
def orRuntimeError (text : String) (r : Reading α) : Reading α := fun n =>
  match r n with
  | .ok a => .ok a
  | .error _ => .error (.runtimeError text)

def orValueError : Option α → Reading α
  | some a => pure a
  | none => throw .valueError

/-! ### Readings that only ask -/

/-- It makes `k` queries and gives `a`, and raises exactly if one of them fails. -/
structure Reads (fails : Nat → Bool) (r : Reading α) (k : Nat) (a : α) : Prop where
  answers : ∀ n, (∀ i, n ≤ i → i < n + k → fails i = false) → r n = .ok (a, n + k)
  raises : ∀ n i, n ≤ i → i < n + k → fails i = true → ∃ e, r n = .error e

namespace Reads

variable {β : Type} {fails : Nat → Bool} {r : Reading α} {k m : Nat} {a : α}

theorem pure (a : α) : Reads fails (Pure.pure a) 0 a where
  answers _ _ := rfl
  raises _ _ hle hlt _ := absurd hlt (Nat.not_lt.mpr hle)

theorem query (a : α) : Reads fails (query fails a) 1 a where
  answers n h := if_neg (by rw [h n (Nat.le_refl n) (Nat.lt_succ_self n)]; exact Bool.false_ne_true)
  raises n i hle hlt hfails := by
    obtain rfl : i = n := by omega
    exact ⟨_, if_pos hfails⟩

/-- Where it gives something, no query failed. -/
theorem of_ok {n n' : Nat} {b : α} (h : Reads fails r k a) (hok : r n = .ok (b, n')) :
    (∀ i, n ≤ i → i < n + k → fails i = false) ∧ b = a ∧ n' = n + k := by
  have hfine : ∀ i, n ≤ i → i < n + k → fails i = false := by
    intro i hle hlt
    by_contra hne
    obtain ⟨e, he⟩ := h.raises n i hle hlt (by simpa using hne)
    rw [hok] at he
    cases he
  have hsame := Except.ok.inj (hok.symm.trans (h.answers n hfine))
  exact ⟨hfine, congrArg Prod.fst hsame, congrArg Prod.snd hsame⟩

/-- Where it raises, one did. -/
theorem of_error {n : Nat} {e : Error} (h : Reads fails r k a) (herror : r n = .error e) :
    ¬ ∀ i, n ≤ i → i < n + k → fails i = false := by
  intro hfine
  rw [h.answers n hfine] at herror
  cases herror

theorem bind {f : α → Reading β} {b : β} (hr : Reads fails r k a) (hf : Reads fails (f a) m b) :
    Reads fails (r >>= f) (k + m) b where
  answers n h := by
    have hfirst := hr.answers n fun i hle hlt => h i hle (by omega)
    have hrest := hf.answers (n + k) fun i hle hlt => h i (by omega) (by omega)
    show ((r n).bind fun p => f p.1 p.2) = _
    rw [hfirst, ← Nat.add_assoc]
    exact hrest
  raises n i hle hlt hfails := by
    show ∃ e, ((r n).bind fun p => f p.1 p.2) = .error e
    cases hn : r n with
    | error e => exact ⟨e, rfl⟩
    | ok p =>
      -- The first part made its queries, so the one that fails comes after them.
      obtain ⟨hfirst, ha, hk⟩ := hr.of_ok hn
      have hlater : n + k ≤ i := by
        by_contra hbefore
        rw [hfirst i hle (by omega)] at hfails
        cases hfails
      show ∃ e, f p.1 p.2 = .error e
      rw [ha, hk]
      exact hf.raises (n + k) i hlater (by omega) hfails

theorem foldlM {ι : Type} {f : β → ι → Reading β} {g : β → ι → β} {count : ι → Nat}
    (h : ∀ b x, Reads fails (f b x) (count x) (g b x)) (l : List ι) (b : β) :
    Reads fails (l.foldlM f b) (l.map count).sum (l.foldl g b) := by
  induction l generalizing b with
  | nil => exact .pure b
  | cons x l ih =>
    rw [List.foldlM_cons, List.map_cons, List.sum_cons, List.foldl_cons]
    exact (h b x).bind (ih _)

end Reads

/-! ## What is built -/

structure AreaEntry where
  settings : SettingsArea
  routecalc : Option Int
  geofenceIncluded : Option Int
  geofenceExcluded : Option String
  deriving DecidableEq, Repr

/-- `DeviceMappingsEntry`; the settings come from the database, the rest is kept while MAD runs. -/
structure DeviceMappingsEntry where
  deviceSettings : SettingsDevice
  poolSettings : Option Int
  walkerAreas : List (Option Int)
  lastLocation : Location Rat := ⟨0, 0⟩
  lastKnownMode : Option String := none
  accountIndex : Int := 0
  accountRotationStarted : Bool := false

/-- `GeofenceHelper`: the included and the excluded polygons. -/
structure GeofenceHelper (F : Type) where
  geofencedAreas : Option F
  excludedAreas : Option F

/-- The class `RouteManagerFactory` chooses. -/
inductive RouteManagerClass where
  | raids | mon | iv | idle | leveling | quests | init
  deriving DecidableEq, Repr

/-- A route manager, as it is built. -/
structure RouteManager (F : Type) where
  cls : RouteManagerClass
  area : SettingsArea
  geofenceHelper : GeofenceHelper F
  routecalc : Option Int
  monIdsIv : List Int

section
variable {F : Type} (setup : Setup F) (db : Database) (fails : Nat → Bool)

/-! ## The readers -/

/-- `SettingsMonivlistHelper.get_mapped_lists`: each list takes a query of its entry and one of its mons. -/
def getLatestMonlists : Reading (Dict Int (List Int)) := do
  let lists ← query fails db.monivlists
  lists.foldlM (fun mapped l => do
    let entry ← query fails l
    let monIds ← query fails entry.2
    pure (mapped.insert l.1 monIds)) Dict.empty

/-- `DbWrapper.get_all_areas`: one query for each mode, the areas sorted by name. -/
def getAllAreas : Reading (Dict Int SettingsArea) := do
  let areas ← [Mode.idle, .ivMitm, .monMitm, .pokestops, .raidsMitm, .init].foldlM (fun areas mode => do
    let rows ← query fails (db.areas.filter (·.mode = mode))
    pure (rows.foldl (fun areas area => areas.insert area.areaId area) areas)) Dict.empty
  pure (Dict.ofList (areas.items.mergeSort fun a b => a.2.name ≤ b.2.name))

/-- `SettingsRoutecalcHelper.get`. -/
def getRoutecalc (routecalcId : Int) : Reading (Option Int) :=
  query fails (db.routecalcs.find? (· = routecalcId))

def getLatestAreas : Reading (Dict Int AreaEntry) := do
  let allAreas ← getAllAreas db fails
  allAreas.items.foldlM (fun areas i => do
    let routecalc ← getRoutecalc db fails i.2.routecalc
    pure (areas.insert i.1 ⟨i.2, routecalc, i.2.geofenceIncluded, i.2.geofenceExcluded⟩)) Dict.empty

/-- The mon list of each area, from the lists given. -/
def getLatestAreamons (monlists : Dict Int (List Int)) (areas : Dict Int AreaEntry) :
    Reading (Dict Int (List Int)) :=
  areas.items.foldlM (fun areamons i => do
    let monList := (i.2.settings.monlistId.bind monlists.get?).getD []
    if i.2.settings.allMons then
      -- The ids of the file are texts, so that none of them is found in the list.
      let monIds ← query fails setup.monIds
      pure (areamons.insert i.1 (monList ++ monIds))
    else pure (areamons.insert i.1 monList)) Dict.empty

def getLatestDevicemappings : Reading (Dict String DeviceMappingsEntry) := do
  let devices ← query fails db.devices
  if devices = [] then pure Dict.empty
  else
    let walkers ← query fails db.walkers
    let walkerareas ← query fails db.walkerareas
    let walkerToWalkerareas ← query fails db.walkerToWalkerareas
    let pools ← query fails db.pools
    pure (devices.foldl (fun mapped device => mapped.insert device.name
      { deviceSettings := device
        poolSettings := device.poolId.bind fun id => pools.find? (· = id)
        walkerAreas :=
          if device.walkerId ∈ walkers then
            (walkerToWalkerareas.filter (·.1 = device.walkerId)).map fun m => walkerareas.find? (· = m.2)
          else [] }) Dict.empty)

/-- `SettingsGeofenceHelper.get`. -/
def getGeofence (geofenceId : Int) : Reading (Option SettingsGeofence) :=
  query fails (db.geofences.find? (·.geofenceId = geofenceId))

/-- `GeofenceHelper.__init__`. -/
def geofenceHelper (includeGeofence excludeGeofence : Option SettingsGeofence) : Reading (GeofenceHelper F) := do
  let included ← includeGeofence.mapM fun g => orValueError (setup.parseGeofencesFile g.fenceData)
  let excluded ← excludeGeofence.mapM fun g => orValueError (setup.parseGeofencesFile g.fenceData)
  pure ⟨included, excluded⟩

/-- `RouteManagerFactory.get_routemanager`, as far as the class goes; `QuestLayer(layer)` can raise. -/
def getRoutemanager (area : SettingsArea) (helper : GeofenceHelper F) (routecalc : Option Int)
    (monIdsIv : List Int) : Reading (RouteManager F) :=
  match area.mode with
  | .raidsMitm => pure ⟨.raids, area, helper, routecalc, monIdsIv⟩
  | .monMitm => pure ⟨.mon, area, helper, routecalc, monIdsIv⟩
  | .ivMitm => pure ⟨.iv, area, helper, routecalc, monIdsIv⟩
  | .idle => pure ⟨.idle, area, helper, routecalc, monIdsIv⟩
  | .pokestops =>
    if area.level then pure ⟨.leveling, area, helper, routecalc, monIdsIv⟩
    else if area.layer = -1 ∨ area.layer = 0 ∨ area.layer = 1 then
      pure ⟨.quests, area, helper, routecalc, monIdsIv⟩
    else throw .valueError
  | .init => pure ⟨.init, area, helper, routecalc, monIdsIv⟩

/-- One round of the loop over the areas. -/
def buildRoutemanager (areamons : Dict Int (List Int)) (area : SettingsArea) : Reading (RouteManager F) := do
  match area.geofenceIncluded with
  | none => throw (.runtimeError "Cannot work without geofence_included")
  | some includedId =>
    let included ← orRuntimeError ("geofence_included for area '" ++ area.name ++
      "' is specified but does not exist ('" ++ toString includedId ++ "').") (getGeofence db fails includedId)
    let excluded ←
      match area.geofenceExcluded with
      | none => pure none
      | some text =>
        if area.mode = .ivMitm ∨ area.mode = .monMitm ∨ area.mode = .pokestops ∨ area.mode = .raidsMitm then
          orRuntimeError ("geofence_excluded for area '" ++ area.name ++
            "' is specified but file does not exist ('" ++ text ++ "').") (do
              let excludedId ← orValueError (setup.int text)
              getGeofence db fails excludedId)
        else pure none
    let helper ← geofenceHelper setup included excluded
    let routecalc ← getRoutecalc db fails area.routecalc
    getRoutemanager area helper routecalc ((areamons.get? area.areaId).getD [])

/-- The route managers, with the mon lists of the areas that are loaded at the time. -/
def getLatestRoutemanagers (areamons : Dict Int (List Int)) : Reading (Dict Int (RouteManager F)) := do
  if setup.configmode then pure Dict.empty
  else
    let areas ← getAllAreas db fails
    areas.items.foldlM (fun routemanagers i => do
      let routemanager ← buildRoutemanager setup db fails areamons i.2
      pure (routemanagers.insert i.2.areaId routemanager)) Dict.empty

def getLatestGeofenceHelpers : Reading (Dict Int (GeofenceHelper F)) := do
  let geofences ← query fails db.geofences
  geofences.foldlM (fun helpers g => do
    let helper ← geofenceHelper setup (some g) none
    pure (helpers.insert g.geofenceId helper)) Dict.empty

def getLatestAuths : Reading (Dict String SettingsAuth) := do
  let allAuths ← query fails db.auths
  pure (allAuths.foldl (fun auths auth => auths.insert auth.username auth) Dict.empty)

end

end MapADroid.MappingManager
