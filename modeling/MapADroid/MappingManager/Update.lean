import MapADroid.MappingManager.Readers

/- `MappingManager.update` without the full lock.

   The mon lists and the mon lists of the areas are written to the manager as soon as they
   are read, the rest is read into temporaries and written at the end. So an update that
   raises while it reads leaves the old configuration, or the old one with one or both of
   the new mon lists. -/
namespace MapADroid.MappingManager
open Lib

variable {F : Type}

/-- The configuration the manager has loaded, and the route managers it has stopped. -/
structure State (F : Type) where
  areas : Dict Int AreaEntry
  devicemappings : Dict String DeviceMappingsEntry
  routemanagers : Dict Int (RouteManager F)
  auths : Dict String SettingsAuth
  geofenceHelpers : Dict Int (GeofenceHelper F)
  monlists : Dict Int (List Int)
  areamons : Dict Int (List Int)
  stopped : List Int

/-- What is read after the mon lists of the areas, and their areas. -/
structure Temporaries (F : Type) where
  areas : Dict Int AreaEntry
  devicemappings : Dict String DeviceMappingsEntry
  routemanagers : Dict Int (RouteManager F)
  geofenceHelpers : Dict Int (GeofenceHelper F)
  auths : Dict String SettingsAuth

/-- "Restoring old devicesettings". -/
def restoreDevicesettings (old new : Dict String DeviceMappingsEntry) : Dict String DeviceMappingsEntry :=
  old.items.foldl (fun new i => new.modify i.1 fun e =>
    { e with
      lastLocation := i.2.lastLocation
      lastKnownMode := i.2.lastKnownMode
      accountIndex := i.2.accountIndex
      accountRotationStarted := i.2.accountRotationStarted }) new

section
variable (setup : Setup F) (db : Database) (fails : Nat → Bool)

/-- The areas and their mon lists, from the mon lists read before. -/
def readAreamons (monlists : Dict Int (List Int)) : Reading (Dict Int AreaEntry × Dict Int (List Int)) := do
  let areas ← getLatestAreas db fails
  let areamons ← getLatestAreamons setup fails monlists areas
  pure (areas, areamons)

def readTemporaries (areas : Dict Int AreaEntry) (areamons : Dict Int (List Int)) : Reading (Temporaries F) := do
  let devicemappings ← getLatestDevicemappings db fails
  let routemanagers ← getLatestRoutemanagers setup db fails areamons
  let geofenceHelpers ← getLatestGeofenceHelpers setup db fails
  let auths ← getLatestAuths db fails
  pure ⟨areas, devicemappings, routemanagers, geofenceHelpers, auths⟩

/-- `update(full_lock=False)`: the state it leaves, and the exception raised while it reads, if one is. -/
def State.update (s : State F) : State F × Option Error :=
  match getLatestMonlists db fails 0 with
  | .error e => (s, some e)
  | .ok (monlists, n) =>
    let s := { s with monlists := monlists }
    match readAreamons setup db fails monlists n with
    | .error e => (s, some e)
    | .ok ((areas, areamons), n) =>
      let s := { s with areamons := areamons }
      match readTemporaries setup db fails areas areamons n with
      | .error e => (s, some e)
      | .ok (new, _) =>
        ({ s with
            stopped := s.stopped ++ s.routemanagers.keys
            areas := new.areas
            devicemappings := restoreDevicesettings s.devicemappings new.devicemappings
            routemanagers := new.routemanagers
            auths := new.auths
            geofenceHelpers := new.geofenceHelpers }, none)

end

/-- The dictionaries have the same items. -/
def SameItems {κ υ : Type} [DecidableEq κ] (d d' : Dict κ υ) : Prop := ∀ k, d.get? k = d'.get? k

/-- The configuration is the one of `s`, and no route manager was stopped. -/
structure State.Intact (s t : State F) : Prop where
  areas : t.areas = s.areas
  devicemappings : t.devicemappings = s.devicemappings
  routemanagers : t.routemanagers = s.routemanagers
  auths : t.auths = s.auths
  geofenceHelpers : t.geofenceHelpers = s.geofenceHelpers
  monlists : SameItems t.monlists s.monlists
  areamons : SameItems t.areamons s.areamons
  stopped : t.stopped = s.stopped

/-! ## The mon lists of the database -/

namespace Database

/-- The mon lists, under their ids. -/
def monlists (db : Database) : Dict Int (List Int) := Dict.ofList db.monivlists

/-- The areas, under their ids, in the order of their names. -/
def allAreas (db : Database) : Dict Int SettingsArea :=
  Dict.ofList (([Mode.idle, .ivMitm, .monMitm, .pokestops, .raidsMitm, .init].foldl (fun areas mode =>
    (db.areas.filter (·.mode = mode)).foldl (fun areas area => areas.insert area.areaId area) areas)
      Dict.empty).items.mergeSort fun a b => a.2.name ≤ b.2.name)

def areaEntries (db : Database) : Dict Int AreaEntry :=
  db.allAreas.items.foldl (fun areas i => areas.insert i.1
    ⟨i.2, db.routecalcs.find? (· = i.2.routecalc), i.2.geofenceIncluded, i.2.geofenceExcluded⟩) Dict.empty

/-- The mon list of each area: its own, and all mons behind it where the area wants them. -/
def areamons (setup : Setup F) (db : Database) : Dict Int (List Int) :=
  db.areaEntries.items.foldl (fun areamons i => areamons.insert i.1
    ((i.2.settings.monlistId.bind db.monlists.get?).getD [] ++ if i.2.settings.allMons then setup.monIds else []))
    Dict.empty

/-- The queries for the mon lists: one for their ids, and two for each. -/
def monlistQueries (db : Database) : Nat := 1 + 2 * db.monivlists.length

/-- The queries for the areas: one for each mode, one for the routecalc of each area, and one for all mons where an
area wants them. -/
def areaQueries (db : Database) : Nat :=
  6 + db.allAreas.items.length + (db.areaEntries.items.map fun i => if i.2.settings.allMons then 1 else 0).sum

end Database

section
variable (setup : Setup F) (db : Database) (fails : Nat → Bool)

theorem getLatestMonlists_reads : Reads fails (getLatestMonlists db fails) db.monlistQueries db.monlists := by
  have hlist : ∀ (mapped : Dict Int (List Int)) (l : Int × List Int), Reads fails (do
      let entry ← query fails l
      let monIds ← query fails entry.2
      pure (mapped.insert l.1 monIds)) 2 (mapped.insert l.1 l.2) := fun mapped l =>
    Reads.bind (m := 1) (.query l) (Reads.bind (m := 0) (.query l.2) (.pure _))
  have hlists := Reads.foldlM hlist db.monivlists Dict.empty
  have hcount : (db.monivlists.map fun _ => 2).sum = 2 * db.monivlists.length := by simp [Nat.mul_comm]
  rw [hcount] at hlists
  exact Reads.bind (.query db.monivlists) hlists

theorem getAllAreas_reads : Reads fails (getAllAreas db fails) 6 db.allAreas := by
  have hmode : ∀ (areas : Dict Int SettingsArea) (mode : Mode), Reads fails (do
      let rows ← query fails (db.areas.filter (·.mode = mode))
      pure (rows.foldl (fun areas area => areas.insert area.areaId area) areas)) 1
        ((db.areas.filter (·.mode = mode)).foldl (fun areas area => areas.insert area.areaId area) areas) :=
    fun areas mode => Reads.bind (m := 0) (.query _) (.pure _)
  exact Reads.bind (m := 0) (Reads.foldlM hmode [.idle, .ivMitm, .monMitm, .pokestops, .raidsMitm, .init] Dict.empty)
    (.pure _)

theorem getLatestAreas_reads :
    Reads fails (getLatestAreas db fails) (6 + db.allAreas.items.length) db.areaEntries := by
  have harea : ∀ (areas : Dict Int AreaEntry) (i : Int × SettingsArea), Reads fails (do
      let routecalc ← getRoutecalc db fails i.2.routecalc
      pure (areas.insert i.1 ⟨i.2, routecalc, i.2.geofenceIncluded, i.2.geofenceExcluded⟩)) 1
        (areas.insert i.1
          ⟨i.2, db.routecalcs.find? (· = i.2.routecalc), i.2.geofenceIncluded, i.2.geofenceExcluded⟩) :=
    fun areas i => Reads.bind (m := 0) (.query _) (.pure _)
  have hareas := Reads.foldlM harea db.allAreas.items Dict.empty
  have hcount : (db.allAreas.items.map fun _ => 1).sum = db.allAreas.items.length := by simp
  rw [hcount] at hareas
  exact (getAllAreas_reads db fails).bind hareas

theorem getLatestAreamons_reads : Reads fails (getLatestAreamons setup fails db.monlists db.areaEntries)
    (db.areaEntries.items.map fun i => if i.2.settings.allMons then 1 else 0).sum (db.areamons setup) := by
  apply Reads.foldlM
  intro areamons i
  cases i.2.settings.allMons with
  | true => exact Reads.bind (m := 0) (.query setup.monIds) (.pure _)
  | false =>
    simp only [Bool.false_eq_true, if_false, List.append_nil]
    exact .pure _

theorem readAreamons_reads : Reads fails (readAreamons setup db fails db.monlists) db.areaQueries
    (db.areaEntries, db.areamons setup) :=
  (getLatestAreas_reads db fails).bind (Reads.bind (m := 0) (getLatestAreamons_reads setup db fails) (.pure _))

end

/-- The mon lists that are read before the exception are the loaded ones: those of the database, if none of the
queries for them fails, and those of the areas, if none of the queries for the areas does either. -/
def ListsUnchanged (setup : Setup F) (db : Database) (fails : Nat → Bool) (s : State F) : Prop :=
  (∀ n < db.monlistQueries, fails n = false) → SameItems db.monlists s.monlists ∧
    ((∀ n < db.monlistQueries + db.areaQueries, fails n = false) → SameItems (db.areamons setup) s.areamons)

variable {setup : Setup F} {db : Database} {fails : Nat → Bool} {s : State F} {e : Error}

theorem SameItems.refl {κ υ : Type} [DecidableEq κ] (d : Dict κ υ) : SameItems d d := fun _ => rfl

/-- Where an update raises: while it reads the mon lists, those of the areas, or the rest. -/
theorem State.update_raises (h : (s.update setup db fails).2 = some e) :
    (∃ e', getLatestMonlists db fails 0 = .error e' ∧ (s.update setup db fails).1 = s) ∨
      (∃ monlists n e', getLatestMonlists db fails 0 = .ok (monlists, n) ∧
        readAreamons setup db fails monlists n = .error e' ∧
        (s.update setup db fails).1 = { s with monlists := monlists }) ∨
      ∃ monlists n areas areamons n', getLatestMonlists db fails 0 = .ok (monlists, n) ∧
        readAreamons setup db fails monlists n = .ok ((areas, areamons), n') ∧
        (s.update setup db fails).1 = { s with monlists := monlists, areamons := areamons } := by
  cases hmonlists : getLatestMonlists db fails 0 with
  | error e' => exact .inl ⟨e', rfl, by simp only [update, hmonlists]⟩
  | ok r =>
    obtain ⟨monlists, n⟩ := r
    cases hareamons : readAreamons setup db fails monlists n with
    | error e' =>
      exact .inr (.inl ⟨monlists, n, e', rfl, hareamons, by simp only [update, hmonlists, hareamons]⟩)
    | ok r =>
      obtain ⟨⟨areas, areamons⟩, n'⟩ := r
      cases htemporaries : readTemporaries setup db fails areas areamons n' with
      | ok new => simp [update, hmonlists, hareamons, htemporaries] at h
      | error e' =>
        exact .inr (.inr ⟨monlists, n, areas, areamons, n', rfl, hareamons,
          by simp only [update, hmonlists, hareamons, htemporaries]⟩)

/-- A reload that raises while it reads leaves the configuration intact exactly if the mon lists it has
read until then, those of the areas included, are the loaded ones. -/
theorem intact_iff (h : (s.update setup db fails).2 = some e) :
    s.Intact (s.update setup db fails).1 ↔ ListsUnchanged setup db fails s := by
  have hlists := getLatestMonlists_reads db fails
  have hareas := readAreamons_reads setup db fails
  rcases State.update_raises h with ⟨e', hmonlists, hs⟩ | ⟨monlists, n, e', hmonlists, hareamons, hs⟩ |
    ⟨monlists, n, areas, areamons, n', hmonlists, hareamons, hs⟩
  · rw [hs]
    constructor
    · intro _ hfine
      exact absurd (fun i _ hi => hfine i (by omega)) (hlists.of_error hmonlists)
    · intro _
      exact ⟨rfl, rfl, rfl, rfl, rfl, .refl _, .refl _, rfl⟩
  · obtain ⟨hfine, rfl, rfl⟩ := hlists.of_ok hmonlists
    rw [hs]
    constructor
    · intro hintact _
      refine ⟨hintact.monlists, fun hall => ?_⟩
      exact absurd (fun i _ hi => hall i (by omega)) (hareas.of_error hareamons)
    · intro hsame
      exact ⟨rfl, rfl, rfl, rfl, rfl, (hsame fun i hi => hfine i (Nat.zero_le i) (by omega)).1, .refl _, rfl⟩
  · obtain ⟨hfine, rfl, rfl⟩ := hlists.of_ok hmonlists
    obtain ⟨hfine', hread, _⟩ := hareas.of_ok hareamons
    obtain rfl : areamons = db.areamons setup := congrArg Prod.snd hread
    rw [hs]
    constructor
    · exact fun hintact _ => ⟨hintact.monlists, fun _ => hintact.areamons⟩
    · intro hsame
      obtain ⟨hmons, hareamons⟩ := hsame fun i hi => hfine i (Nat.zero_le i) (by omega)
      refine ⟨rfl, rfl, rfl, rfl, rfl, hmons, hareamons fun i hi => ?_, rfl⟩
      by_cases hfirst : i < db.monlistQueries
      · exact hfine i (Nat.zero_le i) (by omega)
      · exact hfine' i (by omega) (by omega)

/-! ## Two reloads -/

/-- One list with one mon, and an area without a geofence that uses it. -/
def exampleDatabase : Database where
  monivlists := [(1, [25])]
  areas := [⟨7, "a", .monMitm, none, none, 3, some 1, false, false, 1⟩]
  routecalcs := [3]
  geofences := []
  devices := []
  walkers := []
  walkerareas := []
  walkerToWalkerareas := []
  pools := []
  auths := []

def exampleSetup : Setup Nat := ⟨false, fun _ => none, fun _ => none, []⟩

/-- Nothing but the mon lists is loaded. -/
def exampleState (monlists areamons : Dict Int (List Int)) : State Nat :=
  ⟨Dict.empty, Dict.empty, Dict.empty, Dict.empty, Dict.empty, monlists, areamons, []⟩

/-- The mon lists of the database are those loaded. -/
theorem example_intact :
    (exampleState (Dict.ofList [(1, [25])]) (Dict.ofList [(7, [25])])).Intact
      ((exampleState (Dict.ofList [(1, [25])]) (Dict.ofList [(7, [25])])).update exampleSetup exampleDatabase
        fun _ => false).1 := by
  apply (intact_iff (e := .runtimeError "Cannot work without geofence_included") (by decide +kernel)).mpr
  intro _
  have hareamons : (exampleDatabase.areamons exampleSetup).items = [(7, [25])] := by decide +kernel
  refine ⟨.refl _, fun _ k => ?_⟩
  rw [Dict.get?, hareamons]
  rfl

/-- The list of the database has another mon: it is loaded although the area has no geofence. -/
theorem lists_replaced :
    ¬ ∀ (F : Type) (setup : Setup F) (db : Database) (fails : Nat → Bool) (s : State F) (e : Error),
      (s.update setup db fails).2 = some e → s.Intact (s.update setup db fails).1 := by
  intro h
  have hintact := h Nat exampleSetup exampleDatabase (fun _ => false)
    (exampleState (Dict.ofList [(1, [1])]) (Dict.ofList [(7, [1])]))
    (.runtimeError "Cannot work without geofence_included") (by decide +kernel)
  have hmon := hintact.monlists 1
  revert hmon
  decide +kernel

end MapADroid.MappingManager
