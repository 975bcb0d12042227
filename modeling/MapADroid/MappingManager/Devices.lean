import MapADroid.Lib.Dict

/- The route manager a device is registered in
   (`MappingManager.get_routemanager_id_where_device_is_registered`).

   A device is given by its name or by its id. For an id the loop over the device mappings
   runs on the variable that is read after it, so an id that is in no mapping comes out as
   the last device of the table, and that device is looked for instead
   (`looksUp_iff`). -/
namespace MapADroid.MappingManager.Devices
open Lib

/-- A device, by its name (`str`) or by its `device_id` (`int`). -/
inductive Device (N : Type) where
  | name (origin : N)
  | id (deviceId : Int)
  deriving DecidableEq, Repr

/-- `DeviceMappingsEntry`; of its `device_settings`, the id is read here. -/
structure DeviceMappingsEntry where
  deviceId : Int
  deriving DecidableEq, Repr

/-- The registered workers of the route managers, each worker in at most one of them. -/
structure Registrations (N : Type) where
  workers : Dict Int (List N)
  once : ∀ r ws r' ws' origin, (r, ws) ∈ workers.items → (r', ws') ∈ workers.items → origin ∈ ws → origin ∈ ws' → r = r'

variable {N : Type}

/-- The loop over the device mappings: what `origin` is after it, from what it was before. -/
def originLoop (deviceId : Int) : Option N → List (N × DeviceMappingsEntry) → Option N
  | origin, [] => origin
  | _, (origin, entry) :: items =>
    if entry.deviceId = deviceId then some origin else originLoop deviceId (some origin) items

/-- `origin` of a device. -/
def originOf (devicemappings : Dict N DeviceMappingsEntry) : Device N → Option N
  | .name origin => some origin
  | .id deviceId => originLoop deviceId none devicemappings.items

variable [DecidableEq N]

/-- `origin in workers`. -/
def contains (workers : List N) (origin : Option N) : Bool := origin.any fun origin => decide (origin ∈ workers)

/-- `get_routemanager_id_where_device_is_registered`. -/
def getRoutemanagerIdWhereDeviceIsRegistered (devicemappings : Dict N DeviceMappingsEntry)
    (registrations : Registrations N) (device : Device N) : Option Int :=
  (registrations.workers.items.find? fun item => contains item.2 (originOf devicemappings device)).map Prod.fst

/-! ## What is looked for -/

/-- A worker is registered in a route manager. -/
def RegisteredIn (registrations : Registrations N) (origin : N) (r : Int) : Prop :=
  ∃ workers, (r, workers) ∈ registrations.workers.items ∧ origin ∈ workers

/-- The name of a device. One given by its name has it, and one given by an id has that of the first
entry with the id. -/
def nameOf (devicemappings : Dict N DeviceMappingsEntry) : Device N → Option N
  | .name origin => some origin
  | .id deviceId => (devicemappings.items.find? fun item => item.2.deviceId = deviceId).map Prod.fst

/-- The manager returned is the one in which exactly the device is registered; there is none if the
device is unknown or registered nowhere. -/
def LooksUp (devicemappings : Dict N DeviceMappingsEntry) (registrations : Registrations N) (device : Device N) : Prop :=
  ∀ r, getRoutemanagerIdWhereDeviceIsRegistered devicemappings registrations device = some r ↔
    ∃ origin, nameOf devicemappings device = some origin ∧ RegisteredIn registrations origin r

variable {devicemappings : Dict N DeviceMappingsEntry} {registrations : Registrations N} {device : Device N}

/-- The manager of the name that is read. -/
theorem getRoutemanagerId_eq_some_iff {r : Int} :
    getRoutemanagerIdWhereDeviceIsRegistered devicemappings registrations device = some r ↔
      ∃ origin, originOf devicemappings device = some origin ∧ RegisteredIn registrations origin r := by
  rw [getRoutemanagerIdWhereDeviceIsRegistered, Option.map_eq_some_iff]
  constructor
  · rintro ⟨item, hfind, rfl⟩
    have hcontains := List.find?_some hfind
    rw [contains, Option.any_eq_true] at hcontains
    obtain ⟨origin, horigin, hmem⟩ := hcontains
    exact ⟨origin, horigin, item.2, List.mem_of_find?_eq_some hfind, of_decide_eq_true hmem⟩
  · intro h
    obtain ⟨origin, horigin, workers, hitem, hmem⟩ := h
    have hcontains : contains workers (originOf devicemappings device) = true := by
      rw [horigin, contains, Option.any_some]
      exact decide_eq_true hmem
    obtain ⟨item, hfind⟩ : ∃ item, registrations.workers.items.find?
        (fun item => contains item.2 (originOf devicemappings device)) = some item := by
      rw [← Option.isSome_iff_exists, List.find?_isSome]
      exact ⟨_, hitem, hcontains⟩
    refine ⟨item, hfind, ?_⟩
    -- A worker is in one manager only.
    have hfound := List.find?_some hfind
    rw [horigin, contains, Option.any_some] at hfound
    exact registrations.once item.1 item.2 r workers origin (List.mem_of_find?_eq_some hfind) hitem
      (of_decide_eq_true hfound) hmem

section
omit [DecidableEq N]

theorem originLoop_of_find {deviceId : Int} {items : List (N × DeviceMappingsEntry)} {item : N × DeviceMappingsEntry}
    (h : items.find? (fun item => item.2.deviceId = deviceId) = some item) (origin : Option N) :
    originLoop deviceId origin items = some item.1 := by
  induction items generalizing origin with
  | nil => cases h
  | cons head items ih =>
    rw [List.find?_cons] at h
    rw [originLoop]
    by_cases hid : head.2.deviceId = deviceId
    · rw [if_pos hid]
      simp only [hid, decide_true] at h
      rw [← Option.some.inj h]
    · rw [if_neg hid]
      simp only [hid, decide_false] at h
      exact ih h _

/-- An id that is not found leaves the last device. -/
theorem originLoop_of_not_find {deviceId : Int} {items : List (N × DeviceMappingsEntry)}
    (h : items.find? (fun item => item.2.deviceId = deviceId) = none) (origin : Option N) :
    originLoop deviceId origin items = (items.getLast?.map Prod.fst).or origin := by
  induction items generalizing origin with
  | nil => rfl
  | cons head items ih =>
    rw [List.find?_eq_none] at h
    have hid : ¬ head.2.deviceId = deviceId := by simpa using h head List.mem_cons_self
    have hrest : items.find? (fun item => item.2.deviceId = deviceId) = none := by
      rw [List.find?_eq_none]
      intro item hitem
      exact h item (List.mem_cons_of_mem _ hitem)
    rw [originLoop, if_neg hid, ih hrest, List.getLast?_cons]
    cases items.getLast? with
    | none => rfl
    | some item => rfl

end

/-- A device is looked up as itself exactly if it is given by its name, or the table has its id, or is
empty, or ends in a device that is registered nowhere. -/
theorem looksUp_iff (devicemappings : Dict N DeviceMappingsEntry) (registrations : Registrations N) (device : Device N) :
    LooksUp devicemappings registrations device ↔
      (nameOf devicemappings device).isSome ∨
        ∀ last ∈ devicemappings.items.getLast?, ∀ r, ¬ RegisteredIn registrations last.1 r := by
  cases hname : nameOf devicemappings device with
  | some origin =>
    have horigin : originOf devicemappings device = some origin := by
      cases device with
      | name n => exact hname
      | id deviceId =>
        obtain ⟨item, hfind, rfl⟩ := Option.map_eq_some_iff.mp hname
        exact originLoop_of_find hfind none
    refine ⟨fun _ => .inl rfl, fun _ r => ?_⟩
    rw [getRoutemanagerId_eq_some_iff, horigin, hname]
  | none =>
    cases device with
    | name n => cases hname
    | id deviceId =>
      have hlast : originOf devicemappings (.id deviceId) = devicemappings.items.getLast?.map Prod.fst := by
        rw [originOf, originLoop_of_not_find (Option.map_eq_none_iff.mp hname), Option.or_none]
      constructor
      · intro h
        right
        intro last hmem r hregistered
        have hsome := (h r).mp (getRoutemanagerId_eq_some_iff.mpr ⟨last.1, by rw [hlast, hmem]; rfl, hregistered⟩)
        obtain ⟨origin, horigin, _⟩ := hsome
        rw [hname] at horigin
        cases horigin
      · rintro (h | h) r
        · cases h
        · rw [getRoutemanagerId_eq_some_iff, hlast, hname]
          constructor
          · intro hsome
            obtain ⟨origin, horigin, hregistered⟩ := hsome
            obtain ⟨last, hmem, rfl⟩ := Option.map_eq_some_iff.mp horigin
            exact absurd hregistered (h last hmem r)
          · intro hsome
            obtain ⟨origin, horigin, _⟩ := hsome
            cases horigin

/-- One device, registered in one manager. -/
def oneDevice : Dict String DeviceMappingsEntry := .ofList [("atv01", ⟨1⟩)]

def oneRegistration : Registrations String where
  workers := .ofList [(7, ["atv01"])]
  once r ws r' ws' origin h h' _ _ := by
    have hitem : ∀ item ∈ (Dict.ofList [((7 : Int), ["atv01"])]).items, item.1 = 7 := by decide
    exact (hitem _ h).trans (hitem _ h').symm

/-- A device of another id is taken for it. -/
theorem not_looksUp_unknown : ¬ LooksUp oneDevice oneRegistration (.id 2) := by
  intro h
  obtain ⟨origin, horigin, _⟩ := (h 7).mp (by decide)
  have hnone : nameOf oneDevice (.id 2) = none := by decide
  rw [hnone] at horigin
  cases horigin

end MapADroid.MappingManager.Devices
