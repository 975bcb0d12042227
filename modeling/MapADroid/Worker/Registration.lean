import MapADroid.Lib.Run
import MapADroid.Worker.WalkerAreas
import Mathlib.Data.Finset.Erase

/- Where a worker is registered.

   `get_strategy_using_settings` registers the worker in the area it finds. The worker is
   unregistered from the area of its current strategy when a scan ends, before the next
   lookup. But a worker without a walker, as one that was paused, looks its strategy up
   while it scans and throws it away, and a worker that connects again looks one up
   while it is still registered; either way it can end up in two areas (`left_behind`).

   Whether it does depends on the areas a search finds when it is made (`Finds`): a worker
   that scans without a walker must find none, one that connects must not be registered
   in another area, and for an area that is found a strategy must be made (`Consistent`). -/
namespace MapADroid.Worker
open Lib

/-- The arguments of the program. -/
structure Config where
  configMode : Bool
  int : String → Option Int

/-- The device of a worker, the areas, and the worker. -/
structure State where
  mapping : DeviceMappingsEntry
  /-- The device has a device id in its settings. -/
  deviceId : Bool
  devicePaused : Bool
  /-- The modes of the areas that are loaded. -/
  routemanagers : Int → Option WorkerType
  /-- The areas with the worker in `_workers_registered`. -/
  registered : Finset Int
  /-- The current scan strategy, none before the worker connects. -/
  scanStrategy : Option AbstractWorkerStrategy

/-- What a lookup depends on: the checks of the areas, and whether a strategy is made and put in place. -/
structure Lookup where
  look : Nat → Surroundings
  created : Bool

def Lookup.make (l : Lookup) (strategy : AbstractWorkerStrategy) : Option AbstractWorkerStrategy :=
  if l.created then some strategy else none

inductive Action where
  /-- The device connects, for the first time or again. -/
  | connect (l : Lookup)
  | checkWalker (l : Lookup)
  /-- A scan has ended. -/
  | updateStrategy (l : Lookup)
  /-- The check at the start of a scan, with so many other workers registered. -/
  | checkMaxWalkersReached (others : Nat)
  /-- The check of a location when there is none left. -/
  | noLocationLeft
  | setPaused (paused : Bool)
  /-- The areas and the walkers are loaded again. -/
  | update (routemanagers : Int → Option WorkerType) (walkerAreas : List SettingsWalkerarea)
  /-- An area drops the worker as idle. -/
  | dropIdle (areaId : Int)

namespace State

/-- `paused_or_config`. -/
def pausedOrConfig (cfg : Config) (s : State) : Bool := s.devicePaused || cfg.configMode

/-- `__prep_settings`: the walker the worker is now registered for, if any; `none` where an exception is raised. -/
def prepSettings (cfg : Config) (s : State) (l : Lookup) : State × Option (Option WalkerConfiguration) :=
  let r := getWalkerSettings cfg.int l.look s.mapping
  match r.1 with
  | .raised => ({ s with mapping := r.2 }, none)
  | .none => ({ s with mapping := r.2 }, some none)
  | .walker c =>
    -- `WrongAreaInWalker` if the area is not loaded
    if (s.routemanagers c.areaId).isNone then ({ s with mapping := r.2 }, none)
    else ({ s with mapping := r.2, registered := insert c.areaId s.registered }, some (some c))

/-- A strategy for the area can be made: the device has an id and the area a mode. -/
def valid (s : State) (areaId : Int) : Bool := s.deviceId && s.routemanagers areaId ≠ some .undefined

/-- The strategy for a walker. -/
def getStrategy (s : State) (c : WalkerConfiguration) : AbstractWorkerStrategy :=
  if s.valid c.areaId then ⟨(s.routemanagers c.areaId).getD .undefined, c.areaId, some c.walkerSettings⟩
  else nopStrategy (some c.walkerSettings)

/-- `get_strategy_using_settings`: the state after it, and the strategy if one is made. -/
def getStrategyUsingSettings (cfg : Config) (s : State) (l : Lookup) : State × Option AbstractWorkerStrategy :=
  if s.pausedOrConfig cfg then (s, l.make (nopStrategy none))
  else
    let r := s.prepSettings cfg l
    match r.2 with
    | none => (r.1, none)
    | some none => (r.1, l.make (nopStrategy none))
    | some (some c) =>
      ({ r.1 with mapping := updateSettingsOfOrigin r.1.mapping c }, l.make (r.1.getStrategy c))

/-- `set_scan_strategy`, of a strategy that was made. -/
def setScanStrategy (s : State) : Option AbstractWorkerStrategy → State
  | none => s
  | some strategy => { s with scanStrategy := some strategy }

/-- `_cleanup_current`. -/
def cleanupCurrent (s : State) (current : AbstractWorkerStrategy) : State :=
  { s with registered := s.registered.erase current.areaId }

/-- The area is done with: `FINISHED` is set and the worker unregistered. -/
def finish (s : State) (current : AbstractWorkerStrategy) : State :=
  cleanupCurrent { s with mapping := { s.mapping with finished := true } } current

/-- False if the area has more workers than it may have, `others` being those besides this one. -/
def checkMaxWalkersReached (s : State) (current : AbstractWorkerStrategy) (others : Nat) : Bool :=
  match current.walker.bind (·.maxWalkers) with
  | none => true
  | some maxWalkers =>
    let regWorkers : Int := others + if current.areaId ∈ s.registered then 1 else 0
    maxWalkers = 0 || regWorkers ≤ maxWalkers

def step (cfg : Config) (s : State) : Action → Option State
  | .connect l =>
    let (s', strategy) := s.getStrategyUsingSettings cfg l
    some (s'.setScanStrategy strategy)
  | .checkWalker l =>
    match s.scanStrategy with
    | none => none
    | some current =>
      match current.walker with
      -- the strategy that is looked up is only compared with None
      | none => some (s.getStrategyUsingSettings cfg l).1
      | some _ => some s
  | .updateStrategy l =>
    match s.scanStrategy with
    | none => none
    | some current =>
      if s.pausedOrConfig cfg then some s
      else
        let (s', strategy) := (s.finish current).getStrategyUsingSettings cfg l
        some (s'.setScanStrategy strategy)
  | .checkMaxWalkersReached others =>
    match s.scanStrategy with
    | none => none
    | some current =>
      if s.checkMaxWalkersReached current others then some s else some (s.finish current)
  | .noLocationLeft =>
    match s.scanStrategy with
    | none => none
    | some _ => some { s with mapping := { s.mapping with finished := true } }
  | .setPaused paused => some { s with devicePaused := paused }
  | .update routemanagers walkerAreas => some { s with routemanagers, mapping := { walkerAreas }, registered := ∅ }
  | .dropIdle areaId => some { s with registered := s.registered.erase areaId }

/-! ## Lookups -/

/-- A lookup comes upon this area: the worker is to scan, the search finds the area, and it is loaded. -/
def Finds (cfg : Config) (s : State) (l : Lookup) (w : SettingsWalkerarea) : Prop :=
  s.pausedOrConfig cfg = false ∧ FirstPass (fun j w => preCheckValue cfg.int w (l.look j)) (searchOrder s.mapping) w ∧
    (s.routemanagers w.areaId).isSome

/-- A lookup comes upon no area: the worker is not to scan, or no area is. -/
def FindsNone (cfg : Config) (s : State) (l : Lookup) : Prop :=
  s.pausedOrConfig cfg = true ∨ NonePasses (fun j w => preCheckValue cfg.int w (l.look j)) (searchOrder s.mapping)

instance (cfg : Config) (s : State) (l : Lookup) (w : SettingsWalkerarea) : Decidable (s.Finds cfg l w) := by
  unfold Finds; infer_instance

instance (cfg : Config) (s : State) (l : Lookup) : Decidable (s.FindsNone cfg l) := by unfold FindsNone; infer_instance

/-- The area of the current strategy. -/
def currentArea (s : State) : Option Int := s.scanStrategy.map (·.areaId)

theorem getStrategy_areaId (s : State) (c : WalkerConfiguration) :
    (s.getStrategy c).areaId = if s.valid c.areaId then c.areaId else 0 := by
  unfold getStrategy
  split
  · rfl
  · rfl

/-- What a lookup does: it fails, it comes upon no area, or it registers the worker in the area it comes upon. -/
theorem getStrategyUsingSettings_cases (cfg : Config) (s : State) (l : Lookup) :
    (s.getStrategyUsingSettings cfg l).1.scanStrategy = s.scanStrategy ∧
      (((s.getStrategyUsingSettings cfg l).1.registered = s.registered ∧ (s.getStrategyUsingSettings cfg l).2 = none) ∨
        (s.FindsNone cfg l ∧ (s.getStrategyUsingSettings cfg l).1.registered = s.registered ∧
          (s.getStrategyUsingSettings cfg l).2 = l.make (nopStrategy none)) ∨
        ∃ c : WalkerConfiguration, s.Finds cfg l c.walkerSettings ∧ c.walkerSettings ∈ s.mapping.walkerAreas ∧
          c.areaId = c.walkerSettings.areaId ∧
          (s.getStrategyUsingSettings cfg l).1.registered = insert c.areaId s.registered ∧
          (s.getStrategyUsingSettings cfg l).2 = l.make (s.getStrategy c)) := by
  unfold getStrategyUsingSettings prepSettings
  by_cases hpaused : s.pausedOrConfig cfg = true
  · rw [if_pos hpaused]
    exact ⟨rfl, .inr (.inl ⟨.inl hpaused, rfl, rfl⟩)⟩
  rw [if_neg hpaused]
  obtain ⟨hwalker, hnone⟩ := getWalkerSettings_firstPass cfg.int l.look s.mapping
  dsimp only
  cases hfound : (getWalkerSettings cfg.int l.look s.mapping).1 with
  | raised => exact ⟨rfl, .inl ⟨rfl, rfl⟩⟩
  | none => exact ⟨rfl, .inr (.inl ⟨.inr (hnone hfound), rfl, rfl⟩)⟩
  | walker c =>
    obtain ⟨harea, hfirst⟩ := hwalker c hfound
    dsimp only
    by_cases hloaded : (s.routemanagers c.areaId).isNone
    · simp only [if_pos hloaded]
      exact ⟨trivial, .inl ⟨trivial, trivial⟩⟩
    · simp only [if_neg hloaded]
      refine ⟨trivial, .inr (.inr ⟨c, ⟨by simpa using hpaused, hfirst, ?_⟩, hfirst.mem, harea, rfl, rfl⟩)⟩
      rw [← harea, ← Option.not_isNone, Bool.not_eq_true']
      exact Bool.eq_false_iff.mpr hloaded

theorem setScanStrategy_currentArea (s : State) (strategy : Option AbstractWorkerStrategy) :
    (s.setScanStrategy strategy).currentArea = (strategy.map (·.areaId)).or s.currentArea ∧
      (s.setScanStrategy strategy).registered = s.registered := by
  cases strategy with
  | none => exact ⟨rfl, rfl⟩
  | some strategy => exact ⟨rfl, rfl⟩

/-! ## Steps -/

/-- The worker is registered at most in the area of its current strategy. -/
def Registered (s : State) : Prop := ∀ a ∈ s.registered, s.currentArea = some a

/-- For an area that is found a strategy is made, and one of that area, unless the current one is and stays. -/
def Follows (s : State) (l : Lookup) (areaId : Int) : Prop :=
  if l.created then s.valid areaId = true else s.currentArea = some areaId

/-- When the worker connects, it is in no other area than the one found, and in none if it gets a strategy without
an area; a worker without a walker finds at most the area it is in; a strategy is made for an area that is found. -/
def Consistent (cfg : Config) (s : State) : Action → Prop
  | .connect l =>
    (∀ w ∈ s.mapping.walkerAreas, s.Finds cfg l w → s.Follows l w.areaId ∧ ∀ a ∈ s.registered, a = w.areaId) ∧
      (s.FindsNone cfg l → l.created = true → s.registered = ∅)
  | .checkWalker l => ∀ current ∈ s.scanStrategy, current.walker = none →
      ∀ w ∈ s.mapping.walkerAreas, s.Finds cfg l w → current.areaId = w.areaId
  | .updateStrategy l => ∀ current ∈ s.scanStrategy,
      ∀ w ∈ s.mapping.walkerAreas, (s.finish current).Finds cfg l w → s.Follows l w.areaId
  | .checkMaxWalkersReached _ => True
  | .noLocationLeft => True
  | .setPaused _ => True
  | .update _ _ => True
  | .dropIdle _ => True

instance (s : State) (l : Lookup) (areaId : Int) : Decidable (s.Follows l areaId) := by unfold Follows; infer_instance

instance (cfg : Config) (s : State) : (a : Action) → Decidable (s.Consistent cfg a)
  | .connect _ => inferInstanceAs (Decidable (_ ∧ _))
  | .checkWalker _ => inferInstanceAs (Decidable (∀ current ∈ s.scanStrategy, _ → _))
  | .updateStrategy _ => inferInstanceAs (Decidable (∀ current ∈ s.scanStrategy, _))
  | .checkMaxWalkersReached _ => isTrue trivial
  | .noLocationLeft => isTrue trivial
  | .setPaused _ => isTrue trivial
  | .update _ _ => isTrue trivial
  | .dropIdle _ => isTrue trivial

/-- The worker is registered in fewer areas, and its strategy stays. -/
theorem Registered.mono {s t : State} (h : Registered s) (hsub : t.registered ⊆ s.registered)
    (hstrategy : t.scanStrategy = s.scanStrategy) : Registered t := by
  intro a ha
  rw [currentArea, hstrategy]
  exact h a (hsub ha)

/-- A strategy that was looked up is put in place. -/
theorem registered_lookup {cfg : Config} {s : State} {l : Lookup} (h : Registered s)
    (hfound : ∀ w ∈ s.mapping.walkerAreas, s.Finds cfg l w → s.Follows l w.areaId ∧ ∀ a ∈ s.registered, a = w.areaId)
    (hnone : s.FindsNone cfg l → l.created = true → s.registered = ∅) :
    Registered ((s.getStrategyUsingSettings cfg l).1.setScanStrategy (s.getStrategyUsingSettings cfg l).2) := by
  obtain ⟨hstrategy, hcases⟩ := getStrategyUsingSettings_cases cfg s l
  obtain ⟨harea, hsame⟩ := setScanStrategy_currentArea (s.getStrategyUsingSettings cfg l).1
    (s.getStrategyUsingSettings cfg l).2
  have hcurrent : (s.getStrategyUsingSettings cfg l).1.currentArea = s.currentArea := by
    rw [currentArea, hstrategy, currentArea]
  unfold Registered
  rw [harea, hsame, hcurrent]
  intro a ha
  rcases hcases with ⟨hregistered, hmade⟩ | ⟨hfinds, hregistered, hmade⟩ |
    ⟨c, hfinds, hmem, hwalker, hregistered, hmade⟩
  · rw [hregistered] at ha
    rw [hmade]
    exact h a ha
  · rw [hregistered] at ha
    cases hcreated : l.created with
    | true =>
      rw [hnone hfinds hcreated] at ha
      exact absurd ha (Finset.notMem_empty a)
    | false =>
      rw [hmade, Lookup.make, if_neg (by simp [hcreated])]
      exact h a ha
  · obtain ⟨hfollows, honly⟩ := hfound c.walkerSettings hmem hfinds
    rw [← hwalker] at hfollows honly
    -- it is registered in the area found, and in no other
    have heq : a = c.areaId := by
      rw [hregistered] at ha
      rcases Finset.mem_insert.mp ha with heq | ha
      · exact heq
      · exact honly a ha
    rw [hmade, heq, Lookup.make]
    unfold Follows at hfollows
    by_cases hcreated : l.created = true
    · rw [if_pos hcreated] at hfollows
      rw [if_pos hcreated, Option.map_some, Option.some_or, getStrategy_areaId, if_pos hfollows]
    · rw [if_neg hcreated] at hfollows
      rw [if_neg hcreated, Option.map_none, Option.none_or, hfollows]

/-- A worker that is registered at most in the area of its strategy is in none after that is cleaned up. -/
theorem Registered.finish {s : State} (h : Registered s) {current : AbstractWorkerStrategy}
    (hcurrent : s.scanStrategy = some current) : (s.finish current).registered = ∅ := by
  refine Finset.eq_empty_of_forall_notMem fun a ha => ?_
  obtain ⟨hne, ha⟩ := Finset.mem_erase.mp ha
  have harea := h a ha
  rw [currentArea, hcurrent] at harea
  exact hne (Option.some.inj harea).symm

/-- A step that is consistent keeps the worker in the area of its strategy. -/
theorem Registered.step {cfg : Config} {s t : State} {a : Action} (h : Registered s) (hok : s.Consistent cfg a)
    (hs : State.step cfg s a = some t) : Registered t := by
  cases a with
  | connect l =>
    cases hs
    exact registered_lookup h hok.1 hok.2
  | checkWalker l =>
    simp only [State.step] at hs
    split at hs
    · cases hs
    next current hcurrent =>
    split at hs
    · next hwalker =>
      cases hs
      obtain ⟨hstrategy, hcases⟩ := getStrategyUsingSettings_cases cfg s l
      rcases hcases with ⟨hregistered, _⟩ | ⟨_, hregistered, _⟩ | ⟨c, hfinds, hmem, hwalkerArea, hregistered, _⟩
      · exact h.mono (Finset.subset_of_eq hregistered) hstrategy
      · exact h.mono (Finset.subset_of_eq hregistered) hstrategy
      · -- the strategy that is thrown away is of the area the worker is in
        have harea := hok current hcurrent hwalker c.walkerSettings hmem hfinds
        intro a ha
        rw [currentArea, hstrategy, hcurrent, Option.map_some, harea, ← hwalkerArea]
        rw [hregistered] at ha
        rcases Finset.mem_insert.mp ha with heq | ha
        · rw [heq]
        · have heq := h a ha
          rw [currentArea, hcurrent, Option.map_some, harea, ← hwalkerArea] at heq
          exact heq
    · cases hs
      exact h
  | updateStrategy l =>
    simp only [State.step] at hs
    split at hs
    · cases hs
    next current hcurrent =>
    split at hs
    · cases hs
      exact h
    · cases hs
      have hempty := h.finish hcurrent
      have hfinish : Registered (s.finish current) := h.mono (Finset.erase_subset _ _) rfl
      apply registered_lookup hfinish
      · intro w hw hfinds
        refine ⟨hok current hcurrent w hw hfinds, fun a ha => ?_⟩
        rw [hempty] at ha
        exact absurd ha (Finset.notMem_empty a)
      · intro _ _
        exact hempty
  | checkMaxWalkersReached others =>
    simp only [State.step] at hs
    split at hs
    · cases hs
    · split at hs
      · cases hs; exact h
      · cases hs; exact h.mono (Finset.erase_subset _ _) rfl
  | noLocationLeft =>
    simp only [State.step] at hs
    split at hs
    · cases hs
    · cases hs; exact h.mono (Finset.Subset.refl _) rfl
  | setPaused paused =>
    cases hs
    exact h.mono (Finset.Subset.refl _) rfl
  | update routemanagers walkerAreas =>
    cases hs
    exact h.mono (Finset.empty_subset _) rfl
  | dropIdle areaId =>
    cases hs
    exact h.mono (Finset.erase_subset _ _) rfl

/-! ## Runs -/

/-- While the lookups are consistent, a worker that was registered nowhere before is registered in at most one
area, which is that of its current strategy. -/
theorem registered_at_most_once {cfg : Config} {s t : State} {l : List Action} (h0 : s.registered = ∅)
    (h : Run (step cfg) (Consistent cfg) s l t) :
    (∀ a ∈ t.registered, ∀ b ∈ t.registered, a = b) ∧ ∀ a ∈ t.registered, t.currentArea = some a := by
  have hinv : Registered t := by
    refine h.invariant (fun a ha => ?_) fun _ _ _ hi hok hs => hi.step hok hs
    rw [h0] at ha
    exact absurd ha (Finset.notMem_empty a)
  refine ⟨fun a ha b hb => ?_, hinv⟩
  have hab := hinv a ha
  rw [hinv b hb] at hab
  exact (Option.some.inj hab).symm

/-! ## A walker of two areas -/

/-- An area that is always to be scanned. -/
def always (areaId : Int) : SettingsWalkerarea := ⟨areaId, .countdown, none, none, none⟩

def twoAreas (devicePaused : Bool) : State where
  mapping := { walkerAreas := [always 1, always 2] }
  deviceId := true
  devicePaused
  routemanagers a := if a = 1 ∨ a = 2 then some .monMitm else none
  registered := ∅
  scanStrategy := none

def plain : Config := ⟨false, fun _ => none⟩

/-- A lookup with nothing in the way. -/
def lookup : Lookup := ⟨fun _ => ⟨0, 0, 1, 0, fun _ => true⟩, true⟩

/-- The worker scans both areas, and the first again. -/
def bothAreas : List Action :=
  [.connect lookup, .checkWalker lookup, .noLocationLeft, .updateStrategy lookup, .updateStrategy lookup]

theorem registered_at_most_once_twoAreas :
    (after (step plain) (Consistent plain) (twoAreas false) bothAreas).currentArea = some 1 :=
  (registered_at_most_once rfl (.of_after (by decide +kernel))).2 1 (by decide +kernel)

/-- A worker that was paused when it connected looks for an area when it is active again, and once more when
its scan ends: it is registered in both areas, and scans the second. -/
theorem left_behind : ¬ ∀ (cfg : Config) (s t : State) (l : List Action), s.registered = ∅ →
    Run (step cfg) Any s l t →
    (∀ a ∈ t.registered, ∀ b ∈ t.registered, a = b) ∧ ∀ a ∈ t.registered, t.currentArea = some a := by
  intro h
  have hone := (h plain (twoAreas true) _
    [.connect lookup, .setPaused false, .checkWalker lookup, .updateStrategy lookup] rfl
    (.of_after (by decide +kernel))).1 1 (by decide +kernel) 2 (by decide +kernel)
  exact absurd hone (by decide)

end State

end MapADroid.Worker
