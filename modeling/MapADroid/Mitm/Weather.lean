import Mathlib.Data.Finset.Erase
import Mathlib.Data.Finset.Insert
import Mathlib.Data.Int.Order.Basic
import Mathlib.Data.List.Infix

/- The weather of an S2 cell (`DbPogoProtoSubmit._handle_weather_data`).

   An entry whose conditions have a key in the cache is not stored. The cache keeps the key
   of every state of the last while, so a state that comes back finds its own key, though
   the row has another state by then; and the clouds are not in the key. The row follows
   the game exactly if only entries are skipped that repeat the one before
   (`follows_iff`). -/
namespace MapADroid.Mitm.WeatherData

/-- `display_weather`, with `none` for a level that is not there. -/
structure DisplayWeather where
  cloudLevel : Option Int
  rainLevel : Option Int
  windLevel : Option Int
  snowLevel : Option Int
  fogLevel : Option Int
  windDirection : Option Int
  deriving DecidableEq, Repr

/-- An entry of `client_weather`, with the `gameplay_condition` of its `gameplay_weather`. -/
structure ClientWeather where
  cellId : Int
  displayWeather : Option DisplayWeather
  gameplayCondition : Int
  deriving DecidableEq, Repr

/-- The columns of a row that are taken from an entry. -/
structure Conditions where
  cloudLevel : Int
  rainLevel : Int
  windLevel : Int
  snowLevel : Int
  fogLevel : Int
  windDirection : Int
  gameplayWeather : Int
  deriving DecidableEq, Repr

/-- A row of `weather`. -/
structure Weather (K : Type) where
  latitude : K
  longitude : K
  conditions : Conditions
  warnWeather : Int
  severity : Int
  worldTime : Int
  lastUpdated : Int
  deriving DecidableEq, Repr

/-- The keys that are in the cache, and the row of the cell. -/
structure State (K : Type) where
  cache : Finset String
  row : Option (Weather K)

def conditionsOf (display : DisplayWeather) (gameplayCondition : Int) : Conditions where
  cloudLevel := display.cloudLevel.getD 0
  rainLevel := display.rainLevel.getD 0
  windLevel := display.windLevel.getD 0
  snowLevel := display.snowLevel.getD 0
  fogLevel := display.fogLevel.getD 0
  windDirection := display.windDirection.getD 0
  gameplayWeather := gameplayCondition

/-- The key of the conditions in the cache: neither the clouds nor what separates the numbers is in it. -/
def cacheKey (cellId : Int) (conditions : Conditions) : String :=
  "weather" ++ toString cellId ++ toString conditions.rainLevel ++ toString conditions.windLevel ++
    toString conditions.snowLevel ++ toString conditions.fogLevel ++ toString conditions.windDirection ++
    toString conditions.gameplayWeather

/-- What is received with an entry, and whether its nested transaction is committed; it is rolled back after
an `IntegrityError`. -/
structure Received where
  timeOfDay : Int
  timestamp : Int
  committed : Bool
  deriving DecidableEq, Repr

variable {K : Type} (middleOfCell : Int → K × K)

/-- The row with the conditions, new if there is none. -/
def updated (cellId : Int) (conditions : Conditions) (received : Received) (row : Option (Weather K)) :
    Weather K :=
  let middle := match row with
    | some weather => (weather.latitude, weather.longitude)
    | none => middleOfCell cellId
  ⟨middle.1, middle.2, conditions, 0, 0, received.timeOfDay, received.timestamp⟩

/-- `_handle_weather_data`. The key is set before the commit. -/
def handleWeatherData (s : State K) (clientWeather : ClientWeather) (received : Received) :
    State K :=
  match clientWeather.displayWeather with
  | none => s
  | some display =>
    let conditions := conditionsOf display clientWeather.gameplayCondition
    let key := cacheKey clientWeather.cellId conditions
    if key ∈ s.cache then s
    else
      { cache := insert key s.cache
        row := if received.committed then some (updated middleOfCell clientWeather.cellId conditions received s.row)
          else s.row }

/-- What happens to a cell and its cache entries. -/
inductive Event where
  | entry (displayWeather : Option DisplayWeather) (gameplayCondition : Int) (received : Received)
  | expire (key : String)
  deriving DecidableEq, Repr

def step (cellId : Int) (s : State K) : Event → State K
  | .entry displayWeather gameplayCondition received =>
    handleWeatherData middleOfCell s ⟨cellId, displayWeather, gameplayCondition⟩ received
  | .expire key => { s with cache := s.cache.erase key }

def after (cellId : Int) (s : State K) (events : List Event) : State K := events.foldl (step middleOfCell cellId) s

/-! ## The row and the entries -/

/-- The conditions of an event that is an entry with a display weather. -/
def Event.conditions : Event → Option Conditions
  | .entry (some display) gameplayCondition _ => some (conditionsOf display gameplayCondition)
  | _ => none

/-- After each entry with a display weather, the row of the cell has its conditions. -/
def Follows (cellId : Int) (s : State K) (events : List Event) : Prop :=
  ∀ pre event, pre ++ [event] <+: events → ∀ conditions ∈ event.conditions,
    (after middleOfCell cellId s (pre ++ [event])).row.map Weather.conditions = some conditions

/-- The keys in the cache, which do not depend on the row. -/
def keysAfter (cellId : Int) (keys : Finset String) (events : List Event) : Finset String :=
  events.foldl (fun keys event =>
    match event with
    | .entry (some display) gameplayCondition _ => insert (cacheKey cellId (conditionsOf display gameplayCondition)) keys
    | .entry none _ _ => keys
    | .expire key => keys.erase key) keys

/-- The conditions of the last entry that has any, or those there were before. -/
def lastConditions (conditions : Option Conditions) (events : List Event) : Option Conditions :=
  events.foldl (fun conditions event => event.conditions.or conditions) conditions

/-- An entry is not stored: its key is in the cache, or the transaction is rolled back. -/
def NotStored (cellId : Int) (keys : Finset String) : Event → Prop
  | .entry (some display) gameplayCondition received =>
    cacheKey cellId (conditionsOf display gameplayCondition) ∈ keys ∨ received.committed = false
  | _ => False

variable {middleOfCell} {cellId : Int} {s : State K} {pre : List Event} {event : Event} {events : List Event}

@[simp] theorem after_concat : after middleOfCell cellId s (pre ++ [event]) =
    step middleOfCell cellId (after middleOfCell cellId s pre) event := List.foldl_concat ..

theorem cache_after (middleOfCell : Int → K × K) (cellId : Int) (s : State K) (events : List Event) :
    (after middleOfCell cellId s events).cache = keysAfter cellId s.cache events := by
  induction events using List.reverseRecOn with
  | nil => rfl
  | append_singleton events event ih =>
    rw [after_concat, keysAfter, List.foldl_concat, ← keysAfter, ← ih]
    cases event with
    | expire key => rfl
    | entry displayWeather gameplayCondition received =>
      cases displayWeather with
      | none => rfl
      | some display =>
        simp only [step, handleWeatherData]
        split
        · next h => exact (Finset.insert_eq_self.mpr h).symm
        · rfl

/-- What is not stored leaves the row; what is stored gives it its conditions. -/
theorem row_step {conditions : Conditions} (h : event.conditions = some conditions) (s : State K) :
    (NotStored cellId s.cache event → (step middleOfCell cellId s event).row = s.row) ∧
      (¬ NotStored cellId s.cache event →
        (step middleOfCell cellId s event).row.map Weather.conditions = some conditions) := by
  cases event with
  | expire key => cases h
  | entry displayWeather gameplayCondition received =>
    cases displayWeather with
    | none => cases h
    | some display =>
      obtain rfl := Option.some.inj h
      simp only [step, handleWeatherData, NotStored]
      by_cases hkey : cacheKey cellId (conditionsOf display gameplayCondition) ∈ s.cache
      · simp [hkey]
      · cases hcommitted : received.committed with
        | true => simp [hkey, updated]
        | false => simp [hkey]

theorem row_step_of_none (h : event.conditions = none) (s : State K) : (step middleOfCell cellId s event).row = s.row := by
  cases event with
  | expire key => rfl
  | entry displayWeather gameplayCondition received =>
    cases displayWeather with
    | none => rfl
    | some display => cases h

theorem Follows.front (h : Follows middleOfCell cellId s events) {front : List Event} (hfront : front <+: events) :
    Follows middleOfCell cellId s front :=
  fun pre event hpre => h pre event (hpre.trans hfront)

/-- As long as the row follows, it has the conditions of the last entry. -/
theorem Follows.row (h : Follows middleOfCell cellId s events) :
    (after middleOfCell cellId s events).row.map Weather.conditions =
      lastConditions (s.row.map Weather.conditions) events := by
  induction events using List.reverseRecOn with
  | nil => rfl
  | append_singleton events event ih =>
    rw [lastConditions, List.foldl_concat, ← lastConditions]
    cases hconditions : event.conditions with
    | some conditions =>
      rw [h events event List.prefix_rfl conditions hconditions]
      rfl
    | none =>
      rw [after_concat, row_step_of_none hconditions, ih (h.front (List.prefix_append _ _))]
      rfl

/-- The row follows the game exactly if every entry that is not stored repeats the conditions of the entry
before it (or of the row there was at first). -/
theorem follows_iff (middleOfCell : Int → K × K) (cellId : Int) (s : State K) (events : List Event) :
    Follows middleOfCell cellId s events ↔
      ∀ pre event, pre ++ [event] <+: events → ∀ conditions ∈ event.conditions,
        NotStored cellId (keysAfter cellId s.cache pre) event →
          lastConditions (s.row.map Weather.conditions) pre = some conditions := by
  constructor
  · intro h pre event hpre conditions hconditions hnot
    rw [← cache_after middleOfCell] at hnot
    have hrow := h pre event hpre conditions hconditions
    rw [after_concat, (row_step hconditions _).1 hnot] at hrow
    rw [← (h.front ((List.prefix_append pre [event]).trans hpre)).row, hrow]
  · intro h
    -- By induction on the run: so far the row has the conditions of the last entry.
    induction events using List.reverseRecOn with
    | nil =>
      intro pre event hpre
      simp at hpre
    | append_singleton events last ih =>
      have hfollows : Follows middleOfCell cellId s events :=
        ih fun pre event hpre => h pre event (hpre.trans (List.prefix_append _ _))
      intro pre event hpre conditions hconditions
      rcases List.prefix_concat_iff.mp hpre with heq | hpre
      · obtain ⟨rfl, hevent⟩ := List.append_inj' heq rfl
        obtain rfl := (List.cons.inj hevent).1
        rw [after_concat]
        by_cases hnot : NotStored cellId (after middleOfCell cellId s pre).cache event
        · rw [(row_step hconditions _).1 hnot, hfollows.row]
          rw [cache_after] at hnot
          exact h pre event List.prefix_rfl conditions hconditions hnot
        · exact (row_step hconditions _).2 hnot
      · exact hfollows pre event hpre conditions hconditions

/-! ## Weather that comes back -/

/-- An entry with a rain level. -/
def raining (level : Int) : Event :=
  .entry (some ⟨some 1, some level, none, none, none, none⟩) 1 ⟨1, 0, true⟩

/-- It starts to rain and stops again. -/
theorem not_follows_back : ¬ Follows (K := Int) (fun _ => (0, 0)) 7 ⟨∅, none⟩ [raining 0, raining 2, raining 0] := by
  intro h
  have hrow := h [raining 0, raining 2] (raining 0) List.prefix_rfl _ rfl
  revert hrow
  decide +kernel

end MapADroid.Mitm.WeatherData
