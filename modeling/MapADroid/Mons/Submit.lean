import MapADroid.Lib.Run
import MapADroid.Location
import MapADroid.Stats.SeenTypes
import Mathlib.Logic.Function.Basic

/- `DbPogoProtoSubmit`: what the protos that show a mon write to its row.

   A mon is seen in the wild (`mons`), nearby a fort or in a cell (`mons_nearby`), at a
   lure (`mon_lure_noiv`), and in an encounter (`mon_iv`), which alone tells its IVs. A
   ditto shows the mon it is disguised as; only the IVs of an encounter give it away.

   One sighting is one pass through the loop of its writer; the loops are folds over the
   sightings of a map proto. What the writers ask of others comes with each sighting:
   when the mon disappears, the clock, the fort, and whether the commit goes through. -/
namespace MapADroid.Mons
open Lib Stats

/-- What a mon is. -/
structure Identity where
  pokemonId : Int
  gender : Option Int
  form : Option Int
  deriving DecidableEq

/-- The columns only an encounter fills. -/
structure Ivs where
  individualAttack : Option Int := none
  individualDefense : Option Int := none
  individualStamina : Option Int := none
  move1 : Option Int := none
  move2 : Option Int := none
  cp : Option Int := none
  cpMultiplier : Option ℚ := none
  weight : Option ℚ := none
  height : Option ℚ := none
  catchProb1 : Option ℚ := none
  catchProb2 : Option ℚ := none
  catchProb3 : Option ℚ := none
  ratingAttack : Option String := none
  ratingDefense : Option String := none
  size : Option Int := none
  deriving DecidableEq

/-- A row of `pokemon`. -/
structure Pokemon where
  encounterId : Int
  spawnpointId : Int
  identity : Identity
  costume : Option Int
  location : Location ℚ
  disappearTime : ℚ
  ivs : Ivs := {}
  weatherBoostedCondition : Option Int
  lastModified : ℚ
  fortId : Option String := none
  cellId : Option Int := none
  seenType : MonSeenTypes
  deriving DecidableEq

/-- A row of `pokemon_display`: the disguise of a ditto. -/
structure PokemonDisplay where
  identity : Identity
  costume : Option Int
  deriving DecidableEq

/-- The keys of the cache, each of which says that a sighting was written lately. -/
inductive CacheKey where
  | mon (encounterId monId : Int)
  | monnear (encounterId monId : Int)
  | moniv (encounterId : Int) (weatherBoosted : Option Int) (monId : Int)
  | monlurenoiv (encounterId : Int)
  deriving DecidableEq

/-- The tables, by encounter id, and the keys in the cache. -/
structure Store where
  pokemon : Int → Option Pokemon
  pokemonDisplay : Int → Option PokemonDisplay
  cache : CacheKey → Bool

/-- The arguments, and `S2Helper.get_position_from_cell`. -/
structure Config where
  defaultNearbyTimeleft : Int
  disableNearbyCell : Bool
  positionFromCell : Int → Location ℚ

/-- What a writer is told while it processes a sighting. -/
structure Outcome where
  /-- `gen_despawn_timestamp`. -/
  despawnTimeUnix : Int
  clock : Int
  /-- The stop or gym with the id of a nearby sighting. -/
  fort : Option (Location ℚ)
  /-- No `IntegrityError`. -/
  committed : Bool

/-- Encounter ids are unsigned. -/
def unsigned (encounterId : Int) : Int := if encounterId < 0 then encounterId + 2 ^ 64 else encounterId

namespace Store

def put (s : Store) (id : Int) (row : Pokemon) : Store := { s with pokemon := Function.update s.pokemon id (some row) }

/-- Set a key of the cache, if it has any time left. -/
def remember (s : Store) (key : CacheKey) (cacheTime : Int) : Store :=
  if cacheTime > 0 then { s with cache := Function.update s.cache key true } else s

@[simp] theorem put_pokemon (s : Store) (id : Int) (row : Pokemon) :
    (s.put id row).pokemon = Function.update s.pokemon id (some row) := rfl

@[simp] theorem remember_pokemon (s : Store) (key : CacheKey) (cacheTime : Int) :
    (s.remember key cacheTime).pokemon = s.pokemon := by
  unfold remember
  split
  · rfl
  · rfl

end Store

/-! ## Sightings -/

/-- The display of a mon that is seen. -/
structure Display where
  genderValue : Int
  costumeValue : Int
  formValue : Int
  weatherBoostedValue : Int
  deriving DecidableEq

/-- Who a sighting says the mon is; a ditto that shows itself has no form. -/
def shownIdentity (monId : Int) (display : Display) : Identity :=
  if monId = 132 then ⟨132, some 3, some 0⟩ else ⟨monId, some display.genderValue, some display.formValue⟩

def shownCostume (monId : Int) (display : Display) : Option Int :=
  if monId = 132 then some 0 else some display.costumeValue

/-- An entry of `wild_pokemon` in a cell. -/
structure WildMon where
  spawnpointId : Int
  location : Location ℚ
  id : Int
  encounterId : Int
  display : Display

/-- The row `mons` writes over what is in the table. -/
def wildRow (old : Option Pokemon) (timestamp : ℚ) (o : Outcome) (wild : WildMon) : Pokemon :=
  match old with
  | none =>
    { encounterId := unsigned wild.encounterId, spawnpointId := wild.spawnpointId, location := wild.location
      identity := shownIdentity wild.id wild.display, costume := shownCostume wild.id wild.display
      seenType := .wild, disappearTime := o.despawnTimeUnix
      weatherBoostedCondition := some wild.display.weatherBoostedValue, lastModified := timestamp }
  | some mon =>
    { mon with
      identity := shownIdentity wild.id wild.display, costume := shownCostume wild.id wild.display
      seenType := if mon.seenType ∈ [.encounter, .lureEncounter] then mon.seenType else .wild
      disappearTime := o.despawnTimeUnix
      weatherBoostedCondition := some wild.display.weatherBoostedValue, lastModified := timestamp }

/-- The sighting is processed: it is not in the cache. -/
def Store.wildNew (s : Store) (wild : WildMon) : Prop :=
  s.cache (.mon (unsigned wild.encounterId) wild.id) = false

instance (s : Store) (wild : WildMon) : Decidable (s.wildNew wild) := inferInstanceAs (Decidable (_ = _))

/-- A pass of `mons`. -/
def Store.wildMon (s : Store) (timestamp : ℚ) (o : Outcome) (wild : WildMon) : Store :=
  let id := unsigned wild.encounterId
  if s.wildNew wild then
    if o.committed then
      (s.put id (wildRow (s.pokemon id) timestamp o wild)).remember (.mon id wild.id) (o.despawnTimeUnix - o.clock)
    else s
  else s

/-- `mons`, of the wild mons of each cell: also the encounter ids seen. -/
def Store.mons (s : Store) (timestamp : ℚ) (cells : List (List (WildMon × Outcome))) : Store × List Int :=
  cells.foldl
    (fun p cell => cell.foldl (fun p x => (p.1.wildMon timestamp x.2 x.1, p.2 ++ [unsigned x.1.encounterId])) p) (s, [])

/-- An entry of `nearby_pokemon` in a cell. -/
structure NearbyMon where
  id : Int
  encounterId : Int
  fortId : Option String
  display : Display

/-- The sighting is of a cell and not of a fort. -/
def inCell (cfg : Config) (cellId : Option Int) (nearby : NearbyMon) : Bool :=
  !cfg.disableNearbyCell && nearby.fortId.getD "" = "" && cellId.getD 0 ≠ 0

/-- The row of a mon that is seen nearby first. -/
def nearbyNew (cfg : Config) (timestamp : ℚ) (cellId : Option Int) (o : Outcome) (nearby : NearbyMon) : Pokemon :=
  let cell := inCell cfg cellId nearby
  { encounterId := unsigned nearby.encounterId, spawnpointId := 0
    location := if cell then cfg.positionFromCell (cellId.getD 0) else o.fort.getD ⟨0, 0⟩
    cellId := if cell then cellId else none
    fortId := if cell then none else nearby.fortId
    seenType := if cell then .nearbyCell else .nearbyStop
    disappearTime := timestamp + cfg.defaultNearbyTimeleft * 60
    identity := shownIdentity nearby.id nearby.display, costume := shownCostume nearby.id nearby.display
    weatherBoostedCondition := some nearby.display.weatherBoostedValue, lastModified := timestamp }

/-- The row `mons_nearby` writes over what is in the table. -/
def nearbyRow (cfg : Config) (old : Option Pokemon) (timestamp : ℚ) (cellId : Option Int) (o : Outcome)
    (nearby : NearbyMon) : Pokemon :=
  match old with
  | none => nearbyNew cfg timestamp cellId o nearby
  | some mon =>
    { mon with
      identity := shownIdentity nearby.id nearby.display, costume := shownCostume nearby.id nearby.display
      weatherBoostedCondition := some nearby.display.weatherBoostedValue, lastModified := timestamp }

/-- Neither this sighting, nor one in the wild, nor an encounter is in the cache. -/
def Store.nearbyNew (s : Store) (nearby : NearbyMon) : Prop :=
  let id := unsigned nearby.encounterId
  s.cache (.mon id nearby.id) = false ∧
    s.cache (.moniv id (some nearby.display.weatherBoostedValue) nearby.id) = false ∧
    s.cache (.monnear id nearby.id) = false

instance (s : Store) (nearby : NearbyMon) : Decidable (s.nearbyNew nearby) := inferInstanceAs (Decidable (_ ∧ _))

/-- A pass of `mons_nearby`. -/
def Store.nearbyMon (cfg : Config) (s : Store) (timestamp : ℚ) (cellId : Option Int) (o : Outcome)
    (nearby : NearbyMon) : Store :=
  let id := unsigned nearby.encounterId
  if s.nearbyNew nearby then
    if o.committed then
      (s.put id (nearbyRow cfg (s.pokemon id) timestamp cellId o nearby)).remember (.monnear id nearby.id)
        (cfg.defaultNearbyTimeleft * 60)
    else s
  else s

/-- `mons_nearby`, of the ids and the nearby mons of the cells: also the encounter ids seen in cells and at
forts, where not in the cache. -/
def Store.monsNearby (cfg : Config) (s : Store) (timestamp : ℚ)
    (cells : List (Option Int × List (NearbyMon × Outcome))) : Store × List Int × List Int :=
  cells.foldl
    (fun p cell => cell.2.foldl
      (fun p x =>
        let id := unsigned x.1.encounterId
        let inCell := inCell cfg cell.1 x.1
        (p.1.nearbyMon cfg timestamp cell.1 x.2 x.1,
          if p.1.nearbyNew x.1 ∧ inCell then p.2.1 ++ [id] else p.2.1,
          if p.1.nearbyNew x.1 ∧ ¬ inCell then p.2.2 ++ [id] else p.2.2)) p)
    (s, [], [])

/-- `active_pokemon` of a fort. -/
structure LureMon where
  id : Int
  encounterId : Int
  expirationTimestamp : ℚ
  display : Display

structure Fort where
  type : Int
  id : String
  location : Location ℚ
  activePokemon : Option LureMon

/-- The mon at a lure. -/
def Fort.lureMon (fort : Fort) : Option LureMon := fort.activePokemon.filter fun lure => fort.type = 1 ∧ lure.id > 0

/-- The row `mon_lure_noiv` writes over what is in the table. -/
def lureRow (old : Option Pokemon) (timestamp : ℚ) (fort : Fort) (lure : LureMon) : Pokemon :=
  match old with
  | none =>
    { encounterId := unsigned lure.encounterId, spawnpointId := 0, seenType := .lureWild
      identity := ⟨lure.id, some lure.display.genderValue, some lure.display.formValue⟩
      costume := some lure.display.costumeValue
      weatherBoostedCondition := some lure.display.weatherBoostedValue
      location := fort.location, disappearTime := lure.expirationTimestamp / 1000, fortId := some fort.id
      lastModified := timestamp }
  | some mon =>
    { mon with
      location := fort.location, disappearTime := lure.expirationTimestamp / 1000, fortId := some fort.id
      lastModified := timestamp }

/-- A pass of `mon_lure_noiv`. -/
def Store.lureFort (s : Store) (timestamp : ℚ) (o : Outcome) (fort : Fort) : Store :=
  match fort.lureMon with
  | none => s
  | some lure =>
    let id := unsigned lure.encounterId
    if s.cache (.monlurenoiv id) then s
    else if o.committed then (s.put id (lureRow (s.pokemon id) timestamp fort lure)).remember (.monlurenoiv id) 180
    else s

/-- `mon_lure_noiv`, of the forts of each cell: also the encounter ids seen. -/
def Store.monLureNoiv (s : Store) (timestamp : ℚ) (cells : List (List (Fort × Outcome))) : Store × List Int :=
  cells.foldl
    (fun p cell => cell.foldl
      (fun p x =>
        (p.1.lureFort timestamp x.2 x.1, p.2 ++ (x.1.lureMon.toList.map fun lure => unsigned lure.encounterId))) p)
    (s, [])

/-! ## Encounters -/

/-- The display of a mon that is encountered. -/
structure EncounterDisplay where
  genderValue : Option Int
  costumeValue : Option Int
  formValue : Option Int
  weatherBoostedValue : Option Int
  isShiny : Int := 0
  deriving DecidableEq

structure PokemonData where
  id : Int
  display : EncounterDisplay
  individualAttack : Int
  individualDefense : Int
  individualStamina : Int
  cpMultiplier : ℚ
  move1 : Option Int
  move2 : Option Int
  cp : Option Int
  weight : Option ℚ
  height : Option ℚ
  size : Option Int

/-- `wild_pokemon` of an encounter; the spawn point is `none` where its text is empty. -/
structure EncounteredMon where
  encounterId : Int
  spawnpointId : Option Int
  location : Location ℚ
  pokemonData : PokemonData

structure EncounterProto where
  wildPokemon : Option EncounteredMon
  captureProbabilityList : Option (List ℚ)

/-- The double nearest to 0.3. -/
def cpMultiplierLow : ℚ := 5404319552844595 / 18014398509481984

/-- The double nearest to 0.733. -/
def cpMultiplierHigh : ℚ := 6602277053725147 / 9007199254740992

/-- IVs or a level that the mon shown cannot have in this weather. -/
def isMonDitto (d : PokemonData) : Bool :=
  let validBoostAttrs := d.individualAttack < 4 || d.individualDefense < 4 || d.individualStamina < 4 ||
    d.cpMultiplier < cpMultiplierLow
  match d.display.weatherBoostedValue with
  | none => false
  | some weatherBoost =>
    if weatherBoost > 0 ∧ validBoostAttrs then true
    else if weatherBoost = 0 ∧ d.cpMultiplier > cpMultiplierHigh then true
    else false

/-- The identity and the moves of `_extract_data_or_set_ditto`. -/
def extractDataOrSetDitto (d : PokemonData) : Identity × Option Int × Option Int :=
  if isMonDitto d then (⟨132, some 3, some 0⟩, some 242, some 133)
  else (⟨d.id, d.display.genderValue, d.display.formValue⟩, d.move1, d.move2)

/-- The row `mon_iv` writes over what is in the table. -/
def ivRow (old : Option Pokemon) (timestamp : ℚ) (o : Outcome) (wild : EncounteredMon) (spawnpointId : Int)
    (prob1 prob2 prob3 : ℚ) : Pokemon :=
  let d := wild.pokemonData
  let (identity, move1, move2) := extractDataOrSetDitto d
  { encounterId := unsigned wild.encounterId, spawnpointId, identity, costume := d.display.costumeValue
    location := wild.location, disappearTime := o.despawnTimeUnix
    ivs :=
      { individualAttack := some d.individualAttack, individualDefense := some d.individualDefense
        individualStamina := some d.individualStamina, move1, move2, cp := d.cp, cpMultiplier := some d.cpMultiplier
        weight := d.weight, height := d.height, catchProb1 := some prob1, catchProb2 := some prob2
        catchProb3 := some prob3, ratingAttack := none, ratingDefense := none, size := d.size }
    weatherBoostedCondition := d.display.weatherBoostedValue, lastModified := timestamp
    fortId := old.bind (·.fortId), cellId := none, seenType := .encounter }

/-- The disguise of a ditto, kept as it was first seen. -/
def Store.maybeSaveDitto (s : Store) (id monId : Int) (d : PokemonData) : Store :=
  if monId = 132 ∧ s.pokemonDisplay id = none then
    let shown : PokemonDisplay := ⟨⟨d.id, d.display.genderValue, d.display.formValue⟩, d.display.costumeValue⟩
    { s with pokemonDisplay := Function.update s.pokemonDisplay id (some shown) }
  else s

@[simp] theorem Store.maybeSaveDitto_pokemon (s : Store) (id monId : Int) (d : PokemonData) :
    (s.maybeSaveDitto id monId d).pokemon = s.pokemon := by
  unfold Store.maybeSaveDitto
  split
  · rfl
  · rfl

/-- The encounter and the row `mon_iv` writes, if it writes one: the proto is of use and not in the cache, the
probabilities can be read, and the commit goes through. -/
def Store.encountered (s : Store) (timestamp : ℚ) (o : Outcome) (proto : EncounterProto) :
    Option (EncounteredMon × Pokemon) :=
  match proto.wildPokemon with
  | none => none
  | some wild =>
    if wild.encounterId = 0 then none
    else
      let id := unsigned wild.encounterId
      match wild.spawnpointId with
      | none => none
      | some spawnpointId =>
        if s.cache (.moniv id wild.pokemonData.display.weatherBoostedValue wild.pokemonData.id) then none
        else
          match proto.captureProbabilityList with
          | some (prob1 :: prob2 :: prob3 :: _) =>
            if o.committed then some (wild, ivRow (s.pokemon id) timestamp o wild spawnpointId prob1 prob2 prob3)
            else none
          | _ => none

/-- `mon_iv`: also the encounter id and whether the mon is shiny. -/
def Store.monIv (s : Store) (timestamp : ℚ) (o : Outcome) (proto : EncounterProto) : Store × Option (Int × Bool) :=
  match s.encountered timestamp o proto with
  | none => (s, none)
  | some (wild, row) =>
    let id := unsigned wild.encounterId
    let d := wild.pokemonData
    (((s.put id row).maybeSaveDitto id row.identity.pokemonId d).remember
        (.moniv id d.display.weatherBoostedValue d.id) (o.despawnTimeUnix - o.clock),
      some (id, d.display.isShiny = 1))

end MapADroid.Mons
