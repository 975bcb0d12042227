import MapADroid.Lib.Dict
import MapADroid.Lib.Sql
import MapADroid.Geofence.Helper

/- Looking up stops in the database (`PokestopHelper`).

   The tables are lists of rows, in the order in which the database returns rows that it
   is not told to sort. `path` is what `matplotlib` makes of polygons and points, `sqrt` is
   that of the database, and `utcoffsetAt` is the time zone of a place: the seconds its clock
   is ahead of UTC at an instant. It is `none` where the place has no time zone, for which
   an exception is raised. Instants are in seconds since the epoch. -/
namespace MapADroid.Pokestops
open Lib Lib.Sql Geofence

variable {K : Type}

/-- The columns of `Pokestop` that are looked at. -/
structure Pokestop (K : Type) where
  pokestopId : String
  latitude : K
  longitude : K
  deriving DecidableEq

/-- The columns of `TrsQuest` that are looked at. -/
structure TrsQuest where
  guid : String
  layer : Int
  questTimestamp : Int

structure TrsVisited where
  pokestopId : String
  username : String

def Pokestop.coord (stop : Pokestop K) : Coord K := ⟨stop.latitude, stop.longitude⟩

def inBox [LinearOrder K] (box : Box K) (stop : Pokestop K) : Truth := some (box.Holds stop.coord)

section
variable [Field K] [LinearOrder K] (fence : GeofenceHelper K) (path : List (Coord K) → Coord K → Bool)

/-! ## Stops with and without quests -/

/-- The condition on the quest. -/
def questCondition (withoutQuests : Bool) (midnight : Int) (quest : Option TrsQuest) : Truth :=
  if withoutQuests then
    (compares (fun timestamp => timestamp < midnight) (quest.map TrsQuest.questTimestamp)).or
      (isNull (quest.map TrsQuest.guid))
  else
    (compares (fun timestamp => midnight ≤ timestamp) (quest.map TrsQuest.questTimestamp)).or
      (isNotNull (quest.map TrsQuest.guid))

def questRows (stops : List (Pokestop K)) (quests : List TrsQuest) (layer : Int) (withoutQuests : Bool) (midnight : Int) :
    List (Pokestop K × Option TrsQuest) :=
  select (fun row => (questCondition withoutQuests midnight row.2).and (inBox fence.getPolygonFromFence row.1))
    (join withoutQuests (fun stop quest => some (quest.guid = stop.pokestopId ∧ quest.layer = layer)) stops quests)

/-- A row that the loop goes past. -/
def skips (layer : Int) (withoutQuests : Bool) (midnight : Int) : Option TrsQuest → Bool
  | none => false
  | some quest => quest.layer ≠ layer || (withoutQuests && midnight ≤ quest.questTimestamp) ||
      (!withoutQuests && quest.questTimestamp < midnight)

/-- `tm_now.replace(hour=0, ..)`: the `tzinfo` of `tm_now` stays, and with it the offset of that instant. -/
def timezoneMidnight (utcoffset : Int → Int) (now : Int) : Int :=
  (now + utcoffset now) / 86400 * 86400 - utcoffset now

/-- One turn of the loop over the rows. -/
def keepStop (skip : Option TrsQuest → Bool) (stops : Dict String (Pokestop K)) (row : Pokestop K × Option TrsQuest) :
    Option (Dict String (Pokestop K)) :=
  if skip row.2 then some stops
  else do
    if ← fence.isCoordInsideIncludeGeofence path .floats row.1.coord then some (stops.insert row.1.pokestopId row.1)
    else some stops

/-- `get_stops_with_or_without_quests_exclusive`, at the instant `now`. -/
def getStopsWithOrWithoutQuestsExclusive (utcoffsetAt : Location K → Option (Int → Int)) (now : Int)
    (stops : List (Pokestop K)) (quests : List TrsQuest) (layer : Int) (withoutQuests : Bool) :
    Option (Dict String (Pokestop K)) := do
  let utcoffset ← utcoffsetAt fence.getMiddleFromFence
  let midnight := timezoneMidnight utcoffset now
  (questRows fence stops quests layer withoutQuests midnight).foldlM
    (keepStop fence path (skips layer withoutQuests midnight)) Dict.empty

/-! ## Stops nearby -/

/-- The arguments of `get_nearby_increasing_range_within_area` that do not change. -/
structure Request where
  username : String
  limit : Nat
  ignoreSpun : Bool

/-- What the loop changes. -/
structure Search (K : Type) where
  iteration : Nat
  stopsRetrieved : List (Pokestop K)
  location : Location K
  maxDistance : K

/-- `func.sqrt(func.pow(69.1 * ..) + func.pow(69.1 * ..))`. -/
def distance (sqrt : K → K) (location : Location K) (stop : Pokestop K) : K :=
  sqrt ((691 / 10 * (stop.latitude - location.lat)) ^ 2 + (691 / 10 * (location.lng - stop.longitude)) ^ 2)

/-- The query of one iteration. -/
def nearbyRows (sqrt : K → K) (request : Request) (stops : List (Pokestop K)) (visited : List TrsVisited)
    (location : Location K) (maxDistance : K) : List (Pokestop K) :=
  let within := fun row : Pokestop K × Option TrsVisited =>
    (inBox fence.getPolygonFromFence row.1).and (some (distance sqrt location row.1 ≤ maxDistance))
  let condition := fun row =>
    if request.ignoreSpun then (isNull (row.2.map TrsVisited.username)).and (within row) else within row
  let rows := select condition (join true
    (fun stop visit => some (stop.pokestopId = visit.pokestopId ∧ visit.username = request.username)) stops visited)
  let rows := orderBy (fun row => distance sqrt location row.1) rows
  (if 0 < request.limit then rows.take request.limit else rows).map Prod.fst

/-- The loop over the rows. -/
def keepInside : List (Pokestop K) → Option (List (Pokestop K))
  | [] => some []
  | stop :: rows => do
    let inside ← fence.isCoordInsideIncludeGeofence path .row stop.coord
    let stopsRetrieved ← keepInside rows
    some (if inside then stop :: stopsRetrieved else stopsRetrieved)

/-- One iteration of the `while`. -/
def Search.next (sqrt : K → K) (request : Request) (stops : List (Pokestop K)) (visited : List TrsVisited)
    (s : Search K) : Option (Search K) := do
  let iteration := s.iteration + 1
  let stopsRetrieved ← keepInside fence path (nearbyRows fence sqrt request stops visited s.location s.maxDistance)
  if stopsRetrieved.length = 0 ∨ 0 < request.limit ∧ stopsRetrieved.length ≤ request.limit then
    if 7 ≤ iteration then some ⟨iteration, stopsRetrieved, fence.getMiddleFromFence, s.maxDistance⟩
    else some ⟨iteration, stopsRetrieved, s.location, s.maxDistance + 3⟩
  else some ⟨iteration, stopsRetrieved, s.location, s.maxDistance + (2 : ℕ)⟩

/-- The condition of the `while`. -/
def Search.GoesOn (request : Request) (s : Search K) : Prop :=
  (0 < request.limit ∧ s.stopsRetrieved.length < request.limit) ∧ s.iteration < 10

instance (request : Request) (s : Search K) : Decidable (s.GoesOn request) := inferInstanceAs (Decidable (_ ∧ _))

theorem Search.next_iteration {fence : GeofenceHelper K} {path : List (Coord K) → Coord K → Bool} {sqrt : K → K}
    {request : Request} {stops : List (Pokestop K)} {visited : List TrsVisited} {s next : Search K}
    (h : s.next fence path sqrt request stops visited = some next) : next.iteration = s.iteration + 1 := by
  obtain ⟨stopsRetrieved, _, h⟩ := Option.bind_eq_some_iff.mp h
  split at h
  · split at h
    · rw [← Option.some.inj h]
    · rw [← Option.some.inj h]
  · rw [← Option.some.inj h]

/-- The `while`: the state it starts with and the ones after its iterations; `none` where an exception is
raised. -/
def Search.run (sqrt : K → K) (request : Request) (stops : List (Pokestop K)) (visited : List TrsVisited)
    (s : Search K) : Option (List (Search K)) :=
  if _hgoes : s.GoesOn request then
    match _hnext : s.next fence path sqrt request stops visited with
    | none => none
    | some next => (Search.run sqrt request stops visited next).map (s :: ·)
  else some [s]
termination_by 10 - s.iteration
decreasing_by
  have hiteration := Search.next_iteration _hnext
  have hbound := _hgoes.2
  omega

/-- `get_nearby_increasing_range_within_area`. -/
def getNearbyIncreasingRangeWithinArea (sqrt : K → K) (request : Request) (stops : List (Pokestop K))
    (visited : List TrsVisited) (location : Location K) (maxDistance : K) : Option (List (Pokestop K)) := do
  let searches ← Search.run fence path sqrt request stops visited ⟨0, [], location, maxDistance⟩
  let last ← searches.getLast?
  some last.stopsRetrieved

end

end MapADroid.Pokestops
