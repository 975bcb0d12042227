import MapADroid.Lib.Dict
import MapADroid.Lib.Peeling
import MapADroid.Location

/- Clustering events into circles (`ClusteringHelper`), without S2.

   Every event of the queue has its relations: the events within twice the radius that
   are no later and not too much earlier, one for each location. The loop takes the
   most western event left, builds a circle around the middle of it and the farthest of
   its relations, and takes the events of the circle off the relations. A circle of too
   many events is built again without the farthest relation, with the distance to that
   relation as its radius.

   Events are pairs here; the code also looks for tuples of length four (the middles of
   former circles), which nothing puts into the relations. Of a middle event only the
   timestamp and the location are read.

   The loop over the relations ends in an exception where `_get_circle` finds no
   farthest relation; the `except` block lets it start over with the same relations, so
   it never ends (`none`). -/
namespace MapADroid.Clustering
open Lib

variable {K : Type} [Field K] [LinearOrder K]

/-- `Tuple[int, Location]`. -/
structure Event (K : Type) where
  timestamp : Int
  location : Location K
  deriving DecidableEq, Repr

/-- `Relation`. -/
structure Relation (K : Type) where
  otherEvent : Event K
  distance : K
  timedelta : Int
  deriving DecidableEq, Repr

/-- The relations of every event, in insertion order. -/
abbrev Relations (K : Type) := Dict (Event K) (List (Relation K))

/-- `ClusteringHelper`. -/
structure ClusteringHelper (K : Type) where
  geo : Geo K
  maxRadius : K
  maxCountPerCircle : Int
  maxTimedeltaSeconds : Int

/-- What `_get_circle` returns: the timestamp and the location of the middle event, and
the events in the circle. -/
structure Circle (K : Type) where
  timestamp : Int
  location : Location K
  events : List (Event K)
  deriving DecidableEq, Repr

/-- The window `_get_count_and_coords_in_circle_within_timedelta` widens. -/
structure Window (K : Type) where
  earliest : Int
  latest : Int
  highestTimedelta : Int := 0
  insideCircle : List (Event K) := []

namespace ClusteringHelper

variable (h : ClusteringHelper K)

/-! ## `_get_relations_in_range_within_time` -/

/-- An empty list of relations for an event that has none yet. -/
def register (relations : Relations K) (event : Event K) : Relations K :=
  if (relations.get? event).isSome then relations else relations.insert event []

/-- An event has a list as soon as it met its own location. -/
def registerAt (relations : Relations K) (event other : Event K) : Relations K :=
  if event.location = other.location then register relations event else relations

/-- One relation for each location. -/
def addRelation (relations : Relations K) (event : Event K) (relation : Relation K) : Relations K :=
  (register relations event).modify event fun related =>
    if related.any (·.otherEvent.location = relation.otherEvent.location) then related
    else related ++ [relation]

/-- The relation of `event` to `other`. -/
def relation (event other : Event K) : Relation K :=
  ⟨other, h.geo.distance event.location other.location, event.timestamp - other.timestamp⟩

/-- A relation in range and within time. -/
def Admitted (r : Relation K) : Prop :=
  (0 ≤ r.distance ∧ r.distance ≤ h.maxRadius * 2) ∧
    0 ≤ r.timedelta ∧ r.timedelta ≤ h.maxTimedeltaSeconds

instance (r : Relation K) : Decidable (h.Admitted r) := by unfold Admitted; infer_instance

/-- The inner loop: `event` meets `other`. -/
def relate (event : Event K) (relations : Relations K) (other : Event K) : Relations K :=
  if h.Admitted (h.relation event other) then
    addRelation (registerAt relations event other) event (h.relation event other)
  else registerAt relations event other

/-- `_get_relations_in_range_within_time`. -/
def getRelationsInRangeWithinTime (queue : List (Event K)) : Relations K :=
  queue.foldl (fun relations event => queue.foldl (h.relate event) relations) .empty

/-! ## `_get_circle` -/

/-- `_get_most_west_amongst_relations`: among those of one longitude the most northern. -/
def getMostWestAmongstRelations (relations : Relations K) : Option (Event K) :=
  match relations.keys with
  | [] => none
  | first :: rest => some <| (first :: rest).foldl (fun selected event =>
      if event.location.lng < selected.location.lng then event
      else if event.location.lng = selected.location.lng ∧
          selected.location.lat < event.location.lat then event
      else selected) first

/-- The loop of `_get_farthest_in_relation`. -/
def farther (best : Option (Relation K) × K) (relation : Relation K) : Option (Relation K) × K :=
  if relation.timedelta ≤ h.maxTimedeltaSeconds ∧ best.2 < relation.distance then
    (some relation, relation.distance)
  else best

/-- `_get_farthest_in_relation`; without one, its last line raises. -/
def getFarthestInRelation (toBeInspected : List (Relation K)) : Option (Event K × K) :=
  let best := toBeInspected.foldl h.farther (none, -1)
  best.1.map fun farthest => (farthest.otherEvent, best.2)

/-- The loop of `_get_count_and_coords_in_circle_within_timedelta`. -/
def inspect (middle : Location K) (maxRadius : K) (w : Window K) (event : Event K) : Window K :=
  let distance := h.geo.distance middle event.location
  let eventInRange := 0 ≤ distance ∧ distance ≤ maxRadius
  let timedeltaEnd := w.latest - event.timestamp
  let timedeltaStart := event.timestamp - w.earliest
  if timedeltaEnd < 0 ∧ eventInRange then
    let latest := w.latest + |timedeltaEnd|
    if latest - w.earliest ≤ h.maxTimedeltaSeconds then
      ⟨w.earliest, latest, w.highestTimedelta + |timedeltaEnd|, w.insideCircle ++ [event]⟩
    else w
  else if timedeltaStart < 0 ∧ eventInRange then
    let earliest := w.earliest - |timedeltaStart|
    if w.latest - earliest ≤ h.maxTimedeltaSeconds then
      ⟨earliest, w.latest, w.highestTimedelta + |timedeltaStart|, w.insideCircle ++ [event]⟩
    else w
  else if 0 ≤ timedeltaEnd ∧ 0 ≤ timedeltaStart ∧ eventInRange then
    { w with insideCircle := w.insideCircle ++ [event] }
  else w

/-- `_get_count_and_coords_in_circle_within_timedelta`. -/
def inCircleWithinTimedelta (middle : Location K) (events : List (Event K)) (earliest latest : Int)
    (maxRadius : K) : Window K :=
  events.foldl (h.inspect middle maxRadius) { earliest, latest }

/-- `_get_earliest_timestamp_in_queue`. -/
def getEarliestTimestampInQueue (first : Event K) (rest : List (Event K)) : Int :=
  (first :: rest).foldl (fun earliest item =>
    if item.timestamp < earliest then item.timestamp else earliest) first.timestamp

/-- `_get_latest_timestamp_in_queue`. -/
def getLatestTimestampInQueue (first : Event K) (rest : List (Event K)) : Int :=
  (first :: rest).foldl (fun latest item =>
    if latest < item.timestamp then item.timestamp else latest) first.timestamp

/-- The circle of `event` and the farthest of its relations, as the window it has
inspected all `events` with. -/
def window (event farthestAway : Event K) (events : List (Event K)) (maxRadius : K) : Window K :=
  h.inCircleWithinTimedelta (h.geo.middle event.location farthestAway.location) events
    (getEarliestTimestampInQueue event [farthestAway])
    (getLatestTimestampInQueue event [farthestAway]) maxRadius

/-- `_get_circle`. It calls itself with one relation less, so the number of relations is
fuel enough. -/
def getCircle (event : Event K) (events : List (Event K)) :
    Nat → List (Relation K) → K → Option (Circle K)
  | 0, toBeInspected, _ =>
    if toBeInspected.length ≤ 1 then some ⟨event.timestamp, event.location, [event]⟩ else none
  | fuel + 1, toBeInspected, maxRadius =>
    if toBeInspected.length ≤ 1 then some ⟨event.timestamp, event.location, [event]⟩
    else match h.getFarthestInRelation toBeInspected with
      | none => none
      | some (farthestAway, distanceToFarthest) =>
        let middle := h.geo.middle event.location farthestAway.location
        let w := h.window event farthestAway events maxRadius
        let countInside : Int := w.insideCircle.length
        if countInside ≤ h.maxCountPerCircle ∧ countInside = toBeInspected.length then
          some ⟨w.latest, middle, w.insideCircle⟩
        else if h.maxCountPerCircle < countInside then
          getCircle event events fuel (toBeInspected.filter (·.otherEvent ≠ farthestAway))
            distanceToFarthest
        else some ⟨w.latest, middle, w.insideCircle⟩

/-! ## `_sum_up_relations` -/

/-- `remove` on the list the loop iterates over: what is behind a removed relation moves
up, and the loop goes on with the next index. -/
def pruneFrom (event : Event K) : Nat → Nat → List (Relation K) → List (Relation K)
  | 0, _, related => related
  | fuel + 1, i, related =>
    match related[i]? with
    | none => related
    | some relation =>
      if relation.otherEvent.location = event.location then
        pruneFrom event fuel (i + 1) (related.erase relation)
      else pruneFrom event fuel (i + 1) related

/-- The relations to the location of a removed event. -/
def prune (related : List (Relation K)) (event : Event K) : List (Relation K) :=
  pruneFrom event related.length 0 related

/-- `_remove_coords_from_relations`. -/
def removeCoordsFromRelations (relations : Relations K) (eventsToBeRemoved : List (Event K)) :
    Relations K :=
  (relations.filter fun event _ => event ∉ eventsToBeRemoved).mapValues
    fun _ related => eventsToBeRemoved.foldl prune related

/-- One iteration of the loop of `_sum_up_relations`. -/
def round (relations : Relations K) : Option (Circle K × Relations K) :=
  match getMostWestAmongstRelations relations with
  | none => none
  | some westNext =>
    let toBeInspected := (relations.get? westNext).getD []
    (h.getCircle westNext relations.keys toBeInspected.length toBeInspected h.maxRadius).map
      fun circle => (circle, removeCoordsFromRelations relations circle.events)

/-- The circles `_sum_up_relations` finds, with the events it removes for each. -/
def sumUpRelations (relations : Relations K) : Option (List (Circle K)) :=
  rounds h.round (fun relations => relations.keys.isEmpty) relations.keys.length relations

/-- `get_clustered`. -/
def getClustered (queue : List (Event K)) : Option (List (Int × Location K)) :=
  (h.sumUpRelations (h.getRelationsInRangeWithinTime queue)).map fun circles =>
    circles.map fun circle => (circle.timestamp, circle.location)

end ClusteringHelper

end MapADroid.Clustering
