import MapADroid.Lib.Heapq
import MapADroid.Lib.Run
import MapADroid.PrioQueue.Spawns

/- The queue of prio events (`RoutePriorityQueue`).

   An update is two steps of the one task that updates: it retrieves and post-processes
   new coords, then merges them into the queue under the lock. Events are popped under
   the lock at any time, so between the two steps as well. A retrieval that raises, and
   stopping the task, change nothing and are not modelled.

   Entries compare by their timestamp only. Moments are whole seconds; every read of the
   clock is part of the action. -/
namespace MapADroid.PrioQueue
open Lib

variable {L : Type}

/-- `RoutePriorityQueueEntry`. -/
structure RoutePriorityQueueEntry (L : Type) where
  timestampDue : Int
  location : L
  deriving DecidableEq, Repr

/-- The order of the entries. -/
def RoutePriorityQueueEntry.lt (a b : RoutePriorityQueueEntry L) : Bool :=
  a.timestampDue < b.timestampDue

/-- `AbstractRoutePriorityQueueStrategy`; `filterQueue` is `none` where it raises. -/
structure Strategy (L : Type) where
  updateInterval : Int
  fullReplaceQueue : Bool
  maxBacklogDuration : Option Int
  delayAfterEvent : Int
  retrieveNewCoords : Int → List (RoutePriorityQueueEntry L)
  filterQueue : List (RoutePriorityQueueEntry L) → Option (List (RoutePriorityQueueEntry L))
  postprocessCoords : List (RoutePriorityQueueEntry L) → List (RoutePriorityQueueEntry L)

/-- `get_max_backlog_duration`: neither `None` nor 0 turn the limit off. -/
def Strategy.getMaxBacklogDuration (strategy : Strategy L) : Int :=
  match strategy.maxBacklogDuration with
  | none => 300
  | some n => if n ≠ 0 then n else 300

/-- `MonSpawnPrioStrategy`; `getClustered` is that of its clustering helper. -/
def monSpawnPrioStrategy (rows : List (TrsSpawn L)) (isCoordInsideIncludeGeofence : L → Bool)
    (getClustered : List (Int × L) → List (Int × L)) (maxBacklogDuration : Option Int)
    (delayAfterEvent : Int) : Strategy L where
  updateInterval := 600
  fullReplaceQueue := false
  maxBacklogDuration := maxBacklogDuration
  delayAfterEvent := delayAfterEvent
  retrieveNewCoords now :=
    (processNextToEncounter isCoordInsideIncludeGeofence (some 600) now rows).map
      fun spawn => ⟨spawn.1, spawn.2⟩
  filterQueue := some
  postprocessCoords coords :=
    (getClustered (coords.map fun entry => (entry.timestampDue, entry.location))).map
      fun event => ⟨event.1 + delayAfterEvent, event.2⟩

/-- Coords that were retrieved, when they were, and are to be merged. -/
structure Retrieval (L : Type) where
  readAt : Int
  coords : List (RoutePriorityQueueEntry L)

/-- `RoutePriorityQueue`, the update in progress, and the latest read of the clock. -/
structure State (L : Type) where
  queue : List (RoutePriorityQueueEntry L)
  retrieved : Option (Retrieval L)
  time : Int

inductive Action where
  /-- `retrieve_new_coords` and `postprocess_coords` of an update. -/
  | retrieve (now : Int)
  /-- `__merge_filter_queue` of the update. -/
  | merge (now : Int)
  /-- `pop_event`. -/
  | pop (now : Int)

/-- When the action reads the clock. -/
def Action.now : Action → Int
  | retrieve now => now
  | merge now => now
  | pop now => now

variable (strategy : Strategy L)

/-- `__merge_queues`. -/
def mergeQueues (now : Int) (oldCoords newCoords : List (RoutePriorityQueueEntry L)) :
    List (RoutePriorityQueueEntry L) :=
  (oldCoords.filter fun coord => coord.timestampDue ≤ now &&
      (strategy.getMaxBacklogDuration = 0 ||
        now - strategy.getMaxBacklogDuration < coord.timestampDue)) ++ newCoords

/-- `__merge_filter_queue`; where the filter raises, the new coords alone are left, and
not as a heap. -/
def mergeFilterQueue (now : Int) (queue postProcessedCoords : List (RoutePriorityQueueEntry L)) :
    List (RoutePriorityQueueEntry L) :=
  let merged := if strategy.fullReplaceQueue then postProcessedCoords
    else mergeQueues strategy now queue postProcessedCoords
  match strategy.filterQueue merged with
  | none => postProcessedCoords
  | some filtered => Heapq.heapify RoutePriorityQueueEntry.lt filtered

/-- `__pop_event_internal`; `none` is a `PrioQueueNoDueEntry`. -/
def popEvent (now : Int) (queue : List (RoutePriorityQueueEntry L)) :
    Option (RoutePriorityQueueEntry L) × List (RoutePriorityQueueEntry L) :=
  match queue with
  | [] => (none, queue)
  | first :: _ =>
    if now < first.timestampDue then (none, queue)
    else match Heapq.heappop RoutePriorityQueueEntry.lt queue with
      | none => (none, queue)
      | some (coord, rest) => (some coord, rest)

/-- The clock never goes back. -/
def step (s : State L) (a : Action) : Option (State L) :=
  if a.now < s.time then none
  else match a with
    | .retrieve now => match s.retrieved with
      | some _ => none
      | none =>
        let coords := strategy.postprocessCoords (strategy.retrieveNewCoords now)
        some ⟨s.queue, some ⟨now, coords⟩, now⟩
    | .merge now => match s.retrieved with
      | none => none
      | some r => some ⟨mergeFilterQueue strategy now s.queue r.coords, none, now⟩
    | .pop now => some ⟨(popEvent now s.queue).2, s.retrieved, now⟩

/-- `step` as a relation. -/
inductive Step (s : State L) : Action → State L → Prop where
  | retrieve {now : Int} (hnow : s.time ≤ now) (hnone : s.retrieved = none) :
      Step s (.retrieve now)
        ⟨s.queue, some ⟨now, strategy.postprocessCoords (strategy.retrieveNewCoords now)⟩, now⟩
  | merge {now : Int} {r : Retrieval L} (hnow : s.time ≤ now) (hsome : s.retrieved = some r) :
      Step s (.merge now) ⟨mergeFilterQueue strategy now s.queue r.coords, none, now⟩
  | pop {now : Int} (hnow : s.time ≤ now) :
      Step s (.pop now) ⟨(popEvent now s.queue).2, s.retrieved, now⟩

variable {strategy}

theorem step_some {s t : State L} {a : Action} (h : step strategy s a = some t) :
    Step strategy s a t := by
  unfold step at h
  split at h
  · cases h
  next hnow =>
  cases a with
  | retrieve now =>
    simp only at h
    split at h
    · cases h
    · next hnone =>
      cases h
      exact .retrieve (Int.not_lt.mp hnow) hnone
  | merge now =>
    simp only at h
    split at h
    · cases h
    · next hsome =>
      cases h
      exact .merge (Int.not_lt.mp hnow) hsome
  | pop now =>
    cases h
    exact .pop (Int.not_lt.mp hnow)

/-- Popping takes the event that is returned, if any. -/
theorem popEvent_perm (now : Int) (queue : List (RoutePriorityQueueEntry L)) :
    queue.Perm ((popEvent now queue).1.toList ++ (popEvent now queue).2) := by
  unfold popEvent
  split
  · exact List.Perm.refl _
  split
  · exact List.Perm.refl _
  split
  · exact List.Perm.refl _
  · next hpop => exact Heapq.heappop_perm hpop

end MapADroid.PrioQueue
