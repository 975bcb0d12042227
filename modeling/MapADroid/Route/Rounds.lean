import MapADroid.Lib.Trace
import MapADroid.Route.Invariant

/- The rounds of a worker on a normal route (mon and raids, without prio events).

   A worker is meant to be served its subroute over and over: its queue is served from
   the front and is filled with the subroute once it is empty (`QueueStep`); a round is
   what is served from one exhaustion of the queue to the next (`Rounds`).

   A call that finds the queue empty does not do that: it has the routepool updated, which
   fills the queue, and then serves the first location from the entry it found at the
   beginning, which is in no routepool any more, so that the next call serves it again
   (`first_location_twice`). Queues that are filled by the update of another worker are
   served as they should, as long as no call of the worker and no update overlap
   (`rounds_exact`). -/
namespace MapADroid.Route
open Lib

variable {K : Type}

/-! ## The queue of a worker -/

/-- What happens to a worker. -/
inductive QueueEvent (K : Type) where
  /-- A call returns this. -/
  | returned (location : Option (Location K))
  /-- Its queue has become empty. -/
  | exhausted
  deriving DecidableEq

def isExhausted : QueueEvent K → Bool
  | .exhausted => true
  | _ => false

/-- The calls that serve a list of locations. -/
def served (locations : List (Location K)) : List (QueueEvent K) :=
  locations.map fun location => .returned (some location)

/-- Since the start, and between any two exhaustions, the locations of the subroute are
served in order, and all of them by the next exhaustion. -/
def Rounds (subroute : List (Location K)) (es : List (QueueEvent K)) : Prop :=
  Segmented isExhausted (fun seg => seg <+: served subroute) (fun seg => seg = served subroute)
    (.exhausted :: es)

/-- What is meant to happen to a queue, and what happens to the worker then. -/
inductive QueueStep (subroute : List (Location K)) :
    List (Location K) → List (QueueEvent K) → List (Location K) → Prop where
  | stay (queue : List (Location K)) : QueueStep subroute queue [] queue
  | fill : QueueStep subroute [] [] subroute
  | serve (location : Location K) {queue : List (Location K)} (hne : queue ≠ []) :
      QueueStep subroute (location :: queue) [.returned (some location)] queue
  | serveLast (location : Location K) :
      QueueStep subroute [location] [.returned (some location), .exhausted] []

/-- The record of a worker with this queue: what is left of the round is in the queue. -/
structure Stands (subroute queue : List (Location K)) (es : List (QueueEvent K)) : Prop where
  rounds : Rounds subroute es
  now : ∃ round, since isExhausted (.exhausted :: es) = served round ∧
    (queue = [] → round = []) ∧ (queue ≠ [] → round ++ queue = subroute)

namespace Stands

variable {subroute queue queue' : List (Location K)} {es es' : List (QueueEvent K)}

theorem start (subroute : List (Location K)) : Stands subroute subroute [] := by
  refine ⟨Segmented.start _ (List.nil_prefix), [], ?_, fun _ => rfl, fun _ => rfl⟩
  show since isExhausted ([] ++ [.exhausted]) = []
  exact since_mark rfl

/-- A location that is served. -/
theorem serve {location : Location K} (h : Stands subroute (location :: queue) es) :
    Rounds subroute (es ++ [.returned (some location)]) ∧
      ∃ round, since isExhausted (.exhausted :: (es ++ [.returned (some location)])) = served round ∧
        round ++ queue = subroute := by
  obtain ⟨round, hround, _, hleft⟩ := h.now
  have hquiet : isExhausted (.returned (some location)) = false := rfl
  have hsplit : round ++ [location] ++ queue = subroute := by
    rw [List.append_assoc]
    exact hleft (List.cons_ne_nil _ _)
  have hsince : since isExhausted (.exhausted :: (es ++ [.returned (some location)])) =
      served (round ++ [location]) := by
    rw [← List.cons_append, since_quiet hquiet, hround]
    simp [served]
  refine ⟨?_, round ++ [location], hsince, hsplit⟩
  refine Segmented.snoc h.rounds ?_ fun hm => by rw [hquiet] at hm; cases hm
  show since isExhausted (.exhausted :: (es ++ [.returned (some location)])) <+: _
  rw [hsince, ← hsplit]
  exact ⟨served queue, by simp [served]⟩

theorem step (h : Stands subroute queue es) (hs : QueueStep subroute queue es' queue') :
    Stands subroute queue' (es ++ es') := by
  cases hs with
  | stay => rwa [List.append_nil]
  | fill =>
    rw [List.append_nil]
    obtain ⟨round, hround, hnil, _⟩ := h.now
    refine ⟨h.rounds, round, hround, fun _ => hnil rfl, fun _ => ?_⟩
    rw [hnil rfl]
    rfl
  | serve location hne =>
    obtain ⟨hrounds, round, hround, hleft⟩ := h.serve
    exact ⟨hrounds, round, hround, fun h => absurd h hne, fun _ => hleft⟩
  | serveLast location =>
    obtain ⟨hrounds, round, hround, hleft⟩ := h.serve
    rw [List.append_nil] at hleft
    subst hleft
    rw [List.append_cons]
    generalize es ++ [QueueEvent.returned (some location)] = served at hrounds hround ⊢
    have hmark : since isExhausted (QueueEvent.exhausted :: served ++ [QueueEvent.exhausted]) = [] := since_mark rfl
    refine ⟨?_, [], hmark, fun _ => rfl, fun h => absurd rfl h⟩
    -- The round that ends is the whole subroute.
    refine Segmented.snoc hrounds ?_ fun _ => hround
    rw [hmark]
    exact List.nil_prefix

end Stands

/-! ## The record of a worker -/

def queueOf (s : State K) (w : Origin) : List (Location K) :=
  ((s.entryOf? w).map RoutePoolEntry.queue).getD []

/-- The call of `w` that the action ends. -/
def returnEvents (s : State K) (a : Action K) (t : State K) (w : Origin) : List (QueueEvent K) :=
  if actor s a = some w then
    match t.calls w with
    | .returned location => [.returned location]
    | _ => []
  else []

def exhaustEvents (s t : State K) (w : Origin) : List (QueueEvent K) :=
  if queueOf s w ≠ [] ∧ queueOf t w = [] then [.exhausted] else []

/-- What the action records for `w`. -/
def emit [Field K] [LinearOrder K] (g : Geo K) (m : Manager K) (w : Origin) (s : State K)
    (a : Action K) : List (QueueEvent K) :=
  match step g m s a with
  | none => []
  | some t => returnEvents s a t w ++ exhaustEvents s t w

/-- The actions of calls on a manager without prio events, whose workers stay. -/
def asks : Action K → Bool
  | .getNextLocation _ _ | .awaitStart _ | .started _ _ | .notStarted _ | .noEvent _ | .startUpdate _
  | .finishUpdate => true
  | _ => false

/-- No update overlaps with a call of `w` from where it looks up its entry, its queue is not empty
then, and what it waits for before does not fail. -/
def Alone (w : Origin) (s : State K) : Action K → Prop
  | .getNextLocation v _ => v = w → s.updating.isNone = true ∧ queueOf s w ≠ []
  | .started v _ => v = w → s.updating.isNone = true ∧ queueOf s w ≠ []
  | .notStarted v => v ≠ w
  | .startUpdate _ => (s.calls w).away = true
  | _ => True

/-- The registered workers have entries whose queues are empty. -/
structure Arrived (s : State K) : Prop where
  wf : WellFormed s
  route : s.route ≠ []
  nodup : s.route.Nodup
  coords : s.currentRouteRoundCoords = s.route
  updating : s.updating = none
  idle : ∀ w, (s.calls w).idle = true
  entries : ∀ {w entry}, s.entryOf? w = some entry →
    entry.queue = [] ∧ entry.prioCoord = none ∧ entry.timeAdded ≤ s.time
  registered : ∀ {w}, w ∈ s.workersRegistered → w ∈ s.routepool.keys

/-- One update has initialised the queues. -/
def Initialised [LinearOrder K] (g : Geo K) (s : State K) : Prop :=
  ∃ before pool, Arrived before ∧ before.workerChanged g = some pool ∧ s = before.install pool

section Emit
variable [Field K] [LinearOrder K] {g : Geo K} {m : Manager K} {s t : State K} {a : Action K}
  {w : Origin}

theorem emit_eq (h : step g m s a = some t) :
    emit g m w s a = returnEvents s a t w ++ exhaustEvents s t w := by
  unfold emit
  rw [h]

/-- Nothing is recorded where no call of `w` ends and its queue stays or was empty. -/
theorem emit_nil (h : step g m s a = some t) (hreturn : actor s a = some w → (t.calls w).idle = false)
    (hqueue : queueOf s w = [] ∨ queueOf t w = queueOf s w) : emit g m w s a = [] := by
  rw [emit_eq h]
  have hreturns : returnEvents s a t w = [] := by
    unfold returnEvents
    split
    · next hactor =>
      have hidle := hreturn hactor
      cases hcall : t.calls w with
      | returned location => rw [hcall] at hidle; cases hidle
      | _ => rfl
    · rfl
  have hexhausts : exhaustEvents s t w = [] := by
    unfold exhaustEvents
    rw [if_neg]
    rintro ⟨hne, hnil⟩
    rcases hqueue with hqueue | hqueue
    · exact hne hqueue
    · exact hne (hqueue ▸ hnil)
  rw [hreturns, hexhausts, List.nil_append]

/-- A call of `w` that takes the front of the queue. -/
theorem emit_serve {subroute : List (Location K)} (h : step g m s a = some t)
    (hactor : actor s a = some w) {location : Location K}
    (hcall : t.calls w = .returned (some location)) (hqueue : queueOf s w = location :: queueOf t w) :
    QueueStep subroute (queueOf s w) (emit g m w s a) (queueOf t w) := by
  have hreturns : returnEvents s a t w = [.returned (some location)] := by
    unfold returnEvents
    rw [if_pos hactor, hcall]
  have hne : queueOf s w ≠ [] := by rw [hqueue]; exact List.cons_ne_nil _ _
  rw [emit_eq h, hreturns, exhaustEvents]
  by_cases hnil : queueOf t w = []
  · rw [if_pos ⟨hne, hnil⟩, hqueue, hnil]
    exact .serveLast location
  · rw [if_neg fun hboth => hnil hboth.2, hqueue]
    exact .serve location hnil

end Emit

end MapADroid.Route
