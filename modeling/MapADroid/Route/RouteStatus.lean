import MapADroid.Route.Progress
import MapADroid.Route.Recalculation
import MapADroid.Route.Undivided

/- The progress of a worker in every mode (`get_route_status`).

   The managers that do not divide a route keep the invariant too: in level mode an entry gets a
   subroute and the same queue, and in iv nothing is ever put into either. So, for all of
   them, a worker is somewhere on its subroute as long as there is a route and no stop is
   redone at the end of a queue that is as long as the subroute (`route_status_sane`). -/
namespace MapADroid.Route
open Lib

variable {K : Type} {s t : State K} {w : Origin}

/-! ## Level mode -/

namespace Leveling

variable {p q : State K}

def RedoneWithin (s : State K) : Action K → Prop
  | .usual a => Route.RedoneWithin s.manager a
  | _ => True

instance (s : State K) : (a : Action K) → Decidable (RedoneWithin s a)
  | .usual a => inferInstanceAs (Decidable (Route.RedoneWithin s.manager a))
  | .startUpdate _ | .nextOrigin | .noStops | .recalculated _ | .raised | .calculateRoute _
  | .unregisterWorker _ _ => isTrue trivial

theorem raise_progressing {s : Route.State K} (h : Progressing s) (visit : Visit) :
    Progressing (State.raise s visit).manager := by
  unfold State.raise
  split
  · exact h
  · exact h.returned none

theorem recalculated_progressing {s : Route.State K} (h : Progressing s) (visit : Visit) (r : Ref)
    (newRoute : List (Location K)) : Progressing (State.recalculated s visit r newRoute).manager := by
  -- The queue is the new subroute.
  have hassigned : Progressing (s.modifyEntry r fun entry =>
      { entry with subroute := newRoute, queue := newRoute }) :=
    h.congr (.modifyEntry fun _ => le_rfl) rfl rfl rfl rfl
  unfold State.recalculated
  simp only
  split
  · exact raise_progressing hassigned visit
  · exact hassigned

variable [LinearOrder K]

theorem resume_progressing {s : Route.State K} (h : Progressing s) (updated : Bool) (holder : Option Origin) :
    Progressing (State.resume s updated holder) := by
  unfold State.resume
  split
  · exact h
  split
  · exact h.joined _ updated
  · next hw => exact h.refilled (by rw [hw]; rfl) updated
  · exact h

theorem start_progressing {s : Route.State K} (h : Progressing s) (holder : Option Origin) :
    Progressing (State.start s holder).manager := by
  unfold State.start
  split
  · exact resume_progressing h false holder
  · exact h

theorem nextOrigin_progressing {s : Route.State K} (h : Progressing s) (visit : Visit) :
    Progressing (State.nextOrigin s visit).manager := by
  unfold State.nextOrigin
  split
  · exact raise_progressing h visit
  split
  · exact resume_progressing h true visit.holder
  split
  · exact h
  split <;> exact h

theorem unregisterWorker_progressing {s : Route.State K} (h : Progressing s) (w : Origin) (remove : Bool) :
    Progressing (State.unregisterWorker s w remove).manager := by
  have hregistered : Progressing
      { s with workersRegistered := s.workersRegistered.filter fun v => v ≠ w } :=
    h.congr (.of_heap rfl) rfl rfl rfl rfl
  unfold State.unregisterWorker
  simp only
  split
  · exact start_progressing (hregistered.erase w) none
  · exact hregistered

theorem step_progressing [Field K] {g : Geo K} {a : Action K} (h : Progressing p.manager)
    (hwithin : RedoneWithin p a) (hs : step g p a = some q) : Progressing q.manager := by
  cases a with
  | usual a =>
    simp only [step] at hs
    split at hs
    · cases hs
    split at hs
    · cases hs
    obtain ⟨t, ht, rfl⟩ := Option.map_eq_some_iff.mp hs
    exact h.step hwithin (step_some ht)
  | startUpdate w =>
    simp only [step] at hs
    split at hs
    · cases hs; exact start_progressing h (some w)
    · cases hs; exact start_progressing h (some w)
    · cases hs
  | nextOrigin =>
    simp only [step] at hs
    split at hs
    · cases hs; exact nextOrigin_progressing h _
    · cases hs
  | noStops =>
    simp only [step] at hs
    split at hs
    · cases hs; exact h
    · cases hs
  | recalculated newRoute =>
    simp only [step] at hs
    split at hs
    · cases hs; exact recalculated_progressing h _ _ newRoute
    · cases hs
  | raised =>
    obtain ⟨visit, _, rfl⟩ := Option.map_eq_some_iff.mp hs
    exact raise_progressing h visit
  | calculateRoute newRoute =>
    simp only [step] at hs
    split at hs
    · cases hs
    · cases hs; exact start_progressing (h.setRoute newRoute) none
  | unregisterWorker w remove =>
    simp only [step] at hs
    split at hs
    · cases hs
    · cases hs; exact unregisterWorker_progressing h w remove

end Leveling

/-! ## Iv -/

namespace Iv

theorem lookUpEntry_progressing [Field K] (h : Progressing s) (w : Origin) (now : ℚ) :
    Progressing (lookUpEntry s w now) := by
  unfold lookUpEntry
  split
  · exact h.create w now
  · next hr => exact h.setCall fun r' hr' => .inr (by cases hr'; exact hr)

theorem getNextLocation_progressing [Field K] (h : Progressing s) (w : Origin) (now : ℚ) :
    Progressing (getNextLocation s w now) := by
  unfold getNextLocation
  split
  · exact h.returned none
  · exact lookUpEntry_progressing h w now

theorem joined_progressing (h : Progressing s) (w : Origin) : Progressing (joined s w) := by
  unfold joined
  split
  · next hr => exact h.setCall fun r' hr' => .inr (by cases hr'; exact hr)
  · exact h.returned none

theorem popEvent_progressing (h : Progressing s) (w : Origin) (r : Ref) (due : ℚ) (location : Location K)
    (now : ℚ) : Progressing (popEvent s w r due location now) := by
  unfold popEvent
  split
  · exact h.returned none
  · have htyped : Progressing (s.modifyEntry r fun entry => { entry with lastPositionType := .prioq }) :=
      h.congr (.modifyEntry fun hr => hr) rfl rfl rfl rfl
    exact (htyped.setRoutepoolEntryLocation w location).returned _

theorem step_progressing [Field K] [LinearOrder K] {a : Action K} (h : Progressing s) (hwithin : RedoneWithin s a)
    (hs : step s a = some t) : Progressing t := by
  cases a with
  | getNextLocation w now =>
    simp only [step] at hs
    split at hs
    · split at hs
      · cases hs
      · cases hs; exact getNextLocation_progressing (h.setTime now) w now
    · cases hs
  | awaitStart w =>
    simp only [step] at hs
    split at hs
    · cases hs; exact h.awaitStart w
    · cases hs
  | started w now =>
    simp only [step] at hs
    split at hs
    · split at hs
      · cases hs
      · cases hs; exact lookUpEntry_progressing (h.setTime now) w now
    · cases hs
  | notStarted w =>
    simp only [step] at hs
    split at hs
    · cases hs; exact h.returned none
    · cases hs
  | startUpdate w =>
    simp only [step] at hs
    split at hs
    · cases hs; exact joined_progressing h w
    · cases hs
  | popEvent w due location now =>
    simp only [step] at hs
    split at hs
    · split at hs
      · cases hs
      · cases hs; exact popEvent_progressing (h.setTime now) w _ due location now
    · cases hs
  | noEvent w =>
    simp only [step] at hs
    split at hs
    · cases hs; exact h
    · cases hs
  | calculateRoute newRoute => cases hs; exact h.setRoute newRoute
  | registerWorker w => cases hs; exact h.registerWorker w
  | unregisterWorker w remove =>
    cases hs
    have hregistered : Progressing
        { s with workersRegistered := s.workersRegistered.filter fun v => v ≠ w } :=
      h.congr (.of_heap rfl) rfl rfl rfl rfl
    cases remove with
    | false => exact hregistered
    | true => exact hregistered.erase w
  | redoStopImmediately w location => cases hs; exact h.setPrioCoord w location
  | redoStopAtEnd w location => cases hs; exact h.redoStopAtEnd w location hwithin
  | addCoordToBeRemoved location => cases hs; exact h.addCoordToBeRemoved location
  | setWorkerStartposition w location => cases hs; exact h.congr (.of_heap rfl) rfl rfl rfl rfl
  | _ => cases hs

end Iv

/-! ## What is reported -/

/-- Redoing a stop at the end of the queue takes one off the progress. -/
theorem getRouteStatus_redoStopAtEnd (m : Manager K) (hroute : s.route ≠ []) (hw : (s.routepool.get? w).isSome)
    (location : Location K) : (s.redoStopAtEnd m w location).getRouteStatus w =
      ((s.getRouteStatus w).1 - 1, (s.getRouteStatus w).2) := by
  obtain ⟨r, hr⟩ := Option.isSome_iff_exists.mp hw
  have hsame : (s.redoStopAtEnd m w location).route = s.route ∧
      (s.redoStopAtEnd m w location).routepool = s.routepool := by
    unfold State.redoStopAtEnd
    simp only [hr]
    split <;> exact ⟨rfl, rfl⟩
  have hheap : (s.redoStopAtEnd m w location).heap r =
      { s.heap r with queue := (s.heap r).queue ++ [location] } := by
    have hmodified := s.modifyEntry_heap_self r fun entry => { entry with queue := entry.queue ++ [location] }
    unfold State.redoStopAtEnd
    simp only [hr]
    split <;> exact hmodified
  rw [getRouteStatus_eq (hsame.1 ▸ hroute) (hsame.2 ▸ hr), getRouteStatus_eq hroute hr, hheap, List.length_append,
    List.length_singleton]
  apply Prod.ext
  · simp only
    omega
  · rfl

theorem route_status_sane [Field K] [LinearOrder K] (g : Geo K) (m : Manager K) :
    (∀ (s₀ s : State K) (l : List (Action K)), Initial s₀ → Run (step g m) RedoneWithin s₀ l s →
      Reported s) ∧
    (∀ (p₀ p : Leveling.State K) (l : List (Leveling.Action K)), Initial p₀.manager → p₀.visit = none →
      Run (Leveling.step g) Leveling.RedoneWithin p₀ l p → Reported p.manager) ∧
    (∀ (s₀ s : State K) (l : List (Action K)), Initial s₀ → Run Iv.step RedoneWithin s₀ l s →
      Reported s) := by
  refine ⟨?_, ?_, ?_⟩
  · intro s₀ s l h0 hrun
    exact (hrun.invariant h0.progressing fun _ _ _ h hwithin hs => h.step hwithin (step_some hs)).reported
  · intro p₀ p l h0 _ hrun
    have hprogressing : Progressing p.manager := hrun.invariant (I := fun p => Progressing p.manager)
      h0.progressing fun _ _ _ h hwithin hs => Leveling.step_progressing h hwithin hs
    exact hprogressing.reported
  · intro s₀ s l h0 hrun
    exact (hrun.invariant h0.progressing fun _ _ _ h hwithin hs =>
      Iv.step_progressing h hwithin hs).reported

/-- A worker visits the first stop, which is redone at the end of its queue, and the next. -/
def visitsAgain : List (Action ℚ) := [.getNextLocation "a" 0, .startUpdate "a", .finishUpdate,
  .redoStopAtEnd "a" ⟨0, 0⟩, .getNextLocation "a" 1]

/-- In level mode it gets a subroute of two stops first. -/
def levels : List (Leveling.Action ℚ) := [.usual (.getNextLocation "a" 0), .startUpdate "a", .nextOrigin,
  .recalculated [⟨0, 0⟩, ⟨0, 1⟩], .nextOrigin, .usual (.redoStopAtEnd "a" ⟨0, 0⟩)]

/-- In iv it gets a prio event. -/
def scans : List (Action ℚ) := [.getNextLocation "a" 0, .startUpdate "a", .popEvent "a" 0 ⟨0, 0⟩ 1]

theorem route_status_sane_runs :
    Reported (after (step plane quests) RedoneWithin twoStops visitsAgain) ∧
    Reported (after (Leveling.step plane) Leveling.RedoneWithin ⟨twoStops, none⟩ levels).manager ∧
    Reported (after Iv.step RedoneWithin twoStops scans) := by
  obtain ⟨hdivided, hlevel, hiv⟩ := route_status_sane plane quests
  refine ⟨hdivided _ _ _ twoStops_initial (.of_after (by decide +kernel)), ?_, ?_⟩
  · exact hlevel ⟨twoStops, none⟩ _ _ twoStops_initial rfl (.of_after (by decide +kernel))
  · exact hiv _ _ _ twoStops_initial (.of_after (by decide +kernel))

/-- A second worker joins while the first one is at the first of two stops, which is then
redone: only the other stop is left, for the first worker. -/
def joinedMeanwhile : List (Action ℚ) := [.getNextLocation "a" 0, .startUpdate "a", .finishUpdate,
  .registerWorker "b", .getNextLocation "b" 1, .startUpdate "b", .finishUpdate, .redoStopAtEnd "a" ⟨0, 0⟩]

/-- A route without stops. -/
def noStopsLeft : State ℚ := { twoStops with route := [], currentRouteRoundCoords := [] }

theorem noStopsLeft_initial : Initial noStopsLeft := ⟨rfl, rfl, fun _ => rfl⟩

/-- No progress is reported without a route, and a negative one where a stop is redone at
the end of a queue that is the whole subroute. -/
theorem route_status_negative :
    (¬ ∀ (g : Geo ℚ) (m : Manager ℚ) (s₀ s : State ℚ) (l : List (Action ℚ)) (w : Origin), Initial s₀ →
      Run (step g m) RedoneWithin s₀ l s → (s.routepool.get? w).isSome →
      0 ≤ (s.getRouteStatus w).1 ∧ (s.getRouteStatus w).1 ≤ (s.getRouteStatus w).2) ∧
    ¬ ∀ (g : Geo ℚ) (m : Manager ℚ) (s₀ s : State ℚ) (l : List (Action ℚ)) (w : Origin), Initial s₀ →
      Run (step g m) Any s₀ l s → s.route ≠ [] → (s.routepool.get? w).isSome →
      0 ≤ (s.getRouteStatus w).1 ∧ (s.getRouteStatus w).1 ≤ (s.getRouteStatus w).2 := by
  refine ⟨?_, ?_⟩
  · intro h
    have hsane := h plane quests _ (after (step plane quests) RedoneWithin noStopsLeft
      [.getNextLocation "a" 0, .startUpdate "a"]) _ "a" noStopsLeft_initial
      (.of_after (by decide +kernel)) (by decide +kernel)
    exact absurd hsane.1 (by decide +kernel)
  · intro h
    have hsane := h plane quests _ (after (step plane quests) Any twoStops joinedMeanwhile) _ "a"
      twoStops_initial (.of_after (by decide +kernel)) (by decide +kernel) (by decide +kernel)
    exact absurd hsane.1 (by decide +kernel)

end MapADroid.Route
