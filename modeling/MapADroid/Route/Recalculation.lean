import MapADroid.Route.Invariant

/- The end of a subroute in quest mode (`RouteManagerQuests`).

   The call that finds its queue empty has the route calculated anew and the routepool
   updated twice, and then goes on with the entry it found at the beginning. That one is in
   no routepool any more: the call takes a location of the subroute the worker had before,
   and the new queue in the routepool stays as long as it was
   (`new_queue_not_served`). -/
namespace MapADroid.Route
open Lib

variable {K : Type} [LinearOrder K] {g : Geo K} {m : Manager K} {s t : State K} {w : Origin} {r : Ref}

/-- The call of `w` returns the first location of `queue` that is to be visited, and it is
taken off the queue of the entry in the routepool. -/
def Serves (m : Manager K) (s t : State K) (w : Origin) (queue : List (Location K)) : Prop :=
  ∃ location, (popGood (s.checkCoords m) queue).1 = some location ∧
    t.calls w = .returned (some location) ∧
    ∀ entry, t.entryOf? w = some entry → entry.queue.count location < queue.count location

/-- A call for a new queue takes nothing off any queue but that of the entry it keeps. -/
theorem takeNext_queue {r' : Ref} (hne : r' ≠ r) :
    ((s.takeNext m w r).heap r').queue = (s.heap r').queue := by
  have hlocation : ∀ (s : State K) (pos : Location K),
      ((s.setRoutepoolEntryLocation w pos).heap r').queue = (s.heap r').queue := by
    intro s pos
    unfold State.setRoutepoolEntryLocation
    split
    · rfl
    · next r'' _ =>
      by_cases h : r' = r''
      · rw [h, State.modifyEntry_heap_self]
      · rw [State.modifyEntry_heap_of_ne _ _ _ h]
  have hroute : ∀ (s : State K) (location : Location K),
      (s.removeFromRoute m location).heap = s.heap := by
    intro s location
    unfold State.removeFromRoute
    split <;> rfl
  unfold State.takeNext
  simp only
  split
  · rw [State.setCall_heap, State.modifyEntry_heap_of_ne _ _ _ hne]
  · rw [State.setCall_heap, hlocation, hroute, State.modifyEntry_heap_of_ne _ _ _ hne]

theorem refilled_queue {r' : Ref} (hne : r' ≠ r) (updated : Bool) :
    ((s.refilled m w r updated).heap r').queue = (s.heap r').queue := by
  unfold State.refilled
  simp only
  split
  · rfl
  split
  · rfl
  · rw [takeNext_queue hne, State.modifyEntry_heap_of_ne _ _ _ hne]
  · exact takeNext_queue hne
  · rfl

/-- The location it returns is one of the subroute of the entry it keeps. -/
theorem refilled_returns (hlive : (s.routepool.get? w).isSome) (hqueue : (s.heap r).queue = []) :
    (s.refilled m w r true).calls w =
      .returned (popGood (s.checkCoords m) (s.heap r).subroute).1 := by
  have hnone : (!true || (s.routepool.get? w).isNone) = false := by simpa using hlive
  unfold State.refilled
  simp only [hnone, hqueue]
  cases hsubroute : (s.heap r).subroute with
  | nil => exact State.setCall_calls_self ..
  | cons first rest =>
    rw [if_neg Bool.false_ne_true]
    simp only
    rw [takeNext_call]
    simp only [State.modifyEntry_heap_self]
    rfl

variable [Field K]

/-- However the calls and updates interleave, the call that goes on after the second update
does not serve the new queue. -/
theorem new_queue_not_served {maxClustering : Nat} {maxRadius : K} {s₀ : State K}
    {l : List (Action K)} {pool : Routepool K} {entry : RoutePoolEntry K} (h0 : Initial s₀)
    (hs : Run (step g (questManager g maxClustering maxRadius)) Any s₀ l s)
    (hcall : s.calls w = .refilling r) (hupdate : s.updating = some ⟨some w, pool⟩)
    (hentry : pool.get? w = some entry)
    (ht : step g (questManager g maxClustering maxRadius) s .finishUpdate = some t) :
    ¬ Serves (questManager g maxClustering maxRadius) s t w entry.queue := by
  rintro ⟨location, _, _, hcount⟩
  have hkept := (h0.wellFormed.run hs).kept (w := w) (r := r) (by rw [hcall]; rfl)
  -- The reference in the routepool is new, the one the call keeps is not.
  have hne : (⟨s.next, w⟩ : Ref) ≠ r := by
    intro heq
    have hmade := hkept.2
    rw [← heq] at hmade
    exact absurd hmade (Nat.lt_irrefl _)
  have hfinish : t = ((s.install pool).setUpdating none).refilled
      (questManager g maxClustering maxRadius) w r true := by
    cases step_some ht with
    | finishUpdate hupdating =>
      rw [hupdate, Option.some.injEq] at hupdating
      subst hupdating
      unfold State.finishUpdate
      simp only [State.setUpdating_calls]
      have hsame : (s.install pool).calls w = .refilling r := hcall
      rw [hsame]
  have hlive : t.routepool.get? w = some ⟨s.next, w⟩ := by
    have hwf := ((h0.wellFormed.run hs).install pool).setUpdating none
    rw [hfinish, (refilled_confined hwf.live hkept.1 true).routepool]
    show (s.install pool).routepool.get? w = _
    rw [get?_install, hentry]
    rfl
  have hqueue : (t.heap ⟨s.next, w⟩).queue = entry.queue := by
    have hinstalled := entryOf?_install s pool w
    rw [hentry] at hinstalled
    obtain ⟨r', hr', hheap⟩ := entryOf?_eq_some.mp hinstalled
    rw [get?_install, hentry] at hr'
    cases hr'
    rw [hfinish, ← hheap]
    exact refilled_queue hne true
  have hlt := hcount _ (entryOf?_eq_some.mpr ⟨_, hlive, rfl⟩)
  rw [hqueue] at hlt
  omega

/-! ## A stop that is left -/

/-- A route of two stops and one registered worker. -/
def twoStops : State ℚ where
  heap _ := ⟨[], 0, [], 0, ⟨0, 0⟩, none, .normal⟩
  next := 0
  routepool := Dict.empty
  route := [⟨0, 0⟩, ⟨0, 1⟩]
  currentRouteRoundCoords := [⟨0, 0⟩, ⟨0, 1⟩]
  coordsToBeIgnored := []
  stoplist := [⟨0, 0⟩, ⟨0, 1⟩]
  workersRegistered := ["a"]
  workerStartPosition := Dict.empty
  roundcount := 0
  updating := none
  calls _ := .returned none
  time := 0

theorem twoStops_initial : Initial twoStops := ⟨rfl, rfl, fun _ => rfl⟩

abbrev quests : Manager ℚ := questManager plane 1 40

/-- The worker visits both stops; then a third one is all that is left. -/
def visitBoth : List (Action ℚ) := [.getNextLocation "a" 0, .startUpdate "a", .finishUpdate,
  .getNextLocation "a" 1, .getNextLocation "a" 2, .anyCoordsLeft "a" true, .fetchStops [⟨0, 2⟩],
  .calculated "a" [⟨0, 2⟩], .finishUpdate, .startUpdate "a"]

def recalculated : State ℚ := after (step plane quests) Any twoStops visitBoth

def resumed : State ℚ := after (step plane quests) Any recalculated [.finishUpdate]

/-- The copies the update that finishes puts into place. -/
def lastCopies : Routepool ℚ := (recalculated.updating.map Update.pool).getD Dict.empty

/-- The new queue of the worker. -/
def newQueue : List (Location ℚ) := ((lastCopies.get? "a").map RoutePoolEntry.queue).getD []

theorem recalculated_updating : recalculated.updating = some ⟨some "a", lastCopies⟩ := by
  have hholder : recalculated.updating.map Update.holder = some (some "a") := by decide +kernel
  cases hupdate : recalculated.updating with
  | none => rw [hupdate] at hholder; cases hholder
  | some update =>
    rw [hupdate, Option.map_some, Option.some.injEq] at hholder
    obtain ⟨holder, pool⟩ := update
    cases hholder
    simp [lastCopies, hupdate]

theorem lastCopies_entry : ∃ entry, lastCopies.get? "a" = some entry ∧ newQueue = entry.queue := by
  obtain ⟨entry, hentry⟩ := Option.isSome_iff_exists.mp
    (by decide +kernel : (lastCopies.get? "a").isSome = true)
  exact ⟨entry, hentry, by simp [newQueue, hentry]⟩

theorem visitBoth_run : Run (step plane quests) Any twoStops visitBoth recalculated :=
  .of_after (by decide +kernel)

theorem resumed_step : step plane quests recalculated .finishUpdate = some resumed :=
  step_after trivial (by decide +kernel)

theorem new_queue_not_served_stop :
    (popGood (recalculated.checkCoords quests) newQueue).1 = some ⟨0, 2⟩ ∧
      ¬ Serves quests recalculated resumed "a" newQueue := by
  obtain ⟨entry, hentry, hqueue⟩ := lastCopies_entry
  have hcall : recalculated.calls "a" = .refilling ⟨1, "a"⟩ := by decide +kernel
  refine ⟨by decide +kernel, ?_⟩
  rw [hqueue]
  exact new_queue_not_served twoStops_initial visitBoth_run hcall recalculated_updating hentry
    resumed_step

/-- The worker is told to stop although a stop is left. -/
theorem stop_left : ¬ ∀ (g : Geo ℚ) (maxClustering : Nat) (maxRadius : ℚ) (s₀ s t : State ℚ)
    (l : List (Action ℚ)) (w : Origin) (r : Ref) (pool : Routepool ℚ) (entry : RoutePoolEntry ℚ),
    Initial s₀ → Run (step g (questManager g maxClustering maxRadius)) Any s₀ l s →
    s.calls w = .refilling r → s.updating = some ⟨some w, pool⟩ → pool.get? w = some entry →
    (∃ location ∈ entry.queue,
      s.checkCoords (questManager g maxClustering maxRadius) location = true) →
    step g (questManager g maxClustering maxRadius) s .finishUpdate = some t →
    Serves (questManager g maxClustering maxRadius) s t w entry.queue := by
  intro h
  obtain ⟨entry, hentry, hqueue⟩ := lastCopies_entry
  have hcall : recalculated.calls "a" = .refilling ⟨1, "a"⟩ := by decide +kernel
  have hleft : ∃ location ∈ entry.queue, recalculated.checkCoords quests location = true := by
    rw [← hqueue]
    decide +kernel
  obtain ⟨location, _, hreturned, _⟩ := h _ _ _ _ _ _ _ _ _ _ entry twoStops_initial visitBoth_run
    hcall recalculated_updating hentry hleft resumed_step
  have hnone : resumed.calls "a" = .returned none := by decide +kernel
  rw [hnone] at hreturned
  cases hreturned

end MapADroid.Route
