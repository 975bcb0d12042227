import MapADroid.Route.PrioEvents

/- The workers that prio events are passed on to.

   `_other_worker_closer_to_prioq` looks for the closest worker in the routepool, not among the
   workers that are registered. The two agree as long as a worker that is unregistered takes its
   entry with it, and no call of it makes one afterwards (`Present`): then the event goes to the
   closest worker that can take it (`passedOn_rightly`). `unregister_worker` leaves the entry unless
   it is told otherwise, and a call that waited for the start of the manager, or for a calculation,
   makes one without looking whether its worker is still registered. An event that is closer to an
   entry left behind is lost (`passed_on_to_absent`, `passed_on_to_waiting`). -/
namespace MapADroid.Route
open Lib

variable {K : Type} {g : Geo K} {m : Manager K} {s t : State K} {v w : Origin} {r : Ref}
  {location : Location K}

section Statements

variable [LinearOrder K]

/-- `_other_worker_closer_to_prioq`, with its assignment. -/
def State.passOn (g : Geo K) (s : State K) (prioqcoord : Location K) (origin : Origin) : Bool × State K :=
  match s.otherWorkerCloserToPrioq g prioqcoord origin with
  | none => (false, s)
  | some closerWorker => (true, s.setPrioCoord closerWorker prioqcoord)

/-- A worker that can take the event of the one that asks. -/
structure CanTake (g : Geo K) (s : State K) (prioqcoord : Location K) (asks : RoutePoolEntry K)
    (v : Origin) (entry : RoutePoolEntry K) : Prop where
  registered : v ∈ s.workersRegistered
  present : s.entryOf? v = some entry
  free : entry.prioCoord = none
  closer : g.distance entry.currentPos prioqcoord < g.distance asks.currentPos prioqcoord

/-- An event that is passed on is at the closest worker that can take it; otherwise none is. -/
structure PassesOnRightly (g : Geo K) (s : State K) (prioqcoord : Location K) (origin : Origin) : Prop where
  passed : (s.passOn g prioqcoord origin).1 = true →
    ∃ asks v entry, s.entryOf? origin = some asks ∧ CanTake g s prioqcoord asks v entry ∧
      Holds (s.passOn g prioqcoord origin).2 v prioqcoord ∧
      ∀ u other, CanTake g s prioqcoord asks u other →
        g.distance entry.currentPos prioqcoord ≤ g.distance other.currentPos prioqcoord
  kept : (s.passOn g prioqcoord origin).1 = false →
    ∀ r, ((s.passOn g prioqcoord origin).2.heap r).prioCoord = (s.heap r).prioCoord

/-- The action unregisters no worker whose entry stays behind, and makes none for a worker that was
unregistered while its call waited. -/
def LeavesNoEntry (s : State K) : Action K → Prop
  | .unregisterWorker w false => w ∉ s.routepool.keys
  | .started w _ => w ∈ s.workersRegistered ∨ w ∈ s.routepool.keys
  | _ => True

instance (s : State K) (a : Action K) : Decidable (LeavesNoEntry s a) := by
  unfold LeavesNoEntry
  split <;> infer_instance

end Statements

/-! ## The loop -/

section Loop

variable [LinearOrder K] {heap : Ref → RoutePoolEntry K} {origin : Origin} {entry : RoutePoolEntry K}
  {items : List (Origin × Ref)} {temp : K × Option Origin}

/-- After a prio event, the next one is not passed on. -/
theorem closerWorker_prioq (hprioq : entry.lastPositionType = .prioq) :
    State.closerWorker g heap location origin entry items temp = temp := by
  induction items with
  | nil => rfl
  | cons i items ih =>
    obtain ⟨worker, r⟩ := i
    rw [State.closerWorker, hprioq]
    simp only [decide_true, Bool.or_true, if_true]
    exact ih

/-- The distance to beat only gets less. -/
theorem closerWorker_le : (State.closerWorker g heap location origin entry items temp).1 ≤ temp.1 := by
  induction items generalizing temp with
  | nil => exact le_refl _
  | cons i items ih =>
    obtain ⟨worker, r⟩ := i
    rw [State.closerWorker]
    refine ih.trans ?_
    split
    · exact le_refl _
    split
    · next hlt => exact hlt.le
    · exact le_refl _

/-- And no worker that is not skipped is below it in the end. -/
theorem closerWorker_least (hprioq : entry.lastPositionType ≠ .prioq) (hmem : (v, r) ∈ items)
    (hv : v ≠ origin) (hfree : (heap r).prioCoord = none) :
    (State.closerWorker g heap location origin entry items temp).1 ≤ g.distance (heap r).currentPos location := by
  induction items generalizing temp with
  | nil => cases hmem
  | cons i items ih =>
    rw [State.closerWorker.eq_def]
    dsimp only
    rcases List.mem_cons.mp hmem with rfl | hmem
    · refine closerWorker_le.trans ?_
      rw [if_neg (by simp [hv, hfree, hprioq])]
      split
      · exact le_refl _
      · next hnot => exact not_lt.mp hnot
    · exact ih hmem

/-- The worker that is found has the distance in the end. -/
theorem closerWorker_found (h : (State.closerWorker g heap location origin entry items temp).2 = some v) :
    (temp.2 = some v ∧ (State.closerWorker g heap location origin entry items temp).1 = temp.1) ∨
    ∃ r, (v, r) ∈ items ∧ (heap r).prioCoord = none ∧ g.distance (heap r).currentPos location < temp.1 ∧
      (State.closerWorker g heap location origin entry items temp).1 =
        g.distance (heap r).currentPos location := by
  induction items generalizing temp with
  | nil => exact Or.inl ⟨h, rfl⟩
  | cons i items ih =>
    obtain ⟨worker, r⟩ := i
    rw [State.closerWorker] at h ⊢
    split at h
    · next hskip =>
      rw [if_pos hskip]
      rcases ih h with hkept | ⟨r', hmem, hrest⟩
      · exact Or.inl hkept
      · exact Or.inr ⟨r', List.mem_cons_of_mem _ hmem, hrest⟩
    next hskip =>
    rw [if_neg hskip]
    split at h
    · next hcloser =>
      rw [if_pos hcloser]
      rcases ih h with ⟨hworker, hsame⟩ | ⟨r', hmem, hfree, hless, hsame⟩
      · -- This worker beats the distance, and no later one does.
        obtain rfl := Option.some.inj hworker
        simp only [Bool.or_eq_true, not_or, Bool.not_eq_true, Option.isSome_eq_false_iff,
          Option.isNone_iff_eq_none] at hskip
        exact Or.inr ⟨r, List.mem_cons_self, hskip.1.2, hcloser, hsame⟩
      · exact Or.inr ⟨r', List.mem_cons_of_mem _ hmem, hfree, hless.trans hcloser, hsame⟩
    · next hnot =>
      rw [if_neg hnot]
      rcases ih h with hkept | ⟨r', hmem, hrest⟩
      · exact Or.inl hkept
      · exact Or.inr ⟨r', List.mem_cons_of_mem _ hmem, hrest⟩

end Loop

/-- The event is passed on to a worker of the routepool that is closer and has none, and no other
such worker is closer yet. -/
theorem otherWorkerCloserToPrioq_closest [LinearOrder K] (h : s.otherWorkerCloserToPrioq g location w = some v) :
    ∃ asks entry, s.entryOf? w = some asks ∧ s.entryOf? v = some entry ∧ entry.prioCoord = none ∧
      g.distance entry.currentPos location < g.distance asks.currentPos location ∧
      ∀ u other, u ≠ w → s.entryOf? u = some other → other.prioCoord = none →
        g.distance entry.currentPos location ≤ g.distance other.currentPos location := by
  unfold State.otherWorkerCloserToPrioq at h
  split at h
  · cases h
  cases hasks : s.entryOf? w with
  | none =>
    rw [hasks] at h
    cases h
  | some asks =>
    rw [hasks] at h
    dsimp only at h
    have hprioq : asks.lastPositionType ≠ .prioq := by
      intro hprioq
      rw [closerWorker_prioq hprioq] at h
      cases h
    rcases closerWorker_found h with ⟨hnone, _⟩ | ⟨r, hmem, hfree, hless, hsame⟩
    · cases hnone
    refine ⟨asks, s.heap r, rfl, entryOf?_eq_some.mpr ⟨r, Dict.get?_eq_some_iff.mpr hmem, rfl⟩, hfree, hless, ?_⟩
    intro u other hu hother hnone
    obtain ⟨r', hr', rfl⟩ := entryOf?_eq_some.mp hother
    rw [← hsame]
    exact closerWorker_least hprioq (Dict.get?_eq_some_iff.mp hr') hu hnone

theorem holds_setPrioCoord (hr : s.routepool.get? w = some r) (location : Location K) :
    Holds (s.setPrioCoord w location) w location := by
  unfold State.setPrioCoord
  simp only [hr]
  exact holds_iff.mpr ⟨r, hr, by rw [State.modifyEntry_heap_self]⟩

/-- The entries of the other workers keep what they hold. -/
theorem holds_of_setPrioCoord (hlive : LiveOwn s) (hvw : v ≠ w) {l : Location K}
    (h : Holds (s.setPrioCoord v l) w location) : Holds s w location := by
  obtain ⟨r, hr, hlocation⟩ := holds_iff.mp h
  unfold State.setPrioCoord at hr hlocation
  cases hv : s.routepool.get? v with
  | none =>
    simp only [hv] at hr hlocation
    exact holds_iff.mpr ⟨r, hr, hlocation⟩
  | some r' =>
    simp only [hv] at hr hlocation
    have hne : r ≠ r' := by
      rintro rfl
      exact hvw ((hlive hv).1.symm.trans (hlive hr).1)
    rw [State.modifyEntry_heap_of_ne _ _ _ hne] at hlocation
    exact holds_iff.mpr ⟨r, hr, hlocation⟩

/-- Nothing is wrong but that the worker may not be registered any more. -/
theorem passesOnRightly_iff [LinearOrder K] (hlive : LiveOwn s) :
    PassesOnRightly g s location w ↔
      ∀ v, s.otherWorkerCloserToPrioq g location w = some v → v ∈ s.workersRegistered := by
  constructor
  · intro h v hcloser
    have hpass : s.passOn g location w = (true, s.setPrioCoord v location) := by rw [State.passOn, hcloser]
    obtain ⟨asks, u, entry, _, htake, hholds, _⟩ := h.passed (by rw [hpass])
    rw [hpass] at hholds
    by_contra habsent
    have hvu : v ≠ u := fun heq => habsent (heq ▸ htake.registered)
    have hheld : Holds s u location := holds_of_setPrioCoord hlive hvu hholds
    rw [Holds, htake.present, Option.bind_some, htake.free] at hheld
    cases hheld
  · intro hregistered
    cases hcloser : s.otherWorkerCloserToPrioq g location w with
    | none =>
      have hpass : s.passOn g location w = (false, s) := by rw [State.passOn, hcloser]
      refine ⟨fun hpassed => ?_, fun _ r => by rw [hpass]⟩
      rw [hpass] at hpassed
      cases hpassed
    | some v =>
      have hpass : s.passOn g location w = (true, s.setPrioCoord v location) := by rw [State.passOn, hcloser]
      obtain ⟨asks, entry, hasks, hentry, hfree, hless, hleast⟩ := otherWorkerCloserToPrioq_closest hcloser
      obtain ⟨r, hr, _⟩ := entryOf?_eq_some.mp hentry
      refine ⟨fun _ => ⟨asks, v, entry, hasks, ⟨hregistered v hcloser, hentry, hfree, hless⟩, ?_, ?_⟩, fun hkept => ?_⟩
      · rw [hpass]
        exact holds_setPrioCoord hr location
      · intro u other hother
        refine hleast u other ?_ hother.present hother.free
        rintro rfl
        obtain rfl := Option.some.inj (hasks.symm.trans hother.present)
        exact lt_irrefl _ hother.closer
      · rw [hpass] at hkept
        cases hkept

/-! ## The workers of the routepool -/

/-- The workers of the routepool, and those whose copies replace theirs, are registered. -/
structure Present (s : State K) : Prop where
  routepool : ∀ w ∈ s.routepool.keys, w ∈ s.workersRegistered
  copies : ∀ update ∈ s.updating, ∀ w ∈ update.pool.keys, w ∈ s.workersRegistered

namespace Present

theorem initial (h : Initial s) : Present s := by
  refine ⟨?_, ?_⟩
  · intro w hw
    rw [h.routepool] at hw
    cases hw
  · intro update hupdate
    rw [h.updating] at hupdate
    cases hupdate

theorem congr (h : Present s) (hpool : t.routepool = s.routepool) (hupdating : t.updating = s.updating)
    (hregistered : t.workersRegistered = s.workersRegistered) : Present t := by
  refine ⟨?_, ?_⟩
  · rw [hpool, hregistered]
    exact h.routepool
  · rw [hupdating, hregistered]
    exact h.copies

theorem outside (h : Present s) (ht : Outside m w s t) : Present t :=
  h.congr ht.routepool ht.updating ht.registered

theorem setPrioCoord (h : Present s) (w : Origin) (location : Location K) : Present (s.setPrioCoord w location) := by
  unfold State.setPrioCoord
  split
  · exact h
  · exact h.congr rfl rfl rfl

theorem registerWorker (h : Present s) (w : Origin) : Present (s.registerWorker w) := by
  unfold State.registerWorker
  split
  · exact h
  · exact ⟨fun v hv => List.mem_append_left _ (h.routepool v hv),
      fun update hupdate v hv => List.mem_append_left _ (h.copies update hupdate v hv)⟩

/-- A new entry is made for a worker that is registered. -/
theorem create [Field K] (h : Present s) (hw : w ∈ s.workersRegistered) (now : ℚ) : Present (s.create w now) := by
  refine ⟨?_, h.copies⟩
  intro v hv
  rcases Dict.mem_keys_insert.mp hv with rfl | hv
  · exact hw
  · exact h.routepool v hv

variable [LinearOrder K]

/-- An update copies workers of the routepool. -/
theorem startUpdate (h : Present s) {pool : Routepool K} (hpool : s.workerChanged g = some pool)
    (holder : Option Origin) : Present (s.setUpdating (some ⟨holder, pool⟩)) := by
  refine ⟨h.routepool, ?_⟩
  intro update hupdate w hw
  cases hupdate
  apply h.routepool
  obtain ⟨entry, hentry⟩ := Dict.mem_keys_iff.mp hw
  have hget := (divided_workerChanged hpool).get? w
  rw [show pool.get? w = some entry from hentry, get?_pickled] at hget
  split at hget
  · obtain ⟨old, hold, _⟩ := Option.map_eq_some_iff.mp hget.symm
    obtain ⟨r, hr, _⟩ := entryOf?_eq_some.mp hold
    exact Dict.mem_keys_iff.mpr ⟨r, hr⟩
  · cases hget

theorem startUnawaited (h : Present s) (g : Geo K) : Present (s.startUnawaited g) := by
  unfold State.startUnawaited
  split
  · exact h
  · next hpool => exact h.startUpdate hpool none

omit [LinearOrder K] in
theorem install (h : Present s) {update : Update K} (hupdate : s.updating = some update) :
    Present ((s.install update.pool).setUpdating none) := by
  refine ⟨?_, fun _ hnone => by cases hnone⟩
  intro w hw
  rw [show ((s.install update.pool).setUpdating none).routepool.keys = update.pool.keys from
    Dict.keys_mapValues _ _] at hw
  exact h.copies update hupdate w hw

/-- A call that makes an entry is of a worker that is registered. -/
theorem lookUpEntry [Field K] (h : Present s) (hwf : WellFormed s)
    (hw : w ∈ s.workersRegistered ∨ w ∈ s.routepool.keys) (now : ℚ) : Present (s.lookUpEntry m w now) := by
  rcases lookUpEntry_cases m s w now with ⟨hnone, heq⟩ | ⟨r, prioevent, hr, _, heq⟩ | ⟨r, hr, _, heq⟩
  · rw [heq]
    exact h.create (hw.resolve_right (Dict.get?_eq_none_iff.mp hnone)) now
  · rw [heq]
    exact h.outside (takePrio_outside (m := m) hwf.live (hwf.live hr).1 _)
  · rw [heq]
    exact h.outside (withEntry_confined (m := m) hwf.live (hwf.live hr).1).toOutside

theorem getNextLocation [Field K] (h : Present s) (hwf : WellFormed s) (w : Origin) (now : ℚ) :
    Present (s.getNextLocation m w now) := by
  rcases getNextLocation_cases m s w now with ⟨_, heq⟩ | ⟨hregistered, heq⟩
  · rw [heq]
    exact h.congr rfl rfl rfl
  · rw [heq]
    exact h.lookUpEntry hwf (.inl hregistered) now

theorem popEvent (h : Present s) (hwf : WellFormed s) (hw : (s.calls w).ref? = some r) (again : Bool) (due now : ℚ)
    (location : Location K) : Present (s.popEvent g m w r again due location now) := by
  rcases popEvent_cases (g := g) (m := m) hwf.live (hwf.kept hw).1 again due now location
    with ⟨v, _, heq⟩ | ⟨hconfined, _⟩
  · obtain ⟨coords, hpassed⟩ := passedOn_eq m s w v r location
    rw [heq, hpassed]
    have hroute : Present { s with currentRouteRoundCoords := coords } := h.congr rfl rfl rfl
    exact (hroute.setPrioCoord v location).congr rfl rfl rfl
  · exact h.outside hconfined.toOutside

/-- A worker that leaves no entry, or takes it with it. -/
theorem unregisterWorker (h : Present s) (hfree : s.updating = none) {remove : Bool}
    (hleaves : LeavesNoEntry s (.unregisterWorker w remove)) : Present (s.unregisterWorker g w remove) := by
  have hothers : ∀ {v}, v ∈ s.routepool.keys → v ≠ w → v ∈ s.workersRegistered.filter fun v => v ≠ w :=
    fun hv hvw => List.mem_filter.mpr ⟨h.routepool _ hv, decide_eq_true hvw⟩
  have hnone : ∀ update ∈ s.updating, ∀ v ∈ update.pool.keys, v ∈ s.workersRegistered.filter fun v => v ≠ w := by
    intro update hupdate
    rw [hfree] at hupdate
    cases hupdate
  unfold State.unregisterWorker
  dsimp only
  split
  · apply startUnawaited
    refine ⟨?_, hnone⟩
    intro v hv
    obtain ⟨r, hr⟩ := Dict.mem_keys_iff.mp (show v ∈ (s.routepool.erase w).keys from hv)
    rw [Dict.get?_erase] at hr
    split at hr
    · cases hr
    · next hvw => exact hothers (Dict.mem_keys_iff.mpr ⟨r, hr⟩) hvw
  · next hremove =>
    have hw : w ∉ s.routepool.keys := by
      cases remove with
      | false => exact hleaves
      | true => exact fun hw => hremove (by rw [Bool.true_and, Dict.isSome_get?_iff]; exact hw)
    exact ⟨fun v hv => hothers hv fun heq => hw (heq ▸ hv), hnone⟩

theorem step [Field K] {a : Action K} (h : Present s) (hwf : WellFormed s) (hleaves : LeavesNoEntry s a)
    (hs : Step g m s a t) : Present t := by
  cases hs with
  | @getNextLocation w now last hw hnow =>
    have htime : Present (s.setTime now) := h.congr rfl rfl rfl
    exact htime.getNextLocation (hwf.setTime now) w now
  | awaitStart hw => exact h.congr rfl rfl rfl
  | @started w now hw hnow =>
    have htime : Present (s.setTime now) := h.congr rfl rfl rfl
    exact htime.lookUpEntry (hwf.setTime now) hleaves now
  | notStarted hw => exact h.congr rfl rfl rfl
  | @popEvent w r again now due location hw hnow =>
    have htime : Present (s.setTime now) := h.congr rfl rfl rfl
    apply htime.popEvent (hwf.setTime now)
    show (s.calls _).ref? = _
    rw [hw]
    rfl
  | @noEvent w r again hw =>
    have hkept := hwf.kept (w := w) (r := r) (by rw [hw]; rfl)
    exact h.outside (moveOn_confined (m := m) hwf.live hkept.1).toOutside
  | anyCoordsLeft left hw => exact h.congr rfl rfl rfl
  | calculated newRoute hw hfree =>
    have hroute : Present (s.setRoute newRoute) := h.congr rfl rfl rfl
    unfold State.calculated
    dsimp only
    split
    · exact hroute.congr rfl rfl rfl
    · next hpool => exact (hroute.startUpdate hpool (some _)).congr rfl rfl rfl
  | @startUpdate w t hfree ht =>
    unfold State.startUpdate at ht
    split at ht
    · cases ht; exact h.outside (joined_confined (m := m) hwf.live false).toOutside
    · next r hw _ =>
      cases ht
      have hkept := hwf.kept (w := w) (r := r) (by rw [hw]; rfl)
      exact h.outside (refilled_confined (m := m) hwf.live hkept.1 false).toOutside
    · next hpool => cases ht; exact h.startUpdate hpool (some w)
    · next hpool => cases ht; exact h.startUpdate hpool (some w)
    · cases ht
  | @finishUpdate update hupdating =>
    have hconfined : Confined m (update.holder.getD "") ((s.install update.pool).setUpdating none)
        (s.finishUpdate m update) :=
      hwf.finishUpdate_confined fun u hu => by rw [hu]; rfl
    exact (h.install hupdating).outside hconfined.toOutside
  | fetchStops locationsOfStops => exact h.congr rfl rfl rfl
  | calculateRoute newRoute hfree =>
    have hroute : Present (s.setRoute newRoute) := h.congr rfl rfl rfl
    exact hroute.startUnawaited g
  | registerWorker w => exact h.registerWorker w
  | unregisterWorker w remove hfree => exact h.unregisterWorker hfree hleaves
  | redoStopImmediately w location => exact h.setPrioCoord w location
  | redoStopAtEnd w location => exact h.outside (redoStopAtEnd_confined (m := m) hwf.live location).toOutside
  | addCoordToBeRemoved location =>
    unfold State.addCoordToBeRemoved
    split
    · exact h
    · exact h.congr rfl rfl rfl
  | setWorkerStartposition w location => exact h.congr rfl rfl rfl

end Present

/-! ## Runs -/

/-- In a run where no entry of an unregistered worker is left behind, every event is passed on to the
closest worker that can take it. -/
theorem passedOn_rightly [Field K] [LinearOrder K] {s₀ : State K} {l : List (Action K)} (h0 : Initial s₀)
    (hs : Run (step g m) LeavesNoEntry s₀ l s) (location : Location K) (w : Origin) :
    PassesOnRightly g s location w := by
  have hall : WellFormed s ∧ Present s := by
    refine hs.invariant (I := fun s => WellFormed s ∧ Present s) ⟨h0.wellFormed, .initial h0⟩ ?_
    intro s a t hinv hleaves hstep
    obtain ⟨hwf, hpresent⟩ := hinv
    exact ⟨hwf.step (step_some hstep), hpresent.step hwf hleaves (step_some hstep)⟩
  refine (passesOnRightly_iff hall.1.live).mpr fun v hcloser => ?_
  obtain ⟨_, r, hr, _⟩ := otherWorkerCloserToPrioq_some hcloser
  exact hall.2.routepool v (Dict.mem_keys_iff.mpr ⟨r, hr⟩)

/-- Two workers that got their first locations. -/
def bothMove : List (Action ℚ) := [.getNextLocation "a" 0, .startUpdate "a", .finishUpdate, .noEvent "a",
  .getNextLocation "b" 1, .startUpdate "b", .finishUpdate, .noEvent "b"]

def bothMoved : State ℚ := after (step plane mon) LeavesNoEntry twoWorkers bothMove

theorem passedOn_rightly_nine : PassesOnRightly plane bothMoved ⟨0, 9⟩ "a" :=
  passedOn_rightly twoWorkers_initial (.of_after (by decide +kernel)) _ _

/-- The second worker is gone, but not its entry. -/
def secondGone : State ℚ := after (step plane mon) Any bothMoved [.unregisterWorker "b" false]

theorem passed_on_to_absent : ¬ ∀ (g : Geo ℚ) (m : Manager ℚ) (s₀ s : State ℚ) (l : List (Action ℚ))
    (location : Location ℚ) (w : Origin), Initial s₀ → Run (step g m) Any s₀ l s →
    PassesOnRightly g s location w := by
  intro h
  have hmoved : Run (step plane mon) LeavesNoEntry twoWorkers bothMove bothMoved := .of_after (by decide +kernel)
  have hgone : Run (step plane mon) Any bothMoved [.unregisterWorker "b" false] secondGone :=
    .of_after (by decide +kernel)
  have hrun := (hmoved.mono fun _ _ _ => trivial).append hgone
  have hright := h _ _ _ _ _ ⟨0, 9⟩ "a" twoWorkers_initial hrun
  have hwf := twoWorkers_initial.wellFormed.run hrun
  have hregistered := (passesOnRightly_iff hwf.live).mp hright "b" (by decide +kernel)
  exact absurd hregistered (by decide +kernel)

/-- The second worker is unregistered with its entry while its call waits for a calculation. -/
def waitedTooLong : List (Action ℚ) := [.getNextLocation "a" 0, .startUpdate "a", .finishUpdate, .noEvent "a",
  .awaitStart "b", .unregisterWorker "b" true, .started "b" 1, .startUpdate "b", .finishUpdate, .noEvent "b"]

/-- Then its call makes an entry for it, and the event goes there. -/
theorem passed_on_to_waiting :
    ¬ PassesOnRightly plane (after (step plane mon) Any twoWorkers waitedTooLong) ⟨0, 9⟩ "a" := by
  intro hright
  have hrun : Run (step plane mon) Any twoWorkers waitedTooLong
      (after (step plane mon) Any twoWorkers waitedTooLong) := .of_after (by decide +kernel)
  have hwf := twoWorkers_initial.wellFormed.run hrun
  have hregistered := (passesOnRightly_iff hwf.live).mp hright "b" (by decide +kernel)
  exact absurd hregistered (by decide +kernel)

end MapADroid.Route
