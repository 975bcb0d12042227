import MapADroid.Route.Invariant

/- Prio events that are passed on to a closer worker.

   The event is put into the entry the worker has in the routepool. An update that has
   pickled the routepool by then replaces this entry by a copy without the event, and the
   event is lost (`prio_event_lost`). It stays where the event is passed on while no copy
   of the entry is about to replace it (`prio_event_kept`). -/
namespace MapADroid.Route
open Lib

variable {K : Type} {g : Geo K} {m : Manager K} {s t : State K} {v w : Origin} {r : Ref}
  {location : Location K}

/-- The entry of the worker in the routepool holds the event. -/
def Holds (s : State K) (w : Origin) (location : Location K) : Prop :=
  (s.entryOf? w).bind RoutePoolEntry.prioCoord = some location

/-- No update in progress replaces the entry of the worker. -/
def NoCopy (s : State K) (w : Origin) : Prop := ∀ update ∈ s.updating, w ∉ update.pool.keys

/-- The action puts an event into the entry of the worker that no other worker passed on. -/
def redoes (w : Origin) : Action K → Bool
  | .redoStopImmediately v _ => v = w
  | _ => false

/-- The event is in the entry of the worker and in the copy that replaces it. -/
structure Kept (s : State K) (w : Origin) (location : Location K) : Prop where
  holds : Holds s w location
  copy : ∀ {update}, s.updating = some update → ∀ entry, update.pool.get? w = some entry →
    entry.prioCoord = some location

theorem holds_iff : Holds s w location ↔
    ∃ r, s.routepool.get? w = some r ∧ (s.heap r).prioCoord = some location := by
  unfold Holds State.entryOf?
  rw [Option.bind_map]
  exact Option.bind_eq_some_iff

namespace Kept

/-- Nothing changes but what is not looked at. -/
theorem of_prioCoord (h : Kept s w location) (hpool : t.routepool = s.routepool)
    (hupdating : t.updating = s.updating)
    (hprio : ∀ r, s.routepool.get? w = some r → (t.heap r).prioCoord = (s.heap r).prioCoord) :
    Kept t w location := by
  obtain ⟨r, hr, hlocation⟩ := holds_iff.mp h.holds
  refine ⟨holds_iff.mpr ⟨r, hpool ▸ hr, ?_⟩, ?_⟩
  · rw [hprio r hr]
    exact hlocation
  · intro update hupdate
    exact h.copy (hupdating ▸ hupdate)

theorem confined (h : Kept s w location) (ht : Confined m v s t) : Kept t w location :=
  h.of_prioCoord ht.routepool ht.updating fun r _ => ht.prioCoord r

theorem outside (h : Kept s w location) (hlive : LiveOwn s) (hvw : v ≠ w) (ht : Outside m v s t) :
    Kept t w location := by
  apply h.of_prioCoord ht.routepool ht.updating
  intro r hr
  rw [ht.heap r fun horigin => hvw (horigin.symm.trans (hlive hr).1)]

/-- An assignment to `prio_coord` of the entry of another worker. -/
theorem setPrioCoord (h : Kept s w location) (hlive : LiveOwn s) (hvw : v ≠ w) (l : Location K) :
    Kept (s.setPrioCoord v l) w location := by
  unfold State.setPrioCoord
  split
  · exact h
  next r' hr' =>
  refine h.of_prioCoord rfl rfl ?_
  intro r hr
  have hne : r ≠ r' := fun heq => hvw ((hlive hr').1.symm.trans ((congrArg Ref.origin heq).symm.trans
    (hlive hr).1))
  rw [State.modifyEntry_heap_of_ne _ _ _ hne]

variable [LinearOrder K]

/-- An update that starts pickles the event. -/
theorem startUpdate (h : Kept s w location) {pool : Routepool K} (hpool : s.workerChanged g = some pool)
    (holder : Option Origin) : Kept (s.setUpdating (some ⟨holder, pool⟩)) w location := by
  refine ⟨h.holds, ?_⟩
  intro update hupdate entry hentry
  cases hupdate
  obtain ⟨r, hr, hlocation⟩ := holds_iff.mp h.holds
  have hget := (divided_workerChanged hpool).get? w
  rw [get?_pickled, entryOf?_eq_some.mpr ⟨r, hr, rfl⟩] at hget
  rw [show (pool.get? w) = some entry from hentry] at hget
  -- A worker without a place has no copy; the others' copies differ in route and queue.
  split at hget
  · cases hget
    exact hlocation
  · cases hget

theorem startUnawaited (h : Kept s w location) (g : Geo K) : Kept (s.startUnawaited g) w location := by
  unfold State.startUnawaited
  split
  · exact h
  · next hpool => exact h.startUpdate hpool none

omit [LinearOrder K] in
/-- The copy of the entry is put into place. -/
theorem install (h : Kept s w location) {update : Update K} (hupdate : s.updating = some update)
    (hw : w ∈ (s.install update.pool).routepool.keys) :
    Kept ((s.install update.pool).setUpdating none) w location := by
  refine ⟨?_, fun hnone => by cases hnone⟩
  obtain ⟨r, hr⟩ := Dict.mem_keys_iff.mp hw
  rw [get?_install] at hr
  obtain ⟨entry, hentry, _⟩ := Option.map_eq_some_iff.mp hr
  show ((s.install update.pool).entryOf? w).bind RoutePoolEntry.prioCoord = _
  rw [entryOf?_install, hentry]
  exact h.copy hupdate entry hentry

omit [LinearOrder K] in
/-- A new entry is for another worker. -/
theorem create [Field K] (h : Kept s w location) (hlive : LiveOwn s)
    (hv : s.routepool.get? v = none) (now : ℚ) : Kept (s.create v now) w location := by
  obtain ⟨r, hr, hlocation⟩ := holds_iff.mp h.holds
  have hvw : w ≠ v := by
    intro heq
    rw [heq, hv] at hr
    cases hr
  have hne : r ≠ ⟨s.next, v⟩ := fun heq => hvw ((hlive hr).1.symm.trans (congrArg Ref.origin heq))
  refine ⟨holds_iff.mpr ⟨r, ?_, ?_⟩, h.copy⟩
  · show (s.routepool.insert v ⟨s.next, v⟩).get? w = some r
    rw [Dict.get?_insert_of_ne hvw, hr]
  · rw [show (s.create v now).heap r = s.heap r from State.setEntry_heap_of_ne _ _ _ hne]
    exact hlocation

/-- A call of another worker, or one that does not find the event. -/
theorem lookUpEntry [Field K] (h : Kept s w location) (hlive : LiveOwn s) (now : ℚ)
    (hreturns : (s.lookUpEntry m v now).calls v = .returned (some location) → v ≠ w) :
    Kept (s.lookUpEntry m v now) w location := by
  rcases lookUpEntry_cases m s v now with ⟨hnone, heq⟩ | ⟨r, prioevent, hr, hprio, heq⟩ | ⟨r, hr, _, heq⟩
  · rw [heq]
    exact h.create hlive hnone now
  · rw [heq] at hreturns ⊢
    by_cases hvw : v = w
    · -- The event that is taken is the one `w` holds.
      obtain ⟨r', hr', hlocation⟩ := holds_iff.mp h.holds
      rw [← hvw, hr, Option.some.injEq] at hr'
      rw [← hr', hprio] at hlocation
      cases hlocation
      exact absurd hvw (hreturns (State.setCall_calls_self ..))
    · exact h.outside hlive hvw (takePrio_outside (m := m) hlive (hlive hr).1 prioevent)
  · rw [heq]
    exact h.confined (withEntry_confined (m := m) hlive (hlive hr).1)

theorem getNextLocation [Field K] (h : Kept s w location) (hlive : LiveOwn s) (now : ℚ)
    (hreturns : (s.getNextLocation m v now).calls v = .returned (some location) → v ≠ w) :
    Kept (s.getNextLocation m v now) w location := by
  rcases getNextLocation_cases m s v now with ⟨_, heq⟩ | ⟨_, heq⟩
  · rw [heq]
    exact h.confined (m := m) (.setCall _)
  · rw [heq] at hreturns ⊢
    exact h.lookUpEntry hlive now hreturns

theorem popEvent (h : Kept s w location) (hlive : LiveOwn s) (hr : r.origin = v) (again : Bool)
    (due now : ℚ) (l : Location K) : Kept (s.popEvent g m v r again due l now) w location := by
  rcases popEvent_cases (g := g) (m := m) hlive hr again due now l
    with ⟨u, hu, heq⟩ | ⟨hconfined, _⟩
  · have hroute : Confined m v s (s.removeFromRoute m l) := .removeFromRoute l
    have hkept := h.confined hroute
    obtain ⟨_, r', hr', hnone⟩ := otherWorkerCloserToPrioq_some hu
    -- The worker it is passed to has no event, and is not `w`.
    have huw : u ≠ w := by
      intro heq
      obtain ⟨r'', hr'', hlocation⟩ := holds_iff.mp h.holds
      rw [heq, hr'', Option.some.injEq] at hr'
      rw [hr', hnone] at hlocation
      cases hlocation
    rw [heq]
    exact (hkept.setPrioCoord (hroute.liveOwn hlive) huw l).confined (m := m) (v := v) (.setCall _)
  · exact h.confined hconfined

theorem finishUpdate (h : Kept s w location) (hwf : WellFormed s) {update : Update K}
    (hupdate : s.updating = some update) (hw : w ∈ (s.finishUpdate m update).routepool.keys) :
    Kept (s.finishUpdate m update) w location := by
  have hconfined : Confined m (update.holder.getD w) ((s.install update.pool).setUpdating none)
      (s.finishUpdate m update) :=
    hwf.finishUpdate_confined fun u hu => by rw [hu]; rfl
  rw [hconfined.routepool] at hw
  exact (h.install hupdate hw).confined hconfined

theorem unregisterWorker (h : Kept s w location) {remove : Bool}
    (hw : w ∈ (s.unregisterWorker g v remove).routepool.keys) :
    Kept (s.unregisterWorker g v remove) w location := by
  unfold State.unregisterWorker at hw ⊢
  simp only at hw ⊢
  split
  · next hremove =>
    rw [if_pos hremove] at hw
    apply startUnawaited
    have hkeys : w ∈ (s.routepool.erase v).keys := by
      unfold State.startUnawaited at hw
      split at hw <;> exact hw
    obtain ⟨r, hr, hlocation⟩ := holds_iff.mp h.holds
    -- `w` stays in the routepool, so it is not the worker that is unregistered.
    have hvw : w ≠ v := by
      rintro rfl
      obtain ⟨r', hr'⟩ := Dict.mem_keys_iff.mp hkeys
      rw [Dict.get?_erase_self] at hr'
      cases hr'
    refine ⟨holds_iff.mpr ⟨r, ?_, hlocation⟩, h.copy⟩
    show (s.routepool.erase v).get? w = some r
    rw [Dict.get?_erase, if_neg hvw, hr]
  · exact h.of_prioCoord rfl rfl fun _ _ => rfl

/-- A step that leaves the worker in the routepool, does not put another event into its
entry and does not return the event to it. -/
theorem step [Field K] {a : Action K} (h : Kept s w location) (hwf : WellFormed s)
    (hs : Step g m s a t) (hstays : w ∈ t.routepool.keys)
    (hredo : redoes w a = false) (hreturns : ¬ Returns s a t w (some location)) :
    Kept t w location := by
  cases hs with
  | @getNextLocation v now last hv hnow =>
    have htime : Kept (s.setTime now) w location := h.of_prioCoord rfl rfl fun _ _ => rfl
    apply htime.getNextLocation (hwf.setTime now).live now
    rintro hreturned rfl
    exact hreturns ⟨rfl, hreturned⟩
  | awaitStart hv => exact h.confined (m := m) (.setCall _)
  | @started v now hv hnow =>
    have htime : Kept (s.setTime now) w location := h.of_prioCoord rfl rfl fun _ _ => rfl
    apply htime.lookUpEntry (hwf.setTime now).live now
    rintro hreturned rfl
    exact hreturns ⟨rfl, hreturned⟩
  | notStarted hv => exact h.confined (m := m) (.setCall _)
  | @popEvent v r again now due l hv hnow =>
    have htime : Kept (s.setTime now) w location := h.of_prioCoord rfl rfl fun _ _ => rfl
    have hkept := hwf.kept (w := v) (r := r) (by rw [hv]; rfl)
    exact htime.popEvent (hwf.setTime now).live hkept.1 again due now l
  | @noEvent v r again hv =>
    have hkept := hwf.kept (w := v) (r := r) (by rw [hv]; rfl)
    exact h.confined (moveOn_confined (m := m) hwf.live hkept.1)
  | anyCoordsLeft left hv => exact h.confined (m := m) (.setCall _)
  | @calculated v r newRoute hv hfree =>
    have hroute : Kept (s.setRoute newRoute) w location := h.of_prioCoord rfl rfl fun _ _ => rfl
    unfold State.calculated
    simp only
    split
    · exact hroute.confined (m := m) (.setCall _)
    · next hpool => exact (hroute.startUpdate hpool (some v)).confined (m := m) (.setCall _)
  | @startUpdate v t hfree ht =>
    unfold State.startUpdate at ht
    split at ht
    · cases ht; exact h.confined (joined_confined (m := m) hwf.live false)
    · next r hv _ =>
      cases ht
      have hkept := hwf.kept (w := v) (r := r) (by rw [hv]; rfl)
      exact h.confined (refilled_confined (m := m) hwf.live hkept.1 false)
    · next hpool => cases ht; exact h.startUpdate hpool (some v)
    · next hpool => cases ht; exact h.startUpdate hpool (some v)
    · cases ht
  | finishUpdate hupdating => exact h.finishUpdate hwf hupdating hstays
  | fetchStops locationsOfStops => exact h.of_prioCoord rfl rfl fun _ _ => rfl
  | calculateRoute newRoute hfree =>
    have hroute : Kept (s.setRoute newRoute) w location := h.of_prioCoord rfl rfl fun _ _ => rfl
    exact hroute.startUnawaited g
  | registerWorker v =>
    unfold State.registerWorker
    split
    · exact h
    · exact h.of_prioCoord rfl rfl fun _ _ => rfl
  | unregisterWorker v remove hfree => exact h.unregisterWorker hstays
  | redoStopImmediately v l =>
    have hvw : v ≠ w := by
      rintro rfl
      simp [redoes] at hredo
    exact h.setPrioCoord hwf.live hvw l
  | redoStopAtEnd v l => exact h.confined (redoStopAtEnd_confined (m := m) hwf.live l)
  | addCoordToBeRemoved l =>
    unfold State.addCoordToBeRemoved
    split
    · exact h
    · exact h.of_prioCoord rfl rfl fun _ _ => rfl
  | setWorkerStartposition v l => exact h.of_prioCoord rfl rfl fun _ _ => rfl

end Kept

/-! ## Runs -/

variable [Field K] [LinearOrder K]

/-- The action passes the event on to `w`. -/
def PassesOn (g : Geo K) (m : Manager K) (s : State K) (w : Origin) (location : Location K) :
    Action K → Prop
  | .popEvent v due l now => l = location ∧ s.checkCoords m l = true ∧
      s.otherWorkerCloserToPrioq g l v = some w ∧
      ∃ r again, s.calls v = .popping r again ∧ (again = true ∨ due ≤ now)
  | _ => False

/-- The action leaves `w` in the routepool, does not put another event into its entry and
does not return the event to it. -/
def Leaves (g : Geo K) (m : Manager K) (w : Origin) (location : Location K) (s : State K)
    (a : Action K) : Prop :=
  (∀ t ∈ step g m s a, w ∈ t.routepool.keys ∧ ¬ Returns s a t w (some location)) ∧
    redoes w a = false

omit [Field K] [LinearOrder K] in
/-- Where no update has a copy of the entry, the event is kept from the start. -/
theorem Kept.put (hr : s.routepool.get? w = some r) (hcopy : NoCopy s w) (location : Location K) :
    Kept (s.setPrioCoord w location) w location := by
  have hset : s.setPrioCoord w location = s.modifyEntry r fun entry =>
      { entry with prioCoord := some location } := by
    unfold State.setPrioCoord
    simp only [hr]
  rw [hset]
  refine ⟨holds_iff.mpr ⟨r, hr, by rw [State.modifyEntry_heap_self]⟩, ?_⟩
  intro update hupdate entry hentry
  exact absurd (Dict.mem_keys_iff.mpr ⟨entry, hentry⟩) (hcopy update hupdate)

theorem PassesOn.kept {a : Action K} (h : PassesOn g m s w location a) (hcopy : NoCopy s w)
    (hs : Step g m s a t) : Kept t w location := by
  cases hs with
  | @popEvent v r again now due l hv hnow =>
    obtain ⟨rfl, hcheck, hcloser, r', again', hv', hdue⟩ := h
    rw [hv, Call.popping.injEq] at hv'
    obtain ⟨rfl, rfl⟩ := hv'
    have heq : (s.setTime now).popEvent g m v r again due l now = passedOn m (s.setTime now) v w r l :=
      popEvent_passedOn hdue hcheck hcloser
    obtain ⟨coords, hpassed⟩ := passedOn_eq m (s.setTime now) v w r l
    rw [heq, hpassed]
    obtain ⟨_, r', hr', _⟩ := otherWorkerCloserToPrioq_some hcloser
    have hput := Kept.put (s := { s.setTime now with currentRouteRoundCoords := coords }) hr' hcopy l
    exact hput.confined (m := m) (v := v) (.setCall _)
  | _ => exact h.elim

/-- An event that is passed on to a worker stays in its entry, whatever the calls and the
updates do, until a call of this worker returns it. -/
theorem prio_event_kept {s₀ u : State K} {l l' : List (Action K)} {a : Action K} (h0 : Initial s₀)
    (hs : Run (step g m) Any s₀ l s) (hpass : PassesOn g m s w location a) (hcopy : NoCopy s w)
    (ht : step g m s a = some t) (hu : Run (step g m) (Leaves g m w location) t l' u) :
    Holds u w location := by
  have hwf : WellFormed s := h0.wellFormed.run hs
  have hstep := step_some ht
  have hall : WellFormed u ∧ Kept u w location := by
    refine hu.invariant (I := fun u => WellFormed u ∧ Kept u w location)
      ⟨hwf.step hstep, hpass.kept hcopy hstep⟩ ?_
    intro t a u hinv hleave hu
    obtain ⟨hwf, hkept⟩ := hinv
    obtain ⟨hleaves, hredo⟩ := hleave
    have hstep := step_some hu
    obtain ⟨hstays, hreturns⟩ := hleaves u hu
    exact ⟨hwf.step hstep, hkept.step hwf hstep hstays hredo hreturns⟩
  exact hall.2.holds

/-! ## Two workers -/

instance (s : State K) (a : Action K) (t : State K) (w : Origin) (location : Option (Location K)) :
    Decidable (Returns s a t w location) := inferInstanceAs (Decidable (_ ∧ _))

instance (w : Origin) (location : Location K) (s : State K) (a : Action K) :
    Decidable (Leaves g m w location s a) := inferInstanceAs (Decidable (_ ∧ _))

/-- A route of two locations and two registered workers; the manager has a prio queue. -/
def twoWorkers : State ℚ where
  heap _ := ⟨[], 0, [], 0, ⟨0, 0⟩, none, .normal⟩
  next := 0
  routepool := Dict.empty
  route := [⟨0, 0⟩, ⟨0, 10⟩]
  currentRouteRoundCoords := [⟨0, 0⟩, ⟨0, 10⟩]
  coordsToBeIgnored := []
  stoplist := []
  workersRegistered := ["a", "b"]
  workerStartPosition := Dict.empty
  roundcount := 0
  updating := none
  calls _ := .returned none
  time := 0

abbrev mon : Manager ℚ := normalManager ℚ true false

/-- Each worker gets the location of its subroute, and both ask for the next one. -/
def bothAsk : List (Action ℚ) := [.getNextLocation "a" 0, .startUpdate "a", .finishUpdate, .noEvent "a",
  .getNextLocation "b" 1, .startUpdate "b", .finishUpdate, .noEvent "b",
  .getNextLocation "a" 2, .getNextLocation "b" 2]

def bothAsked : State ℚ := after (step plane mon) Any twoWorkers bothAsk

/-- An event closer to the second worker. -/
def eventAtNine : Action ℚ := .popEvent "a" 0 ⟨0, 9⟩ 3

def passed : State ℚ := after (step plane mon) Any bothAsked [eventAtNine]

/-- The second worker has no event and gets a new queue. -/
def refilledAfter : State ℚ :=
  after (step plane mon) (Leaves plane mon "b" ⟨0, 9⟩) passed
    [.noEvent "b", .startUpdate "b", .finishUpdate]

theorem twoWorkers_initial : Initial twoWorkers := ⟨rfl, rfl, fun _ => rfl⟩

theorem prio_event_kept_refilled : Holds refilledAfter "b" ⟨0, 9⟩ :=
  prio_event_kept (s := bothAsked) (t := passed) (a := eventAtNine) twoWorkers_initial
    (.of_after (by decide +kernel))
    ⟨rfl, rfl, by decide +kernel, ⟨3, "a"⟩, false, by decide +kernel, Or.inr (by decide +kernel)⟩
    (by unfold NoCopy; decide +kernel) (step_after trivial (by decide +kernel))
    (.of_after (by decide +kernel))

/-- The second worker awaits its new queue when the event is passed on to it. -/
def updating : State ℚ := after (step plane mon) Any bothAsked [.noEvent "b", .startUpdate "b"]

def passedLate : State ℚ := after (step plane mon) Any updating [eventAtNine]

def updated : State ℚ :=
  after (step plane mon) (Leaves plane mon "b" ⟨0, 9⟩) passedLate [.finishUpdate]

theorem prio_event_lost : ¬ ∀ (g : Geo ℚ) (m : Manager ℚ) (s₀ s t u : State ℚ)
    (l l' : List (Action ℚ)) (a : Action ℚ) (w : Origin) (location : Location ℚ), Initial s₀ →
    Run (step g m) Any s₀ l s → PassesOn g m s w location a → step g m s a = some t →
    Run (step g m) (Leaves g m w location) t l' u → Holds u w location := by
  intro h
  have hbefore : Run (step plane mon) Any twoWorkers bothAsk bothAsked :=
    .of_after (by decide +kernel)
  have hrun := hbefore.append (.of_after (by decide +kernel) :
    Run (step plane mon) Any bothAsked [.noEvent "b", .startUpdate "b"] updating)
  have hpasses : PassesOn plane mon updating "b" ⟨0, 9⟩ eventAtNine :=
    ⟨rfl, rfl, by decide +kernel, ⟨3, "a"⟩, false, by decide +kernel, Or.inr (by decide +kernel)⟩
  have hholds := h _ _ _ _ passedLate updated _ _ _ "b" ⟨0, 9⟩ twoWorkers_initial hrun hpasses
    (step_after trivial (by decide +kernel)) (.of_after (by decide +kernel))
  exact absurd hholds (by unfold Holds; decide +kernel)

end MapADroid.Route
