import MapADroid.Route.Manager

/- What a section of a call changes, and what the references of a route manager point to.

   A section runs in one call and assigns to entries of its worker, be it the one in the
   routepool or the one the call keeps (`Confined`). Two things go beyond that: a call
   takes the event that was passed on to its worker, and it passes one on to another. -/
namespace MapADroid.Route
open Lib

variable {K : Type} {m : Manager K} {s t u : State K} {v w : Origin} {r : Ref}

/-- `t` is `s` but for the call of `w`, the entries of `w`, the round count and, where
coords are deleted, the coords of the round. -/
structure Outside (m : Manager K) (w : Origin) (s t : State K) : Prop where
  heap : ∀ r, r.origin ≠ w → t.heap r = s.heap r
  timeAdded : ∀ r, (t.heap r).timeAdded = (s.heap r).timeAdded
  calls : ∀ v, v ≠ w → t.calls v = s.calls v
  next : t.next = s.next
  routepool : t.routepool = s.routepool
  updating : t.updating = s.updating
  route : t.route = s.route
  coords : m.deleteCoordAfterFetch = false → t.currentRouteRoundCoords = s.currentRouteRoundCoords
  ignored : t.coordsToBeIgnored = s.coordsToBeIgnored
  registered : t.workersRegistered = s.workersRegistered
  time : t.time = s.time

/-- And no event that was passed on is touched. -/
structure Confined (m : Manager K) (w : Origin) (s t : State K) : Prop extends
    Outside m w s t where
  prioCoord : ∀ r, (t.heap r).prioCoord = (s.heap r).prioCoord

/-- The worker's entries in the routepool are its own, and no reference is made yet. -/
def LiveOwn (s : State K) : Prop :=
  ∀ {w r}, s.routepool.get? w = some r → r.origin = w ∧ r.made < s.next

/-- The references of a state are their worker's, and the next ones are new. -/
structure WellFormed (s : State K) : Prop where
  live : LiveOwn s
  kept : ∀ {w r}, (s.calls w).ref? = some r → r.origin = w ∧ r.made < s.next

/-- A started manager: no entries, no update, no calls. -/
structure Initial (s : State K) : Prop where
  routepool : s.routepool = Dict.empty
  updating : s.updating = none
  calls : ∀ w, (s.calls w).ref? = none

theorem Initial.wellFormed (h : Initial s) : WellFormed s := by
  refine ⟨?_, ?_⟩
  · intro w r hr
    rw [h.routepool, Dict.get?_empty] at hr
    cases hr
  · intro w r hr
    rw [h.calls w] at hr
    cases hr

/-! ## Entries -/

theorem entryOf?_eq_some {entry : RoutePoolEntry K} :
    s.entryOf? w = some entry ↔ ∃ r, s.routepool.get? w = some r ∧ s.heap r = entry :=
  Option.map_eq_some_iff

theorem get?_pickled (s : State K) (w : Origin) : s.pickled.get? w = s.entryOf? w := by
  unfold State.pickled State.entryOf?
  rw [Dict.get?_mapValues]

theorem get?_install (s : State K) (pool : Routepool K) (w : Origin) :
    (s.install pool).routepool.get? w = (pool.get? w).map fun _ => ⟨s.next, w⟩ :=
  Dict.get?_mapValues _ _ _

/-- The entries in the routepool are the copies. -/
theorem entryOf?_install (s : State K) (pool : Routepool K) (w : Origin) :
    (s.install pool).entryOf? w = pool.get? w := by
  unfold State.entryOf?
  rw [get?_install]
  cases hentry : pool.get? w with
  | none => rfl
  | some entry =>
    show some (if s.next = s.next then (pool.get? w).getD _ else _) = some entry
    rw [if_pos rfl, hentry]
    rfl

/-! ## What a section changes -/

namespace Outside

theorem trans (h : Outside m w s t) (h' : Outside m w t u) : Outside m w s u where
  heap r hr := (h'.heap r hr).trans (h.heap r hr)
  timeAdded r := (h'.timeAdded r).trans (h.timeAdded r)
  calls v hv := (h'.calls v hv).trans (h.calls v hv)
  next := h'.next.trans h.next
  routepool := h'.routepool.trans h.routepool
  updating := h'.updating.trans h.updating
  route := h'.route.trans h.route
  coords hm := (h'.coords hm).trans (h.coords hm)
  ignored := h'.ignored.trans h.ignored
  registered := h'.registered.trans h.registered
  time := h'.time.trans h.time

theorem modifyEntry {f : RoutePoolEntry K → RoutePoolEntry K} (hr : r.origin = w)
    (htime : ∀ entry, (f entry).timeAdded = entry.timeAdded) :
    Outside m w s (s.modifyEntry r f) where
  heap r' hr' := State.modifyEntry_heap_of_ne _ _ _ fun h => hr' (by rw [h, hr])
  timeAdded r' := by
    by_cases h : r' = r
    · rw [h, State.modifyEntry_heap_self, htime]
    · rw [State.modifyEntry_heap_of_ne _ _ _ h]
  calls _ _ := rfl
  next := rfl
  routepool := rfl
  updating := rfl
  route := rfl
  coords _ := rfl
  ignored := rfl
  registered := rfl
  time := rfl

end Outside

namespace Confined

theorem trans (h : Confined m w s t) (h' : Confined m w t u) : Confined m w s u where
  toOutside := h.toOutside.trans h'.toOutside
  prioCoord r := (h'.prioCoord r).trans (h.prioCoord r)

/-- Of states that differ in what is not looked at. -/
theorem of_eq (hheap : t.heap = s.heap) (hcalls : ∀ v, v ≠ w → t.calls v = s.calls v)
    (hnext : t.next = s.next) (hpool : t.routepool = s.routepool)
    (hupdating : t.updating = s.updating) (hroute : t.route = s.route)
    (hcoords : m.deleteCoordAfterFetch = false →
      t.currentRouteRoundCoords = s.currentRouteRoundCoords)
    (hignored : t.coordsToBeIgnored = s.coordsToBeIgnored)
    (hregistered : t.workersRegistered = s.workersRegistered) (htime : t.time = s.time) :
    Confined m w s t :=
  ⟨⟨fun _ _ => by rw [hheap], fun _ => by rw [hheap], hcalls, hnext, hpool, hupdating, hroute,
    hcoords, hignored, hregistered, htime⟩, fun _ => by rw [hheap]⟩

theorem refl : Confined m w s s :=
  of_eq rfl (fun _ _ => rfl) rfl rfl rfl rfl (fun _ => rfl) rfl rfl rfl

theorem setCall (call : Call K) : Confined m w s (s.setCall w call) :=
  of_eq rfl (fun _ hv => State.setCall_calls_of_ne _ _ _ hv) rfl rfl rfl rfl (fun _ => rfl) rfl rfl rfl

theorem setRoundcount (n : ℚ) : Confined m w s { s with roundcount := n } :=
  of_eq rfl (fun _ _ => rfl) rfl rfl rfl rfl (fun _ => rfl) rfl rfl rfl

theorem removeFromRoute [LinearOrder K] (location : Location K) :
    Confined m w s (s.removeFromRoute m location) := by
  unfold State.removeFromRoute
  split
  · next hm =>
    exact of_eq rfl (fun _ _ => rfl) rfl rfl rfl rfl (fun h => by rw [h] at hm; cases hm) rfl rfl rfl
  · exact refl

theorem modifyEntry {f : RoutePoolEntry K → RoutePoolEntry K} (hr : r.origin = w)
    (htime : ∀ entry, (f entry).timeAdded = entry.timeAdded)
    (hprio : ∀ entry, (f entry).prioCoord = entry.prioCoord) :
    Confined m w s (s.modifyEntry r f) where
  toOutside := .modifyEntry hr htime
  prioCoord r' := by
    by_cases h : r' = r
    · rw [h, State.modifyEntry_heap_self, hprio]
    · rw [State.modifyEntry_heap_of_ne _ _ _ h]

theorem setRoutepoolEntryLocation (hlive : LiveOwn s) (pos : Location K) :
    Confined m w s (s.setRoutepoolEntryLocation w pos) := by
  unfold State.setRoutepoolEntryLocation
  split
  · exact refl
  · next hr => exact modifyEntry (hlive hr).1 (fun _ => rfl) fun _ => rfl

/-- The references in the routepool stay what they are. -/
theorem liveOwn (h : Confined m w s t) (hlive : LiveOwn s) : LiveOwn t := by
  intro v r hr
  rw [h.routepool] at hr
  rw [h.next]
  exact hlive hr

end Confined

/-! ## The copies of an update -/

variable [LinearOrder K]

/-- The workers an update has a place for. -/
def placedWorkers (s : State K) : List (Origin × ℚ) :=
  (sortedRoutepools s.pickled).take s.coordsToUse.length

/-- The copies of an update. -/
theorem divided_workerChanged {g : Geo K} {s : State K} {pool : Routepool K}
    (h : s.workerChanged g = some pool) :
    Divided g s.coordsToUse (placedWorkers s) s.pickled pool := by
  have hupdates := updates_updatedRoutepool g s.coordsToUse s.pickled
  rw [show updatedRoutepool g s.coordsToUse s.pickled = some pool from h] at hupdates
  exact hupdates.2

/-! ## The sections -/

theorem takeNext_confined (hlive : LiveOwn s) (hr : r.origin = w) :
    Confined m w s (s.takeNext m w r) := by
  unfold State.takeNext
  simp only
  have hentry : Confined m w s (s.modifyEntry r fun entry => { entry with
      queue := (popGood (s.checkCoords m) (s.heap r).queue).2 }) :=
    .modifyEntry hr (fun _ => rfl) fun _ => rfl
  split
  · exact hentry.trans (.setCall _)
  · next nextCoord _ =>
    have hroute := hentry.trans (Confined.removeFromRoute nextCoord)
    exact (hroute.trans (.setRoutepoolEntryLocation (hroute.liveOwn hlive) _)).trans (.setCall _)

theorem takeNext_call (m : Manager K) (s : State K) (w : Origin) (r : Ref) :
    (s.takeNext m w r).calls w = .returned (popGood (s.checkCoords m) (s.heap r).queue).1 := by
  unfold State.takeNext
  simp only
  split
  · next h => rw [h]; exact Function.update_self _ _ _
  · next h => rw [h]; exact Function.update_self _ _ _

/-- Where coords are not deleted, it changes the entry in the routepool as said. -/
theorem takeNext_heap (hm : m.deleteCoordAfterFetch = false) (hr : s.routepool.get? w = some r)
    {location : Location K} {queue : List (Location K)}
    (hpop : popGood (s.checkCoords m) (s.heap r).queue = (some location, queue)) :
    (s.takeNext m w r).heap r = { s.heap r with queue := queue, currentPos := location } := by
  unfold State.takeNext State.removeFromRoute
  simp only [hpop, hm, Bool.false_eq_true, if_false, State.setCall_heap]
  unfold State.setRoutepoolEntryLocation
  simp only [State.modifyEntry_routepool, hr, State.modifyEntry_heap_self]

theorem refilled_confined (hlive : LiveOwn s) (hr : r.origin = w) (updated : Bool) :
    Confined m w s (s.refilled m w r updated) := by
  unfold State.refilled
  simp only
  split
  · exact .setCall _
  split
  · exact .setCall _
  · next subroute hqueue _ =>
    have hentry : Confined m w s (s.modifyEntry r fun entry => { entry with
        queue := (s.heap r).subroute }) := .modifyEntry hr (fun _ => rfl) fun _ => rfl
    exact hentry.trans (takeNext_confined (hentry.liveOwn hlive) hr)
  · exact takeNext_confined hlive hr
  · exact .setCall _

theorem refilled_call (m : Manager K) (s : State K) (w : Origin) (r : Ref) (updated : Bool) :
    ∃ location, (s.refilled m w r updated).calls w = .returned location := by
  unfold State.refilled
  simp only
  split
  · exact ⟨none, Function.update_self _ _ _⟩
  split
  · exact ⟨none, Function.update_self _ _ _⟩
  · exact ⟨_, takeNext_call m _ w r⟩
  · exact ⟨_, takeNext_call m _ w r⟩
  · exact ⟨none, Function.update_self _ _ _⟩

omit [LinearOrder K] in
theorem countRounds_confined : Confined m w s s.countRounds := by
  unfold State.countRounds
  split
  · exact .setRoundcount _
  · exact .refl

theorem moveOn_confined (hlive : LiveOwn s) (hr : r.origin = w) :
    Confined m w s (s.moveOn m w r) := by
  have hnormal : Confined m w s (s.modifyEntry r fun entry => { entry with
      lastPositionType := .normal }) := .modifyEntry hr (fun _ => rfl) fun _ => rfl
  have hentry := hnormal.trans countRounds_confined
  unfold State.moveOn
  simp only
  split
  · exact hentry.trans (.setCall _)
  split
  · have hrounds := hentry.trans (.modifyEntry (f := fun entry => { entry with
      rounds := entry.rounds + 1 }) hr (fun _ => rfl) fun _ => rfl)
    split
    · exact hrounds.trans (.setCall _)
    · exact hrounds.trans (.setCall _)
  · exact hentry.trans (takeNext_confined (hentry.liveOwn hlive) hr)

omit [LinearOrder K] in
@[simp] theorem countRounds_heap (s : State K) : s.countRounds.heap = s.heap := by
  unfold State.countRounds
  split <;> rfl

omit [LinearOrder K] in
@[simp] theorem countRounds_routepool (s : State K) : s.countRounds.routepool = s.routepool := by
  unfold State.countRounds
  split <;> rfl

/-- A queue that is not empty is taken from, where there is a route. -/
theorem moveOn_takeNext (hroute : s.route ≠ []) (hqueue : (s.heap r).queue ≠ []) :
    s.moveOn m w r = (s.modifyEntry r fun entry =>
      { entry with lastPositionType := .normal }).countRounds.takeNext m w r := by
  have hlength : (s.modifyEntry r fun entry =>
      { entry with lastPositionType := .normal }).route.length ≠ 0 := fun h =>
    hroute (List.eq_nil_of_length_eq_zero h)
  have hleft : (s.heap r).queue.length ≠ 0 := fun h => hqueue (List.eq_nil_of_length_eq_zero h)
  unfold State.moveOn
  simp only
  rw [if_neg fun h => hlength h.2, countRounds_heap, State.modifyEntry_heap_self, if_neg hleft]

/-- The call returns, or keeps its entry. -/
theorem moveOn_call (m : Manager K) (s : State K) (w : Origin) (r : Ref) :
    ∀ r', ((s.moveOn m w r).calls w).ref? = some r' → r' = r := by
  intro r' hr'
  unfold State.moveOn at hr'
  simp only at hr'
  split at hr'
  · rw [State.setCall_calls_self] at hr'; cases hr'
  split at hr'
  · split at hr'
    · rw [State.setCall_calls_self] at hr'; cases hr'; rfl
    · rw [State.setCall_calls_self] at hr'; cases hr'; rfl
  · rw [takeNext_call] at hr'; cases hr'

theorem withEntry_confined (hlive : LiveOwn s) (hr : r.origin = w) :
    Confined m w s (s.withEntry m w r) := by
  unfold State.withEntry
  split
  · exact .setCall _
  · exact moveOn_confined hlive hr

theorem withEntry_call (m : Manager K) (s : State K) (w : Origin) (r : Ref) :
    ∀ r', ((s.withEntry m w r).calls w).ref? = some r' → r' = r := by
  intro r' hr'
  unfold State.withEntry at hr'
  split at hr'
  · rw [State.setCall_calls_self] at hr'; cases hr'; rfl
  · exact moveOn_call m s w r r' hr'

theorem joined_confined (hlive : LiveOwn s) (updated : Bool) :
    Confined m w s (s.joined m w updated) := by
  unfold State.joined
  split
  · next r hr =>
    split
    · exact withEntry_confined hlive (hlive hr).1
    · exact .setCall _
  · exact .setCall _

theorem joined_call (m : Manager K) (s : State K) (w : Origin) (updated : Bool) :
    ∀ r, ((s.joined m w updated).calls w).ref? = some r → s.routepool.get? w = some r := by
  intro r hr
  unfold State.joined at hr
  split at hr
  · next r' hlive =>
    split at hr
    · rw [withEntry_call m s w r' r hr]; exact hlive
    · rw [State.setCall_calls_self] at hr; cases hr
  · rw [State.setCall_calls_self] at hr; cases hr

omit [LinearOrder K] in
/-- Taking the event that was passed on. -/
theorem takePrio_outside (hlive : LiveOwn s) (hr : r.origin = w) (prioevent : Location K) :
    Outside m w s (s.takePrio w r prioevent) := by
  have htaken : Outside m w s (s.modifyEntry r fun entry => { entry with prioCoord := none }) :=
    .modifyEntry hr fun _ => rfl
  have hlive' : LiveOwn (s.modifyEntry r fun entry => { entry with prioCoord := none }) := hlive
  have hmoved := Confined.setRoutepoolEntryLocation (m := m) (w := w) hlive' prioevent
  have htyped := (htaken.trans hmoved.toOutside).trans (.modifyEntry (f := fun entry =>
    { entry with lastPositionType := .prioq }) hr fun _ => rfl)
  exact htyped.trans (Confined.setCall _).toOutside

omit [LinearOrder K] in
theorem redoStopAtEnd_confined (hlive : LiveOwn s) (location : Location K) :
    Confined m w s (s.redoStopAtEnd m w location) := by
  have hcoords : ∀ {t : State K}, Confined m w s t → Confined m w s
      (if m.deleteCoordAfterFetch then
        { t with currentRouteRoundCoords := t.currentRouteRoundCoords ++ [location] }
      else t) := by
    intro t ht
    split
    · next hdelete =>
      apply ht.trans
      exact .of_eq rfl (fun _ _ => rfl) rfl rfl rfl rfl
        (fun h => by rw [h] at hdelete; cases hdelete) rfl rfl rfl
    · exact ht
  unfold State.redoStopAtEnd
  cases hr : s.routepool.get? w with
  | none => exact hcoords .refl
  | some r => exact hcoords (.modifyEntry (hlive hr).1 (fun _ => rfl) fun _ => rfl)

/-! ## Events that are passed on -/

variable {g : Geo K} {location : Location K}

theorem closerWorker_some {heap : Ref → RoutePoolEntry K} {origin : Origin}
    {entry : RoutePoolEntry K} {items : List (Origin × Ref)} {temp : K × Option Origin}
    (h : (State.closerWorker g heap location origin entry items temp).2 = some v) :
    temp.2 = some v ∨ ∃ r, (v, r) ∈ items ∧ v ≠ origin ∧ (heap r).prioCoord = none := by
  induction items generalizing temp with
  | nil => exact Or.inl h
  | cons i items ih =>
    obtain ⟨worker, r⟩ := i
    rw [State.closerWorker] at h
    rcases ih h with htemp | ⟨r', hmem, hrest⟩
    · split at htemp
      · exact Or.inl htemp
      next hskip =>
      split at htemp
      · -- It is this worker that beat the distance.
        rw [Option.some.injEq] at htemp
        subst htemp
        simp only [Bool.or_eq_true, decide_eq_true_eq, not_or, Bool.not_eq_true,
          Option.isSome_eq_false_iff, Option.isNone_iff_eq_none] at hskip
        exact Or.inr ⟨r, List.mem_cons_self, hskip.1.1, hskip.1.2⟩
      · exact Or.inl htemp
    · exact Or.inr ⟨r', List.mem_cons_of_mem _ hmem, hrest⟩

/-- An event is passed on to another worker that has none. -/
theorem otherWorkerCloserToPrioq_some (h : s.otherWorkerCloserToPrioq g location w = some v) :
    v ≠ w ∧ ∃ r, s.routepool.get? v = some r ∧ (s.heap r).prioCoord = none := by
  unfold State.otherWorkerCloserToPrioq at h
  split at h
  · cases h
  split at h
  · cases h
  rcases closerWorker_some h with h | ⟨r, hmem, hne, hprio⟩
  · cases h
  · exact ⟨hne, r, Dict.get?_eq_some_iff.mpr hmem, hprio⟩

/-- Who is closer does not depend on the coords of the route. -/
theorem otherWorkerCloserToPrioq_removeFromRoute (g : Geo K) (m : Manager K) (s : State K)
    (l location : Location K) (w : Origin) :
    (s.removeFromRoute m l).otherWorkerCloserToPrioq g location w =
      s.otherWorkerCloserToPrioq g location w := by
  unfold State.removeFromRoute
  split <;> rfl

/-- The state after an event was passed on. -/
def passedOn (m : Manager K) (s : State K) (w v : Origin) (r : Ref) (location : Location K) :
    State K :=
  ((s.removeFromRoute m location).setPrioCoord v location).setCall w (.popping r true)

/-- Passing an event on changes the entry it is passed to, and the coords of the route. -/
theorem passedOn_eq (m : Manager K) (s : State K) (w v : Origin) (r : Ref) (location : Location K) :
    ∃ coords, passedOn m s w v r location =
      ({ s with currentRouteRoundCoords := coords }.setPrioCoord v location).setCall w
        (.popping r true) := by
  unfold passedOn State.removeFromRoute
  split
  · exact ⟨_, rfl⟩
  · exact ⟨s.currentRouteRoundCoords, rfl⟩

/-- An event that is due and valid is passed on where another worker is closer. -/
theorem popEvent_passedOn {again : Bool} {due now : ℚ} (hdue : again = true ∨ due ≤ now)
    (hcheck : s.checkCoords m location = true)
    (hcloser : s.otherWorkerCloserToPrioq g location w = some v) :
    s.popEvent g m w r again due location now = passedOn m s w v r location := by
  have hlate : (!again && decide (now < due)) = false := by
    rcases hdue with hagain | hdue
    · rw [hagain]; rfl
    · rw [decide_eq_false (not_lt.mpr hdue), Bool.and_false]
  unfold State.popEvent
  rw [hlate, if_neg Bool.false_ne_true, if_pos hcheck]
  simp only [otherWorkerCloserToPrioq_removeFromRoute, hcloser]
  rfl

/-- A worker without an entry gets one, and an entry has an event or is served. -/
theorem lookUpEntry_cases [Field K] (m : Manager K) (s : State K) (w : Origin) (now : ℚ) :
    (s.routepool.get? w = none ∧ s.lookUpEntry m w now = s.create w now) ∨
    (∃ r prioevent, s.routepool.get? w = some r ∧ (s.heap r).prioCoord = some prioevent ∧
      s.lookUpEntry m w now = s.takePrio w r prioevent) ∨
    (∃ r, s.routepool.get? w = some r ∧ (s.heap r).prioCoord = none ∧
      s.lookUpEntry m w now = s.withEntry m w r) := by
  unfold State.lookUpEntry
  split
  · next hnone => exact .inl ⟨hnone, rfl⟩
  next r hr =>
  split
  · next prioevent hprio => exact .inr (.inl ⟨r, prioevent, hr, hprio, rfl⟩)
  · next hprio => exact .inr (.inr ⟨r, hr, hprio, rfl⟩)

/-- A call of a stranger returns, others look for their entry. -/
theorem getNextLocation_cases [Field K] (m : Manager K) (s : State K) (w : Origin) (now : ℚ) :
    (w ∉ s.workersRegistered ∧ s.getNextLocation m w now = s.setCall w (.returned none)) ∨
    (w ∈ s.workersRegistered ∧ s.getNextLocation m w now = s.lookUpEntry m w now) := by
  unfold State.getNextLocation
  split
  · next hstranger => exact .inl ⟨hstranger, rfl⟩
  · next hregistered => exact .inr ⟨not_not.mp hregistered, rfl⟩

omit [LinearOrder K] in
/-- A call that waits, or is over at once, keeps no entry. -/
theorem awaitStart_ref? (s : State K) (w : Origin) :
    ∃ call : Call K, s.awaitStart w = s.setCall w call ∧ call.ref? = none := by
  refine ⟨_, rfl, ?_⟩
  split
  · rfl
  · rfl

/-- An event is passed on, or stays in the call. -/
theorem popEvent_cases (hlive : LiveOwn s) (hr : r.origin = w) (again : Bool) (due now : ℚ)
    (location : Location K) :
    (∃ v, s.otherWorkerCloserToPrioq g location w = some v ∧
      s.popEvent g m w r again due location now = passedOn m s w v r location) ∨
    (Confined m w s (s.popEvent g m w r again due location now) ∧
      ∀ r', ((s.popEvent g m w r again due location now).calls w).ref? = some r' → r' = r) := by
  unfold State.popEvent
  split
  · exact Or.inr ⟨moveOn_confined hlive hr, moveOn_call m s w r⟩
  split
  · simp only
    split
    · next v hv =>
      rw [otherWorkerCloserToPrioq_removeFromRoute] at hv
      exact Or.inl ⟨v, hv, rfl⟩
    · right
      have hroute : Confined m w s (s.removeFromRoute m location) := .removeFromRoute location
      have htype := hroute.trans (.modifyEntry (f := fun entry => { entry with
        lastPositionType := .prioq }) hr (fun _ => rfl) fun _ => rfl)
      refine ⟨(htype.trans (.setRoutepoolEntryLocation (htype.liveOwn hlive) _)).trans (.setCall _),
        ?_⟩
      intro r' hr'
      rw [State.setCall_calls_self] at hr'
      cases hr'
  · refine Or.inr ⟨.setCall _, ?_⟩
    intro r' hr'
    rw [State.setCall_calls_self] at hr'
    cases hr'
    rfl

/-! ## The references -/

namespace WellFormed

omit [LinearOrder K] in
/-- The routepool is the same, and no call keeps an entry it did not keep before but the one
in the routepool. -/
theorem of_calls (h : WellFormed s) (hnext : t.next = s.next) (hpool : t.routepool = s.routepool)
    (hcalls : ∀ w r, (t.calls w).ref? = some r →
      (s.calls w).ref? = some r ∨ s.routepool.get? w = some r) : WellFormed t := by
  refine ⟨?_, ?_⟩
  · intro w r hr
    rw [hnext]
    exact h.live (hpool ▸ hr)
  · intro w r hr
    rw [hnext]
    rcases hcalls w r hr with hr | hr
    · exact h.kept hr
    · exact h.live hr

omit [LinearOrder K] in
theorem congr (h : WellFormed s) (hnext : t.next = s.next) (hpool : t.routepool = s.routepool)
    (hcalls : t.calls = s.calls) : WellFormed t :=
  h.of_calls hnext hpool fun _ _ hr => Or.inl (hcalls ▸ hr)

omit [LinearOrder K] in
/-- A section of a call of `w`. -/
theorem outside (h : WellFormed s) (ht : Outside m w s t)
    (hcall : ∀ r, (t.calls w).ref? = some r →
      (s.calls w).ref? = some r ∨ s.routepool.get? w = some r) : WellFormed t := by
  apply h.of_calls ht.next ht.routepool
  intro v r hr
  by_cases hv : v = w
  · subst hv
    exact hcall r hr
  · exact Or.inl (ht.calls v hv ▸ hr)

omit [LinearOrder K] in
/-- The call of `w` ends, or goes on with the entry it keeps. -/
theorem setCall (h : WellFormed s) {call : Call K}
    (hcall : ∀ r, call.ref? = some r → (s.calls w).ref? = some r) :
    WellFormed (s.setCall w call) := by
  refine h.of_calls rfl rfl ?_
  intro v r hr
  left
  by_cases hv : v = w
  · subst hv
    rw [State.setCall_calls_self] at hr
    exact hcall r hr
  · rwa [State.setCall_calls_of_ne _ _ _ hv] at hr

omit [LinearOrder K] in
theorem setTime (h : WellFormed s) (now : ℚ) : WellFormed (s.setTime now) :=
  h.congr rfl rfl rfl

omit [LinearOrder K] in
theorem setRoute (h : WellFormed s) (newRoute : List (Location K)) :
    WellFormed (s.setRoute newRoute) := h.congr rfl rfl rfl

omit [LinearOrder K] in
theorem setUpdating (h : WellFormed s) (updating : Option (Update K)) :
    WellFormed (s.setUpdating updating) := h.congr rfl rfl rfl

omit [LinearOrder K] in
theorem install (h : WellFormed s) (pool : Routepool K) : WellFormed (s.install pool) := by
  refine ⟨?_, ?_⟩
  -- The entries of the new routepool are made by this update.
  · intro w r hr
    have hr : (pool.mapValues fun origin _ => (⟨s.next, origin⟩ : Ref)).get? w = some r := hr
    rw [Dict.get?_mapValues] at hr
    obtain ⟨entry, _, rfl⟩ := Option.map_eq_some_iff.mp hr
    exact ⟨rfl, Nat.lt_succ_self _⟩
  · intro w r hr
    obtain ⟨horigin, hmade⟩ := h.kept (s := s) hr
    exact ⟨horigin, Nat.lt_succ_of_lt hmade⟩

theorem startUnawaited (h : WellFormed s) (g : Geo K) : WellFormed (s.startUnawaited g) := by
  unfold State.startUnawaited
  split
  · exact h
  · exact h.congr rfl rfl rfl

omit [LinearOrder K] in
theorem create [Field K] (h : WellFormed s) (w : Origin) (now : ℚ) : WellFormed (s.create w now) := by
  refine ⟨?_, ?_⟩
  · intro v r hr
    have hr : (s.routepool.insert w ⟨s.next, w⟩).get? v = some r := hr
    show r.origin = v ∧ r.made < s.next + 1
    rw [Dict.get?_insert] at hr
    split at hr
    · next hv =>
      cases hr
      exact ⟨hv.symm, Nat.lt_succ_self _⟩
    · obtain ⟨horigin, hmade⟩ := h.live hr
      exact ⟨horigin, Nat.lt_succ_of_lt hmade⟩
  · intro v r hr
    show r.origin = v ∧ r.made < s.next + 1
    by_cases hv : v = w
    · subst hv
      rw [State.create, State.setCall_calls_self] at hr
      cases hr
    · rw [State.create, State.setCall_calls_of_ne _ _ _ hv] at hr
      obtain ⟨horigin, hmade⟩ := h.kept (s := s) hr
      exact ⟨horigin, Nat.lt_succ_of_lt hmade⟩

omit [LinearOrder K] in
theorem setPrioCoord (h : WellFormed s) (w : Origin) (location : Location K) :
    WellFormed (s.setPrioCoord w location) := by
  unfold State.setPrioCoord
  split
  · exact h
  · exact h.congr rfl rfl rfl

theorem joined (h : WellFormed s) (w : Origin) (updated : Bool) :
    WellFormed (s.joined m w updated) :=
  h.outside (joined_confined h.live updated).toOutside fun r hr =>
    Or.inr (joined_call m s w updated r hr)

theorem refilled (h : WellFormed s) (hw : (s.calls w).ref? = some r) (updated : Bool) :
    WellFormed (s.refilled m w r updated) := by
  apply h.outside (refilled_confined h.live (h.kept hw).1 updated).toOutside
  intro r' hr'
  obtain ⟨location, hlocation⟩ := refilled_call m s w r updated
  rw [hlocation] at hr'
  cases hr'

theorem moveOn (h : WellFormed s) (hw : (s.calls w).ref? = some r) : WellFormed (s.moveOn m w r) := by
  apply h.outside (moveOn_confined h.live (h.kept hw).1).toOutside
  intro r' hr'
  rw [moveOn_call m s w r r' hr']
  exact Or.inl hw

theorem lookUpEntry [Field K] (h : WellFormed s) (w : Origin) (now : ℚ) :
    WellFormed (s.lookUpEntry m w now) := by
  rcases lookUpEntry_cases m s w now with ⟨_, heq⟩ | ⟨r, prioevent, hr, _, heq⟩ | ⟨r, hr, _, heq⟩
  · rw [heq]
    exact h.create w now
  · rw [heq]
    apply h.outside (takePrio_outside (m := m) h.live (h.live hr).1 _)
    intro r' hr'
    rw [State.takePrio, State.setCall_calls_self] at hr'
    cases hr'
  · rw [heq]
    apply h.outside (withEntry_confined h.live (h.live hr).1).toOutside
    intro r' hr'
    rw [withEntry_call m s w r r' hr']
    exact Or.inr hr

theorem getNextLocation [Field K] (h : WellFormed s) (w : Origin) (now : ℚ) :
    WellFormed (s.getNextLocation m w now) := by
  rcases getNextLocation_cases m s w now with ⟨_, heq⟩ | ⟨_, heq⟩
  · rw [heq]
    exact h.setCall fun r hr => by cases hr
  · rw [heq]
    exact h.lookUpEntry w now

omit [LinearOrder K] in
theorem awaitStart (h : WellFormed s) (w : Origin) : WellFormed (s.awaitStart w) := by
  obtain ⟨call, heq, hnone⟩ := awaitStart_ref? s w
  rw [heq]
  apply h.setCall
  intro r hr
  rw [hnone] at hr
  cases hr

theorem popEvent (h : WellFormed s) (hw : (s.calls w).ref? = some r) (again : Bool) (due now : ℚ) :
    WellFormed (s.popEvent g m w r again due location now) := by
  rcases popEvent_cases (g := g) (m := m) h.live (h.kept hw).1 again due now location
    with ⟨v, _, heq⟩ | ⟨hconfined, hcall⟩
  · obtain ⟨coords, hpassed⟩ := passedOn_eq m s w v r location
    rw [heq, hpassed]
    have hroute : WellFormed { s with currentRouteRoundCoords := coords } := h.congr rfl rfl rfl
    apply (hroute.setPrioCoord v location).setCall
    intro r' hr'
    cases hr'
    unfold State.setPrioCoord
    split <;> exact hw
  · apply h.outside hconfined.toOutside
    intro r' hr'
    rw [hcall r' hr']
    exact Or.inl hw

theorem startUpdate (h : WellFormed s) (ht : s.startUpdate g m w = some t) : WellFormed t := by
  unfold State.startUpdate at ht
  split at ht
  · cases ht; exact h.joined w false
  · next hw _ => cases ht; exact h.refilled (by rw [hw]; rfl) false
  · cases ht; exact h.setUpdating _
  · cases ht; exact h.setUpdating _
  · cases ht

theorem finishUpdate (h : WellFormed s) (update : Update K) :
    WellFormed (s.finishUpdate m update) := by
  have hinstalled := (h.install update.pool).setUpdating none
  unfold State.finishUpdate
  simp only
  split
  · exact hinstalled
  split
  · exact hinstalled.joined _ true
  · next hw => exact hinstalled.refilled (by rw [hw]; rfl) true
  · next hw => exact hinstalled.setCall fun r' hr' => by rw [hw]; exact hr'
  · exact hinstalled

/-- Once the copies are in place only the call that awaited it goes on. -/
theorem finishUpdate_confined (h : WellFormed s) {update : Update K}
    (hholder : ∀ u, update.holder = some u → u = v) :
    Confined m v ((s.install update.pool).setUpdating none) (s.finishUpdate m update) := by
  have hinstalled := (h.install update.pool).setUpdating none
  unfold State.finishUpdate
  simp only
  split
  · exact .refl
  next u hu =>
  obtain rfl := hholder u hu
  split
  · exact joined_confined hinstalled.live true
  · next hw => exact refilled_confined hinstalled.live (hinstalled.kept (w := u) (by rw [hw]; rfl)).1 true
  · exact .setCall _
  · exact .refl

theorem unregisterWorker (h : WellFormed s) (w : Origin) (remove : Bool) :
    WellFormed (s.unregisterWorker g w remove) := by
  unfold State.unregisterWorker
  simp only
  split
  · apply startUnawaited
    refine ⟨?_, h.kept⟩
    intro v r hr
    have hr : (s.routepool.erase w).get? v = some r := hr
    rw [Dict.get?_erase] at hr
    split at hr
    · cases hr
    · exact h.live hr
  · exact h.congr rfl rfl rfl

theorem step [Field K] {a : Action K} (h : WellFormed s) (hs : Step g m s a t) : WellFormed t := by
  cases hs with
  | getNextLocation hw hnow => exact (h.setTime _).getNextLocation _ _
  | awaitStart hw => exact h.awaitStart _
  | started hw hnow => exact (h.setTime _).lookUpEntry _ _
  | notStarted hw => exact h.setCall fun r hr => by cases hr
  | popEvent due location hw hnow =>
    apply (h.setTime _).popEvent
    show (s.calls _).ref? = _
    rw [hw]
    rfl
  | noEvent hw => exact h.moveOn (by rw [hw]; rfl)
  | anyCoordsLeft left hw =>
    apply h.setCall
    intro r hr
    cases left with
    | false => cases hr
    | true => rw [hw]; exact hr
  | calculated newRoute hw hfree =>
    unfold State.calculated
    simp only
    split
    · apply (h.setRoute newRoute).setCall
      intro r hr
      show (s.calls _).ref? = some r
      rw [hw]
      exact hr
    · apply ((h.setRoute newRoute).setUpdating _).setCall
      intro r hr
      show (s.calls _).ref? = some r
      rw [hw]
      exact hr
  | startUpdate hfree ht => exact h.startUpdate ht
  | finishUpdate hupdating => exact h.finishUpdate _
  | fetchStops locationsOfStops => exact h.congr rfl rfl rfl
  | calculateRoute newRoute hfree =>
    exact (h.setRoute newRoute).startUnawaited g
  | registerWorker w =>
    unfold State.registerWorker
    split
    · exact h
    · exact h.congr rfl rfl rfl
  | unregisterWorker w remove hfree => exact h.unregisterWorker w remove
  | redoStopImmediately w location => exact h.setPrioCoord w location
  | redoStopAtEnd w location =>
    unfold State.redoStopAtEnd
    simp only
    split
    · split
      · exact h.congr rfl rfl rfl
      · exact h.congr rfl rfl rfl
    · split
      · exact h
      · exact h.congr rfl rfl rfl
  | addCoordToBeRemoved location =>
    unfold State.addCoordToBeRemoved
    split
    · exact h
    · exact h.congr rfl rfl rfl
  | setWorkerStartposition w location => exact h.congr rfl rfl rfl

theorem run [Field K] {ok : State K → Action K → Prop} {l : List (Action K)} (h : WellFormed s)
    (hrun : Run (Route.step g m) ok s l t) : WellFormed t :=
  hrun.invariant h fun _ _ _ hs _ hstep => hs.step (step_some hstep)

end WellFormed

/-! ## The calls that wait -/

/-- The calls that wait are of registered workers. -/
def Waits (s : State K) : Prop := ∀ w, s.calls w = .waiting → w ∈ s.workersRegistered

omit [LinearOrder K] in
/-- A call of `v` that goes on does not wait again. -/
theorem Waits.outside (h : Waits s) (ht : Outside m v s t) (hcall : t.calls v ≠ .waiting) : Waits t := by
  intro w hw
  by_cases hwv : w = v
  · subst hwv
    exact absurd hw hcall
  · rw [ht.calls w hwv] at hw
    rw [ht.registered]
    exact h w hw

theorem takeNext_goesOn (m : Manager K) (s : State K) (w : Origin) (r : Ref) :
    (s.takeNext m w r).calls w ≠ .waiting := by
  rw [takeNext_call]
  exact nofun

theorem refilled_goesOn (m : Manager K) (s : State K) (w : Origin) (r : Ref) (updated : Bool) :
    (s.refilled m w r updated).calls w ≠ .waiting := by
  obtain ⟨location, hcall⟩ := refilled_call m s w r updated
  rw [hcall]
  exact nofun

theorem moveOn_goesOn (m : Manager K) (s : State K) (w : Origin) (r : Ref) :
    (s.moveOn m w r).calls w ≠ .waiting := by
  unfold State.moveOn
  simp only
  split
  · rw [State.setCall_calls_self]; exact nofun
  split
  · split
    · rw [State.setCall_calls_self]; exact nofun
    · rw [State.setCall_calls_self]; exact nofun
  · exact takeNext_goesOn m _ w r

theorem withEntry_goesOn (m : Manager K) (s : State K) (w : Origin) (r : Ref) :
    (s.withEntry m w r).calls w ≠ .waiting := by
  unfold State.withEntry
  split
  · rw [State.setCall_calls_self]; exact nofun
  · exact moveOn_goesOn m s w r

theorem joined_goesOn (m : Manager K) (s : State K) (w : Origin) (updated : Bool) :
    (s.joined m w updated).calls w ≠ .waiting := by
  unfold State.joined
  split
  · split
    · exact withEntry_goesOn m s w _
    · rw [State.setCall_calls_self]; exact nofun
  · rw [State.setCall_calls_self]; exact nofun

end MapADroid.Route
