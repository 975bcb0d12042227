import MapADroid.Route.Invariant

/- The progress of a worker, as it is reported (`get_route_status`).

   It is the length of the subroute less that of the queue. A queue is filled with a
   subroute, a subroute is replaced along with its queue, and locations are taken off the
   queue; so the queue is never longer than the subroute (`Progressing`), whatever calls and
   updates overlap and whichever entry a call has kept. `redo_stop_at_end` alone makes a
   queue longer, and the progress less by one (`getRouteStatus_redoStopAtEnd`). -/
namespace MapADroid.Route
open Lib

variable {K : Type} {m : Manager K} {s t u : State K} {v w : Origin} {r : Ref}

/-- `get_route_status`. -/
def State.getRouteStatus (s : State K) (origin : Origin) : Int × Int :=
  match s.route, s.entryOf? origin with
  | _ :: _, some entry => ((entry.subroute.length : Int) - entry.queue.length, entry.subroute.length)
  | _, _ => (-1, -1)

/-- Where there is a route, each worker in the routepool is somewhere on its subroute;
where there is none, no progress is reported. -/
def Reported (s : State K) : Prop :=
  ∀ w, (s.routepool.get? w).isSome →
    if s.route = [] then s.getRouteStatus w = (-1, -1)
    else 0 ≤ (s.getRouteStatus w).1 ∧ (s.getRouteStatus w).1 ≤ (s.getRouteStatus w).2

theorem getRouteStatus_eq (hroute : s.route ≠ []) (hr : s.routepool.get? w = some r) :
    s.getRouteStatus w = (((s.heap r).subroute.length : Int) - (s.heap r).queue.length,
      ((s.heap r).subroute.length : Int)) := by
  obtain ⟨first, route, hcons⟩ := List.exists_cons_of_ne_nil hroute
  simp [State.getRouteStatus, State.entryOf?, hcons, hr]

/-- A stop is redone at the end of a queue that is shorter than the subroute. -/
def RedoneWithin (s : State K) : Action K → Prop
  | .redoStopAtEnd w _ =>
    ∀ r ∈ s.routepool.get? w, (s.heap r).queue.length < (s.heap r).subroute.length
  | _ => True

instance (s : State K) : (a : Action K) → Decidable (RedoneWithin s a)
  | .redoStopAtEnd w _ => inferInstanceAs
    (Decidable (∀ r ∈ s.routepool.get? w, (s.heap r).queue.length < (s.heap r).subroute.length))
  | .getNextLocation _ _ | .awaitStart _ | .started _ _ | .notStarted _ | .popEvent _ _ _ _ | .noEvent _
  | .anyCoordsLeft _ _ | .calculated _ _ | .startUpdate _ | .finishUpdate | .fetchStops _
  | .calculateRoute _ | .registerWorker _ | .unregisterWorker _ _ | .redoStopImmediately _ _
  | .addCoordToBeRemoved _ | .setWorkerStartposition _ _ => isTrue trivial

/-! ## Queues within their subroutes -/

def RoutePoolEntry.Within (entry : RoutePoolEntry K) : Prop := entry.queue.length ≤ entry.subroute.length

theorem RoutePoolEntry.replaceSubroute_within [LinearOrder K] (g : Geo K) (entry : RoutePoolEntry K)
    (newSubroute : List (Location K)) : (entry.replaceSubroute g newSubroute).Within := by
  unfold Within replaceSubroute
  simp only
  split
  · exact le_rfl
  · exact (List.dropWhile_sublist _).length_le

/-- No queue becomes longer than its subroute. -/
def Keeps (s t : State K) : Prop := ∀ r, (s.heap r).Within → (t.heap r).Within

namespace Keeps

theorem of_heap (h : t.heap = s.heap) : Keeps s t := fun r hr => by rwa [h]

theorem trans (h : Keeps s t) (h' : Keeps t u) : Keeps s u := fun r hr => h' r (h r hr)

theorem modifyEntry {f : RoutePoolEntry K → RoutePoolEntry K}
    (hf : (s.heap r).Within → (f (s.heap r)).Within) : Keeps s (s.modifyEntry r f) := by
  intro r' hr'
  by_cases h : r' = r
  · subst h
    rw [State.modifyEntry_heap_self]
    exact hf hr'
  · rwa [State.modifyEntry_heap_of_ne _ _ _ h]

theorem setRoutepoolEntryLocation (s : State K) (w : Origin) (pos : Location K) :
    Keeps s (s.setRoutepoolEntryLocation w pos) := by
  unfold State.setRoutepoolEntryLocation
  split
  · exact of_heap rfl
  · exact modifyEntry fun h => h

theorem setPrioCoord (s : State K) (w : Origin) (location : Location K) :
    Keeps s (s.setPrioCoord w location) := by
  unfold State.setPrioCoord
  split
  · exact of_heap rfl
  · exact modifyEntry fun h => h

theorem takePrio (s : State K) (w : Origin) (r : Ref) (prioevent : Location K) :
    Keeps s (s.takePrio w r prioevent) := by
  have htaken : Keeps s (s.modifyEntry r fun entry => { entry with prioCoord := none }) :=
    modifyEntry fun h => h
  have hmoved := htaken.trans (setRoutepoolEntryLocation _ w prioevent)
  exact hmoved.trans (modifyEntry (r := r) (f := fun entry => { entry with
    lastPositionType := .prioq }) fun h => h)

theorem create [Field K] (s : State K) (w : Origin) (now : ℚ) : Keeps s (s.create w now) := by
  intro r hr
  by_cases h : r = ⟨s.next, w⟩
  · subst h
    show ((Function.update s.heap _ _) _).Within
    rw [Function.update_self]
    exact Nat.le_refl 0
  · show ((Function.update s.heap _ _) r).Within
    rwa [Function.update_of_ne h]

theorem install {pool : Routepool K} (hpool : ∀ {w entry}, pool.get? w = some entry → entry.Within) :
    Keeps s (s.install pool) := by
  intro r hr
  show (if r.made = s.next then (pool.get? r.origin).getD (s.heap r) else s.heap r).Within
  split
  · cases hentry : pool.get? r.origin with
    | none => exact hr
    | some entry => exact hpool hentry
  · exact hr

variable [LinearOrder K]

theorem removeFromRoute (m : Manager K) (s : State K) (location : Location K) :
    Keeps s (s.removeFromRoute m location) := by
  apply of_heap
  unfold State.removeFromRoute
  split <;> rfl

omit [LinearOrder K] in
theorem popGood_length (check : Location K → Bool) (queue : List (Location K)) :
    (popGood check queue).2.length ≤ queue.length := by
  induction queue with
  | nil => exact le_rfl
  | cons nextCoord queue ih =>
    rw [popGood]
    split
    · simp
    · exact ih.trans (by simp)

theorem takeNext (m : Manager K) (s : State K) (w : Origin) (r : Ref) : Keeps s (s.takeNext m w r) := by
  have hpop : Keeps s (s.modifyEntry r fun entry => { entry with
      queue := (popGood (s.checkCoords m) (s.heap r).queue).2 }) :=
    modifyEntry fun h => (popGood_length _ _).trans h
  unfold State.takeNext
  simp only
  split
  · exact hpop
  · next nextCoord _ =>
    exact (hpop.trans (removeFromRoute m _ nextCoord)).trans (setRoutepoolEntryLocation _ w nextCoord)

theorem refilled (m : Manager K) (s : State K) (w : Origin) (r : Ref) (updated : Bool) :
    Keeps s (s.refilled m w r updated) := by
  unfold State.refilled
  simp only
  split
  · exact of_heap rfl
  split
  · exact of_heap rfl
  · next subroute _ _ =>
    have hfill : Keeps s (s.modifyEntry r fun entry => { entry with queue := (s.heap r).subroute }) :=
      modifyEntry fun _ => le_rfl
    exact hfill.trans (takeNext m _ w r)
  · exact takeNext m s w r
  · exact of_heap rfl

theorem moveOn (m : Manager K) (s : State K) (w : Origin) (r : Ref) : Keeps s (s.moveOn m w r) := by
  have hentry : Keeps s (s.modifyEntry r fun entry => { entry with
      lastPositionType := .normal }).countRounds :=
    (modifyEntry fun h => h).trans (of_heap (countRounds_heap _))
  unfold State.moveOn
  simp only
  split
  · exact hentry
  split
  · have hrounds := hentry.trans (modifyEntry (r := r) (f := fun entry => { entry with
      rounds := entry.rounds + 1 }) fun h => h)
    split
    · exact hrounds
    · exact hrounds
  · exact hentry.trans (takeNext m _ w r)

theorem withEntry (m : Manager K) (s : State K) (w : Origin) (r : Ref) : Keeps s (s.withEntry m w r) := by
  unfold State.withEntry
  split
  · exact of_heap rfl
  · exact moveOn m s w r

theorem joined (m : Manager K) (s : State K) (w : Origin) (updated : Bool) :
    Keeps s (s.joined m w updated) := by
  unfold State.joined
  split
  · next r _ =>
    split
    · exact withEntry m s w r
    · exact of_heap rfl
  · exact of_heap rfl

theorem popEvent (g : Geo K) (m : Manager K) (s : State K) (w : Origin) (r : Ref) (again : Bool)
    (due : ℚ) (location : Location K) (now : ℚ) : Keeps s (s.popEvent g m w r again due location now) := by
  unfold State.popEvent
  split
  · exact moveOn m s w r
  split
  · simp only
    split
    · next closerWorker _ =>
      exact (removeFromRoute m s location).trans (setPrioCoord _ closerWorker location)
    · exact ((removeFromRoute m s location).trans (modifyEntry fun h => h)).trans
        (setRoutepoolEntryLocation _ w location)
  · exact of_heap rfl

end Keeps

/-! ## The entries in use -/

/-- No queue in the routepool, of a call or of an update is longer than its subroute. -/
structure Progressing (s : State K) : Prop where
  wf : WellFormed s
  live : ∀ {w r}, s.routepool.get? w = some r → (s.heap r).Within
  kept : ∀ {w r}, (s.calls w).ref? = some r → (s.heap r).Within
  copies : ∀ {update w entry}, s.updating = some update → update.pool.get? w = some entry → entry.Within

theorem Initial.progressing (h : Initial s) : Progressing s where
  wf := h.wellFormed
  live hr := by
    rw [h.routepool, Dict.get?_empty] at hr
    cases hr
  kept {w r} hr := by
    rw [h.calls w] at hr
    cases hr
  copies hupdating := by
    rw [h.updating] at hupdating
    cases hupdating

namespace Progressing

theorem reported (h : Progressing s) : Reported s := by
  intro w hw
  obtain ⟨r, hr⟩ := Option.isSome_iff_exists.mp hw
  have hwithin := h.live hr
  unfold RoutePoolEntry.Within at hwithin
  split
  · next hnil => simp [State.getRouteStatus, hnil]
  · next hroute =>
    rw [getRouteStatus_eq hroute hr]
    simp only
    omega

/-- No entry comes into use. -/
theorem of_calls (h : Progressing s) (hkeeps : Keeps s t) (hnext : t.next = s.next)
    (hpool : ∀ w r, t.routepool.get? w = some r → s.routepool.get? w = some r)
    (hcalls : ∀ w r, (t.calls w).ref? = some r →
      (s.calls w).ref? = some r ∨ s.routepool.get? w = some r)
    (hupdating : t.updating = none ∨ t.updating = s.updating) : Progressing t where
  wf := by
    refine ⟨?_, ?_⟩
    · intro w r hr
      rw [hnext]
      exact h.wf.live (hpool w r hr)
    · intro w r hr
      rw [hnext]
      rcases hcalls w r hr with hr | hr
      · exact h.wf.kept hr
      · exact h.wf.live hr
  live hr := hkeeps _ (h.live (hpool _ _ hr))
  kept hr := by
    apply hkeeps
    rcases hcalls _ _ hr with hr | hr
    · exact h.kept hr
    · exact h.live hr
  copies hupdate := by
    rcases hupdating with hupdating | hupdating
    · rw [hupdating] at hupdate
      cases hupdate
    · exact h.copies (hupdating ▸ hupdate)

/-- What is changed is not a reference. -/
theorem congr (h : Progressing s) (hkeeps : Keeps s t) (hnext : t.next = s.next)
    (hpool : t.routepool = s.routepool) (hcalls : t.calls = s.calls) (hupdating : t.updating = s.updating) :
    Progressing t :=
  h.of_calls hkeeps hnext (fun _ _ hr => hpool ▸ hr) (fun _ _ hr => .inl (hcalls ▸ hr)) (.inr hupdating)

/-- A section of a call of `w`. -/
theorem outside (h : Progressing s) (hkeeps : Keeps s t) (ht : Outside m w s t)
    (hcall : ∀ r, (t.calls w).ref? = some r →
      (s.calls w).ref? = some r ∨ s.routepool.get? w = some r) : Progressing t := by
  refine h.of_calls hkeeps ht.next (fun _ _ hr => ht.routepool ▸ hr) ?_ (.inr ht.updating)
  intro v r hr
  by_cases hv : v = w
  · subst hv
    exact hcall r hr
  · exact .inl (ht.calls v hv ▸ hr)

/-- The call of `w` ends, or goes on with the entry it keeps or the one in the routepool. -/
theorem setCall (h : Progressing s) {call : Call K}
    (hcall : ∀ r, call.ref? = some r → (s.calls w).ref? = some r ∨ s.routepool.get? w = some r) :
    Progressing (s.setCall w call) := by
  refine h.outside (t := s.setCall w call) (m := normalManager K false false) (.of_heap rfl)
    (Confined.setCall call).toOutside ?_
  intro r hr
  rw [State.setCall_calls_self] at hr
  exact hcall r hr

theorem returned (h : Progressing s) (location : Option (Location K)) :
    Progressing (s.setCall w (.returned location)) := h.setCall fun r hr => by cases hr

theorem create [Field K] (h : Progressing s) (w : Origin) (now : ℚ) : Progressing (s.create w now) where
  wf := h.wf.create w now
  live {v r} hr := by
    have hr : (s.routepool.insert w ⟨s.next, w⟩).get? v = some r := hr
    rw [Dict.get?_insert] at hr
    split at hr
    · cases hr
      show ((Function.update s.heap _ _) _).Within
      rw [Function.update_self]
      exact Nat.le_refl 0
    · exact Keeps.create s w now r (h.live hr)
  kept {v r} hr := by
    by_cases hv : v = w
    · subst hv
      rw [State.create, State.setCall_calls_self] at hr
      cases hr
    · rw [State.create, State.setCall_calls_of_ne _ _ _ hv] at hr
      exact Keeps.create s w now r (h.kept hr)
  copies := h.copies

theorem erase (h : Progressing s) (w : Origin) : Progressing { s with routepool := s.routepool.erase w } := by
  refine h.of_calls (.of_heap rfl) rfl ?_ (fun _ _ hr => .inl hr) (.inr rfl)
  intro v r hr
  have hr : (s.routepool.erase w).get? v = some r := hr
  rw [Dict.get?_erase] at hr
  split at hr
  · cases hr
  · exact hr

/-- The copies are put into place. -/
theorem install (h : Progressing s) {pool : Routepool K}
    (hpool : ∀ {w entry}, pool.get? w = some entry → entry.Within) :
    Progressing ((s.install pool).setUpdating none) where
  wf := (h.wf.install pool).setUpdating none
  live {w r} hr := by
    cases hentry : pool.get? w with
    | none =>
      have hr : (s.install pool).routepool.get? w = some r := hr
      rw [get?_install, hentry] at hr
      cases hr
    | some entry =>
      obtain ⟨r', hr', hheap⟩ := entryOf?_eq_some.mp ((entryOf?_install s pool w).trans hentry)
      obtain rfl : r' = r := Option.some.inj (hr'.symm.trans hr)
      show ((s.install pool).heap r').Within
      rw [hheap]
      exact hpool hentry
  kept hr := Keeps.install hpool _ (h.kept (s := s) hr)
  copies hupdating := by cases hupdating

theorem setTime (h : Progressing s) (now : ℚ) : Progressing (s.setTime now) :=
  h.congr (.of_heap rfl) rfl rfl rfl rfl

theorem setRoute (h : Progressing s) (newRoute : List (Location K)) : Progressing (s.setRoute newRoute) :=
  h.congr (.of_heap rfl) rfl rfl rfl rfl

theorem setPrioCoord (h : Progressing s) (w : Origin) (location : Location K) :
    Progressing (s.setPrioCoord w location) := by
  unfold State.setPrioCoord
  split
  · exact h
  · exact h.congr (.modifyEntry fun hr => hr) rfl rfl rfl rfl

theorem setRoutepoolEntryLocation (h : Progressing s) (w : Origin) (pos : Location K) :
    Progressing (s.setRoutepoolEntryLocation w pos) := by
  unfold State.setRoutepoolEntryLocation
  split
  · exact h
  · exact h.congr (.modifyEntry fun hr => hr) rfl rfl rfl rfl

theorem redoStopAtEnd (h : Progressing s) (w : Origin) (location : Location K)
    (hwithin : ∀ r, s.routepool.get? w = some r → (s.heap r).queue.length < (s.heap r).subroute.length) :
    Progressing (s.redoStopAtEnd m w location) := by
  have hcoords : ∀ {t : State K}, Progressing t → Progressing
      (if m.deleteCoordAfterFetch then
        { t with currentRouteRoundCoords := t.currentRouteRoundCoords ++ [location] }
      else t) := by
    intro t ht
    split
    · exact ht.congr (.of_heap rfl) rfl rfl rfl rfl
    · exact ht
  unfold State.redoStopAtEnd
  simp only
  cases hr : s.routepool.get? w with
  | none => exact hcoords h
  | some r =>
    refine hcoords (h.congr (.modifyEntry ?_) rfl rfl rfl rfl)
    intro _
    have hlt := hwithin r hr
    simp only [RoutePoolEntry.Within, List.length_append, List.length_singleton]
    omega

theorem registerWorker (h : Progressing s) (w : Origin) : Progressing (s.registerWorker w) := by
  unfold State.registerWorker
  split
  · exact h
  · exact h.congr (.of_heap rfl) rfl rfl rfl rfl

variable [LinearOrder K]

/-- An update starts. -/
theorem setUpdating (h : Progressing s) {g : Geo K} {pool : Routepool K} (hpool : s.workerChanged g = some pool)
    (holder : Option Origin) : Progressing (s.setUpdating (some ⟨holder, pool⟩)) where
  wf := h.wf.setUpdating _
  live hr := h.live (s := s) hr
  kept hr := h.kept (s := s) hr
  copies {update w entry} hupdating hentry := by
    obtain rfl := Option.some.inj hupdating
    have hdivided := (divided_workerChanged hpool).get? w
    rw [hentry] at hdivided
    split at hdivided
    · obtain ⟨old, _, rfl⟩ := Option.map_eq_some_iff.mp hdivided.symm
      exact old.replaceSubroute_within g _
    · cases hdivided

/-! ## The steps -/

theorem startUnawaited (h : Progressing s) (g : Geo K) : Progressing (s.startUnawaited g) := by
  unfold State.startUnawaited
  split
  · exact h
  · next pool hpool => exact h.setUpdating hpool none

theorem joined (h : Progressing s) (w : Origin) (updated : Bool) : Progressing (s.joined m w updated) :=
  h.outside (.joined m s w updated) (joined_confined h.wf.live updated).toOutside fun r hr =>
    .inr (joined_call m s w updated r hr)

theorem refilled (h : Progressing s) (hw : (s.calls w).ref? = some r) (updated : Bool) :
    Progressing (s.refilled m w r updated) := by
  apply h.outside (.refilled m s w r updated) (refilled_confined h.wf.live (h.wf.kept hw).1 updated).toOutside
  intro r' hr'
  obtain ⟨location, hlocation⟩ := refilled_call m s w r updated
  rw [hlocation] at hr'
  cases hr'

theorem moveOn (h : Progressing s) (hw : (s.calls w).ref? = some r) : Progressing (s.moveOn m w r) := by
  apply h.outside (.moveOn m s w r) (moveOn_confined h.wf.live (h.wf.kept hw).1).toOutside
  intro r' hr'
  rw [moveOn_call m s w r r' hr']
  exact .inl hw

theorem lookUpEntry [Field K] (h : Progressing s) (w : Origin) (now : ℚ) :
    Progressing (s.lookUpEntry m w now) := by
  rcases lookUpEntry_cases m s w now with ⟨_, heq⟩ | ⟨r, prioevent, hr, _, heq⟩ | ⟨r, hr, _, heq⟩
  · rw [heq]
    exact h.create w now
  · rw [heq]
    apply h.outside (.takePrio s w r prioevent) (takePrio_outside (m := m) h.wf.live (h.wf.live hr).1 prioevent)
    intro r' hr'
    rw [State.takePrio, State.setCall_calls_self] at hr'
    cases hr'
  · rw [heq]
    apply h.outside (.withEntry m s w r) (withEntry_confined h.wf.live (h.wf.live hr).1).toOutside
    intro r' hr'
    rw [withEntry_call m s w r r' hr']
    exact .inr hr

theorem getNextLocation [Field K] (h : Progressing s) (w : Origin) (now : ℚ) :
    Progressing (s.getNextLocation m w now) := by
  rcases getNextLocation_cases m s w now with ⟨_, heq⟩ | ⟨_, heq⟩
  · rw [heq]
    exact h.returned none
  · rw [heq]
    exact h.lookUpEntry w now

omit [LinearOrder K] in
theorem awaitStart (h : Progressing s) (w : Origin) : Progressing (s.awaitStart w) := by
  obtain ⟨call, heq, hnone⟩ := awaitStart_ref? s w
  rw [heq]
  apply h.setCall
  intro r hr
  rw [hnone] at hr
  cases hr

theorem popEvent (h : Progressing s) {g : Geo K} (hw : (s.calls w).ref? = some r) (again : Bool) (due now : ℚ)
    (location : Location K) : Progressing (s.popEvent g m w r again due location now) := by
  rcases popEvent_cases (g := g) (m := m) h.wf.live (h.wf.kept hw).1 again due now location
    with ⟨v, _, heq⟩ | ⟨hconfined, hcall⟩
  · obtain ⟨coords, hpassed⟩ := passedOn_eq m s w v r location
    rw [heq, hpassed]
    have hroute : Progressing { s with currentRouteRoundCoords := coords } :=
      h.congr (.of_heap rfl) rfl rfl rfl rfl
    apply (hroute.setPrioCoord v location).setCall
    intro r' hr'
    cases hr'
    left
    unfold State.setPrioCoord
    split <;> exact hw
  · apply h.outside (.popEvent g m s w r again due location now) hconfined.toOutside
    intro r' hr'
    rw [hcall r' hr']
    exact .inl hw

theorem addCoordToBeRemoved [Field K] (h : Progressing s) (location : Location K) :
    Progressing (s.addCoordToBeRemoved location) := by
  unfold State.addCoordToBeRemoved
  split
  · exact h
  · exact h.congr (.of_heap rfl) rfl rfl rfl rfl

theorem startUpdate (h : Progressing s) {g : Geo K} (ht : s.startUpdate g m w = some t) : Progressing t := by
  unfold State.startUpdate at ht
  split at ht
  · cases ht; exact h.joined w false
  · next hw _ => cases ht; exact h.refilled (by rw [hw]; rfl) false
  · next hpool => cases ht; exact h.setUpdating hpool _
  · next hpool => cases ht; exact h.setUpdating hpool _
  · cases ht

theorem finishUpdate (h : Progressing s) {update : Update K} (hupdating : s.updating = some update) :
    Progressing (s.finishUpdate m update) := by
  have hinstalled : Progressing ((s.install update.pool).setUpdating none) :=
    h.install fun hentry => h.copies hupdating hentry
  unfold State.finishUpdate
  simp only
  split
  · exact hinstalled
  split
  · exact hinstalled.joined _ true
  · next hw => exact hinstalled.refilled (by rw [hw]; rfl) true
  · next hw => exact hinstalled.setCall fun r' hr' => .inl (by rw [hw]; exact hr')
  · exact hinstalled

theorem calculated (h : Progressing s) {g : Geo K} (hw : s.calls w = .recalculating r)
    (newRoute : List (Location K)) : Progressing (s.calculated g w r newRoute) := by
  have hkept : (s.calls w).ref? = some r := by rw [hw]; rfl
  have hroute := h.setRoute newRoute
  unfold State.calculated
  simp only
  split
  · apply hroute.setCall
    intro r' hr'
    cases hr'
    exact .inl hkept
  · next pool hpool =>
    apply (hroute.setUpdating hpool (some w)).setCall
    intro r' hr'
    cases hr'
    exact .inl hkept

theorem unregisterWorker (h : Progressing s) {g : Geo K} (w : Origin) (remove : Bool) :
    Progressing (s.unregisterWorker g w remove) := by
  have hregistered : Progressing
      { s with workersRegistered := s.workersRegistered.filter fun v => v ≠ w } :=
    h.congr (.of_heap rfl) rfl rfl rfl rfl
  unfold State.unregisterWorker
  simp only
  split
  · exact (hregistered.erase w).startUnawaited g
  · exact hregistered

theorem step [Field K] {g : Geo K} {a : Action K} (h : Progressing s) (hwithin : RedoneWithin s a)
    (hs : Step g m s a t) : Progressing t := by
  cases hs with
  | getNextLocation hw hnow => exact (h.setTime _).getNextLocation _ _
  | awaitStart hw => exact h.awaitStart _
  | started hw hnow => exact (h.setTime _).lookUpEntry _ _
  | notStarted hw => exact h.returned none
  | popEvent due location hw hnow =>
    apply (h.setTime _).popEvent
    show (s.calls _).ref? = _
    rw [hw]
    rfl
  | noEvent hw => exact h.moveOn (by rw [hw]; rfl)
  | anyCoordsLeft left hw =>
    apply h.setCall
    intro r hr
    cases left with
    | false => cases hr
    | true => exact .inl (by rw [hw]; exact hr)
  | calculated newRoute hw hfree => exact h.calculated hw newRoute
  | startUpdate hfree ht => exact h.startUpdate ht
  | finishUpdate hupdating => exact h.finishUpdate hupdating
  | fetchStops locationsOfStops => exact h.congr (.of_heap rfl) rfl rfl rfl rfl
  | calculateRoute newRoute hfree => exact (h.setRoute newRoute).startUnawaited g
  | registerWorker w => exact h.registerWorker w
  | unregisterWorker w remove hfree => exact h.unregisterWorker w remove
  | redoStopImmediately w location => exact h.setPrioCoord w location
  | redoStopAtEnd w location => exact h.redoStopAtEnd w location hwithin
  | addCoordToBeRemoved location => exact h.addCoordToBeRemoved location
  | setWorkerStartposition w location => exact h.congr (.of_heap rfl) rfl rfl rfl rfl

end Progressing

end MapADroid.Route
