import MapADroid.Route.Invariant
import MapADroid.Route.Undivided

/- The stops a worker is sent to in level mode (`RouteManagerLeveling`).

   An update looks up stops for a worker whose queue is empty. Where it finds some, the queue and
   the subroute are a route through all of them. Where it finds none, it leaves the entry as it is,
   and the call that awaited it fills the queue with the subroute the worker has just finished
   (`finished_subroute_again`). Without that, and while the area does not ask for stops that were
   spun before, each location that is returned was of use at the last lookup (`sent_to_useful`). -/
namespace MapADroid.Route
open Lib

variable {K : Type} {m : Manager K} {s t : State K} {v w : Origin} {r : Ref} {location : Location K}

/-! ## What is taken off a queue -/

theorem popGood_some {check : Location K → Bool} {queue : List (Location K)}
    (h : (popGood check queue).1 = some location) : location ∈ queue ∧ check location = true := by
  induction queue with
  | nil => cases h
  | cons nextCoord queue ih =>
    rw [popGood] at h
    split at h
    · next hcheck =>
      obtain rfl := Option.some.inj h
      exact ⟨List.mem_cons_self, hcheck⟩
    · exact ⟨List.mem_cons_of_mem _ (ih h).1, (ih h).2⟩

theorem popGood_subset (check : Location K → Bool) (queue : List (Location K)) :
    (popGood check queue).2 ⊆ queue := by
  induction queue with
  | nil => exact List.Subset.refl _
  | cons nextCoord queue ih =>
    rw [popGood]
    split
    · exact List.subset_cons_self _ _
    · exact List.Subset.trans ih (List.subset_cons_self _ _)

/-- No queue has a location that was not in it before. -/
def Shrinks (s t : State K) : Prop := ∀ r, (t.heap r).queue ⊆ (s.heap r).queue

theorem Shrinks.of_heap (h : t.heap = s.heap) : Shrinks s t := fun r => by rw [h]; exact List.Subset.refl _

theorem Shrinks.trans {u : State K} (h : Shrinks s t) (h' : Shrinks t u) : Shrinks s u :=
  fun r => List.Subset.trans (h' r) (h r)

theorem Shrinks.modifyEntry {f : RoutePoolEntry K → RoutePoolEntry K} (hf : (f (s.heap r)).queue ⊆ (s.heap r).queue) :
    Shrinks s (s.modifyEntry r f) := by
  intro r'
  by_cases h : r' = r
  · rw [h, State.modifyEntry_heap_self]
    exact hf
  · rw [State.modifyEntry_heap_of_ne _ _ _ h]
    exact List.Subset.refl _

theorem Shrinks.setRoutepoolEntryLocation (s : State K) (w : Origin) (pos : Location K) :
    Shrinks s (s.setRoutepoolEntryLocation w pos) := by
  unfold State.setRoutepoolEntryLocation
  split
  · exact .of_heap rfl
  · exact .modifyEntry (List.Subset.refl _)

variable [LinearOrder K]

theorem Shrinks.takeNext (m : Manager K) (s : State K) (w : Origin) (r : Ref) : Shrinks s (s.takeNext m w r) := by
  have hpop : Shrinks s (s.modifyEntry r fun entry =>
      { entry with queue := (popGood (s.checkCoords m) (s.heap r).queue).2 }) :=
    .modifyEntry (popGood_subset _ _)
  unfold State.takeNext
  dsimp only
  split
  · exact hpop
  · next nextCoord _ =>
    refine hpop.trans (Shrinks.trans (.of_heap ?_) (.setRoutepoolEntryLocation _ w nextCoord))
    unfold State.removeFromRoute
    split <;> rfl

theorem takeNext_returned (h : (s.takeNext m w r).calls w = .returned (some location)) :
    location ∈ (s.heap r).queue ∧ s.checkCoords m location = true := by
  rw [takeNext_call] at h
  exact popGood_some (Call.returned.inj h)

omit [LinearOrder K] in
theorem Shrinks.countRounds (s : State K) : Shrinks s s.countRounds := .of_heap (countRounds_heap s)

theorem Shrinks.moveOn (m : Manager K) (s : State K) (w : Origin) (r : Ref) : Shrinks s (s.moveOn m w r) := by
  have hnormal : Shrinks s (s.modifyEntry r fun entry => { entry with lastPositionType := .normal }) :=
    .modifyEntry (List.Subset.refl _)
  have hcounted := hnormal.trans (.countRounds _)
  unfold State.moveOn
  dsimp only
  split
  · exact hcounted
  split
  · have hrounds := hcounted.trans (.modifyEntry (r := r) (f := fun entry =>
      { entry with rounds := entry.rounds + 1 }) (List.Subset.refl _))
    split
    · exact hrounds
    · exact hrounds
  · exact hcounted.trans (.takeNext m _ w r)

theorem moveOn_returned (h : (s.moveOn m w r).calls w = .returned (some location)) :
    location ∈ (s.heap r).queue ∧ s.checkCoords m location = true := by
  unfold State.moveOn at h
  dsimp only at h
  split at h
  · rw [State.setCall_calls_self] at h
    cases h
  split at h
  · split at h
    · rw [State.setCall_calls_self] at h
      cases h
    · rw [State.setCall_calls_self] at h
      cases h
  · obtain ⟨hmem, hcheck⟩ := takeNext_returned h
    rw [countRounds_heap, State.modifyEntry_heap_self] at hmem
    refine ⟨hmem, ?_⟩
    unfold State.countRounds at hcheck
    split at hcheck
    · exact hcheck
    · exact hcheck

namespace Leveling

theorem withEntry_eq (s : Route.State K) (w : Origin) (r : Ref) :
    s.withEntry (levelManager K) w r = s.moveOn (levelManager K) w r := by
  unfold State.withEntry
  rw [if_neg (by simp [levelManager])]

theorem joined_shrinks (s : Route.State K) (w : Origin) (updated : Bool) :
    Shrinks s (s.joined (levelManager K) w updated) := by
  unfold State.joined
  split
  · split
    · rw [withEntry_eq]
      exact .moveOn _ s w _
    · exact .of_heap rfl
  · exact .of_heap rfl

theorem joined_returned {s : Route.State K} {updated : Bool}
    (h : (s.joined (levelManager K) w updated).calls w = .returned (some location)) :
    ∃ r, s.routepool.get? w = some r ∧ location ∈ (s.heap r).queue ∧
      s.checkCoords (levelManager K) location = true := by
  unfold State.joined at h
  split at h
  · next r hr =>
    split at h
    · rw [withEntry_eq] at h
      exact ⟨r, hr, moveOn_returned h⟩
    · rw [State.setCall_calls_self] at h
      cases h
  · rw [State.setCall_calls_self] at h
    cases h

/-- The subroute is put into a queue that is empty. -/
theorem refilled_queue (s : Route.State K) (w : Origin) (r r' : Ref) (updated : Bool) :
    ∀ l ∈ ((s.refilled (levelManager K) w r updated).heap r').queue,
      l ∈ (s.heap r').queue ∨ r' = r ∧ (s.heap r).queue = [] ∧ l ∈ (s.heap r).subroute := by
  intro l hl
  unfold State.refilled at hl
  dsimp only at hl
  split at hl
  · exact Or.inl hl
  split at hl
  · exact Or.inl hl
  · next subroute hqueue _ =>
    have hmem := Shrinks.takeNext (levelManager K) _ w r r' hl
    by_cases h : r' = r
    · subst h
      rw [State.modifyEntry_heap_self] at hmem
      exact Or.inr ⟨rfl, hqueue, hmem⟩
    · rw [State.modifyEntry_heap_of_ne _ _ _ h] at hmem
      exact Or.inl hmem
  · exact Or.inl (Shrinks.takeNext (levelManager K) _ w r r' hl)
  · exact Or.inl hl

theorem refilled_returned {s : Route.State K} {updated : Bool}
    (h : (s.refilled (levelManager K) w r updated).calls w = .returned (some location)) :
    (s.routepool.get? w).isSome = true ∧ updated = true ∧ s.checkCoords (levelManager K) location = true ∧
      (location ∈ (s.heap r).queue ∨ (s.heap r).queue = [] ∧ location ∈ (s.heap r).subroute) := by
  unfold State.refilled at h
  dsimp only at h
  split at h
  · rw [State.setCall_calls_self] at h
    cases h
  next hfails =>
  simp only [Bool.or_eq_true, Bool.not_eq_true', Option.isNone_iff_eq_none, not_or, Bool.not_eq_false] at hfails
  have hsome : (s.routepool.get? w).isSome = true := Option.isSome_iff_ne_none.mpr hfails.2
  split at h
  · rw [State.setCall_calls_self] at h
    cases h
  · next subroute hqueue _ =>
    obtain ⟨hmem, hcheck⟩ := takeNext_returned h
    rw [State.modifyEntry_heap_self] at hmem
    exact ⟨hsome, hfails.1, hcheck, Or.inr ⟨hqueue, hmem⟩⟩
  · obtain ⟨hmem, hcheck⟩ := takeNext_returned h
    exact ⟨hsome, hfails.1, hcheck, Or.inl hmem⟩
  · rw [State.setCall_calls_self] at h
    cases h

/-! ## Lookups -/

/-- A stop that was looked up, and whether the account of the worker has spun it. -/
structure Stop (K : Type) where
  location : Location K
  visited : Bool
  deriving DecidableEq

/-- A manager, and where the last lookup for each worker found stops that are not visited and not
ignored. -/
structure Recorded (K : Type) where
  level : State K
  useful : Origin → List (Location K)

/-- What an action has looked up. The route goes through all of the stops; visited ones are among them
only where the area does not ignore spun stops. There are none without a device or an account. -/
def Found (ignoreSpun : Bool) (stops : List (Stop K)) : Action K → Prop
  | .recalculated newRoute => stops ≠ [] ∧ newRoute.Perm (stops.map Stop.location) ∧
      (ignoreSpun = true → ∀ stop ∈ stops, stop.visited = false)
  | _ => stops = []

instance (ignoreSpun : Bool) (stops : List (Stop K)) (a : Action K) : Decidable (Found ignoreSpun stops a) := by
  unfold Found
  split <;> infer_instance

/-- The worker whose stops an action has looked up. -/
def lookedUp (s : State K) : Action K → Option Origin
  | .recalculated _ | .noStops => (s.visit.bind Visit.current).map Ref.origin
  | _ => none

/-- Where the stops of a lookup are that are not visited and not ignored. -/
def usefulStops (ignored : List (Location K)) (stops : List (Stop K)) : List (Location K) :=
  (stops.filter fun stop => !stop.visited && !ignored.contains stop.location).map Stop.location

def record (p : Recorded K) (a : Action K × List (Stop K)) : Origin → List (Location K) :=
  match lookedUp p.level a.1 with
  | none => p.useful
  | some w => Function.update p.useful w (usefulStops p.level.manager.coordsToBeIgnored a.2)

theorem mem_usefulStops {ignored : List (Location K)} {stops : List (Stop K)} {stop : Stop K} (hstop : stop ∈ stops)
    (h : stop.visited = false ∨ stop.location ∈ ignored) :
    stop.location ∈ usefulStops ignored stops ∨ stop.location ∈ ignored := by
  by_cases hignored : stop.location ∈ ignored
  · exact Or.inr hignored
  · have hvisited := h.resolve_right hignored
    exact Or.inl (List.mem_map.mpr ⟨stop, List.mem_filter.mpr ⟨hstop, by simp [hvisited, hignored]⟩, rfl⟩)

/-- One action, with the stops it has looked up. -/
def recordedStep [Field K] (g : Geo K) (ignoreSpun : Bool) (p : Recorded K) (a : Action K × List (Stop K)) :
    Option (Recorded K) :=
  if Found ignoreSpun a.2 a.1 then (step g p.level a.1).map fun t => ⟨t, record p a⟩ else none

/-- The action begins a call of `w`. -/
def Begins (w : Origin) : Action K → Prop
  | .usual (.getNextLocation v _) => v = w
  | .usual (.awaitStart v) => v = w
  | _ => False

/-- The action ends a call of `w`, which returns `location`. -/
def Ends (s : State K) (a : Action K) (t : State K) (w : Origin) (location : Option (Location K)) : Prop :=
  t.manager.calls w = .returned location ∧ ((s.manager.calls w).idle = false ∨ Begins w a)

/-- A location that is returned was of use at the last lookup; where none was, none is returned. -/
structure SendsToUseful (p : Recorded K) (a : Action K) (t : Recorded K) : Prop where
  useful : ∀ w location, Ends p.level a t.level w (some location) → location ∈ t.useful w
  finished : ∀ w location, Ends p.level a t.level w location → t.useful w = [] → location = none

/-- No stop is redone. -/
def NoRedo (_ : Recorded K) (a : Action K × List (Stop K)) : Prop :=
  match a.1 with
  | .usual (.redoStopImmediately _ _) => False
  | .usual (.redoStopAtEnd _ _) => False
  | _ => True

/-- The stops that are found are not visited, or ignored; a worker for which a call of its own finds none
has no subroute, but for ignored stops. -/
def FindsUseful (p : Recorded K) (a : Action K × List (Stop K)) : Prop :=
  match a.1 with
  | .recalculated _ =>
    ∀ stop ∈ a.2, stop.visited = false ∨ p.level.manager.coordsToBeIgnored.contains stop.location = true
  | .noStops => ∀ visit ∈ p.level.visit, ∀ r ∈ visit.current, visit.holder = some r.origin →
      ∀ location ∈ (p.level.manager.heap r).subroute,
        p.level.manager.coordsToBeIgnored.contains location = true
  | _ => True

def Rebuilds (p : Recorded K) (a : Action K × List (Stop K)) : Prop := NoRedo p a ∧ FindsUseful p a

instance (p : Recorded K) (a : Action K × List (Stop K)) : Decidable (NoRedo p a) := by
  unfold NoRedo
  split <;> infer_instance

instance (p : Recorded K) (a : Action K × List (Stop K)) : Decidable (FindsUseful p a) := by
  unfold FindsUseful
  split <;> infer_instance

instance (p : Recorded K) (a : Action K × List (Stop K)) : Decidable (Rebuilds p a) :=
  inferInstanceAs (Decidable (_ ∧ _))

/-! ## The queues -/

/-- The queues hold what was of use at the last lookup, or is ignored. -/
structure Queues (s : Route.State K) (useful : Origin → List (Location K)) : Prop where
  wf : WellFormed s
  kept : ∀ {w r r'}, s.calls w = .refilling r → s.routepool.get? w = some r' → r' = r
  noPrio : ∀ {w r}, s.routepool.get? w = some r → (s.heap r).prioCoord = none
  queue : ∀ {w r}, s.routepool.get? w = some r → ∀ l ∈ (s.heap r).queue, l ∈ useful w ∨ l ∈ s.coordsToBeIgnored

/-- An update in progress: the entry it looks up stops for has no queue, and the call that awaits it has
its entry before it, or a queue in it, or no subroute to fall back on. -/
structure Visiting (s : Route.State K) (visit : Visit) : Prop where
  current : ∀ {r}, visit.current = some r → s.routepool.get? r.origin = some r ∧ (s.heap r).queue = []
  waits : ∀ {w}, visit.holder = some w → (s.calls w).away = false
  holder : ∀ {w r}, visit.holder = some w → s.calls w = .refilling r → s.routepool.get? w = some r →
    w ∈ visit.left ∨ visit.current = some r ∨ (s.heap r).queue ≠ [] ∨
      ∀ l ∈ (s.heap r).subroute, l ∈ s.coordsToBeIgnored

variable {s t : Route.State K} {useful : Origin → List (Location K)} {visit : Visit}

theorem notMem_of_checkCoords (h : s.checkCoords (levelManager K) location = true) :
    location ∉ s.coordsToBeIgnored := by
  intro hmem
  have hcontains : (!s.coordsToBeIgnored.contains location) = true := h
  rw [List.contains_eq_mem, decide_eq_true hmem] at hcontains
  cases hcontains

namespace Queues

omit [LinearOrder K] in
/-- Only coords to be ignored are added. -/
theorem congr (h : Queues s useful) (hheap : t.heap = s.heap) (hnext : t.next = s.next)
    (hpool : t.routepool = s.routepool) (hcalls : t.calls = s.calls)
    (hignored : s.coordsToBeIgnored ⊆ t.coordsToBeIgnored) : Queues t useful := by
  refine ⟨h.wf.congr hnext hpool hcalls, ?_, ?_, ?_⟩
  · intro w r r' hw hr
    exact h.kept (hcalls ▸ hw) (hpool ▸ hr)
  · intro w r hr
    rw [hheap]
    exact h.noPrio (hpool ▸ hr)
  · intro w r hr l hl
    rw [hheap] at hl
    exact (h.queue (hpool ▸ hr) l hl).imp_right fun hl => hignored hl

/-- A section of a call of `w`. -/
theorem section_ (h : Queues s useful) (hwf : WellFormed t) (hconfined : Confined (levelManager K) w s t)
    (hqueue : ∀ {r}, s.routepool.get? w = some r → ∀ l ∈ (t.heap r).queue,
      l ∈ (s.heap r).queue ∨ l ∈ s.coordsToBeIgnored)
    (hcall : ∀ {r r'}, t.calls w = .refilling r → s.routepool.get? w = some r' → r' = r) : Queues t useful := by
  refine ⟨hwf, ?_, ?_, ?_⟩
  · intro v r r' hv hr
    rw [hconfined.routepool] at hr
    by_cases hvw : v = w
    · subst hvw
      exact hcall hv hr
    · rw [hconfined.calls v hvw] at hv
      exact h.kept hv hr
  · intro v r hr
    rw [hconfined.routepool] at hr
    rw [hconfined.prioCoord]
    exact h.noPrio hr
  · intro v r hr l hl
    rw [hconfined.routepool] at hr
    rw [hconfined.ignored]
    by_cases hvw : v = w
    · subst hvw
      rcases hqueue hr l hl with hl | hl
      · exact h.queue hr l hl
      · exact Or.inr hl
    · rw [hconfined.heap r fun horigin => hvw ((h.wf.live hr).1.symm.trans horigin)] at hl
      exact h.queue hr l hl

/-- A call returns what was of use. -/
theorem returned (h : Queues s useful) (hr : s.routepool.get? w = some r) (hmem : location ∈ (s.heap r).queue)
    (hcheck : s.checkCoords (levelManager K) location = true) : location ∈ useful w :=
  (h.queue hr location hmem).resolve_right (notMem_of_checkCoords hcheck)

theorem moveOn (h : Queues s useful) (hr : s.routepool.get? w = some r) :
    Queues (s.moveOn (levelManager K) w r) useful := by
  have hwf : WellFormed (s.moveOn (levelManager K) w r) := by
    apply h.wf.outside (moveOn_confined h.wf.live (h.wf.live hr).1).toOutside
    intro r' hr'
    rw [moveOn_call _ s w r r' hr']
    exact Or.inr hr
  refine h.section_ hwf (moveOn_confined h.wf.live (h.wf.live hr).1) ?_ ?_
  · intro r' _ l hl
    exact Or.inl (Shrinks.moveOn _ s w r r' hl)
  · intro r₁ r₂ hcall hr₂
    have hr₁ := moveOn_call _ s w r r₁ (by rw [hcall]; rfl)
    rw [hr, Option.some.injEq] at hr₂
    rw [hr₁, hr₂]

theorem setCall (h : Queues s useful) (w : Origin) (location : Option (Location K)) :
    Queues (s.setCall w (.returned location)) useful := by
  refine h.section_ (h.wf.setCall fun r hr => by cases hr) (.setCall _) (fun _ l hl => Or.inl hl) ?_
  intro r r' hcall _
  rw [State.setCall_calls_self] at hcall
  cases hcall

theorem joined (h : Queues s useful) (w : Origin) (updated : Bool) :
    Queues (s.joined (levelManager K) w updated) useful := by
  refine h.section_ (h.wf.joined w updated) (joined_confined h.wf.live updated) ?_ ?_
  · intro r _ l hl
    exact Or.inl (joined_shrinks s w updated r hl)
  · intro r r' hcall hr'
    have hr := joined_call (levelManager K) s w updated r (by rw [hcall]; rfl)
    rw [hr, Option.some.injEq] at hr'
    exact hr'.symm

/-- Only a subroute of ignored stops is put into the queue again. -/
theorem refilled (h : Queues s useful) (hw : s.calls w = .refilling r) (updated : Bool)
    (hback : s.routepool.get? w = some r → updated = true →
      (s.heap r).queue ≠ [] ∨ ∀ l ∈ (s.heap r).subroute, l ∈ s.coordsToBeIgnored) :
    Queues (s.refilled (levelManager K) w r updated) useful := by
  have href : (s.calls w).ref? = some r := by rw [hw]; rfl
  refine h.section_ (h.wf.refilled href updated) (refilled_confined h.wf.live (h.wf.kept href).1 updated) ?_ ?_
  · intro r' hr' l hl
    have hrr' := h.kept hw hr'
    subst hrr'
    cases updated with
    | false =>
      rw [show s.refilled (levelManager K) w r' false = s.setCall w (.returned none) from rfl] at hl
      exact Or.inl hl
    | true =>
      rcases refilled_queue s w r' r' true l hl with hl | ⟨_, hempty, hl⟩
      · exact Or.inl hl
      · rcases hback hr' rfl with hqueue | hignored
        · exact absurd hempty hqueue
        · exact Or.inr (hignored l hl)
  · intro r₁ r₂ hcall _
    obtain ⟨location, hreturned⟩ := refilled_call (levelManager K) s w r updated
    rw [hreturned] at hcall
    cases hcall

omit [LinearOrder K] in
theorem create [Field K] (h : Queues s useful) (w : Origin) (now : ℚ) :
    Queues (s.create w now) useful := by
  have hget : ∀ v, (s.create w now).routepool.get? v = if v = w then some ⟨s.next, w⟩ else s.routepool.get? v :=
    fun v => Dict.get?_insert s.routepool w v _
  have hself : ((s.create w now).heap ⟨s.next, w⟩).queue = [] ∧
      ((s.create w now).heap ⟨s.next, w⟩).prioCoord = none := by
    rw [State.create, State.setCall_heap, State.setEntry_heap_self]
    exact ⟨rfl, rfl⟩
  have hothers : ∀ {v r}, v ≠ w → s.routepool.get? v = some r → (s.create w now).heap r = s.heap r :=
    fun hv hr => State.setEntry_heap_of_ne _ _ _ fun heq => hv ((h.wf.live hr).1.symm.trans (congrArg Ref.origin heq))
  refine ⟨h.wf.create w now, ?_, ?_, ?_⟩
  · intro v r r' hv hr
    by_cases hvw : v = w
    · rw [hvw, State.create, State.setCall_calls_self] at hv
      cases hv
    · rw [hget, if_neg hvw] at hr
      rw [State.create, State.setCall_calls_of_ne _ _ _ hvw] at hv
      exact h.kept hv hr
  · intro v r hr
    rw [hget] at hr
    split at hr
    · cases hr
      exact hself.2
    · next hvw =>
      rw [hothers hvw hr]
      exact h.noPrio hr
  · intro v r hr l hl
    rw [hget] at hr
    split at hr
    · cases hr
      rw [hself.1] at hl
      cases hl
    · next hvw =>
      rw [hothers hvw hr] at hl
      exact h.queue hr l hl

omit [LinearOrder K] in
theorem erase (h : Queues s useful) (w : Origin) : Queues { s with routepool := s.routepool.erase w } useful := by
  have hget : ∀ {v r}, (s.routepool.erase w).get? v = some r → s.routepool.get? v = some r := by
    intro v r hr
    rw [Dict.get?_erase] at hr
    split at hr
    · cases hr
    · exact hr
  exact ⟨⟨fun hr => h.wf.live (hget hr), h.wf.kept⟩, fun hv hr => h.kept hv (hget hr), fun hr => h.noPrio (hget hr),
    fun hr l hl => h.queue (hget hr) l hl⟩

/-- Without prio events, a lookup makes an entry or moves on. -/
theorem lookUpEntry_cases [Field K] (h : Queues s useful) (w : Origin) (now : ℚ) :
    (s.routepool.get? w = none ∧ s.lookUpEntry (levelManager K) w now = s.create w now) ∨
      ∃ r, s.routepool.get? w = some r ∧
        s.lookUpEntry (levelManager K) w now = s.moveOn (levelManager K) w r := by
  rcases Route.lookUpEntry_cases (levelManager K) s w now with
    ⟨hnone, heq⟩ | ⟨r, prioevent, hr, hprio, _⟩ | ⟨r, hr, _, heq⟩
  · exact .inl ⟨hnone, heq⟩
  · rw [h.noPrio hr] at hprio
    cases hprio
  · rw [withEntry_eq] at heq
    exact .inr ⟨r, hr, heq⟩

theorem lookUpEntry [Field K] (h : Queues s useful) (w : Origin) (now : ℚ) :
    Queues (s.lookUpEntry (levelManager K) w now) useful := by
  rcases h.lookUpEntry_cases w now with ⟨_, heq⟩ | ⟨r, hr, heq⟩
  · rw [heq]
    exact h.create w now
  · rw [heq]
    exact h.moveOn hr

theorem lookUpEntry_calls [Field K] (h : Queues s useful) (w : Origin) (now : ℚ) :
    ∀ v, v ≠ w → (s.lookUpEntry (levelManager K) w now).calls v = s.calls v := by
  intro v hv
  rcases h.lookUpEntry_cases w now with ⟨_, heq⟩ | ⟨r, hr, heq⟩
  · rw [heq]
    exact State.setCall_calls_of_ne _ _ _ hv
  · rw [heq]
    exact (moveOn_confined h.wf.live (h.wf.live hr).1).calls v hv

theorem lookUpEntry_returned [Field K] (h : Queues s useful) {now : ℚ}
    (hreturned : (s.lookUpEntry (levelManager K) w now).calls w = .returned (some location)) :
    location ∈ useful w := by
  rcases h.lookUpEntry_cases w now with ⟨_, heq⟩ | ⟨r, hr, heq⟩
  · rw [heq, State.create, State.setCall_calls_self] at hreturned
    cases hreturned
  · rw [heq] at hreturned
    obtain ⟨hmem, hcheck⟩ := moveOn_returned hreturned
    exact h.returned hr hmem hcheck

omit [LinearOrder K] in
/-- A call waits, or is over at once. -/
theorem awaitStart (h : Queues s useful) (w : Origin) : Queues (s.awaitStart w) useful := by
  refine ⟨h.wf.awaitStart w, ?_, h.noPrio, h.queue⟩
  intro v r r' hv hr
  by_cases hvw : v = w
  · obtain ⟨call, heq, hnone⟩ := awaitStart_ref? s w
    rw [heq, hvw, State.setCall_calls_self] at hv
    rw [hv] at hnone
    cases hnone
  · rw [State.awaitStart, State.setCall_calls_of_ne _ _ _ hvw] at hv
    exact h.kept hv hr

end Queues

/-! ## An update in progress -/

namespace Visiting

omit [LinearOrder K] in
theorem congr (h : Visiting s visit) (hheap : t.heap = s.heap) (hpool : t.routepool = s.routepool)
    (hcalls : t.calls = s.calls) (hignored : s.coordsToBeIgnored ⊆ t.coordsToBeIgnored) : Visiting t visit := by
  refine ⟨?_, ?_, ?_⟩
  · rw [hheap, hpool]
    exact h.current
  · rw [hcalls]
    exact h.waits
  · intro w r hw hcall hr
    rw [hcalls] at hcall
    rw [hpool] at hr
    rw [hheap]
    exact (h.holder hw hcall hr).imp_right (Or.imp_right (Or.imp_right fun hsub l hl => hignored (hsub l hl)))

omit [LinearOrder K] in
/-- A call that has not looked up its entry does not await the update. -/
theorem holder_ne (h : Visiting s visit) (hv : (s.calls v).away = true) : visit.holder ≠ some v := by
  intro hholder
  rw [h.waits hholder] at hv
  cases hv

/-- A section of a call that does not await the update. -/
theorem section_ (h : Visiting s visit) (hlive : LiveOwn s) (hv : visit.holder ≠ some v)
    (hconfined : Confined (levelManager K) v s t) (hshrinks : Shrinks s t) : Visiting t visit := by
  have hne : ∀ {w}, visit.holder = some w → w ≠ v := fun hw heq => hv (heq ▸ hw)
  refine ⟨?_, ?_, ?_⟩
  · intro r hr
    obtain ⟨hpool, hempty⟩ := h.current hr
    rw [hconfined.routepool]
    refine ⟨hpool, List.subset_nil.mp ?_⟩
    rw [← hempty]
    exact hshrinks r
  · intro w hw
    rw [hconfined.calls w (hne hw)]
    exact h.waits hw
  · intro w r hw hcall hr
    rw [hconfined.calls w (hne hw)] at hcall
    rw [hconfined.routepool] at hr
    rw [hconfined.heap r fun horigin => hne hw ((hlive hr).1.symm.trans horigin), hconfined.ignored]
    exact h.holder hw hcall hr

omit [LinearOrder K] in
theorem create [Field K] (h : Visiting s visit) (hlive : LiveOwn s) (hv : visit.holder ≠ some v)
    (hnone : s.routepool.get? v = none) (now : ℚ) : Visiting (s.create v now) visit := by
  have hget : ∀ {w}, w ≠ v → (s.create v now).routepool.get? w = s.routepool.get? w :=
    fun hw => Dict.get?_insert_of_ne hw
  have hheap : ∀ {r}, r.origin ≠ v → (s.create v now).heap r = s.heap r :=
    fun hr => State.setEntry_heap_of_ne _ _ _ fun heq => hr (congrArg Ref.origin heq)
  have hne : ∀ {w}, visit.holder = some w → w ≠ v := fun hw heq => hv (heq ▸ hw)
  refine ⟨?_, ?_, ?_⟩
  · intro r hr
    obtain ⟨hpool, hempty⟩ := h.current hr
    have horigin : r.origin ≠ v := by
      intro heq
      rw [heq, hnone] at hpool
      cases hpool
    rw [hget horigin, hheap horigin]
    exact ⟨hpool, hempty⟩
  · intro w hw
    rw [State.create, State.setCall_calls_of_ne _ _ _ (hne hw)]
    exact h.waits hw
  · intro w r hw hcall hr
    rw [State.create, State.setCall_calls_of_ne _ _ _ (hne hw)] at hcall
    rw [hget (hne hw)] at hr
    rw [hheap fun horigin => hne hw ((hlive hr).1.symm.trans horigin)]
    exact h.holder hw hcall hr

theorem lookUpEntry [Field K] (h : Visiting s visit) (hqueues : Queues s useful) (hv : visit.holder ≠ some v)
    (now : ℚ) : Visiting (s.lookUpEntry (levelManager K) v now) visit := by
  rcases hqueues.lookUpEntry_cases v now with ⟨hnone, heq⟩ | ⟨r, hr, heq⟩
  · rw [heq]
    exact h.create hqueues.wf.live hv hnone now
  · rw [heq]
    exact h.section_ hqueues.wf.live hv (moveOn_confined hqueues.wf.live (hqueues.wf.live hr).1) (.moveOn _ s v r)

end Visiting

/-- The queues, and those the update in progress has to do with. -/
structure Tracked (p : State K) (useful : Origin → List (Location K)) : Prop where
  queues : Queues p.manager useful
  visiting : ∀ visit, p.visit = some visit → Visiting p.manager visit

/-- The calls that end return what was of use. -/
def Gives (s t : Route.State K) (useful : Origin → List (Location K)) : Prop :=
  ∀ w location, (s.calls w).idle = false → t.calls w = .returned (some location) → location ∈ useful w

omit [LinearOrder K] in
theorem Gives.of_calls (h : t.calls = s.calls) : Gives s t useful := by
  intro w location hidle hreturned
  rw [h] at hreturned
  rw [hreturned] at hidle
  cases hidle

omit [LinearOrder K] in
/-- One call goes on. -/
theorem Gives.of_call (hcalls : ∀ v, v ≠ w → t.calls v = s.calls v)
    (hw : ∀ location, t.calls w = .returned (some location) → location ∈ useful w) : Gives s t useful := by
  intro v location hidle hreturned
  by_cases hvw : v = w
  · subst hvw
    exact hw location hreturned
  · rw [hcalls v hvw] at hreturned
    rw [hreturned] at hidle
    cases hidle

/-- The call that awaited the update goes on. -/
theorem resume_tracked (h : Queues s useful) (updated : Bool) (holder : Option Origin)
    (hback : ∀ {w r}, holder = some w → s.calls w = .refilling r → s.routepool.get? w = some r → updated = true →
      (s.heap r).queue ≠ [] ∨ ∀ l ∈ (s.heap r).subroute, l ∈ s.coordsToBeIgnored) :
    Queues (State.resume s updated holder) useful ∧ Gives s (State.resume s updated holder) useful := by
  unfold State.resume
  split
  · exact ⟨h, .of_calls rfl⟩
  next w =>
  split
  · refine ⟨h.joined w updated, .of_call (joined_confined h.wf.live updated).calls fun location hreturned => ?_⟩
    obtain ⟨r, hr, hmem, hcheck⟩ := joined_returned hreturned
    exact h.returned hr hmem hcheck
  · next r hw =>
    have href : (s.calls w).ref? = some r := by rw [hw]; rfl
    have hconfined := refilled_confined (m := levelManager K) h.wf.live (h.wf.kept href).1 updated
    refine ⟨h.refilled hw updated (hback rfl hw), .of_call hconfined.calls fun location hreturned => ?_⟩
    obtain ⟨hsome, hupdated, hcheck, hmem⟩ := refilled_returned hreturned
    obtain ⟨r', hr'⟩ := Option.isSome_iff_exists.mp hsome
    have hrr' := h.kept hw hr'
    subst hrr'
    rcases hmem with hmem | ⟨hempty, hmem⟩
    · exact h.returned hr' hmem hcheck
    · rcases hback rfl hw hr' hupdated with hqueue | hignored
      · exact absurd hempty hqueue
      · exact absurd (hignored location hmem) (notMem_of_checkCoords hcheck)
  · exact ⟨h, .of_calls rfl⟩

theorem start_tracked (h : Queues s useful) (holder : Option Origin)
    (hwaits : ∀ w, holder = some w → (s.calls w).away = false) :
    Tracked (State.start s holder) useful ∧ Gives s (State.start s holder).manager useful := by
  unfold State.start
  split
  · have hresumed := resume_tracked h false holder fun _ _ _ hupdated => by cases hupdated
    exact ⟨⟨hresumed.1, fun _ hnone => by cases hnone⟩, hresumed.2⟩
  · refine ⟨⟨h, ?_⟩, .of_calls rfl⟩
    intro visit hvisit
    obtain rfl := Option.some.inj hvisit
    refine ⟨?_, ?_, ?_⟩
    · intro r hcur
      cases hcur
    · intro w hw
      exact hwaits w hw
    intro w r _ _ hr
    exact Or.inl (Dict.mem_keys_iff.mpr ⟨r, hr⟩)

theorem raise_tracked (h : Queues s useful) (visit : Visit) :
    Tracked (State.raise s visit) useful ∧ Gives s (State.raise s visit).manager useful := by
  unfold State.raise
  split
  · exact ⟨⟨h, fun _ hnone => by cases hnone⟩, .of_calls rfl⟩
  · next w _ =>
    refine ⟨⟨h.setCall w none, fun _ hnone => by cases hnone⟩,
      .of_call (fun _ hv => State.setCall_calls_of_ne _ _ _ hv) fun location hreturned => ?_⟩
    rw [State.setCall_calls_self] at hreturned
    cases hreturned

theorem nextOrigin_tracked (h : Queues s useful) (hvisiting : Visiting s visit) (hcurrent : visit.current = none) :
    Tracked (State.nextOrigin s visit) useful ∧ Gives s (State.nextOrigin s visit).manager useful := by
  unfold State.nextOrigin
  split
  · exact raise_tracked h visit
  split
  · next hleft =>
    -- No entry is left: the one of the call has a queue, or no subroute to fall back on.
    have hresumed := resume_tracked h true visit.holder fun hw hcall hr _ => by
      rcases hvisiting.holder hw hcall hr with hmem | hcur | hback
      · rw [hleft] at hmem
        cases hmem
      · rw [hcurrent] at hcur
        cases hcur
      · exact hback
    exact ⟨⟨hresumed.1, fun _ hnone => by cases hnone⟩, hresumed.2⟩
  next origin left hleft =>
  -- The entry of the call is this one, or it is no nearer.
  have hrest : ∀ {w r}, visit.holder = some w → s.calls w = .refilling r → s.routepool.get? w = some r →
      w = origin ∨ w ∈ left ∨ (s.heap r).queue ≠ [] ∨ ∀ l ∈ (s.heap r).subroute, l ∈ s.coordsToBeIgnored := by
    intro w r hw hcall hr
    rcases hvisiting.holder hw hcall hr with hmem | hcur | hback
    · rw [hleft] at hmem
      exact (List.mem_cons.mp hmem).imp_right Or.inl
    · rw [hcurrent] at hcur
      cases hcur
    · exact Or.inr (Or.inr hback)
  split
  · next hnone =>
    refine ⟨⟨h, ?_⟩, .of_calls rfl⟩
    intro visit' hvisit
    cases hvisit
    refine ⟨fun hcur => absurd (hcurrent.symm.trans hcur) (by simp), hvisiting.waits, ?_⟩
    intro w r hw hcall hr
    rcases hrest hw hcall hr with heq | hmem | hback
    · rw [heq, hnone] at hr
      cases hr
    · exact Or.inl hmem
    · exact Or.inr (Or.inr hback)
  next r₀ hr₀ =>
  split
  · next hqueue =>
    refine ⟨⟨h, ?_⟩, .of_calls rfl⟩
    intro visit' hvisit
    cases hvisit
    refine ⟨fun hcur => absurd (hcurrent.symm.trans hcur) (by simp), hvisiting.waits, ?_⟩
    intro w r hw hcall hr
    rcases hrest hw hcall hr with heq | hmem | hback
    · rw [heq, hr₀, Option.some.injEq] at hr
      exact Or.inr (Or.inr (Or.inl (hr ▸ List.ne_nil_of_length_pos hqueue)))
    · exact Or.inl hmem
    · exact Or.inr (Or.inr hback)
  · next hempty =>
    refine ⟨⟨h, ?_⟩, .of_calls rfl⟩
    intro visit' hvisit
    cases hvisit
    refine ⟨?_, hvisiting.waits, ?_⟩
    · intro r hcur
      obtain rfl := Option.some.inj hcur
      rw [(h.wf.live hr₀).1]
      exact ⟨hr₀, List.eq_nil_of_length_eq_zero (Nat.eq_zero_of_not_pos hempty)⟩
    · intro w r hw hcall hr
      rcases hrest hw hcall hr with heq | hmem | hback
      · rw [heq] at hr
        exact Or.inr (Or.inl (hr₀.symm.trans hr))
      · exact Or.inl hmem
      · exact Or.inr (Or.inr hback)

omit [LinearOrder K] in
/-- No stops are found: the entry stays as it is, without a queue. -/
theorem noStops_tracked (h : Queues s useful) (hvisiting : Visiting s visit) (hr : visit.current = some r)
    (hback : visit.holder = some r.origin → ∀ l ∈ (s.heap r).subroute, l ∈ s.coordsToBeIgnored) :
    Tracked ⟨s, some { visit with current := none }⟩ (Function.update useful r.origin []) := by
  obtain ⟨hget, hempty⟩ := hvisiting.current hr
  refine ⟨⟨h.wf, h.kept, h.noPrio, ?_⟩, ?_⟩
  · intro w r' hr' l hl
    by_cases hw : w = r.origin
    · rw [hw, hget, Option.some.injEq] at hr'
      rw [← hr', hempty] at hl
      cases hl
    · rw [Function.update_of_ne hw]
      exact h.queue hr' l hl
  · intro visit' hvisit
    obtain rfl := Option.some.inj hvisit
    refine ⟨?_, hvisiting.waits, ?_⟩
    · intro r' hcur
      cases hcur
    · intro w r' hw hcall hr'
      rcases hvisiting.holder hw hcall hr' with hmem | hcur | hrest
      · exact Or.inl hmem
      · rw [hr, Option.some.injEq] at hcur
        have horigin : w = r.origin := by
          rw [hcur]
          exact (h.wf.live hr').1.symm
        rw [← hcur]
        exact Or.inr (Or.inr (Or.inr (hback (hw.trans (congrArg some horigin)))))
      · exact Or.inr (Or.inr hrest)

omit [LinearOrder K] in
/-- The queue goes through stops that were found. -/
theorem recalculated_tracked (h : Queues s useful) (hvisiting : Visiting s visit) (hr : visit.current = some r)
    {newRoute found : List (Location K)} (hroute : newRoute ≠ [])
    (hfound : ∀ l ∈ newRoute, l ∈ found ∨ l ∈ s.coordsToBeIgnored) :
    Tracked (State.recalculated s visit r newRoute) (Function.update useful r.origin found) ∧
      Gives s (State.recalculated s visit r newRoute).manager (Function.update useful r.origin found) := by
  obtain ⟨hget, _⟩ := hvisiting.current hr
  have hne : ∀ {w r'}, w ≠ r.origin → s.routepool.get? w = some r' → r' ≠ r :=
    fun hw hr' heq => hw ((h.wf.live hr').1.symm.trans (congrArg Ref.origin heq))
  unfold State.recalculated
  dsimp only
  rw [if_neg fun hlength => hroute (List.eq_nil_of_length_eq_zero hlength)]
  refine ⟨⟨⟨h.wf.congr rfl rfl rfl, h.kept, ?_, ?_⟩, ?_⟩, .of_calls rfl⟩
  · intro w r' hr'
    by_cases heq : r' = r
    · rw [heq, State.modifyEntry_heap_self]
      exact h.noPrio (heq ▸ hr')
    · rw [State.modifyEntry_heap_of_ne _ _ _ heq]
      exact h.noPrio hr'
  · intro w r' hr' l hl
    by_cases hw : w = r.origin
    · have heq : r' = r := by
        rw [hw] at hr'
        exact Option.some.inj (hr'.symm.trans hget)
      rw [heq, State.modifyEntry_heap_self] at hl
      rw [hw, Function.update_self]
      exact hfound l hl
    · rw [State.modifyEntry_heap_of_ne _ _ _ (hne hw hr')] at hl
      rw [Function.update_of_ne hw]
      exact h.queue hr' l hl
  · intro visit' hvisit
    obtain rfl := Option.some.inj hvisit
    refine ⟨?_, hvisiting.waits, ?_⟩
    · intro r' hcur
      cases hcur
    · intro w r' hw hcall hr'
      by_cases heq : r' = r
      · rw [heq, State.modifyEntry_heap_self]
        exact Or.inr (Or.inr (Or.inl hroute))
      · rw [State.modifyEntry_heap_of_ne _ _ _ heq]
        rcases hvisiting.holder hw hcall hr' with hmem | hcur | hrest
        · exact Or.inl hmem
        · exact absurd (Option.some.inj (hr.symm.trans hcur)).symm heq
        · exact Or.inr (Or.inr hrest)

theorem unregisterWorker_tracked (h : Queues s useful) (w : Origin) (remove : Bool) :
    Tracked (State.unregisterWorker s w remove) useful ∧
      Gives s (State.unregisterWorker s w remove).manager useful := by
  have hregistered : Queues { s with workersRegistered := s.workersRegistered.filter fun v => v ≠ w } useful :=
    h.congr rfl rfl rfl rfl (List.Subset.refl _)
  unfold State.unregisterWorker
  dsimp only
  split
  · exact start_tracked (hregistered.erase w) none fun _ hnone => by cases hnone
  · exact ⟨⟨hregistered, fun _ hnone => by cases hnone⟩, .of_calls rfl⟩

/-! ## Steps -/

omit [LinearOrder K] in
theorem Gives.ends {p : State K} {a : Action K} {q : State K} (h : Gives p.manager q.manager useful)
    (ha : ∀ w, ¬ Begins w a) : ∀ w location, Ends p a q w (some location) → location ∈ useful w := by
  rintro w location ⟨hreturned, hidle | hbegins⟩
  · exact h w location hidle hreturned
  · exact absurd hbegins (ha w)

omit [LinearOrder K] in
/-- The call of `v` goes on, or begins. -/
theorem ends_of_call {p : State K} {a : Action K} {q : State K}
    (hcalls : ∀ w, w ≠ v → q.manager.calls w = p.manager.calls w)
    (hv : ∀ location, q.manager.calls v = .returned (some location) → location ∈ useful v)
    (ha : ∀ w, Begins w a → v = w) : ∀ w location, Ends p a q w (some location) → location ∈ useful w := by
  rintro w location ⟨hreturned, hends⟩
  by_cases hw : w = v
  · subst hw
    exact hv location hreturned
  · rcases hends with hidle | hbegins
    · rw [hcalls w hw] at hreturned
      rw [hreturned] at hidle
      cases hidle
    · exact absurd (ha w hbegins).symm hw

/-- A call looks up its entry. -/
theorem lookUpEntry_tracked [Field K] {p : State K} (h : Tracked p useful)
    (hv : (p.manager.calls v).away = true) (now : ℚ) :
    Tracked ⟨(p.manager.setTime now).lookUpEntry (levelManager K) v now, p.visit⟩ useful := by
  have hqueues : Queues (p.manager.setTime now) useful :=
    h.queues.congr rfl rfl rfl rfl (List.Subset.refl _)
  refine ⟨hqueues.lookUpEntry v now, ?_⟩
  intro visit hvisit
  have hvisiting : Visiting (p.manager.setTime now) visit :=
    (h.visiting visit hvisit).congr rfl rfl rfl (List.Subset.refl _)
  exact hvisiting.lookUpEntry hqueues (hvisiting.holder_ne hv) now

/-- A call ends with nothing before it has looked up its entry. -/
theorem setCall_tracked {p : State K} (h : Tracked p useful) (hv : (p.manager.calls v).away = true) :
    Tracked ⟨p.manager.setCall v (.returned none), p.visit⟩ useful := by
  refine ⟨h.queues.setCall v none, ?_⟩
  intro visit hvisit
  have hvisiting := h.visiting visit hvisit
  exact hvisiting.section_ h.queues.wf.live (hvisiting.holder_ne hv) (.setCall _) (.of_heap rfl)

/-- A step as in the other modes. -/
theorem usual_tracked [Field K] {g : Geo K} {p : State K} (h : Tracked p useful) {a : Route.Action K} {locks : Bool}
    (ha : usual? a = some locks) (hredo : NoRedo ⟨p, useful⟩ (.usual a, [])) {t : Route.State K}
    (ht : Route.Step g (levelManager K) p.manager a t) :
    Tracked ⟨t, p.visit⟩ useful ∧ ∀ w location, Ends p (.usual a) ⟨t, p.visit⟩ w (some location) →
      location ∈ useful w := by
  have hsame : ∀ {t : Route.State K}, t.heap = p.manager.heap → t.next = p.manager.next →
      t.routepool = p.manager.routepool → t.calls = p.manager.calls →
      p.manager.coordsToBeIgnored ⊆ t.coordsToBeIgnored → (∀ w, ¬ Begins w (.usual a : Action K)) →
      Tracked ⟨t, p.visit⟩ useful ∧ ∀ w location, Ends p (.usual a) ⟨t, p.visit⟩ w (some location) →
        location ∈ useful w := by
    intro t hheap hnext hpool hcalls hignored hother
    exact ⟨⟨h.queues.congr hheap hnext hpool hcalls hignored,
      fun visit hvisit => (h.visiting visit hvisit).congr hheap hpool hcalls hignored⟩,
      Gives.ends (.of_calls hcalls) hother⟩
  cases ht with
  | @getNextLocation v now last hv hnow =>
    have haway : (p.manager.calls v).away = true := by rw [hv]; rfl
    have hqueues : Queues (p.manager.setTime now) useful :=
      h.queues.congr rfl rfl rfl rfl (List.Subset.refl _)
    rcases Route.getNextLocation_cases (levelManager K) (p.manager.setTime now) v now with ⟨_, heq⟩ | ⟨_, heq⟩
    · rw [heq]
      refine ⟨setCall_tracked (p := ⟨p.manager.setTime now, p.visit⟩) ⟨hqueues, fun visit hvisit =>
        (h.visiting visit hvisit).congr rfl rfl rfl (List.Subset.refl _)⟩ haway, ?_⟩
      refine ends_of_call (fun _ hw => State.setCall_calls_of_ne _ _ _ hw) ?_ fun _ hbegins => hbegins
      intro location hreturned
      rw [State.setCall_calls_self] at hreturned
      cases hreturned
    · rw [heq]
      exact ⟨lookUpEntry_tracked h haway now, ends_of_call (hqueues.lookUpEntry_calls v now)
        (fun _ => hqueues.lookUpEntry_returned) fun _ hbegins => hbegins⟩
  | @awaitStart v last hv =>
    refine ⟨⟨h.queues.awaitStart v, ?_⟩, ?_⟩
    · intro visit hvisit
      have hvisiting := h.visiting visit hvisit
      exact hvisiting.section_ h.queues.wf.live (hvisiting.holder_ne (by rw [hv]; rfl)) (.setCall _) (.of_heap rfl)
    · refine ends_of_call (fun _ hw => State.setCall_calls_of_ne _ _ _ hw) ?_ fun _ hbegins => hbegins
      intro location hreturned
      simp only [State.awaitStart, State.setCall_calls_self] at hreturned
      split at hreturned
      · cases hreturned
      · cases hreturned
  | @started v now hv hnow =>
    have hqueues : Queues (p.manager.setTime now) useful :=
      h.queues.congr rfl rfl rfl rfl (List.Subset.refl _)
    exact ⟨lookUpEntry_tracked h (by rw [hv]; rfl) now, ends_of_call (hqueues.lookUpEntry_calls v now)
      (fun _ => hqueues.lookUpEntry_returned) fun _ hbegins => hbegins.elim⟩
  | @notStarted v hv =>
    refine ⟨setCall_tracked h (by rw [hv]; rfl), ?_⟩
    refine ends_of_call (fun _ hw => State.setCall_calls_of_ne _ _ _ hw) ?_ fun _ hbegins => hbegins.elim
    intro location hreturned
    rw [State.setCall_calls_self] at hreturned
    cases hreturned
  | registerWorker v =>
    unfold State.registerWorker
    split
    · exact hsame rfl rfl rfl rfl (List.Subset.refl _) fun _ hbegins => hbegins
    · exact hsame rfl rfl rfl rfl (List.Subset.refl _) fun _ hbegins => hbegins
  | addCoordToBeRemoved location =>
    unfold State.addCoordToBeRemoved
    split
    · exact hsame rfl rfl rfl rfl (List.Subset.refl _) fun _ hbegins => hbegins
    · exact hsame rfl rfl rfl rfl (List.subset_cons_self _ _) fun _ hbegins => hbegins
  | setWorkerStartposition v location =>
    exact hsame rfl rfl rfl rfl (List.Subset.refl _) fun _ hbegins => hbegins
  | redoStopImmediately v location => exact hredo.elim
  | redoStopAtEnd v location => exact hredo.elim
  | _ => cases ha

/-- A step keeps the queues, and what it returns was of use at the last lookup. -/
theorem recordedStep_tracked [Field K] {g : Geo K} {ignoreSpun : Bool} {p q : Recorded K}
    {a : Action K × List (Stop K)} (h : Tracked p.level p.useful) (hrebuilds : Rebuilds p a)
    (hs : recordedStep g ignoreSpun p a = some q) :
    Tracked q.level q.useful ∧ ∀ w location, Ends p.level a.1 q.level w (some location) → location ∈ q.useful w := by
  obtain ⟨a, stops⟩ := a
  obtain ⟨hredo, hfinds⟩ := hrebuilds
  unfold recordedStep at hs
  split at hs
  swap
  · cases hs
  next hfound =>
  obtain ⟨t, ht, rfl⟩ := Option.map_eq_some_iff.mp hs
  have hother : ∀ {p' : State K}, Tracked p' p.useful ∧ Gives p.level.manager p'.manager p.useful →
      (∀ w, ¬ Begins w a) →
      Tracked p' p.useful ∧ ∀ w location, Ends p.level a p' w (some location) → location ∈ p.useful w :=
    fun hp' hnot => ⟨hp'.1, hp'.2.ends hnot⟩
  cases a with
  | usual a =>
    simp only [step] at ht
    split at ht
    · cases ht
    next locks hlocks =>
    split at ht
    · cases ht
    obtain ⟨u, hu, rfl⟩ := Option.map_eq_some_iff.mp ht
    exact usual_tracked h hlocks hredo (step_some hu)
  | startUpdate w =>
    simp only [step] at ht
    split at ht
    · next hw =>
      cases ht
      refine hother (start_tracked h.queues (some w) ?_) fun _ hbegins => hbegins
      rintro v ⟨⟩
      rw [hw]
      rfl
    · next hw =>
      cases ht
      refine hother (start_tracked h.queues (some w) ?_) fun _ hbegins => hbegins
      rintro v ⟨⟩
      rw [hw]
      rfl
    · cases ht
  | nextOrigin =>
    simp only [step] at ht
    split at ht
    · next hvisit =>
      cases ht
      exact hother (nextOrigin_tracked h.queues (h.visiting _ hvisit) rfl) fun _ hbegins => hbegins
    · cases ht
  | noStops =>
    simp only [step] at ht
    split at ht
    · next holder size left r hvisit =>
      cases ht
      have hrecord : record p (.noStops, stops) = Function.update p.useful r.origin [] := by
        have hnone : stops = [] := hfound
        rw [record, lookedUp, hvisit, hnone]
        rfl
      dsimp only
      rw [hrecord]
      have htracked := noStops_tracked h.queues (h.visiting _ hvisit) rfl fun hholder l hl =>
        List.contains_iff_mem.mp (hfinds _ hvisit r rfl hholder l hl)
      exact ⟨htracked, Gives.ends (.of_calls rfl) fun _ hbegins => hbegins⟩
    · cases ht
  | recalculated newRoute =>
    simp only [step] at ht
    split at ht
    · next holder size left r hvisit =>
      cases ht
      obtain ⟨hstops, hperm, _⟩ := hfound
      have hrecord : record p (.recalculated newRoute, stops) =
          Function.update p.useful r.origin (usefulStops p.level.manager.coordsToBeIgnored stops) := by
        rw [record, lookedUp, hvisit]
        rfl
      dsimp only
      rw [hrecord]
      have hroute : newRoute ≠ [] := by
        rintro rfl
        exact hstops (List.map_eq_nil_iff.mp hperm.nil_eq.symm)
      have hfound : ∀ l ∈ newRoute, l ∈ usefulStops p.level.manager.coordsToBeIgnored stops ∨
          l ∈ p.level.manager.coordsToBeIgnored := by
        intro l hl
        obtain ⟨stop, hstop, rfl⟩ := List.mem_map.mp (hperm.mem_iff.mp hl)
        exact mem_usefulStops hstop ((hfinds stop hstop).imp_right List.contains_iff_mem.mp)
      have htracked := recalculated_tracked h.queues (h.visiting _ hvisit) rfl hroute hfound
      exact ⟨htracked.1, htracked.2.ends fun _ hbegins => hbegins⟩
    · cases ht
  | raised =>
    obtain ⟨visit, _, rfl⟩ := Option.map_eq_some_iff.mp ht
    exact hother (raise_tracked h.queues visit) fun _ hbegins => hbegins
  | calculateRoute newRoute =>
    simp only [step] at ht
    split at ht
    · cases ht
    · cases ht
      have hroute : Queues (p.level.manager.setRoute newRoute) p.useful :=
        h.queues.congr rfl rfl rfl rfl (List.Subset.refl _)
      exact hother (start_tracked hroute none fun _ hnone => by cases hnone) fun _ hbegins => hbegins
  | unregisterWorker w remove =>
    simp only [step] at ht
    split at ht
    · cases ht
    · cases ht
      exact hother (unregisterWorker_tracked h.queues w remove) fun _ hbegins => hbegins

/-! ## Runs -/

omit [LinearOrder K] in
theorem Tracked.initial {p : State K} (h : Initial p.manager) (hvisit : p.visit = none)
    (useful : Origin → List (Location K)) : Tracked p useful := by
  have hnone : ∀ {w r}, p.manager.routepool.get? w ≠ some r := by
    intro w r hr
    rw [h.routepool] at hr
    cases hr
  refine ⟨⟨h.wellFormed, fun _ hr => absurd hr hnone, fun hr => absurd hr hnone, fun hr => absurd hr hnone⟩, ?_⟩
  intro visit hsome
  rw [hvisit] at hsome
  cases hsome

/-- In a run where each lookup finds stops that are not visited, or there is no subroute to fall back on,
a worker is sent to stops of its last lookup only. -/
theorem sent_to_useful [Field K] {g : Geo K} {ignoreSpun : Bool} {p₀ p q : Recorded K}
    {l : List (Action K × List (Stop K))} {a : Action K × List (Stop K)} (h0 : Initial p₀.level.manager)
    (hvisit : p₀.level.visit = none) (hs : Run (recordedStep g ignoreSpun) Rebuilds p₀ l p) (ha : Rebuilds p a)
    (hq : recordedStep g ignoreSpun p a = some q) : SendsToUseful p a.1 q := by
  have htracked : Tracked p.level p.useful :=
    hs.invariant (I := fun p => Tracked p.level p.useful) (.initial h0 hvisit _)
      fun _ _ _ h hrebuilds hstep => (recordedStep_tracked h hrebuilds hstep).1
  have huseful := (recordedStep_tracked htracked ha hq).2
  refine ⟨huseful, ?_⟩
  intro w location hends hnone
  cases location with
  | none => rfl
  | some location =>
    have hmem := huseful w location hends
    rw [hnone] at hmem
    cases hmem

/-- One registered worker, and no route, as in level mode. -/
def levelStart : Recorded ℚ where
  level :=
    { manager :=
        { heap := fun _ => ⟨[], 0, [], 0, ⟨0, 0⟩, none, .normal⟩
          next := 0
          routepool := Dict.empty
          route := []
          currentRouteRoundCoords := []
          coordsToBeIgnored := []
          stoplist := []
          workersRegistered := ["a"]
          workerStartPosition := Dict.empty
          roundcount := 0
          updating := none
          calls := fun _ => .returned none
          time := 0 }
      visit := none }
  useful _ := []

theorem levelStart_initial : Initial levelStart.level.manager := ⟨rfl, rfl, fun _ => rfl⟩

/-- Two stops are found for the worker. -/
def lookup : List (Action ℚ × List (Stop ℚ)) :=
  [(.usual (.getNextLocation "a" 0), []), (.startUpdate "a", []), (.nextOrigin, []),
    (.recalculated [⟨0, 0⟩, ⟨0, 1⟩], [⟨⟨0, 1⟩, false⟩, ⟨⟨0, 0⟩, false⟩])]

def afterLookup : Recorded ℚ := after (recordedStep plane true) Rebuilds levelStart lookup

def atFirstStop : Recorded ℚ := after (recordedStep plane true) Rebuilds afterLookup [(.nextOrigin, [])]

theorem first_stop_useful : SendsToUseful afterLookup .nextOrigin atFirstStop :=
  sent_to_useful levelStart_initial rfl (.of_after (by decide +kernel)) (a := (.nextOrigin, [])) (by decide +kernel)
    (step_after (by decide +kernel) (by decide +kernel))

/-- The worker is done with both, and no stop is left. -/
def noneLeft : List (Action ℚ × List (Stop ℚ)) :=
  [(.nextOrigin, []), (.usual (.getNextLocation "a" 1), []), (.usual (.getNextLocation "a" 2), []),
    (.startUpdate "a", []), (.nextOrigin, []), (.noStops, [])]

def finishedSubroute : Recorded ℚ := after (recordedStep plane true) NoRedo afterLookup noneLeft

def sentAgain : Recorded ℚ := after (recordedStep plane true) NoRedo finishedSubroute [(.nextOrigin, [])]

theorem finished_subroute_again : ¬ ∀ (g : Geo ℚ) (ignoreSpun : Bool) (p₀ p q : Recorded ℚ)
    (l : List (Action ℚ × List (Stop ℚ))) (a : Action ℚ × List (Stop ℚ)), Initial p₀.level.manager →
    p₀.level.visit = none → Run (recordedStep g ignoreSpun) NoRedo p₀ l p → NoRedo p a →
    recordedStep g ignoreSpun p a = some q → SendsToUseful p a.1 q := by
  intro h
  have hlookup : Run (recordedStep plane true) Rebuilds levelStart lookup afterLookup := .of_after (by decide +kernel)
  have hfinished : Run (recordedStep plane true) NoRedo afterLookup noneLeft finishedSubroute :=
    .of_after (by decide +kernel)
  have hrun := (hlookup.mono fun _ _ hrebuilds => hrebuilds.1).append hfinished
  have hsends := h _ _ _ _ sentAgain _ (.nextOrigin, []) levelStart_initial rfl hrun trivial
    (step_after trivial (by decide +kernel))
  have hnone := hsends.finished "a" (some ⟨0, 0⟩) ⟨by decide +kernel, Or.inl (by decide +kernel)⟩ (by decide +kernel)
  cases hnone

end Leveling

end MapADroid.Route
