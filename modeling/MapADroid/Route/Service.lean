import MapADroid.Route.Rounds

/- The workers of a normal route, update after update.

   An update divides the same coords among the same workers, so that a worker keeps its
   subroute; those who found no place when the queues were initialised are left out again
   whenever they come back (`Routed`). What is left of a queue stays through an update,
   and an empty queue is filled. -/
namespace MapADroid.Route
open Lib

variable {K : Type}

/-- The entry of a worker with that subroute. -/
structure Fresh (subroute : List (Location K)) (entry : RoutePoolEntry K) : Prop where
  assigned : entry.subroute = subroute
  prioCoord : entry.prioCoord = none
  suffix : entry.queue <:+ subroute

variable [LinearOrder K]

/-- The coords are divided among `workers`, and `w` is one of them; the copies of an update
in progress hold the queue of `w`, or the subroute where it was empty. -/
structure Routed (coords : List (Location K)) (workers : List (Origin × ℚ)) (w : Origin)
    (s : State K) : Prop where
  wf : WellFormed s
  route : s.route ≠ []
  uses : s.coordsToUse = coords
  registered : w ∈ s.workersRegistered
  placed : workers.length = coords.length ∨ ∀ v ∈ s.workersRegistered, v ∈ workers.map Prod.fst
  sorted : ∃ others, sortedRoutepools s.pickled = workers ++ others ∧
    (others = [] ∨ workers.length = coords.length)
  times : ∀ p ∈ addedTimes s.pickled, p.2 ≤ s.time
  entry : ∃ entry, s.entryOf? w = some entry ∧ Fresh (subrouteOf coords workers w) entry
  copy : ∀ {update}, s.updating = some update → update.holder ≠ some w ∧
    sortedRoutepools update.pool = workers ∧
    ∃ entry, update.pool.get? w = some entry ∧ Fresh (subrouteOf coords workers w) entry ∧
      entry.queue = if queueOf s w = [] then subrouteOf coords workers w else queueOf s w
  call : (s.calls w).away = true ∨ (s.updating = none ∧ queueOf s w ≠ [] ∧
    ∃ r again, s.calls w = .popping r again ∧ s.routepool.get? w = some r)

variable {g : Geo K} {m : Manager K} {s t : State K} {coords : List (Location K)}
  {workers : List (Origin × ℚ)} {v w : Origin} {r : Ref}

omit [LinearOrder K] in
theorem queueOf_eq {entry : RoutePoolEntry K} (h : s.entryOf? w = some entry) :
    queueOf s w = entry.queue := by
  rw [queueOf, h]
  rfl

omit [LinearOrder K] in
/-- What other workers' sections leave of the entry of `w`. -/
theorem Outside.entryOf? (h : Outside m v s t) (hlive : LiveOwn s) (hvw : v ≠ w) :
    t.entryOf? w = s.entryOf? w := by
  unfold State.entryOf?
  rw [h.routepool]
  cases hr : s.routepool.get? w with
  | none => rfl
  | some r =>
    rw [Option.map_some, Option.map_some, h.heap r fun horigin => hvw (horigin.symm.trans (hlive hr).1)]

omit [LinearOrder K] in
theorem Outside.addedTimes (h : Outside m v s t) : addedTimes t.pickled = addedTimes s.pickled := by
  unfold Route.addedTimes State.pickled Dict.mapValues
  rw [h.routepool, List.map_map, List.map_map]
  apply List.map_congr_left
  intro i _
  exact Prod.ext rfl (h.timeAdded i.2)

omit [LinearOrder K] in
/-- The copies are added when their entries were. -/
theorem addedTimes_install (s : State K) (pool : Routepool K) :
    addedTimes (s.install pool).pickled = addedTimes pool := by
  unfold addedTimes State.pickled State.install Dict.mapValues
  simp only [List.map_map]
  apply List.map_congr_left
  intro i hi
  have hget : pool.get? i.1 = some i.2 := Dict.get?_eq_some_iff.mpr hi
  simp [hget]

namespace Routed

/-- A section that leaves `w` an entry with its subroute. -/
theorem changed (h : Routed coords workers w s) (hm : m.deleteCoordAfterFetch = false)
    (ht : Outside m v s t) (hwf : WellFormed t)
    (hentry : ∃ entry, t.entryOf? w = some entry ∧ Fresh (subrouteOf coords workers w) entry)
    (hcopy : ∀ {update}, s.updating = some update → queueOf t w = queueOf s w)
    (hcall : (t.calls w).away = true ∨ (s.updating = none ∧ queueOf t w ≠ [] ∧
      ∃ r again, t.calls w = .popping r again ∧ s.routepool.get? w = some r)) :
    Routed coords workers w t := by
  have htimes := ht.addedTimes
  refine ⟨hwf, ?_, ?_, ?_, ?_, ?_, ?_, hentry, ?_, ?_⟩
  · rw [ht.route]; exact h.route
  · rw [State.coordsToUse, ht.coords hm, ht.ignored]; exact h.uses
  · rw [ht.registered]; exact h.registered
  · rw [ht.registered]; exact h.placed
  · rw [sortedRoutepools, htimes]; exact h.sorted
  · rw [htimes, ht.time]; exact h.times
  · intro update hupdate
    rw [ht.updating] at hupdate
    rw [hcopy hupdate]
    exact h.copy hupdate
  · rw [ht.updating, ht.routepool]
    exact hcall

/-- A section of a call of another worker. -/
theorem outside (h : Routed coords workers w s) (hm : m.deleteCoordAfterFetch = false)
    (hvw : v ≠ w) (ht : Outside m v s t) (hwf : WellFormed t) :
    Routed coords workers w t ∧ queueOf t w = queueOf s w := by
  have hentry := ht.entryOf? h.wf.live hvw
  have hqueue : queueOf t w = queueOf s w := by rw [queueOf, hentry]; rfl
  refine ⟨h.changed hm ht hwf (by rw [hentry]; exact h.entry) (fun _ => hqueue) ?_, hqueue⟩
  rw [ht.calls w (Ne.symm hvw), hqueue]
  exact h.call

theorem setTime (h : Routed coords workers w s) {now : ℚ} (hnow : s.time ≤ now) :
    Routed coords workers w (s.setTime now) where
  wf := h.wf.setTime now
  route := h.route
  uses := h.uses
  registered := h.registered
  placed := h.placed
  sorted := h.sorted
  times p hp := (h.times p hp).trans hnow
  entry := h.entry
  copy := h.copy
  call := h.call

/-- A worker that found no place comes back. -/
theorem create [Field K] (h : Routed coords workers w s) (hnone : s.routepool.get? v = none)
    (hregistered : v ∈ s.workersRegistered) : Routed coords workers w (s.create v s.time) ∧
      queueOf (s.create v s.time) w = queueOf s w := by
  obtain ⟨others, hsorted, hothers⟩ := h.sorted
  obtain ⟨entry, hentry, hfresh⟩ := h.entry
  obtain ⟨r, hr, hheap⟩ := entryOf?_eq_some.mp hentry
  have hkey : v ∉ s.routepool.keys := Dict.get?_eq_none_iff.mp hnone
  have hvw : w ≠ v := by
    rintro rfl
    rw [hnone] at hr
    cases hr
  -- The references in the routepool are older than the new one.
  have hold : ∀ {u : Origin} {r : Ref}, s.routepool.get? u = some r →
      (s.create v s.time).heap r = s.heap r := by
    intro u r hr
    have hne : r ≠ ⟨s.next, v⟩ := by
      intro heq
      have hmade := (h.wf.live hr).2
      rw [heq] at hmade
      exact absurd hmade (Nat.lt_irrefl _)
    exact State.setEntry_heap_of_ne _ _ _ hne
  have hadded : addedTimes (s.create v s.time).pickled = addedTimes s.pickled ++ [(v, s.time)] := by
    have hitems : (s.create v s.time).routepool.items = s.routepool.items ++ [(v, ⟨s.next, v⟩)] :=
      Dict.items_insert_of_notMem hkey
    have hnew : (s.create v s.time).heap ⟨s.next, v⟩ = _ := State.setEntry_heap_self _ _ _
    unfold addedTimes State.pickled Dict.mapValues
    simp only [hitems, List.map_append, List.map_map, List.map_cons, List.map_nil, hnew]
    congr 1
    apply List.map_congr_left
    intro i hi
    exact Prod.ext rfl (congrArg RoutePoolEntry.timeAdded (hold (Dict.get?_eq_some_iff.mpr hi)))
  have hentry' : (s.create v s.time).entryOf? w = some entry := by
    apply entryOf?_eq_some.mpr
    refine ⟨r, ?_, by rw [hold hr, hheap]⟩
    show (s.routepool.insert v ⟨s.next, v⟩).get? w = some r
    rw [Dict.get?_insert_of_ne hvw, hr]
  have hqueue : queueOf (s.create v s.time) w = queueOf s w := by
    rw [queueOf_eq hentry', queueOf_eq hentry]
  -- The worker that comes back has no place: the coords are all given to others.
  have hplaced : workers.length = coords.length := by
    rcases h.placed with hplaced | hplaced
    · exact hplaced
    · -- A worker with a place has an entry.
      exfalso
      have hmem : v ∈ (sortedRoutepools s.pickled).map Prod.fst := by
        rw [hsorted, List.map_append]
        exact List.mem_append_left _ (hplaced v hregistered)
      rw [mem_sortedRoutepools_keys] at hmem
      exact hkey (by simpa [State.pickled] using hmem)
  refine ⟨⟨h.wf.create v s.time, h.route, h.uses, h.registered, h.placed, ?_, ?_, ?_, ?_, ?_⟩, hqueue⟩
  · refine ⟨others ++ [(v, s.time)], ?_, Or.inr hplaced⟩
    rw [sortedRoutepools, hadded, sortedByTime_concat h.times, ← List.append_assoc, ← hsorted]
    rfl
  · intro p hp
    rw [hadded, List.mem_append, List.mem_singleton] at hp
    rcases hp with hp | rfl
    · exact h.times p hp
    · exact le_rfl
  · exact ⟨entry, hentry', hfresh⟩
  · intro update hupdate
    rw [hqueue]
    exact h.copy hupdate
  · have hcalls : (s.create v s.time).calls w = s.calls w := State.setCall_calls_of_ne _ _ _ hvw
    rw [hcalls, hqueue]
    rcases h.call with hcall | ⟨hfree, hne, r', again, hcall, hlive⟩
    · exact Or.inl hcall
    · refine Or.inr ⟨hfree, hne, r', again, hcall, ?_⟩
      show (s.routepool.insert v ⟨s.next, v⟩).get? w = some r'
      rw [Dict.get?_insert_of_ne hvw, hlive]

/-- A call of `w` takes the front of its queue. -/
theorem serve (h : Routed coords workers w s) (hasPrioQueue starveRoute : Bool)
    (hlive : s.routepool.get? w = some r) (hfree : s.updating = none) (hne : queueOf s w ≠ []) :
    let t := s.moveOn (normalManager K hasPrioQueue starveRoute) w r
    Routed coords workers w t ∧ ∃ location, t.calls w = .returned (some location) ∧
      queueOf s w = location :: queueOf t w := by
  obtain ⟨entry, hentry, hfresh⟩ := h.entry
  obtain ⟨r', hr', hheap⟩ := entryOf?_eq_some.mp hentry
  rw [hlive, Option.some.injEq] at hr'
  subst hr'
  rw [queueOf_eq hentry, ← hheap] at hne
  obtain ⟨location, queue, hqueue⟩ := List.exists_cons_of_ne_nil hne
  intro t
  have hr := (h.wf.live hlive).1
  have hconfined : Confined (normalManager K hasPrioQueue starveRoute) w s t :=
    moveOn_confined h.wf.live hr
  have ht := moveOn_takeNext (m := normalManager K hasPrioQueue starveRoute) (w := w) h.route hne
  generalize hu : (s.modifyEntry r fun entry =>
    { entry with lastPositionType := .normal }).countRounds = u at ht
  have hlive' : u.routepool.get? w = some r := by
    rw [← hu, countRounds_routepool]
    exact hlive
  have hheap' : u.heap r = { s.heap r with lastPositionType := .normal } := by
    rw [← hu, countRounds_heap, State.modifyEntry_heap_self]
  -- Every location is to be visited, so the first one is taken.
  have hpop : popGood (u.checkCoords (normalManager K hasPrioQueue starveRoute)) (u.heap r).queue =
      (some location, queue) := by
    rw [hheap', hqueue, popGood]
    exact if_pos rfl
  have hcall : t.calls w = .returned (some location) := by
    rw [show t = _ from ht, takeNext_call, hpop]
  have hafter : t.heap r = { s.heap r with
      lastPositionType := .normal, queue := queue, currentPos := location } := by
    rw [show t = _ from ht, takeNext_heap rfl hlive' hpop, hheap']
  have hentry' : t.entryOf? w = some (t.heap r) := by
    apply entryOf?_eq_some.mpr
    exact ⟨r, by rw [hconfined.routepool]; exact hlive, rfl⟩
  have hqueue' : queueOf t w = queue := by rw [queueOf_eq hentry', hafter]
  have hwf : WellFormed t := h.wf.outside hconfined.toOutside fun r' hr' => by
    rw [hcall] at hr'
    cases hr'
  have hfresh' : Fresh (subrouteOf coords workers w) (t.heap r) := by
    rw [hafter]
    refine ⟨by rw [← hfresh.assigned, hheap], by rw [← hfresh.prioCoord, hheap], ?_⟩
    have hsuffix := hfresh.suffix
    rw [← hheap, hqueue] at hsuffix
    exact (List.suffix_cons location queue).trans hsuffix
  refine ⟨h.changed rfl hconfined.toOutside hwf ⟨_, hentry', hfresh'⟩ ?_ ?_, location, hcall, ?_⟩
  · intro update hupdate
    rw [hfree] at hupdate
    cases hupdate
  · rw [hcall]
    exact Or.inl rfl
  · rw [hqueue', queueOf_eq hentry, ← hheap, hqueue]

end Routed

/-- What does not change while the workers are served: they are as many as there are coords,
or fewer, and the coords are different places. -/
structure Setting (g : Geo K) (coords : List (Location K)) (workers : List (Origin × ℚ))
    (w : Origin) : Prop where
  nodup : coords.Nodup
  apart : Apart g coords
  short : workers.length ≤ coords.length
  placed : w ∈ workers.map Prod.fst

namespace Routed

/-- An update that starts. -/
theorem started (h : Routed coords workers w s) (hset : Setting g coords workers w)
    (haway : (s.calls w).away = true) {pool : Routepool K} (hpool : s.workerChanged g = some pool)
    (hvw : v ≠ w) : Routed coords workers w (s.setUpdating (some ⟨some v, pool⟩)) := by
  obtain ⟨others, hsorted, hothers⟩ := h.sorted
  obtain ⟨entry, hentry, hfresh⟩ := h.entry
  have htake : placedWorkers s = workers := by
    rw [placedWorkers, h.uses, hsorted]
    rcases hothers with rfl | hfull
    · rw [List.append_nil, List.take_of_length_le hset.short]
    · rw [← hfull, List.take_left]
  have hdivided := divided_workerChanged hpool
  rw [h.uses, htake] at hdivided
  have hget : pool.get? w = some (entry.replaceSubroute g (subrouteOf coords workers w)) := by
    rw [hdivided.get?, if_pos hset.placed, get?_pickled, hentry]
    rfl
  have hsub := subrouteOf_sublist coords workers w
  have hqueue : (entry.replaceSubroute g (subrouteOf coords workers w)).queue =
      if queueOf s w = [] then subrouteOf coords workers w else queueOf s w := by
    rw [queueOf_eq hentry]
    split
    · next hnil => exact RoutePoolEntry.replaceSubroute_queue_nil hnil _
    · next hne =>
      apply RoutePoolEntry.replaceSubroute_queue_suffix _ (hsub.nodup hset.nodup) hfresh.suffix hne
      intro a ha b hb
      exact hset.apart a (hsub.subset ha) b (hsub.subset hb)
  have hsuffix : (entry.replaceSubroute g (subrouteOf coords workers w)).queue <:+
      subrouteOf coords workers w := by
    rw [hqueue, queueOf_eq hentry]
    split
    · exact List.suffix_refl _
    · exact hfresh.suffix
  -- The routepool is as it was; what is new are the copies.
  refine ⟨h.wf.setUpdating _, h.route, h.uses, h.registered, h.placed, h.sorted, h.times, h.entry, ?_,
    Or.inl haway⟩
  intro update hupdate
  cases hupdate
  refine ⟨fun hholder => hvw (Option.some.inj hholder), hdivided.sorted, _, hget, ?_, hqueue⟩
  exact ⟨rfl, hfresh.prioCoord, hsuffix⟩

/-- An update that finishes: a queue stays, or is filled if it was empty. -/
theorem installed (h : Routed coords workers w s) {update : Update K}
    (hupdate : s.updating = some update) :
    Routed coords workers w ((s.install update.pool).setUpdating none) ∧
      queueOf ((s.install update.pool).setUpdating none) w =
        if queueOf s w = [] then subrouteOf coords workers w else queueOf s w := by
  obtain ⟨others, hsorted, _⟩ := h.sorted
  obtain ⟨_, hworkers, entry, hentry, hfresh, hqueue⟩ := h.copy hupdate
  have hentry' : ((s.install update.pool).setUpdating none).entryOf? w = some entry :=
    (entryOf?_install s update.pool w).trans hentry
  have hadded := addedTimes_install s update.pool
  have hsorted' : sortedRoutepools (s.install update.pool).pickled = workers := by
    rw [sortedRoutepools, hadded]
    exact hworkers
  refine ⟨⟨(h.wf.install _).setUpdating _, h.route, h.uses, h.registered, h.placed,
    ⟨[], ?_, Or.inl rfl⟩, ?_, ⟨entry, hentry', hfresh⟩, (fun hnone => by cases hnone), ?_⟩, ?_⟩
  · rw [List.append_nil]
    exact hsorted'
  · intro p hp
    -- Who is in the copies was in the routepool.
    have hmem : p ∈ sortedRoutepools s.pickled := by
      rw [hsorted, ← hsorted', List.mem_append]
      exact Or.inl ((sortedRoutepools_perm _).mem_iff.mpr hp)
    exact h.times p ((sortedRoutepools_perm _).mem_iff.mp hmem)
  · rcases h.call with hcall | ⟨hfree, _⟩
    · exact Or.inl hcall
    · rw [hfree] at hupdate
      cases hupdate
  · rw [queueOf_eq hentry', hqueue]

end Routed

/-! ## Steps -/

section Steps
variable [Field K] {hasPrioQueue starveRoute : Bool} {a : Action K}

/-- The worker and its queue are left alone. -/
theorem QueueStep.of_stay {subroute : List (Location K)} (hstep : step g m s a = some t)
    (hreturn : actor s a = some w → (t.calls w).idle = false) (hqueue : queueOf t w = queueOf s w) :
    QueueStep subroute (queueOf s w) (emit g m w s a) (queueOf t w) := by
  rw [emit_nil hstep hreturn (Or.inr hqueue), hqueue]
  exact .stay _

namespace Routed

/-- A call of another worker, which is registered, looks up its entry. -/
theorem lookUpEntry_other (h : Routed coords workers w s) (hm : m.deleteCoordAfterFetch = false)
    (hregistered : v ∈ s.workersRegistered) (hvw : v ≠ w) :
    Routed coords workers w (s.lookUpEntry m v s.time) ∧
      queueOf (s.lookUpEntry m v s.time) w = queueOf s w := by
  have hwf : WellFormed (s.lookUpEntry m v s.time) := h.wf.lookUpEntry v s.time
  rcases lookUpEntry_cases m s v s.time with ⟨hnone, heq⟩ | ⟨r, prioevent, hr, _, heq⟩ | ⟨r, hr, _, heq⟩
  · rw [heq]
    exact h.create hnone hregistered
  · rw [heq] at hwf ⊢
    exact h.outside hm hvw (takePrio_outside h.wf.live (h.wf.live hr).1 prioevent) hwf
  · rw [heq] at hwf ⊢
    exact h.outside hm hvw (withEntry_confined h.wf.live (h.wf.live hr).1).toOutside hwf

/-- A call of `w` looks up its entry, and finds its queue filled: it waits for prio events, or takes the
front of the queue. -/
theorem lookUpEntry_self (h : Routed coords workers w s) (hasPrioQueue starveRoute : Bool) (hfree : s.updating = none)
    (hne : queueOf s w ≠ []) :
    let t := s.lookUpEntry (normalManager K hasPrioQueue starveRoute) w s.time
    Routed coords workers w t ∧ (((t.calls w).idle = false ∧ queueOf t w = queueOf s w) ∨
      ∃ location, t.calls w = .returned (some location) ∧
        queueOf s w = location :: queueOf t w) := by
  obtain ⟨entry, hentry, hfresh⟩ := h.entry
  obtain ⟨r, hr, hheap⟩ := entryOf?_eq_some.mp hentry
  have hprio : (s.heap r).prioCoord = none := by rw [hheap]; exact hfresh.prioCoord
  intro t
  have ht : t = s.withEntry (normalManager K hasPrioQueue starveRoute) w r := by
    show s.lookUpEntry _ w s.time = _
    unfold State.lookUpEntry
    simp only [hr, hprio]
  rw [ht]
  unfold State.withEntry
  split
  · have hpopping : (s.setCall w (.popping r false)).calls w = .popping r false :=
      State.setCall_calls_self ..
    have hwf : WellFormed (s.setCall w (.popping r false)) := by
      apply h.wf.outside (m := normalManager K hasPrioQueue starveRoute) (w := w)
        (Confined.setCall _).toOutside
      intro r' hr'
      rw [hpopping] at hr'
      cases hr'
      exact Or.inr hr
    refine ⟨h.changed (m := normalManager K hasPrioQueue starveRoute) rfl (Confined.setCall _).toOutside
      hwf ⟨entry, hentry, hfresh⟩ (fun _ => rfl) ?_, Or.inl ⟨?_, rfl⟩⟩
    · exact Or.inr ⟨hfree, hne, r, false, hpopping, hr⟩
    · rw [hpopping]; rfl
  · obtain ⟨hrouted, hserved⟩ := h.serve hasPrioQueue starveRoute hr hfree hne
    exact ⟨hrouted, Or.inr hserved⟩

/-- A call of a registered worker, whose turn it is if it is `w`, looks up its entry. -/
theorem step_lookUpEntry (h : Routed coords workers w s) {now : ℚ} (hnow : s.time ≤ now)
    (hregistered : v ∈ s.workersRegistered) (halone : v = w → s.updating.isNone = true ∧ queueOf s w ≠ [])
    (hactor : actor s a = some v)
    (hstep : step g (normalManager K hasPrioQueue starveRoute) s a =
      some ((s.setTime now).lookUpEntry (normalManager K hasPrioQueue starveRoute) v now)) :
    Routed coords workers w ((s.setTime now).lookUpEntry (normalManager K hasPrioQueue starveRoute) v now) ∧
      QueueStep (subrouteOf coords workers w) (queueOf s w)
        (emit g (normalManager K hasPrioQueue starveRoute) w s a)
        (queueOf ((s.setTime now).lookUpEntry (normalManager K hasPrioQueue starveRoute) v now) w) := by
  have htime := h.setTime hnow
  by_cases hvw : v = w
  · subst hvw
    obtain ⟨hfree, hne⟩ := halone rfl
    obtain ⟨hrouted, ⟨hidle, hqueue⟩ | ⟨location, hcall, hqueue⟩⟩ :=
      htime.lookUpEntry_self hasPrioQueue starveRoute
        (Option.isNone_iff_eq_none.mp hfree) hne
    · exact ⟨hrouted, .of_stay hstep (fun _ => hidle) hqueue⟩
    · exact ⟨hrouted, emit_serve hstep hactor hcall hqueue⟩
  · obtain ⟨hrouted, hqueue⟩ :=
      htime.lookUpEntry_other (m := normalManager K hasPrioQueue starveRoute) rfl hregistered hvw
    exact ⟨hrouted, .of_stay hstep (fun h => absurd (Option.some.inj (hactor.symm.trans h)) hvw) hqueue⟩

/-- A step of a call of another worker. -/
theorem step_other (h : Routed coords workers w s) (hvw : v ≠ w) (hactor : actor s a = some v)
    (ht : Outside (normalManager K hasPrioQueue starveRoute) v s t)
    (hstep : Route.step g (normalManager K hasPrioQueue starveRoute) s a = some t) :
    Routed coords workers w t ∧ QueueStep (subrouteOf coords workers w) (queueOf s w)
      (emit g (normalManager K hasPrioQueue starveRoute) w s a) (queueOf t w) := by
  obtain ⟨hrouted, hqueue⟩ := h.outside (m := normalManager K hasPrioQueue starveRoute) rfl hvw ht
    (h.wf.step (step_some hstep))
  exact ⟨hrouted, .of_stay hstep (fun h => absurd (Option.some.inj (hactor.symm.trans h)) hvw) hqueue⟩

theorem step_getNextLocation (h : Routed coords workers w s) {now : ℚ}
    (halone : Alone w s (.getNextLocation v now))
    (hstep : step g (normalManager K hasPrioQueue starveRoute) s (.getNextLocation v now) = some t) :
    Routed coords workers w t ∧ QueueStep (subrouteOf coords workers w) (queueOf s w)
      (emit g (normalManager K hasPrioQueue starveRoute) w s (.getNextLocation v now))
      (queueOf t w) := by
  cases step_some hstep with
  | getNextLocation hv hnow =>
  rcases getNextLocation_cases (normalManager K hasPrioQueue starveRoute) (s.setTime now) v now with
    ⟨hstranger, heq⟩ | ⟨hregistered, heq⟩
  · -- `w` is registered, so it is another worker that is turned away.
    have hvw : v ≠ w := by
      rintro rfl
      exact hstranger h.registered
    have hwf := h.wf.step (step_some hstep)
    rw [heq] at hstep hwf ⊢
    obtain ⟨hrouted, hqueue⟩ := (h.setTime hnow).outside (m := normalManager K hasPrioQueue starveRoute) rfl
      hvw (Confined.setCall _).toOutside hwf
    exact ⟨hrouted, .of_stay hstep (fun hactor => absurd (Option.some.inj hactor) hvw) hqueue⟩
  · rw [heq] at hstep ⊢
    exact h.step_lookUpEntry hnow hregistered halone rfl hstep

theorem step_awaitStart (h : Routed coords workers w s)
    (hstep : step g (normalManager K hasPrioQueue starveRoute) s (.awaitStart v) = some t) :
    Routed coords workers w t ∧ QueueStep (subrouteOf coords workers w) (queueOf s w)
      (emit g (normalManager K hasPrioQueue starveRoute) w s (.awaitStart v)) (queueOf t w) := by
  have hwf := h.wf.step (step_some hstep)
  cases step_some hstep with
  | awaitStart hv =>
  have hcall : Confined (normalManager K hasPrioQueue starveRoute) v s (s.awaitStart v) := .setCall _
  by_cases hvw : v = w
  · subst hvw
    have hwaiting : (s.awaitStart v).calls v = .waiting := by
      unfold State.awaitStart
      rw [State.setCall_calls_self, if_pos h.registered]
    refine ⟨h.changed rfl hcall.toOutside hwf h.entry (fun _ => rfl) ?_, .of_stay hstep (fun _ => ?_) rfl⟩
    · rw [hwaiting]
      exact Or.inl rfl
    · rw [hwaiting]
      rfl
  · exact h.step_other hvw rfl hcall.toOutside hstep

theorem step_started (h : Routed coords workers w s) (hwaits : Waits s) {now : ℚ}
    (halone : Alone w s (.started v now))
    (hstep : step g (normalManager K hasPrioQueue starveRoute) s (.started v now) = some t) :
    Routed coords workers w t ∧ QueueStep (subrouteOf coords workers w) (queueOf s w)
      (emit g (normalManager K hasPrioQueue starveRoute) w s (.started v now)) (queueOf t w) := by
  cases step_some hstep with
  | started hv hnow => exact h.step_lookUpEntry hnow (hwaits v hv) halone rfl hstep

theorem step_notStarted (h : Routed coords workers w s) (halone : Alone w s (.notStarted v))
    (hstep : step g (normalManager K hasPrioQueue starveRoute) s (.notStarted v) = some t) :
    Routed coords workers w t ∧ QueueStep (subrouteOf coords workers w) (queueOf s w)
      (emit g (normalManager K hasPrioQueue starveRoute) w s (.notStarted v)) (queueOf t w) := by
  cases step_some hstep with
  | notStarted hv => exact h.step_other halone rfl (Confined.setCall _).toOutside hstep

theorem step_noEvent (h : Routed coords workers w s)
    (hstep : step g (normalManager K hasPrioQueue starveRoute) s (.noEvent v) = some t) :
    Routed coords workers w t ∧ QueueStep (subrouteOf coords workers w) (queueOf s w)
      (emit g (normalManager K hasPrioQueue starveRoute) w s (.noEvent v)) (queueOf t w) := by
  cases hs : step_some hstep with
  | @noEvent _ r again hv =>
  by_cases hvw : v = w
  · subst hvw
    rcases h.call with hidle | ⟨hfree, hne, r', again', hcall, hlive⟩
    · rw [hv] at hidle
      cases hidle
    · rw [hv, Call.popping.injEq] at hcall
      obtain ⟨rfl, rfl⟩ := hcall
      obtain ⟨hrouted, location, hreturned, hqueue⟩ := h.serve hasPrioQueue starveRoute hlive hfree hne
      exact ⟨hrouted, emit_serve hstep rfl hreturned hqueue⟩
  · have hkept := h.wf.kept (w := v) (r := r) (by rw [hv]; rfl)
    exact h.step_other hvw rfl (moveOn_confined h.wf.live hkept.1).toOutside hstep

theorem step_startUpdate (h : Routed coords workers w s) (hset : Setting g coords workers w)
    (haway : (s.calls w).away = true)
    (hstep : step g (normalManager K hasPrioQueue starveRoute) s (.startUpdate v) = some t) :
    Routed coords workers w t ∧ QueueStep (subrouteOf coords workers w) (queueOf s w)
      (emit g (normalManager K hasPrioQueue starveRoute) w s (.startUpdate v)) (queueOf t w) := by
  have hwf := h.wf.step (step_some hstep)
  cases step_some hstep with
  | startUpdate hfree ht =>
  -- The update is awaited by a call that has looked up its entry.
  have hvw : v ≠ w := by
    rintro rfl
    unfold State.startUpdate at ht
    split at ht
    · next hcall _ => rw [hcall] at haway; cases haway
    · next hcall _ => rw [hcall] at haway; cases haway
    · next hcall _ => rw [hcall] at haway; cases haway
    · next hcall _ => rw [hcall] at haway; cases haway
    · cases ht
  have hother : Routed coords workers w t ∧ queueOf t w = queueOf s w := by
    unfold State.startUpdate at ht
    split at ht
    · cases ht
      exact h.outside (m := normalManager K hasPrioQueue starveRoute) rfl hvw
        (joined_confined h.wf.live false).toOutside hwf
    · next r hcall _ =>
      cases ht
      have hkept := h.wf.kept (w := v) (r := r) (by rw [hcall]; rfl)
      exact h.outside (m := normalManager K hasPrioQueue starveRoute) rfl hvw
        (refilled_confined h.wf.live hkept.1 false).toOutside hwf
    · next hpool => cases ht; exact ⟨h.started hset haway hpool hvw, rfl⟩
    · next hpool => cases ht; exact ⟨h.started hset haway hpool hvw, rfl⟩
    · cases ht
  exact ⟨hother.1, .of_stay hstep (fun hactor => absurd (Option.some.inj hactor) hvw) hother.2⟩

theorem step_finishUpdate (h : Routed coords workers w s)
    (hstep : step g (normalManager K hasPrioQueue starveRoute) s .finishUpdate = some t) :
    Routed coords workers w t ∧ QueueStep (subrouteOf coords workers w) (queueOf s w)
      (emit g (normalManager K hasPrioQueue starveRoute) w s .finishUpdate) (queueOf t w) := by
  have hwf := h.wf.step (step_some hstep)
  cases step_some hstep with
  | @finishUpdate update hupdate =>
  obtain ⟨hinstalled, hqueue⟩ := h.installed hupdate
  have hholder := (h.copy hupdate).1
  have hactor : actor s (.finishUpdate : Action K) ≠ some w := by
    rw [actor, hupdate]
    exact hholder
  -- The call that goes on is another worker's.
  have hother : Routed coords workers w
        (s.finishUpdate (normalManager K hasPrioQueue starveRoute) update) ∧
      queueOf (s.finishUpdate (normalManager K hasPrioQueue starveRoute) update) w =
        queueOf ((s.install update.pool).setUpdating none) w := by
    cases hv : update.holder with
    | none =>
      have hsame : s.finishUpdate (normalManager K hasPrioQueue starveRoute) update =
          (s.install update.pool).setUpdating none := by
        unfold State.finishUpdate
        simp only [hv]
      rw [hsame]
      exact ⟨hinstalled, rfl⟩
    | some v =>
      have hvw : v ≠ w := fun hvw => hholder (by rw [hv, hvw])
      have hconfined : Confined (normalManager K hasPrioQueue starveRoute) v
          ((s.install update.pool).setUpdating none) (s.finishUpdate _ update) :=
        h.wf.finishUpdate_confined fun u hu => Option.some.inj (hu.symm.trans hv)
      exact hinstalled.outside rfl hvw hconfined.toOutside hwf
  refine ⟨hother.1, ?_⟩
  rw [hother.2, hqueue]
  split
  · next hnil =>
    rw [emit_nil hstep (fun h => absurd h hactor) (Or.inl hnil), hnil]
    exact .fill
  · next hne =>
    rw [emit_nil hstep (fun h => absurd h hactor) (Or.inr ?_)]
    · exact .stay _
    · rw [hother.2, hqueue, if_neg hne]

/-- The queue of `w` is served and filled as it is meant to be. -/
theorem step (h : Routed coords workers w s) (hset : Setting g coords workers w) (hwaits : Waits s)
    (hasks : asks a = true) (halone : Alone w s a)
    (hstep : Route.step g (normalManager K hasPrioQueue starveRoute) s a = some t) :
    Routed coords workers w t ∧ QueueStep (subrouteOf coords workers w) (queueOf s w)
      (emit g (normalManager K hasPrioQueue starveRoute) w s a) (queueOf t w) := by
  cases a with
  | getNextLocation v now => exact h.step_getNextLocation halone hstep
  | awaitStart v => exact h.step_awaitStart hstep
  | started v now => exact h.step_started hwaits halone hstep
  | notStarted v => exact h.step_notStarted halone hstep
  | noEvent v => exact h.step_noEvent hstep
  | startUpdate v => exact h.step_startUpdate hset halone hstep
  | finishUpdate => exact h.step_finishUpdate hstep
  | _ => cases hasks

end Routed

namespace Waits

theorem lookUpEntry (h : Waits s) (hwf : WellFormed s) (m : Manager K) (v : Origin) (now : ℚ) :
    Waits (s.lookUpEntry m v now) := by
  rcases lookUpEntry_cases m s v now with ⟨_, heq⟩ | ⟨r, prioevent, hr, _, heq⟩ | ⟨r, hr, _, heq⟩
  · rw [heq]
    intro u hu
    by_cases huv : u = v
    · subst huv
      rw [show (s.create u now).calls u = .joining from State.setCall_calls_self ..] at hu
      cases hu
    · rw [show (s.create v now).calls u = s.calls u from State.setCall_calls_of_ne _ _ _ huv] at hu
      exact h u hu
  · rw [heq]
    refine h.outside (takePrio_outside (m := m) hwf.live (hwf.live hr).1 prioevent) ?_
    rw [show (s.takePrio v r prioevent).calls v = _ from State.setCall_calls_self ..]
    exact nofun
  · rw [heq]
    exact h.outside (withEntry_confined hwf.live (hwf.live hr).1).toOutside (withEntry_goesOn m s v r)

/-- Who waits stays registered, as no worker is unregistered. -/
theorem step (h : Waits s) (hwf : WellFormed s) (hasks : asks a = true) (hstep : Step g m s a t) : Waits t := by
  cases hstep with
  | @getNextLocation v now _ hv hnow =>
    have htime : Waits (s.setTime now) := h
    rcases getNextLocation_cases m (s.setTime now) v now with ⟨_, heq⟩ | ⟨_, heq⟩
    · rw [heq]
      refine htime.outside (Confined.setCall (m := m) _).toOutside ?_
      rw [State.setCall_calls_self]
      exact nofun
    · rw [heq]
      exact htime.lookUpEntry (hwf.setTime now) m v now
  | @awaitStart v _ hv =>
    intro u hu
    by_cases huv : u = v
    · subst huv
      by_contra hstranger
      have hturned : (s.awaitStart u).calls u = .returned none := by
        unfold State.awaitStart
        rw [State.setCall_calls_self]
        exact if_neg hstranger
      rw [hturned] at hu
      cases hu
    · unfold State.awaitStart at hu
      rw [State.setCall_calls_of_ne _ _ _ huv] at hu
      exact h u hu
  | @started v now hv hnow =>
    have htime : Waits (s.setTime now) := h
    exact htime.lookUpEntry (hwf.setTime now) m v now
  | notStarted hv =>
    refine h.outside (Confined.setCall (m := m) _).toOutside ?_
    rw [State.setCall_calls_self]
    exact nofun
  | @noEvent v r again hv =>
    have hkept := hwf.kept (w := v) (r := r) (by rw [hv]; rfl)
    exact h.outside (moveOn_confined hwf.live hkept.1).toOutside (moveOn_goesOn m s v r)
  | @startUpdate v _ hfree ht =>
    unfold State.startUpdate at ht
    split at ht
    · cases ht
      exact h.outside (joined_confined hwf.live false).toOutside (joined_goesOn m s v false)
    · next r hcall _ =>
      cases ht
      have hkept := hwf.kept (w := v) (r := r) (by rw [hcall]; rfl)
      exact h.outside (refilled_confined hwf.live hkept.1 false).toOutside (refilled_goesOn m s v r false)
    · cases ht; exact h
    · cases ht; exact h
    · cases ht
  | @finishUpdate update hupdating =>
    have hinstalled : Waits ((s.install update.pool).setUpdating none) := h
    have hwf' := (hwf.install update.pool).setUpdating none
    unfold State.finishUpdate
    simp only
    split
    · exact hinstalled
    next v hv =>
    split
    · exact hinstalled.outside (joined_confined hwf'.live true).toOutside (joined_goesOn m _ v true)
    · next r hcall =>
      exact hinstalled.outside (refilled_confined hwf'.live (hwf'.kept (w := v) (by rw [hcall]; rfl)).1 true).toOutside
        (refilled_goesOn m _ v r true)
    · refine hinstalled.outside (Confined.setCall (m := m) _).toOutside ?_
      rw [State.setCall_calls_self]
      exact nofun
    · exact hinstalled
  | _ => cases hasks

end Waits

end Steps

/-! ## The first update -/

omit [LinearOrder K] in
theorem Arrived.waits {before : State K} (h : Arrived before) : Waits before := by
  intro v hv
  have hidle := h.idle v
  rw [hv] at hidle
  cases hidle

/-- After the first update every worker that has a place has its subroute in its queue. -/
theorem Arrived.install {before : State K} {pool : Routepool K} (h : Arrived before)
    (hpool : before.workerChanged g = some pool) (hw : w ∈ before.workersRegistered)
    {entry : RoutePoolEntry K} (hentry : pool.get? w = some entry) (hapart : Apart g before.route) :
    Setting g before.coordsToUse (placedWorkers before) w ∧
      Routed before.coordsToUse (placedWorkers before) w (before.install pool) ∧
      entry.queue = subrouteOf before.coordsToUse (placedWorkers before) w := by
  have hdivided := divided_workerChanged hpool
  have hget := hdivided.get? w
  rw [hentry] at hget
  have hplaced : w ∈ (placedWorkers before).map Prod.fst := by
    by_contra hnot
    rw [if_neg hnot] at hget
    cases hget
  rw [if_pos hplaced, get?_pickled] at hget
  obtain ⟨old, hold, rfl⟩ := Option.map_eq_some_iff.mp hget.symm
  obtain ⟨hempty, hprio, _⟩ := h.entries hold
  have hqueue : (old.replaceSubroute g (subrouteOf before.coordsToUse (placedWorkers before) w)).queue =
      subrouteOf before.coordsToUse (placedWorkers before) w :=
    RoutePoolEntry.replaceSubroute_queue_nil hempty _
  -- What is not to be ignored of the route is still in its order.
  have hcoords : before.coordsToUse.Sublist before.route := by
    unfold State.coordsToUse
    rw [h.coords]
    exact List.filter_sublist
  have hsorted : sortedRoutepools (before.install pool).pickled = placedWorkers before := by
    rw [sortedRoutepools, addedTimes_install]
    exact hdivided.sorted
  refine ⟨⟨hcoords.nodup h.nodup, ?_, List.length_take_le _ _, hplaced⟩, ?_, hqueue⟩
  · intro a ha b hb
    exact hapart a (hcoords.subset ha) b (hcoords.subset hb)
  refine ⟨h.wf.install pool, h.route, rfl, hw, ?_, ⟨[], ?_, Or.inl rfl⟩, ?_, ?_, ?_, ?_⟩
  · -- Either the coords run out, or every worker in the routepool has a place.
    rcases Nat.le_total before.coordsToUse.length (sortedRoutepools before.pickled).length with hle | hle
    · exact Or.inl (List.length_take_of_le hle)
    · refine Or.inr fun v hv => ?_
      rw [placedWorkers, List.take_of_length_le hle, mem_sortedRoutepools_keys]
      simpa [State.pickled] using h.registered hv
  · rw [List.append_nil]
    exact hsorted
  · intro p hp
    have hmem : p ∈ sortedRoutepools before.pickled := by
      apply List.take_subset before.coordsToUse.length
      show p ∈ placedWorkers before
      rw [← hsorted]
      exact (sortedRoutepools_perm _).mem_iff.mpr hp
    obtain ⟨e, he, htime⟩ := mem_sortedRoutepools.mp hmem
    rw [get?_pickled] at he
    rw [← htime]
    exact (h.entries he).2.2
  · refine ⟨_, (entryOf?_install before pool w).trans hentry, rfl, hprio, [], ?_⟩
    exact hqueue
  · intro update hupdate
    rw [show (before.install pool).updating = before.updating from rfl, h.updating] at hupdate
    cases hupdate
  · have hidle := h.idle w
    left
    cases hcall : (before.calls w) with
    | returned location => exact congrArg Call.away hcall
    | _ => rw [hcall] at hidle; cases hidle

/-- As long as no update overlaps with a call of the worker, and its queue is filled by the
updates of the others, a round is the subroute. -/
theorem rounds_exact [Field K] {s₀ : State K} {hasPrioQueue starveRoute : Bool}
    {l : List (Action K)} {es : List (QueueEvent K)} {entry : RoutePoolEntry K}
    (h0 : Initialised g s₀) (hw : w ∈ s₀.workersRegistered) (hentry : s₀.entryOf? w = some entry)
    (hapart : Apart g s₀.route)
    (hs : Run (recording (step g (normalManager K hasPrioQueue starveRoute))
      (emit g (normalManager K hasPrioQueue starveRoute) w))
      (fun p a => asks a = true ∧ Alone w p.1 a) (s₀, []) l (s, es)) :
    (s.entryOf? w).map RoutePoolEntry.subroute = some entry.subroute ∧
      entry.subroute.Nodup ∧ Rounds entry.subroute es := by
  obtain ⟨before, pool, harrived, hpool, rfl⟩ := h0
  have hcopy : pool.get? w = some entry := by rw [← entryOf?_install before pool w]; exact hentry
  obtain ⟨hset, hrouted, hqueue⟩ := harrived.install hpool hw hcopy hapart
  obtain ⟨_, hentry', hfresh⟩ := hrouted.entry
  rw [hentry, Option.some.injEq] at hentry'
  subst hentry'
  -- The queue and the record of `w` go along with every step, and the registered workers stay.
  have hall := hs.invariant
    (I := fun p => Routed before.coordsToUse (placedWorkers before) w p.1 ∧ Waits p.1 ∧
      Stands (subrouteOf before.coordsToUse (placedWorkers before) w) (queueOf p.1 w) p.2)
    ⟨hrouted, harrived.waits, by rw [queueOf_eq hentry, hqueue]; exact .start _⟩
    fun p a q hI ha hrec => by
      obtain ⟨hstep, hes⟩ := recording_some hrec
      obtain ⟨hrouted, hqueue⟩ := hI.1.step hset hI.2.1 ha.1 ha.2 hstep
      refine ⟨hrouted, hI.2.1.step hI.1.wf ha.1 (step_some hstep), ?_⟩
      rw [hes]
      exact hI.2.2.step hqueue
  obtain ⟨hrouted, _, hstands⟩ := hall
  obtain ⟨_, hlast, hlastFresh⟩ := hrouted.entry
  rw [hlast, hfresh.assigned]
  exact ⟨congrArg some hlastFresh.assigned, (subrouteOf_sublist _ _ _).nodup hset.nodup,
    hstands.rounds⟩

/-! ## Workers that call in turn -/

instance (w : Origin) (s : State K) : (a : Action K) → Decidable (Alone w s a)
  | .getNextLocation _ _ | .started _ _ => inferInstanceAs (Decidable (_ → _ ∧ _))
  | .notStarted _ => inferInstanceAs (Decidable (_ ≠ _))
  | .startUpdate _ => inferInstanceAs (Decidable (_ = _))
  | .awaitStart _ | .popEvent _ _ _ _ | .noEvent _ | .anyCoordsLeft _ _ | .calculated _ _ | .finishUpdate
  | .fetchStops _ | .calculateRoute _ | .registerWorker _ | .unregisterWorker _ _
  | .redoStopImmediately _ _ | .redoStopAtEnd _ _ | .addCoordToBeRemoved _
  | .setWorkerStartposition _ _ => isTrue trivial

def begins : Action K → Bool
  | .getNextLocation _ _ | .awaitStart _ => true
  | _ => false

/-- A call begins when no other one is under way. -/
def InTurn (s : State K) (a : Action K) : Prop :=
  begins a = true → s.updating.isNone = true ∧ ∀ v ∈ s.workersRegistered, (s.calls v).idle = true

instance (s : State K) (a : Action K) : Decidable (InTurn s a) :=
  inferInstanceAs (Decidable (_ → _ ∧ _))

/-- A route and its workers, whose queues are empty. -/
def arrived (route : List (Location ℚ)) (workers : List Origin) (h : workers.Nodup) : State ℚ where
  heap _ := ⟨[], 0, [], 0, ⟨0, 0⟩, none, .normal⟩
  next := 1
  routepool := ⟨workers.map fun w => (w, ⟨0, w⟩), by simpa [Function.comp_def] using h⟩
  route := route
  currentRouteRoundCoords := route
  coordsToBeIgnored := []
  stoplist := []
  workersRegistered := workers
  workerStartPosition := Dict.empty
  roundcount := 0
  updating := none
  calls _ := .returned none
  time := 0

theorem arrived_arrived {route : List (Location ℚ)} {workers : List Origin} (h : workers.Nodup)
    (hne : route ≠ []) (hnodup : route.Nodup) : Arrived (arrived route workers h) where
  wf := by
    refine ⟨?_, ?_⟩
    · intro w r hr
      obtain ⟨v, _, hv⟩ := List.mem_map.mp (Dict.get?_eq_some_iff.mp hr)
      cases hv
      exact ⟨rfl, Nat.zero_lt_one⟩
    · intro w r hr
      cases hr
  route := hne
  nodup := hnodup
  coords := rfl
  updating := rfl
  idle _ := rfl
  entries hentry := by
    obtain ⟨r, _, rfl⟩ := entryOf?_eq_some.mp hentry
    exact ⟨rfl, rfl, le_rfl⟩
  registered hw := by simpa [arrived, Dict.keys] using hw

/-- The route after its first update. -/
def initialised (route : List (Location ℚ)) (workers : List Origin) (h : workers.Nodup) : State ℚ :=
  (arrived route workers h).install (((arrived route workers h).workerChanged plane).getD Dict.empty)

theorem initialised_initialised {route : List (Location ℚ)} {workers : List Origin} (h : workers.Nodup)
    (hne : route ≠ []) (hnodup : route.Nodup)
    (hsome : ((arrived route workers h).workerChanged plane).isSome = true) :
    Initialised plane (initialised route workers h) := by
  obtain ⟨pool, hpool⟩ := Option.isSome_iff_exists.mp hsome
  refine ⟨_, pool, arrived_arrived h hne hnodup, hpool, ?_⟩
  rw [initialised, hpool]
  rfl

abbrev raids : Manager ℚ := normalManager ℚ false false

/-- Two workers, with two locations each. -/
def twoEach : State ℚ :=
  initialised [⟨0, 0⟩, ⟨0, 1⟩, ⟨0, 2⟩, ⟨0, 3⟩] ["a", "b"] (by decide)

/-- Each worker is served its subroute; the update of the first one fills the queue of the
second one, which is served once more. -/
def servedTwice : List (Action ℚ) := [.getNextLocation "a" 0, .getNextLocation "b" 1,
  .getNextLocation "a" 2, .getNextLocation "b" 3, .getNextLocation "a" 4, .startUpdate "a",
  .finishUpdate, .getNextLocation "b" 5, .getNextLocation "b" 6]

/-- The last state, and the record of the second worker. -/
def twoRounds : State ℚ × List (QueueEvent ℚ) :=
  after (recording (step plane raids) (emit plane raids "b"))
    (fun p a => asks a = true ∧ Alone "b" p.1 a) (twoEach, []) servedTwice

theorem rounds_exact_twice :
    twoRounds.2 = served [⟨0, 2⟩, ⟨0, 3⟩] ++ .exhausted :: served [⟨0, 2⟩, ⟨0, 3⟩] ++ [.exhausted] ∧
      Rounds [⟨0, 2⟩, ⟨0, 3⟩] twoRounds.2 := by
  refine ⟨by decide +kernel, ?_⟩
  have hinit : Initialised plane twoEach :=
    initialised_initialised (by decide) (by decide) (by decide) (by decide +kernel)
  have hsome : (twoEach.entryOf? "b").map RoutePoolEntry.subroute = some [⟨0, 2⟩, ⟨0, 3⟩] := by
    decide +kernel
  obtain ⟨entry, hentry, hsubroute⟩ := Option.map_eq_some_iff.mp hsome
  have hrun : Run (recording (step plane raids) (emit plane raids "b"))
      (fun p a => asks a = true ∧ Alone "b" p.1 a) (twoEach, []) servedTwice
      twoRounds := .of_after (by decide +kernel)
  have hrounds : Rounds entry.subroute twoRounds.2 :=
    (rounds_exact (s := twoRounds.1) hinit (by decide) hentry (by unfold Apart; decide +kernel) hrun).2.2
  rwa [hsubroute] at hrounds

/-- One worker with two locations. -/
def twoForOne : State ℚ := initialised [⟨0, 0⟩, ⟨0, 1⟩] ["a"] (by decide)

/-- Its second round, with the update it awaits. -/
def askedAgain : List (Action ℚ) := [.getNextLocation "a" 0, .getNextLocation "a" 1,
  .getNextLocation "a" 2, .startUpdate "a", .finishUpdate, .getNextLocation "a" 3,
  .getNextLocation "a" 4]

def longRound : State ℚ × List (QueueEvent ℚ) :=
  after (recording (step plane raids) (emit plane raids "a"))
    (fun p a => asks a = true ∧ InTurn p.1 a) (twoForOne, []) askedAgain

/-- Even where the workers call in turn, the first location is served twice in a round. -/
theorem first_location_twice : ¬ ∀ (g : Geo ℚ) (m : Manager ℚ) (hasPrioQueue starveRoute : Bool)
    (s₀ s : State ℚ) (l : List (Action ℚ)) (es : List (QueueEvent ℚ)) (w : Origin)
    (entry : RoutePoolEntry ℚ), m = normalManager ℚ hasPrioQueue starveRoute → Initialised g s₀ →
    w ∈ s₀.workersRegistered → s₀.entryOf? w = some entry → Apart g s₀.route →
    Run (recording (step g m) (emit g m w)) (fun p a => asks a = true ∧ InTurn p.1 a)
      (s₀, []) l (s, es) → Rounds entry.subroute es := by
  intro h
  have hinit : Initialised plane twoForOne :=
    initialised_initialised (by decide) (by decide) (by decide) (by decide +kernel)
  have hsome : (twoForOne.entryOf? "a").map RoutePoolEntry.subroute = some [⟨0, 0⟩, ⟨0, 1⟩] := by
    decide +kernel
  obtain ⟨entry, hentry, hsubroute⟩ := Option.map_eq_some_iff.mp hsome
  have hrun : Run (recording (step plane raids) (emit plane raids "a"))
      (fun p a => asks a = true ∧ InTurn p.1 a) (twoForOne, []) askedAgain
      longRound := .of_after (by decide +kernel)
  have hrounds : Rounds entry.subroute longRound.2 :=
    h plane raids false false _ longRound.1 _ _ "a" entry rfl hinit (by decide) hentry
      (by unfold Apart; decide +kernel) hrun
  have hrecord : longRound.2 = served [⟨0, 0⟩, ⟨0, 1⟩] ++
      .exhausted :: (served [⟨0, 0⟩, ⟨0, 0⟩, ⟨0, 1⟩] ++ [.exhausted]) := by decide +kernel
  rw [hsubroute, hrecord] at hrounds
  -- The second round, from one exhaustion of the queue to the next.
  obtain ⟨_, hclosed⟩ := hrounds (.exhausted :: served [⟨0, 0⟩, ⟨0, 1⟩]) .exhausted
    (served [⟨0, 0⟩, ⟨0, 0⟩, ⟨0, 1⟩]) [.exhausted] rfl rfl (by decide)
  have hround := hclosed .exhausted [] rfl rfl
  exact absurd hround (by decide)

end MapADroid.Route
