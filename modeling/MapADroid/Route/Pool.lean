import Mathlib.Data.List.Sort
import Mathlib.Data.Rat.Defs
import Mathlib.Algebra.Order.Ring.Rat
import MapADroid.Lib.Dict
import MapADroid.Location

/- The routepool, and how a route is divided among its workers
   (`SubrouteReplacingMixin`).

   This is the managers whose `_may_update_routepool` is True (mon, raids, quests, init);
   iv and idle keep their routepool as it is. The times of the last access of an entry
   are left out: they only serve to find idle workers. -/
namespace MapADroid.Route
open Lib

/-- `PositionType`. -/
inductive PositionType where
  | normal
  | prioq
  | startup
  | reboot
  | restart
  deriving DecidableEq, Repr

/-- The name of a worker. -/
abbrev Origin := String

/-- `RoutePoolEntry`. -/
structure RoutePoolEntry (K : Type) where
  subroute : List (Location K)
  timeAdded : ℚ
  queue : List (Location K)
  rounds : Nat
  currentPos : Location K
  prioCoord : Option (Location K)
  lastPositionType : PositionType

/-- A routepool, its entries taken by value. -/
abbrev Routepool (K : Type) := Dict Origin (RoutePoolEntry K)

variable {K : Type}

/-- When the workers of a routepool were added. -/
def addedTimes (pool : Routepool K) : List (Origin × ℚ) :=
  pool.items.map fun i => (i.1, i.2.timeAdded)

/-- `sorted` by the second component. -/
def sortedByTime (l : List (Origin × ℚ)) : List (Origin × ℚ) :=
  l.insertionSort fun a b => a.2 ≤ b.2

/-- `sorted_routepools`. -/
def sortedRoutepools (pool : Routepool K) : List (Origin × ℚ) := sortedByTime (addedTimes pool)

variable [LinearOrder K] (g : Geo K)

/-- `_find_closest_location`: the first of the closest ones. -/
def findClosestLocation : Option (Location K) → List (Location K) → Option (Location K)
  | some location, first :: route =>
    some (route.foldl (fun closest loc =>
      if g.distance location loc < g.distance location closest then loc else closest) first)
  | _, _ => none

/-- What `_populate_subroutes` does to the entry of one worker. -/
def RoutePoolEntry.replaceSubroute (entry : RoutePoolEntry K) (newSubroute : List (Location K)) :
    RoutePoolEntry K :=
  let closestToOldQueue := findClosestLocation g entry.queue.head? newSubroute
  { entry with
    subroute := newSubroute
    queue := match closestToOldQueue with
      | none => newSubroute
      | some closest => newSubroute.dropWhile fun loc => loc ≠ closest }

/-- `new_subroute_actual_length` of the `i`-th worker. -/
def subrouteLength (extraLengthWorkers newSubrouteLength i : Nat) : Nat :=
  if i < extraLengthWorkers then newSubrouteLength + 1 else newSubrouteLength

/-- `_populate_subroutes`, from the `i`-th worker on. -/
def populateSubroutes (extraLengthWorkers newSubrouteLength : Nat) :
    Nat → List (Origin × ℚ) → List (Location K) → Routepool K → Routepool K
  | _, [], _, pool => pool
  | i, (origin, _) :: rest, tempTotalRound, pool =>
    let n := subrouteLength extraLengthWorkers newSubrouteLength i
    populateSubroutes extraLengthWorkers newSubrouteLength (i + 1) rest (tempTotalRound.drop n)
      (pool.modify origin fun entry => entry.replaceSubroute g (tempTotalRound.take n))

/-- `reduced_routepool_to_process`: without the worker that was added last. -/
def reducedRoutepool (pool : Routepool K) : Routepool K :=
  Dict.ofList ((sortedRoutepools pool).dropLast.filterMap fun p =>
    (pool.get? p.1).map fun entry => (p.1, entry))

/-- `_worker_changed_update_routepools`; the recursion needs as much fuel as there are
workers. -/
def workerChangedUpdateRoutepools (coordsToUse : List (Location K)) :
    Nat → Routepool K → Option (Routepool K)
  | 0, _ => none
  | fuel + 1, pool =>
    let workers := pool.items.length
    if workers = 0 then none
    else
      let newSubrouteLength := coordsToUse.length / workers
      if newSubrouteLength = 0 then
        workerChangedUpdateRoutepools coordsToUse fuel (reducedRoutepool pool)
      else some (populateSubroutes g (coordsToUse.length % workers) newSubrouteLength 0
        (sortedRoutepools pool) coordsToUse pool)

/-- The routepool after an update, if there is one. -/
def updatedRoutepool (coordsToUse : List (Location K)) (pool : Routepool K) :
    Option (Routepool K) :=
  workerChangedUpdateRoutepools g coordsToUse pool.items.length pool

/-! ## What an update makes -/

/-- The part of the route the worker `origin` gets among the workers given. -/
def portion (origin : Origin) (extraLengthWorkers newSubrouteLength : Nat) :
    Nat → List (Origin × ℚ) → List (Location K) → List (Location K)
  | _, [], _ => []
  | i, (o, _) :: rest, tempTotalRound =>
    let n := subrouteLength extraLengthWorkers newSubrouteLength i
    if o = origin then tempTotalRound.take n
    else portion origin extraLengthWorkers newSubrouteLength (i + 1) rest (tempTotalRound.drop n)

/-- The subroute of a worker when the route is divided among `workers`. -/
def subrouteOf (coordsToUse : List (Location K)) (workers : List (Origin × ℚ)) (origin : Origin) :
    List (Location K) :=
  portion origin (coordsToUse.length % workers.length) (coordsToUse.length / workers.length) 0
    workers coordsToUse

/-- `pool'` is `pool` with the route divided among `workers`, and no other entries. -/
structure Divided (coordsToUse : List (Location K)) (workers : List (Origin × ℚ))
    (pool pool' : Routepool K) : Prop where
  sorted : sortedRoutepools pool' = workers
  get? : ∀ o, pool'.get? o = if o ∈ workers.map Prod.fst then
    (pool.get? o).map fun entry => entry.replaceSubroute g (subrouteOf coordsToUse workers o)
    else none

section Sorted

theorem sortedByTime_perm (l : List (Origin × ℚ)) : (sortedByTime l).Perm l :=
  List.perm_insertionSort _ l

theorem sortedByTime_pairwise (l : List (Origin × ℚ)) :
    (sortedByTime l).Pairwise fun a b => a.2 ≤ b.2 := by
  have : Std.Total fun a b : Origin × ℚ => a.2 ≤ b.2 := ⟨fun a b => le_total a.2 b.2⟩
  have : IsTrans (Origin × ℚ) fun a b => a.2 ≤ b.2 := ⟨fun a b c => le_trans⟩
  exact List.pairwise_insertionSort _ l

theorem sortedByTime_eq {l : List (Origin × ℚ)} (h : l.Pairwise fun a b => a.2 ≤ b.2) :
    sortedByTime l = l := h.insertionSort_eq

/-- The worker that was added last comes last. -/
theorem sortedByTime_concat {l : List (Origin × ℚ)} {x : Origin × ℚ} (h : ∀ a ∈ l, a.2 ≤ x.2) :
    sortedByTime (l ++ [x]) = sortedByTime l ++ [x] := by
  have hinsert : ∀ (a : Origin × ℚ) (l' : List (Origin × ℚ)), a.2 ≤ x.2 →
      List.orderedInsert (fun a b => a.2 ≤ b.2) a (l' ++ [x]) =
        List.orderedInsert (fun a b => a.2 ≤ b.2) a l' ++ [x] := by
    intro a l' ha
    induction l' with
    | nil => simp [ha]
    | cons b l' ih =>
      rw [List.cons_append, List.orderedInsert_cons, List.orderedInsert_cons]
      split
      · rfl
      · rw [ih]; rfl
  induction l with
  | nil => rfl
  | cons a l ih =>
    have hl : sortedByTime (l ++ [x]) = sortedByTime l ++ [x] :=
      ih fun b hb => h b (List.mem_cons_of_mem a hb)
    calc sortedByTime (a :: l ++ [x])
        = List.orderedInsert (fun a b => a.2 ≤ b.2) a (sortedByTime (l ++ [x])) := rfl
      _ = List.orderedInsert (fun a b => a.2 ≤ b.2) a (sortedByTime l ++ [x]) := by rw [hl]
      _ = sortedByTime (a :: l) ++ [x] := hinsert a _ (h a List.mem_cons_self)

end Sorted

section Pool
omit [LinearOrder K]
variable {pool : Routepool K} {o : Origin}

theorem addedTimes_keys (pool : Routepool K) : (addedTimes pool).map Prod.fst = pool.keys := by
  simp [addedTimes, Dict.keys]

theorem sortedRoutepools_perm (pool : Routepool K) : (sortedRoutepools pool).Perm (addedTimes pool) :=
  sortedByTime_perm _

theorem sortedRoutepools_length (pool : Routepool K) :
    (sortedRoutepools pool).length = pool.items.length := by
  rw [(sortedRoutepools_perm pool).length_eq, addedTimes, List.length_map]

theorem sortedRoutepools_nodup (pool : Routepool K) :
    ((sortedRoutepools pool).map Prod.fst).Nodup := by
  have hperm := (sortedRoutepools_perm pool).map Prod.fst
  rw [addedTimes_keys] at hperm
  exact hperm.nodup_iff.mpr pool.keys_nodup

theorem mem_sortedRoutepools {p : Origin × ℚ} :
    p ∈ sortedRoutepools pool ↔ ∃ entry, pool.get? p.1 = some entry ∧ entry.timeAdded = p.2 := by
  rw [(sortedRoutepools_perm pool).mem_iff, addedTimes, List.mem_map]
  constructor
  · rintro ⟨i, hi, rfl⟩
    exact ⟨i.2, Dict.get?_eq_some_iff.mpr hi, rfl⟩
  · rintro ⟨entry, hentry, htime⟩
    exact ⟨(p.1, entry), Dict.get?_eq_some_iff.mp hentry, Prod.ext rfl htime⟩

theorem mem_sortedRoutepools_keys :
    o ∈ (sortedRoutepools pool).map Prod.fst ↔ o ∈ pool.keys := by
  rw [((sortedRoutepools_perm pool).map Prod.fst).mem_iff, addedTimes_keys]

theorem addedTimes_modify (f : RoutePoolEntry K → RoutePoolEntry K)
    (hf : ∀ entry, (f entry).timeAdded = entry.timeAdded) :
    addedTimes (pool.modify o f) = addedTimes pool := by
  unfold addedTimes Dict.modify Dict.mapValues
  rw [List.map_map]
  apply List.map_congr_left
  intro i _
  by_cases hi : i.1 = o
  · simp [hi, hf]
  · simp [hi]

end Pool

/-! ## Updates -/

theorem addedTimes_populateSubroutes (extra len i : Nat) (workers : List (Origin × ℚ))
    (total : List (Location K)) (pool : Routepool K) :
    addedTimes (populateSubroutes g extra len i workers total pool) = addedTimes pool := by
  induction workers generalizing i total pool with
  | nil => rfl
  | cons p workers ih =>
    obtain ⟨origin, time⟩ := p
    rw [populateSubroutes, ih]
    exact addedTimes_modify _ fun _ => rfl

theorem get?_populateSubroutes {extra len i : Nat} {workers : List (Origin × ℚ)}
    {total : List (Location K)} {pool : Routepool K} (h : (workers.map Prod.fst).Nodup)
    (o : Origin) :
    (populateSubroutes g extra len i workers total pool).get? o =
      if o ∈ workers.map Prod.fst then
        (pool.get? o).map fun entry => entry.replaceSubroute g (portion o extra len i workers total)
      else pool.get? o := by
  induction workers generalizing i total pool with
  | nil => rfl
  | cons p workers ih =>
    obtain ⟨origin, time⟩ := p
    rw [List.map_cons, List.nodup_cons] at h
    rw [populateSubroutes, ih h.2, Dict.get?_modify, portion]
    by_cases ho : o = origin
    · subst ho
      simp [h.1]
    · simp only [ho, Ne.symm ho, if_false, List.map_cons, List.mem_cons, false_or]

variable {g} {pool : Routepool K} {coordsToUse : List (Location K)}

omit [LinearOrder K] in
theorem reducedRoutepool_items (pool : Routepool K) : (reducedRoutepool pool).items =
    (sortedRoutepools pool).dropLast.filterMap fun p =>
      (pool.get? p.1).map fun entry => (p.1, entry) := by
  apply Dict.items_ofList
  have hsub : (((sortedRoutepools pool).dropLast.filterMap fun p =>
      (pool.get? p.1).map fun entry => (p.1, entry)).map Prod.fst).Sublist
        ((sortedRoutepools pool).dropLast.map Prod.fst) := by
    rw [List.map_filterMap]
    induction (sortedRoutepools pool).dropLast with
    | nil => exact List.Sublist.refl _
    | cons p l ih =>
      cases hp : pool.get? p.1 with
      | none => simpa [hp] using ih.cons p.1
      | some entry => simpa [hp] using ih.cons_cons p.1
  exact hsub.nodup (((List.dropLast_sublist _).map _).nodup (sortedRoutepools_nodup pool))

omit [LinearOrder K] in
theorem get?_reducedRoutepool (pool : Routepool K) (o : Origin) : (reducedRoutepool pool).get? o =
    if o ∈ (sortedRoutepools pool).dropLast.map Prod.fst then pool.get? o else none := by
  rw [Option.ext_iff]
  intro entry
  rw [Dict.get?_eq_some_iff, reducedRoutepool_items, List.mem_filterMap]
  constructor
  · rintro ⟨p, hp, hentry⟩
    obtain ⟨e, he, hpair⟩ := Option.map_eq_some_iff.mp hentry
    cases hpair
    rw [if_pos (List.mem_map_of_mem hp)]
    exact he
  · intro hentry
    split at hentry
    · next ho =>
      obtain ⟨p, hp, rfl⟩ := List.mem_map.mp ho
      exact ⟨p, hp, by rw [hentry]; rfl⟩
    · cases hentry

omit [LinearOrder K] in
theorem sortedRoutepools_reducedRoutepool (pool : Routepool K) :
    sortedRoutepools (reducedRoutepool pool) = (sortedRoutepools pool).dropLast := by
  have hadded : addedTimes (reducedRoutepool pool) = (sortedRoutepools pool).dropLast := by
    unfold addedTimes
    rw [reducedRoutepool_items, List.map_filterMap]
    have hall : ∀ p ∈ (sortedRoutepools pool).dropLast, ((pool.get? p.1).map fun entry =>
        (p.1, entry)).map (fun i => (i.1, i.2.timeAdded)) = some p := by
      intro p hp
      obtain ⟨entry, hentry, htime⟩ := mem_sortedRoutepools.mp (List.dropLast_subset _ hp)
      rw [hentry]
      simp [htime]
    rw [List.filterMap_congr hall, List.filterMap_some]
  rw [sortedRoutepools, hadded]
  exact sortedByTime_eq ((sortedByTime_pairwise _).sublist (List.dropLast_sublist _))

/-- An update has a result if there is a worker and a location; the route is divided among
as many workers as it has locations, those that were added first. -/
def Updates (g : Geo K) (coordsToUse : List (Location K)) (pool : Routepool K)
    (result : Option (Routepool K)) : Prop :=
  match result with
  | none => (sortedRoutepools pool).take coordsToUse.length = []
  | some pool' => (sortedRoutepools pool).take coordsToUse.length ≠ [] ∧
      Divided g coordsToUse ((sortedRoutepools pool).take coordsToUse.length) pool pool'

theorem divided_populateSubroutes (hlen : pool.items.length ≤ coordsToUse.length) :
    Divided g coordsToUse ((sortedRoutepools pool).take coordsToUse.length) pool
      (populateSubroutes g (coordsToUse.length % pool.items.length)
        (coordsToUse.length / pool.items.length) 0 (sortedRoutepools pool) coordsToUse pool) := by
  have hlength := sortedRoutepools_length pool
  rw [List.take_of_length_le (by omega)]
  refine ⟨?_, fun o => ?_⟩
  · rw [sortedRoutepools, addedTimes_populateSubroutes]
    rfl
  · rw [get?_populateSubroutes g (sortedRoutepools_nodup pool), subrouteOf, hlength]
    split
    · rfl
    · next ho =>
      rw [mem_sortedRoutepools_keys] at ho
      exact Dict.get?_eq_none_iff.mpr ho

/-- Leaving out the worker that was added last changes nothing where there are more
workers than locations. -/
theorem Updates.of_reduced {result : Option (Routepool K)}
    (hlen : coordsToUse.length < pool.items.length)
    (h : Updates g coordsToUse (reducedRoutepool pool) result) :
    Updates g coordsToUse pool result := by
  have hlength := sortedRoutepools_length pool
  have hworkers : (sortedRoutepools (reducedRoutepool pool)).take coordsToUse.length =
      (sortedRoutepools pool).take coordsToUse.length := by
    rw [sortedRoutepools_reducedRoutepool, List.dropLast_eq_take, List.take_take]
    congr 1
    omega
  cases result with
  | none =>
    unfold Updates at h ⊢
    rwa [hworkers] at h
  | some pool' =>
    obtain ⟨hne, hsorted, hget⟩ := h
    rw [hworkers] at hne hsorted hget
    refine ⟨hne, hsorted, fun o => ?_⟩
    rw [hget]
    split
    · next ho =>
      -- The workers that are left are not the last one.
      have hmem : o ∈ (sortedRoutepools pool).dropLast.map Prod.fst := by
        rw [← sortedRoutepools_reducedRoutepool]
        rw [← hworkers] at ho
        exact ((List.take_sublist _ _).map Prod.fst).subset ho
      rw [get?_reducedRoutepool, if_pos hmem]
    · rfl

theorem updates_workerChangedUpdateRoutepools {fuel : Nat} (hfuel : pool.items.length ≤ fuel) :
    Updates g coordsToUse pool (workerChangedUpdateRoutepools g coordsToUse fuel pool) := by
  have hempty : ∀ {pool : Routepool K}, pool.items.length = 0 → Updates g coordsToUse pool none := by
    intro pool h0
    show (sortedRoutepools pool).take coordsToUse.length = []
    have hnil := List.eq_nil_of_length_eq_zero ((sortedRoutepools_length pool).trans h0)
    rw [hnil, List.take_nil]
  induction fuel generalizing pool with
  | zero => exact hempty (by omega)
  | succ fuel ih =>
    unfold workerChangedUpdateRoutepools
    simp only
    split
    · next h0 => exact hempty h0
    next h0 =>
    split
    · next hdiv =>
      have hlen : coordsToUse.length < pool.items.length := by
        rcases Nat.div_eq_zero_iff.mp hdiv with h | h
        · exact absurd h h0
        · exact h
      apply Updates.of_reduced hlen
      apply ih
      have hitems := sortedRoutepools_length (reducedRoutepool pool)
      have hlength := sortedRoutepools_length pool
      rw [sortedRoutepools_reducedRoutepool, List.length_dropLast] at hitems
      omega
    · next hdiv =>
      have hlen : pool.items.length ≤ coordsToUse.length := by
        by_contra hlt
        exact hdiv (Nat.div_eq_of_lt (by omega))
      have hlength := sortedRoutepools_length pool
      refine ⟨?_, divided_populateSubroutes hlen⟩
      rw [List.take_of_length_le (by omega)]
      exact List.ne_nil_of_length_pos (by omega)

theorem updates_updatedRoutepool (g : Geo K) (coordsToUse : List (Location K))
    (pool : Routepool K) : Updates g coordsToUse pool (updatedRoutepool g coordsToUse pool) :=
  updates_workerChangedUpdateRoutepools le_rfl

/-! ## Queues -/

omit [LinearOrder K] in
theorem portion_sublist (o : Origin) (extra len i : Nat) (workers : List (Origin × ℚ))
    (total : List (Location K)) : (portion o extra len i workers total).Sublist total := by
  induction workers generalizing i total with
  | nil => exact List.nil_sublist _
  | cons p workers ih =>
    obtain ⟨origin, time⟩ := p
    rw [portion]
    split
    · exact List.take_sublist _ _
    · exact (ih _ _).trans (List.drop_sublist _ _)

omit [LinearOrder K] in
/-- A subroute has its locations in the order of the route. -/
theorem subrouteOf_sublist (coordsToUse : List (Location K)) (workers : List (Origin × ℚ))
    (o : Origin) : (subrouteOf coordsToUse workers o).Sublist coordsToUse :=
  portion_sublist _ _ _ _ _ _

/-- Every location is closer to itself than to the others. -/
def Apart (g : Geo K) (route : List (Location K)) : Prop :=
  ∀ a ∈ route, ∀ b ∈ route, a ≠ b → g.distance a a < g.distance a b

/-- A location of the route is the closest to itself. -/
theorem findClosestLocation_self {route : List (Location K)} (hroute : Apart g route)
    {location : Location K} (h : location ∈ route) :
    findClosestLocation g (some location) route = some location := by
  have hfold : ∀ (l : List (Location K)) (closest : Location K), (∀ a ∈ l, a ∈ route) →
      closest ∈ route → (closest = location ∨ location ∈ l) →
      l.foldl (fun closest loc =>
        if g.distance location loc < g.distance location closest then loc else closest) closest =
          location := by
    intro l
    induction l with
    | nil =>
      intro closest _ _ hfound
      rcases hfound with hfound | hfound
      · exact hfound
      · cases hfound
    -- `location` is the closest one so far, or is still to come.
    | cons a l ih =>
      intro closest hl hclosest hfound
      have ha : a ∈ route := hl a List.mem_cons_self
      have hl' : ∀ b ∈ l, b ∈ route := fun b hb => hl b (List.mem_cons_of_mem _ hb)
      rw [List.foldl_cons]
      split
      · next hlt =>
        -- A location that is strictly closer than `closest`, so that is not the one.
        apply ih a hl' ha
        rcases hfound with rfl | hfound
        · by_cases heq : a = closest
          · exact Or.inl heq
          · exact absurd hlt (not_lt.mpr (hroute closest h a ha (Ne.symm heq)).le)
        · rcases List.mem_cons.mp hfound with rfl | hfound
          · exact Or.inl rfl
          · exact Or.inr hfound
      · next hge =>
        apply ih closest hl' hclosest
        rcases hfound with hfound | hfound
        · exact Or.inl hfound
        · rcases List.mem_cons.mp hfound with rfl | hfound
          · left
            by_contra hne
            exact hge (hroute location h closest hclosest (Ne.symm hne))
          · exact Or.inr hfound
  match route, hroute, h, hfold with
  | first :: rest, _, h, hfold =>
    rw [findClosestLocation, hfold rest first (fun a ha => List.mem_cons_of_mem _ ha)
      List.mem_cons_self]
    rcases List.mem_cons.mp h with h | h
    · exact Or.inl h.symm
    · exact Or.inr h

/-- An empty queue is filled with the subroute. -/
theorem RoutePoolEntry.replaceSubroute_queue_nil {entry : RoutePoolEntry K}
    (h : entry.queue = []) (subroute : List (Location K)) :
    (entry.replaceSubroute g subroute).queue = subroute := by
  simp [replaceSubroute, h, findClosestLocation]

/-- A queue that is the rest of the same subroute stays. -/
theorem RoutePoolEntry.replaceSubroute_queue_suffix {entry : RoutePoolEntry K}
    {subroute : List (Location K)} (hapart : Apart g subroute) (hnodup : subroute.Nodup)
    (h : entry.queue <:+ subroute) (hne : entry.queue ≠ []) :
    (entry.replaceSubroute g subroute).queue = entry.queue := by
  obtain ⟨before, hbefore⟩ := h
  obtain ⟨location, rest, hqueue⟩ := List.exists_cons_of_ne_nil hne
  rw [hqueue] at hbefore
  have hmem : location ∈ subroute := by rw [← hbefore]; simp
  have hfirst : ∀ a ∈ before, a ≠ location := by
    intro a ha heq
    rw [← hbefore] at hnodup
    exact (List.nodup_append.mp hnodup).2.2 a ha location List.mem_cons_self heq
  have hdrop : subroute.dropWhile (fun loc => decide (loc ≠ location)) = location :: rest := by
    rw [← hbefore, List.dropWhile_append_of_pos fun a ha => decide_eq_true (hfirst a ha)]
    simp
  have hclosest : findClosestLocation g entry.queue.head? subroute = some location := by
    rw [hqueue]
    exact findClosestLocation_self hapart hmem
  rw [replaceSubroute, hclosest, hqueue]
  exact hdrop

end MapADroid.Route
