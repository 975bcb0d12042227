import Mathlib.Data.List.MinMax
import MapADroid.Route.Manager

/- How an update distributes the route among the workers.

   The workers that were added first get a part each, as many of them as there are
   locations (`Updates`). The parts put together are the locations that are left of the
   route, their lengths differ by at most one, and the longer ones are those of the older
   workers. A queue is the rest of the new subroute from the first location on that is
   closest to where the old queue went on. -/
namespace MapADroid.Route
open Lib

variable {K : Type} [LinearOrder K] {g : Geo K}

/-! ## Portions -/

section Portions
omit [LinearOrder K]

/-- The portions of the workers, in their order. -/
def portions (extraLengthWorkers newSubrouteLength i : Nat) (workers : List (Origin × ℚ))
    (total : List (Location K)) : List (List (Location K)) :=
  workers.map fun p => portion p.1 extraLengthWorkers newSubrouteLength i workers total

variable {extra len i : Nat} {p : Origin × ℚ} {workers : List (Origin × ℚ)} {total : List (Location K)}

theorem portions_cons (h : ((p :: workers).map Prod.fst).Nodup) :
    portions extra len i (p :: workers) total =
      total.take (subrouteLength extra len i) ::
        portions extra len (i + 1) workers (total.drop (subrouteLength extra len i)) := by
  obtain ⟨origin, time⟩ := p
  rw [List.map_cons, List.nodup_cons] at h
  rw [portions, List.map_cons, portion, if_pos rfl, portions]
  congr 1
  apply List.map_congr_left
  intro q hq
  have hne : origin ≠ q.1 := fun heq => h.1 (List.mem_map.mpr ⟨q, hq, heq.symm⟩)
  rw [portion, if_neg hne]

/-- The locations are as many as the workers get. -/
def Exact (extra len i workers total : Nat) : Prop := total = workers * len + min workers (extra - i)

theorem Exact.succ {n m : Nat} (h : Exact extra len i (n + 1) m) :
    subrouteLength extra len i ≤ m ∧ Exact extra len (i + 1) n (m - subrouteLength extra len i) := by
  unfold Exact subrouteLength at *
  have hmul : (n + 1) * len = n * len + len := Nat.succ_mul n len
  split <;> omega

/-- Nothing is lost and nothing is given twice. -/
theorem flatten_portions (h : (workers.map Prod.fst).Nodup)
    (hexact : Exact extra len i workers.length total.length) :
    (portions extra len i workers total).flatten = total := by
  induction workers generalizing i total with
  | nil =>
    have hnil : total.length = 0 := by simpa [Exact] using hexact
    rw [List.eq_nil_of_length_eq_zero hnil]
    rfl
  | cons p workers ih =>
    obtain ⟨_, hrest⟩ := hexact.succ
    rw [← List.length_drop] at hrest
    rw [portions_cons h, List.flatten_cons, ih (List.nodup_cons.mp h).2 hrest]
    exact List.take_append_drop _ _

theorem length_portions (h : (workers.map Prod.fst).Nodup)
    (hexact : Exact extra len i workers.length total.length) :
    (portions extra len i workers total).map List.length =
      (List.range' i workers.length).map (subrouteLength extra len) := by
  induction workers generalizing i total with
  | nil => rfl
  | cons p workers ih =>
    obtain ⟨hle, hrest⟩ := hexact.succ
    rw [← List.length_drop] at hrest
    rw [portions_cons h, List.map_cons, ih (List.nodup_cons.mp h).2 hrest, List.length_take,
      Nat.min_eq_left hle, List.length_cons, List.range'_succ, List.map_cons]

/-- The first portions are the longer ones, by one at most. -/
theorem portions_pairwise (h : (workers.map Prod.fst).Nodup)
    (hexact : Exact extra len i workers.length total.length) :
    (portions extra len i workers total).Pairwise fun a b =>
      b.length ≤ a.length ∧ a.length ≤ b.length + 1 := by
  have hlengths : ((List.range' i workers.length).map (subrouteLength extra len)).Pairwise
      fun m n => n ≤ m ∧ m ≤ n + 1 := by
    rw [List.pairwise_map]
    refine List.Pairwise.imp (fun {j k} hjk => ?_) (List.pairwise_lt_range' 1)
    unfold subrouteLength
    split <;> split <;> omega
  rw [← length_portions h hexact, List.pairwise_map] at hlengths
  exact hlengths

theorem length_portion_le (h : (workers.map Prod.fst).Nodup)
    (hexact : Exact extra len i workers.length total.length) (hp : p ∈ workers) :
    len ≤ (portion p.1 extra len i workers total).length := by
  have hmem : (portion p.1 extra len i workers total).length ∈
      (List.range' i workers.length).map (subrouteLength extra len) := by
    rw [← length_portions h hexact]
    exact List.mem_map_of_mem (List.mem_map_of_mem hp)
  obtain ⟨j, _, hj⟩ := List.mem_map.mp hmem
  rw [← hj, subrouteLength]
  split <;> omega

end Portions

/-! ## Queues -/

/-- No location of the route is closer. -/
def IsClosest (g : Geo K) (location : Location K) (route : List (Location K)) (closest : Location K) : Prop :=
  closest ∈ route ∧ ∀ loc ∈ route, g.distance location closest ≤ g.distance location loc

theorem findClosestLocation_eq (g : Geo K) (location : Location K) (route : List (Location K)) :
    findClosestLocation g (some location) route = route.argmin (g.distance location) := by
  cases route with
  | nil => rfl
  | cons first route =>
    rw [findClosestLocation, List.argmin, List.foldl_cons]
    show some _ = route.foldl _ (some first)
    induction route using List.reverseRecOn with
    | nil => rfl
    | append_singleton route loc ih =>
      rw [List.foldl_append, List.foldl_append, ← ih]
      show some (if _ then loc else _) = if _ then some loc else some _
      split <;> rfl

/-- The queue of a worker whose old queue was `old` goes on with its new subroute. -/
def Resumes (g : Geo K) (old subroute queue : List (Location K)) : Prop :=
  match old.head? with
  | none => queue = subroute
  | some location => ∃ before closest after, subroute = before ++ closest :: after ∧
      queue = closest :: after ∧ IsClosest g location subroute closest ∧
      ∀ loc ∈ before, ¬IsClosest g location subroute loc

theorem resumes_replaceSubroute (entry : RoutePoolEntry K) {subroute : List (Location K)}
    (hne : subroute ≠ []) : Resumes g entry.queue subroute (entry.replaceSubroute g subroute).queue := by
  unfold Resumes RoutePoolEntry.replaceSubroute
  cases hhead : entry.queue.head? with
  | none => rfl
  | some location =>
    obtain ⟨closest, hclosest⟩ : ∃ closest, subroute.argmin (g.distance location) = some closest :=
      Option.ne_none_iff_exists'.mp fun hnone => hne (List.argmin_eq_none.mp hnone)
    have hmem := List.argmin_mem hclosest
    have hleast : ∀ loc ∈ subroute, g.distance location closest ≤ g.distance location loc :=
      fun loc hloc => List.le_of_mem_argmin hloc hclosest
    obtain ⟨before, after, hsplit, hbefore⟩ := List.eq_append_cons_of_mem hmem
    rw [← findClosestLocation_eq] at hclosest
    refine ⟨before, closest, after, hsplit, ?_, ⟨hmem, hleast⟩, ?_⟩
    · rw [hclosest, hsplit]
      show (before ++ closest :: after).dropWhile (fun loc => decide (loc ≠ closest)) = closest :: after
      rw [List.dropWhile_append_of_pos]
      · simp
      · intro loc hloc
        exact decide_eq_true fun heq => hbefore (heq ▸ hloc)
    · -- `argmin` is the first of the closest ones.
      rintro loc hloc ⟨_, hloc_least⟩
      rw [findClosestLocation_eq] at hclosest
      have hindex := List.index_of_argmin hclosest (a := loc) (by rw [hsplit]; exact List.mem_append_left _ hloc)
        (hloc_least closest hmem)
      rw [hsplit, List.idxOf_append_of_notMem hbefore, List.idxOf_append_of_mem hloc] at hindex
      have hlt := List.idxOf_lt_length_of_mem hloc
      omega

theorem Resumes.suffix {old subroute queue : List (Location K)} (h : Resumes g old subroute queue) :
    queue <:+ subroute := by
  unfold Resumes at h
  split at h
  · exact h ▸ List.suffix_rfl
  · obtain ⟨before, closest, after, hsubroute, hqueue, _⟩ := h
    exact ⟨before, by rw [hqueue, hsubroute]⟩

theorem Resumes.ne_nil {old subroute queue : List (Location K)} (h : Resumes g old subroute queue)
    (hne : subroute ≠ []) : queue ≠ [] := by
  unfold Resumes at h
  split at h
  · rwa [h]
  · obtain ⟨before, closest, after, _, hqueue, _⟩ := h
    rw [hqueue]
    exact List.cons_ne_nil _ _

/-! ## The distribution -/

/-- The subroutes of a routepool, that of the oldest worker first. -/
def subroutes (pool : Routepool K) : List (List (Location K)) :=
  (sortedRoutepools pool).filterMap fun p => (pool.get? p.1).map RoutePoolEntry.subroute

/-- `coords` is distributed among the oldest workers of `pool`, those of `pool'`. -/
structure Distributed (g : Geo K) (coords : List (Location K)) (pool pool' : Routepool K) : Prop where
  workers : pool'.keys.length = min pool.keys.length coords.length
  entries : ∀ o entry', pool'.get? o = some entry' →
    ∃ entry, pool.get? o = some entry ∧ entry'.timeAdded = entry.timeAdded
  oldest : ∀ o entry', pool'.get? o = some entry' → ∀ u entry, pool.get? u = some entry →
    pool'.get? u = none → entry'.timeAdded < entry.timeAdded
  flatten : (subroutes pool').flatten = coords
  balanced : (subroutes pool').Pairwise fun a b => b.length ≤ a.length ∧ a.length ≤ b.length + 1
  queues : ∀ o entry entry', pool.get? o = some entry → pool'.get? o = some entry' →
    entry'.queue ≠ [] ∧ entry'.queue <:+ entry'.subroute ∧ Resumes g entry.queue entry'.subroute entry'.queue

omit [LinearOrder K] in
/-- The workers that are left out were added later. -/
theorem time_lt_of_take {pool : Routepool K} {n : Nat} {p q : Origin × ℚ}
    (hdistinct : (pool.items.map fun i => i.2.timeAdded).Nodup)
    (hp : p ∈ (sortedRoutepools pool).take n) (hq : q ∈ sortedRoutepools pool)
    (hout : q ∉ (sortedRoutepools pool).take n) : p.2 < q.2 := by
  have htimes : ((sortedRoutepools pool).map Prod.snd).Nodup := by
    have hperm := (sortedRoutepools_perm pool).map Prod.snd
    refine hperm.nodup_iff.mpr ?_
    rw [addedTimes, List.map_map]
    exact hdistinct
  have hlt : (sortedRoutepools pool).Pairwise fun a b => a.2 < b.2 := by
    rw [List.Nodup, List.pairwise_map] at htimes
    exact (sortedByTime_pairwise (addedTimes pool)).imp₂ (fun _ _ hle hne => lt_of_le_of_ne hle hne) htimes
  rw [← List.take_append_drop n (sortedRoutepools pool), List.pairwise_append] at hlt
  refine hlt.2.2 p hp q ?_
  rw [← List.take_append_drop n (sortedRoutepools pool), List.mem_append] at hq
  exact hq.resolve_left hout

theorem subroutes_eq {coords : List (Location K)} {workers : List (Origin × ℚ)} {pool pool' : Routepool K}
    (h : Divided g coords workers pool pool') (hworkers : ∀ p ∈ workers, p.1 ∈ pool.keys) :
    subroutes pool' =
      portions (coords.length % workers.length) (coords.length / workers.length) 0 workers coords := by
  have hsome : ∀ p ∈ workers, (pool'.get? p.1).map RoutePoolEntry.subroute =
      some (subrouteOf coords workers p.1) := by
    intro p hp
    obtain ⟨entry, hentry⟩ := Dict.mem_keys_iff.mp (hworkers p hp)
    rw [h.get?, if_pos (List.mem_map_of_mem hp), hentry]
    rfl
  rw [subroutes, h.sorted, List.filterMap_congr hsome, List.filterMap_eq_map']
  rfl

theorem Divided.distributed {coords : List (Location K)} {pool pool' : Routepool K}
    (h : Divided g coords ((sortedRoutepools pool).take coords.length) pool pool')
    (hne : (sortedRoutepools pool).take coords.length ≠ [])
    (hdistinct : (pool.items.map fun i => i.2.timeAdded).Nodup) : Distributed g coords pool pool' := by
  have hlength := sortedRoutepools_length pool
  generalize hworkers : (sortedRoutepools pool).take coords.length = workers at h hne
  have hsub : workers.Sublist (sortedRoutepools pool) := hworkers ▸ List.take_sublist _ _
  have hnodup : (workers.map Prod.fst).Nodup := (hsub.map Prod.fst).nodup (sortedRoutepools_nodup pool)
  have hkeys : ∀ p ∈ workers, p.1 ∈ pool.keys := fun p hp =>
    mem_sortedRoutepools_keys.mp (List.mem_map_of_mem (hsub.subset hp))
  have hpos : 0 < workers.length := List.length_pos_of_ne_nil hne
  have hexact : Exact (coords.length % workers.length) (coords.length / workers.length) 0 workers.length
      coords.length := by
    have hlt := Nat.mod_lt coords.length hpos
    have hdiv := Nat.div_add_mod coords.length workers.length
    rw [Exact, Nat.sub_zero, Nat.min_eq_right hlt.le]
    exact hdiv.symm
  have hentry : ∀ {o : Origin} {entry' : RoutePoolEntry K}, pool'.get? o = some entry' →
      o ∈ workers.map Prod.fst ∧ ∃ entry, pool.get? o = some entry ∧
        entry.replaceSubroute g (subrouteOf coords workers o) = entry' := by
    intro o entry' ho
    rw [h.get?] at ho
    split at ho
    · next hmem => exact ⟨hmem, Option.map_eq_some_iff.mp ho⟩
    · cases ho
  refine ⟨?_, ?_, ?_, ?_, ?_, ?_⟩
  · have hsorted := sortedRoutepools_length pool'
    rw [h.sorted, ← hworkers, List.length_take, hlength] at hsorted
    rw [Dict.keys, List.length_map, Dict.keys, List.length_map, ← hsorted, Nat.min_comm]
  · intro o entry' ho
    obtain ⟨_, entry, hget, rfl⟩ := hentry ho
    exact ⟨entry, hget, rfl⟩
  · intro o entry' ho u entry hu hout
    obtain ⟨hmem, entry₀, hget, rfl⟩ := hentry ho
    obtain ⟨p, hp, rfl⟩ := List.mem_map.mp hmem
    have hp_sorted := mem_sortedRoutepools.mp (hsub.subset hp)
    rw [hget] at hp_sorted
    obtain ⟨_, hsome, htime⟩ := hp_sorted
    cases hsome
    have hu_out : (u, entry.timeAdded) ∉ workers := by
      intro hu_mem
      rw [h.get?, if_pos (List.mem_map_of_mem hu_mem), hu] at hout
      cases hout
    subst hworkers
    have hlt := time_lt_of_take hdistinct hp (mem_sortedRoutepools.mpr ⟨entry, hu, rfl⟩) hu_out
    exact htime.trans_lt hlt
  · rw [subroutes_eq h hkeys]
    exact flatten_portions hnodup hexact
  · rw [subroutes_eq h hkeys]
    exact portions_pairwise hnodup hexact
  · intro o entry entry' ho ho'
    obtain ⟨hmem, entry₀, hget, rfl⟩ := hentry ho'
    rw [ho] at hget
    cases hget
    obtain ⟨p, hp, rfl⟩ := List.mem_map.mp hmem
    have hsubroute : subrouteOf coords workers p.1 ≠ [] := by
      have hle := length_portion_le hnodup hexact hp
      have hworkers_le : workers.length ≤ coords.length := by
        rw [← hworkers, List.length_take]
        exact Nat.min_le_left _ _
      have hdiv := Nat.div_pos hworkers_le hpos
      exact List.ne_nil_of_length_pos (hdiv.trans_le hle)
    have hresumes := resumes_replaceSubroute (g := g) entry hsubroute
    exact ⟨hresumes.ne_nil hsubroute, hresumes.suffix, hresumes⟩

/-- What an update makes of a routepool whose workers were added one after another. -/
theorem subroutes_distributed (g : Geo K) (s : State K) (pool : Routepool K)
    (hdistinct : (pool.items.map fun i => i.2.timeAdded).Nodup) :
    (updatedRoutepool g s.coordsToUse pool = none ↔ pool.keys = [] ∨ s.coordsToUse = []) ∧
      ∀ pool', updatedRoutepool g s.coordsToUse pool = some pool' → Distributed g s.coordsToUse pool pool' := by
  have hupdates := updates_updatedRoutepool g s.coordsToUse pool
  have hnil : (sortedRoutepools pool).take s.coordsToUse.length = [] ↔ pool.keys = [] ∨ s.coordsToUse = [] := by
    rw [List.take_eq_nil_iff, List.length_eq_zero_iff, Or.comm]
    have hlength := sortedRoutepools_length pool
    have hkeys : pool.keys.length = pool.items.length := List.length_map _
    rw [← List.length_eq_zero_iff, hlength, ← hkeys, List.length_eq_zero_iff]
  cases h : updatedRoutepool g s.coordsToUse pool with
  | none =>
    rw [h] at hupdates
    exact ⟨iff_of_true rfl (hnil.mp hupdates), fun _ hpool' => nomatch hpool'⟩
  | some pool' =>
    rw [h] at hupdates
    obtain ⟨hne, hdivided⟩ := hupdates
    refine ⟨iff_of_false (Option.some_ne_none pool') fun hempty => hne (hnil.mpr hempty), ?_⟩
    rintro _ ⟨⟩
    exact hdivided.distributed hne hdistinct

/-- Three stops, one of which is ignored. -/
def threeStops : State ℚ where
  heap _ := ⟨[], 0, [], 0, ⟨0, 0⟩, none, .normal⟩
  next := 0
  routepool := Dict.empty
  route := [⟨0, 0⟩, ⟨0, 1⟩, ⟨0, 2⟩]
  currentRouteRoundCoords := [⟨0, 0⟩, ⟨0, 1⟩, ⟨0, 2⟩]
  coordsToBeIgnored := [⟨0, 1⟩]
  stoplist := []
  workersRegistered := ["a", "b", "c"]
  workerStartPosition := Dict.empty
  roundcount := 0
  updating := none
  calls _ := .returned none
  time := 5

/-- Three workers, the first of which came last. -/
def threeWorkers : Routepool ℚ where
  items := [("a", ⟨[], 3, [], 0, ⟨0, 0⟩, none, .normal⟩), ("b", ⟨[⟨0, 2⟩], 1, [⟨0, 2⟩], 0, ⟨0, 0⟩, none, .normal⟩),
    ("c", ⟨[], 2, [], 0, ⟨0, 0⟩, none, .normal⟩)]
  nodup := by decide

theorem two_of_three_workers : ∃ pool', updatedRoutepool plane threeStops.coordsToUse threeWorkers = some pool' ∧
    Distributed plane [⟨0, 0⟩, ⟨0, 2⟩] threeWorkers pool' := by
  have hcoords : threeStops.coordsToUse = [⟨0, 0⟩, ⟨0, 2⟩] := by decide
  obtain ⟨hnone, hsome⟩ := subroutes_distributed plane threeStops threeWorkers (by decide)
  obtain ⟨pool', hpool'⟩ := Option.ne_none_iff_exists'.mp (mt hnone.mp (by decide))
  exact ⟨pool', hpool', hcoords ▸ hsome pool' hpool'⟩

end MapADroid.Route
