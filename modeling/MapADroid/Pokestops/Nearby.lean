import MapADroid.Pokestops.PokestopHelper

/- The search for stops nearby, in a growing range and then from the middle of the fence.

   The limit is set before the fence is looked at, and what an iteration has found is
   dropped by the next. Up to seven iterations search from the start, and as long as there
   are fewer rows than the limit they see what those before them saw and more
   (`nearbyRows_prefix`). If none of them finds as many stops as the limit, what the last
   three find around the middle is all there is, however near a stop was to the start
   (`nearby_found_iff`). -/
namespace MapADroid.Pokestops
open Lib Lib.Sql Geofence

variable {K : Type} [Field K] [LinearOrder K]

/-- The stop is inside of the fence and, where spun stops are ignored, not visited by the user. -/
def Wanted (fence : GeofenceHelper K) (path : List (Coord K) → Coord K → Bool) (request : Request)
    (visited : List TrsVisited) (stop : Pokestop K) : Prop :=
  fence.Inside path stop.coord ∧ (request.ignoreSpun = true →
    ∀ visit ∈ visited, ¬ (stop.pokestopId = visit.pokestopId ∧ visit.username = request.username))

/-- The search ends and returns at most `limit` stops, all of them wanted, in the order of their distance to the
location that was searched from last, and one at least if a wanted stop is as near as `maxDistance`. -/
def NearbyFound (fence : GeofenceHelper K) (path : List (Coord K) → Coord K → Bool) (sqrt : K → K) (request : Request)
    (stops : List (Pokestop K)) (visited : List TrsVisited) (location : Location K) (maxDistance : K) : Prop :=
  ∃ searches s last,
    Search.run fence path sqrt request stops visited ⟨0, [], location, maxDistance⟩ = some (searches ++ [s, last]) ∧
    getNearbyIncreasingRangeWithinArea fence path sqrt request stops visited location maxDistance =
      some last.stopsRetrieved ∧
    last.stopsRetrieved.length ≤ request.limit ∧
    (∀ stop ∈ last.stopsRetrieved, stop ∈ stops ∧ Wanted fence path request visited stop) ∧
    last.stopsRetrieved.Pairwise (fun a b => distance sqrt s.location a ≤ distance sqrt s.location b) ∧
    ((∃ stop ∈ stops, Wanted fence path request visited stop ∧ distance sqrt location stop ≤ maxDistance) →
      last.stopsRetrieved ≠ [])

/-- No look at one of the stops raises. -/
def Looks (fence : GeofenceHelper K) (path : List (Coord K) → Coord K → Bool) (rows : List (Pokestop K)) : Prop :=
  ∀ stop ∈ rows, (fence.isCoordInsideIncludeGeofence path .row stop.coord).isSome

variable {fence : GeofenceHelper K} {path : List (Coord K) → Coord K → Bool} {sqrt : K → K} {request : Request}
  {stops : List (Pokestop K)} {visited : List TrsVisited} {location : Location K} {bound bound' : K}

/-! ## One query -/

/-- The rows of the query but for the distance. -/
def candidates (fence : GeofenceHelper K) (request : Request) (stops : List (Pokestop K)) (visited : List TrsVisited) :
    List (Pokestop K × Option TrsVisited) :=
  select (fun row =>
      if request.ignoreSpun then (isNull (row.2.map TrsVisited.username)).and (inBox fence.getPolygonFromFence row.1)
      else inBox fence.getPolygonFromFence row.1)
    (join true (fun stop visit => some (stop.pokestopId = visit.pokestopId ∧ visit.username = request.username))
      stops visited)

theorem nearbyRows_eq (hlimit : 0 < request.limit) :
    nearbyRows fence sqrt request stops visited location bound =
      ((selectNearest (fun row => distance sqrt location row.1) bound
        (candidates fence request stops visited)).take request.limit).map Prod.fst := by
  unfold nearbyRows selectNearest candidates select
  simp only [if_pos hlimit, List.filter_filter]
  congr 4
  funext row
  cases request.ignoreSpun with
  | false => simp [and_comm]
  | true => simp [and_comm, Bool.and_left_comm]

theorem nearbyRows_length (hlimit : 0 < request.limit) :
    (nearbyRows fence sqrt request stops visited location bound).length ≤ request.limit := by
  rw [nearbyRows_eq hlimit, List.length_map]
  exact List.length_take_le _ _

/-- Up to a greater distance the same rows come first. -/
theorem nearbyRows_prefix (hlimit : 0 < request.limit) (h : bound ≤ bound') :
    nearbyRows fence sqrt request stops visited location bound <+:
      nearbyRows fence sqrt request stops visited location bound' := by
  rw [nearbyRows_eq hlimit, nearbyRows_eq hlimit]
  exact (take_selectNearest_grows h request.limit).map Prod.fst

/-- As many rows as the limit are those up to any greater distance. -/
theorem nearbyRows_full (hlimit : 0 < request.limit) (h : bound ≤ bound')
    (hfull : (nearbyRows fence sqrt request stops visited location bound).length = request.limit) :
    nearbyRows fence sqrt request stops visited location bound =
      nearbyRows fence sqrt request stops visited location bound' := by
  rw [nearbyRows_eq hlimit] at hfull ⊢
  rw [nearbyRows_eq hlimit]
  rw [List.length_map] at hfull
  rw [take_selectNearest_eq h hfull]

theorem pairwise_nearbyRows (hlimit : 0 < request.limit) :
    (nearbyRows fence sqrt request stops visited location bound).Pairwise fun a b =>
      distance sqrt location a ≤ distance sqrt location b := by
  rw [nearbyRows_eq hlimit, List.pairwise_map]
  exact (pairwise_orderBy _).sublist (List.take_sublist _ _)

/-- The rows are stops, and not visited where spun stops are ignored. -/
theorem mem_nearbyRows (hlimit : 0 < request.limit) {stop : Pokestop K}
    (h : stop ∈ nearbyRows fence sqrt request stops visited location bound) :
    stop ∈ stops ∧ (request.ignoreSpun = true →
      ∀ visit ∈ visited, ¬ (stop.pokestopId = visit.pokestopId ∧ visit.username = request.username)) := by
  rw [nearbyRows_eq hlimit] at h
  obtain ⟨row, hrow, rfl⟩ := List.mem_map.mp h
  have hcandidate : row ∈ candidates fence request stops visited :=
    (List.mem_filter.mp (mem_orderBy.mp (List.mem_of_mem_take hrow))).1
  obtain ⟨hjoin, hcondition⟩ := mem_select.mp hcandidate
  obtain ⟨hstop, hvisit⟩ := mem_join.mp hjoin
  refine ⟨hstop, fun hignore visit hmem hon => ?_⟩
  rw [if_pos hignore, Truth.and_eq_true, isNull_eq_true, Option.map_eq_none_iff] at hcondition
  rcases hvisit with ⟨other, _, _, hother⟩ | ⟨_, hnone, _⟩
  · rw [hcondition.1] at hother
    cases hother
  · exact hnone visit hmem (by simpa using hon)

/-! ## One iteration -/

theorem keepInside_eq (rows : List (Pokestop K)) (h : Looks fence path rows) :
    keepInside fence path rows =
      some (rows.filter fun stop => fence.isCoordInsideIncludeGeofence path .row stop.coord = some true) := by
  induction rows with
  | nil => rfl
  | cons stop rows ih =>
    obtain ⟨inside, hinside⟩ := Option.isSome_iff_exists.mp (h stop List.mem_cons_self)
    have hrest := ih fun other hother => h other (List.mem_cons_of_mem stop hother)
    cases inside with
    | true => simp [keepInside, hinside, hrest]
    | false => simp [keepInside, hinside, hrest]

theorem keepInside_none (rows : List (Pokestop K)) (h : ¬ Looks fence path rows) :
    keepInside fence path rows = none := by
  induction rows with
  | nil => exact absurd (by simp [Looks]) h
  | cons stop rows ih =>
    cases hinside : fence.isCoordInsideIncludeGeofence path .row stop.coord with
    | none => simp [keepInside, hinside]
    | some inside =>
      have hrest : ¬ Looks fence path rows := fun hrest =>
        h (List.forall_mem_cons.mpr ⟨by rw [hinside]; rfl, hrest⟩)
      simp [keepInside, hinside, ih hrest]

/-- The rows that are inside of the fence. -/
def kept (fence : GeofenceHelper K) (path : List (Coord K) → Coord K → Bool) (rows : List (Pokestop K)) :
    List (Pokestop K) :=
  rows.filter fun stop => fence.isCoordInsideIncludeGeofence path .row stop.coord = some true

theorem mem_kept {rows : List (Pokestop K)} (h : Looks fence path rows) {stop : Pokestop K} :
    stop ∈ kept fence path rows ↔ stop ∈ rows ∧ fence.Inside path stop.coord := by
  rw [kept, List.mem_filter, decide_eq_true_eq]
  constructor
  · exact fun hin => ⟨hin.1, isCoordInsideIncludeGeofence_rows hin.2⟩
  · rintro ⟨hrow, hinside⟩
    obtain ⟨inside, hlook⟩ := Option.isSome_iff_exists.mp (h stop hrow)
    have hsame := isCoordInsideIncludeGeofence_rows hlook
    rw [GeofenceHelper.Inside, hsame] at hinside
    exact ⟨hrow, hlook.trans hinside⟩

theorem kept_length_le (rows : List (Pokestop K)) : (kept fence path rows).length ≤ rows.length :=
  List.length_filter_le _ _

/-- All rows are kept exactly if all are inside. -/
theorem kept_eq_self {rows : List (Pokestop K)} (h : Looks fence path rows) :
    (kept fence path rows).length = rows.length ↔ ∀ stop ∈ rows, fence.Inside path stop.coord := by
  rw [kept, List.length_filter_eq_length_iff]
  constructor
  · exact fun hall stop hstop => ((mem_kept h).mp (List.mem_filter.mpr ⟨hstop, hall stop hstop⟩)).2
  · exact fun hall stop hstop => (List.mem_filter.mp ((mem_kept h).mpr ⟨hstop, hall stop hstop⟩)).2

/-- What an iteration leads to, if no look raises. -/
theorem next_eq (hlimit : 0 < request.limit) (s : Search K)
    (h : Looks fence path (nearbyRows fence sqrt request stops visited s.location s.maxDistance)) :
    s.next fence path sqrt request stops visited = some
      { iteration := s.iteration + 1
        stopsRetrieved := kept fence path (nearbyRows fence sqrt request stops visited s.location s.maxDistance)
        location := if 7 ≤ s.iteration + 1 then fence.getMiddleFromFence else s.location
        maxDistance := if 7 ≤ s.iteration + 1 then s.maxDistance else s.maxDistance + 3 } := by
  have hlength : (kept fence path (nearbyRows fence sqrt request stops visited s.location s.maxDistance)).length ≤
      request.limit := (kept_length_le _).trans (nearbyRows_length hlimit)
  unfold Search.next
  rw [keepInside_eq _ h]
  show (if _ then _ else _) = _
  rw [if_pos (.inr ⟨hlimit, hlength⟩)]
  split
  · rfl
  · rfl

theorem next_none (s : Search K)
    (h : ¬ Looks fence path (nearbyRows fence sqrt request stops visited s.location s.maxDistance)) :
    s.next fence path sqrt request stops visited = none := by
  unfold Search.next
  rw [keepInside_none _ h]
  rfl

/-! ## Runs -/

theorem run_step {s next : Search K} (hgoes : s.GoesOn request)
    (hnext : s.next fence path sqrt request stops visited = some next) :
    Search.run fence path sqrt request stops visited s =
      (Search.run fence path sqrt request stops visited next).map (s :: ·) := by
  rw [Search.run, dif_pos hgoes]
  split
  · next hnone =>
    rw [hnext] at hnone
    cases hnone
  · next other hsome =>
    rw [hnext] at hsome
    rw [Option.some.inj hsome]

theorem run_none {s : Search K} (hgoes : s.GoesOn request)
    (hnext : s.next fence path sqrt request stops visited = none) :
    Search.run fence path sqrt request stops visited s = none := by
  rw [Search.run, dif_pos hgoes]
  split
  · rfl
  · next other hsome =>
    rw [hnext] at hsome
    cases hsome

theorem run_end {s : Search K} (hends : ¬ s.GoesOn request) :
    Search.run fence path sqrt request stops visited s = some [s] := by
  rw [Search.run, dif_neg hends]

/-- A search that ends has its last iteration from `s` to `last`. -/
def Ends (fence : GeofenceHelper K) (path : List (Coord K) → Coord K → Bool) (sqrt : K → K) (request : Request)
    (stops : List (Pokestop K)) (visited : List TrsVisited) (first s last : Search K) : Prop :=
  ∃ searches, Search.run fence path sqrt request stops visited first = some (searches ++ [s, last])

theorem Ends.step {first next s last : Search K} (hgoes : first.GoesOn request)
    (hnext : first.next fence path sqrt request stops visited = some next)
    (h : Ends fence path sqrt request stops visited next s last) :
    Ends fence path sqrt request stops visited first s last := by
  obtain ⟨searches, hrun⟩ := h
  exact ⟨first :: searches, by rw [run_step hgoes hnext, hrun]; rfl⟩

theorem Ends.final {s last : Search K} (hgoes : s.GoesOn request)
    (hnext : s.next fence path sqrt request stops visited = some last) (hends : ¬ last.GoesOn request) :
    Ends fence path sqrt request stops visited s s last :=
  ⟨[], by rw [run_step hgoes hnext, run_end hends]; rfl⟩

/-! ## Searching from the middle of the fence -/

/-- With `n` iterations to go from the middle. -/
structure FromMiddle (fence : GeofenceHelper K) (request : Request) (bound : K) (n : Nat) (s : Search K) : Prop where
  location : s.location = fence.getMiddleFromFence
  maxDistance : s.maxDistance = bound
  iteration : s.iteration + n = 10
  late : 7 ≤ s.iteration
  fewer : s.stopsRetrieved.length < request.limit

variable {s : Search K} {n : Nat}

theorem FromMiddle.goesOn (h : FromMiddle fence request bound (n + 1) s) : s.GoesOn request := by
  have hfewer := h.fewer
  have hiteration := h.iteration
  exact ⟨⟨by omega, hfewer⟩, by omega⟩

theorem FromMiddle.raises (h : FromMiddle fence request bound (n + 1) s)
    (hlooks : ¬ Looks fence path (nearbyRows fence sqrt request stops visited fence.getMiddleFromFence bound)) :
    Search.run fence path sqrt request stops visited s = none := by
  apply run_none h.goesOn
  apply next_none
  rwa [h.location, h.maxDistance]

/-- The last iteration has kept the rows around the middle. -/
theorem FromMiddle.ends (hlimit : 0 < request.limit) (h : FromMiddle fence request bound (n + 1) s)
    (hlooks : Looks fence path (nearbyRows fence sqrt request stops visited fence.getMiddleFromFence bound)) :
    ∃ from' last, Ends fence path sqrt request stops visited s from' last ∧
      from'.location = fence.getMiddleFromFence ∧
      last.stopsRetrieved =
        kept fence path (nearbyRows fence sqrt request stops visited fence.getMiddleFromFence bound) := by
  induction n generalizing s with
  | zero =>
    have hiteration := h.iteration
    refine ⟨s, _, .final h.goesOn (next_eq hlimit s (by rwa [h.location, h.maxDistance])) ?_, h.location, ?_⟩
    · rintro ⟨_, hten⟩
      simp only at hten
      omega
    · simp only [h.location, h.maxDistance]
  | succ n ih =>
    have hlate := h.late
    have hiteration := h.iteration
    have hseven : 7 ≤ s.iteration + 1 := by omega
    have hnext : s.next fence path sqrt request stops visited = some _ :=
      next_eq hlimit s (by rwa [h.location, h.maxDistance])
    simp only [if_pos hseven, h.location, h.maxDistance] at hnext
    by_cases hfewer : (kept fence path
        (nearbyRows fence sqrt request stops visited fence.getMiddleFromFence bound)).length < request.limit
    · obtain ⟨from', last, hends, hlocation, hkept⟩ := ih (s := ⟨s.iteration + 1, _, _, _⟩)
        ⟨rfl, rfl, by simp only; omega, by simp only; omega, hfewer⟩
      exact ⟨from', last, .step h.goesOn hnext hends, hlocation, hkept⟩
    · refine ⟨s, _, .final h.goesOn hnext ?_, h.location, rfl⟩
      exact fun hgoes => hfewer hgoes.1.2

/-! ## Searching from the start -/

section
variable [IsStrictOrderedRing K]

/-- With `n` more iterations to go from the start before the one with the greatest distance. -/
structure FromStart (location : Location K) (request : Request) (bound : K) (n : Nat) (s : Search K) : Prop where
  location : s.location = location
  maxDistance : s.maxDistance + 3 * n = bound
  iteration : s.iteration + n = 6
  fewer : s.stopsRetrieved.length < request.limit

omit [LinearOrder K] [IsStrictOrderedRing K] in
theorem FromStart.goesOn (h : FromStart location request bound n s) : s.GoesOn request := by
  have hfewer := h.fewer
  have hiteration := h.iteration
  exact ⟨⟨by omega, hfewer⟩, by omega⟩

theorem FromStart.le (h : FromStart location request bound n s) : s.maxDistance ≤ bound := by
  have hn : (0 : K) ≤ n := Nat.cast_nonneg n
  have hdistance := h.maxDistance
  linarith

/-- The rows of an iteration from the start are the first of those of the last. -/
theorem FromStart.rows (hlimit : 0 < request.limit) (h : FromStart location request bound n s) :
    nearbyRows fence sqrt request stops visited s.location s.maxDistance <+:
      nearbyRows fence sqrt request stops visited location bound := by
  rw [h.location]
  exact nearbyRows_prefix hlimit h.le

/-- An iteration from the start that keeps as many as the limit has seen the rows of the last. -/
theorem FromStart.rows_full (hlimit : 0 < request.limit) (h : FromStart location request bound n s)
    (hfull : request.limit ≤
      (kept fence path (nearbyRows fence sqrt request stops visited s.location s.maxDistance)).length) :
    nearbyRows fence sqrt request stops visited s.location s.maxDistance =
      nearbyRows fence sqrt request stops visited location bound := by
  have hlength := hfull.trans (kept_length_le _)
  rw [h.location] at hlength ⊢
  exact nearbyRows_full hlimit h.le (le_antisymm (nearbyRows_length hlimit) hlength)

/-- The next iteration, if this one has kept fewer than the limit. -/
theorem FromStart.next (hlimit : 0 < request.limit) (h : FromStart location request bound (n + 1) s)
    (hlooks : Looks fence path (nearbyRows fence sqrt request stops visited s.location s.maxDistance)) :
    ∃ next, s.next fence path sqrt request stops visited = some next ∧
      next.stopsRetrieved =
        kept fence path (nearbyRows fence sqrt request stops visited s.location s.maxDistance) ∧
      (next.stopsRetrieved.length < request.limit → FromStart location request bound n next) := by
  have hiteration := h.iteration
  have hseven : ¬ 7 ≤ s.iteration + 1 := by omega
  have hnext : s.next fence path sqrt request stops visited = some _ := next_eq hlimit s hlooks
  simp only [if_neg hseven] at hnext
  refine ⟨_, hnext, rfl, fun hfewer => ⟨h.location, ?_, by simp only; omega, hfewer⟩⟩
  have hdistance := h.maxDistance
  push_cast at hdistance
  simp only
  linarith

omit [IsStrictOrderedRing K] in
/-- The iteration with the greatest distance. -/
theorem FromStart.last (hlimit : 0 < request.limit) (h : FromStart location request bound 0 s)
    (hlooks : Looks fence path (nearbyRows fence sqrt request stops visited location bound)) :
    s.next fence path sqrt request stops visited =
      some ⟨7, kept fence path (nearbyRows fence sqrt request stops visited location bound),
        fence.getMiddleFromFence, bound⟩ := by
  have hbound : s.maxDistance = bound := by simpa using h.maxDistance
  have hiteration : s.iteration = 6 := h.iteration
  have hnext : s.next fence path sqrt request stops visited = some _ :=
    next_eq hlimit s (by rwa [h.location, hbound])
  simpa only [hiteration, h.location, hbound, le_refl, Nat.reduceAdd, if_true] using hnext

/-- Where all the nearest rows are inside, an iteration from the start returns them. -/
theorem FromStart.ends (hlimit : 0 < request.limit) (h : FromStart location request bound n s)
    (hlooks : Looks fence path (nearbyRows fence sqrt request stops visited location bound))
    (hfull : request.limit ≤ (kept fence path (nearbyRows fence sqrt request stops visited location bound)).length) :
    ∃ from' last, Ends fence path sqrt request stops visited s from' last ∧ from'.location = location ∧
      last.stopsRetrieved = kept fence path (nearbyRows fence sqrt request stops visited location bound) := by
  induction n generalizing s with
  | zero =>
    refine ⟨s, _, .final h.goesOn (h.last hlimit hlooks) ?_, h.location, rfl⟩
    exact fun hgoes => absurd hgoes.1.2 (not_lt.mpr hfull)
  | succ n ih =>
    have hfirst : Looks fence path (nearbyRows fence sqrt request stops visited s.location s.maxDistance) :=
      fun stop hstop => hlooks stop ((h.rows hlimit).subset hstop)
    obtain ⟨next, hnext, hkept, hrest⟩ := h.next hlimit hfirst
    by_cases hfewer : next.stopsRetrieved.length < request.limit
    · obtain ⟨from', last, hends, hlocation, hlast⟩ := ih (hrest hfewer)
      exact ⟨from', last, .step h.goesOn hnext hends, hlocation, hlast⟩
    · refine ⟨s, next, .final h.goesOn hnext fun hgoes => hfewer hgoes.1.2, h.location, ?_⟩
      rw [hkept, h.rows_full hlimit (by rw [← hkept]; exact not_lt.mp hfewer)]

/-- Where a look at one of the nearest rows raises, so does the search. -/
theorem FromStart.raises (hlimit : 0 < request.limit) (h : FromStart location request bound n s)
    (hlooks : ¬ Looks fence path (nearbyRows fence sqrt request stops visited location bound)) :
    Search.run fence path sqrt request stops visited s = none := by
  induction n generalizing s with
  | zero =>
    apply run_none h.goesOn
    apply next_none
    have hbound : s.maxDistance = bound := by simpa using h.maxDistance
    rwa [h.location, hbound]
  | succ n ih =>
    by_cases hfirst : Looks fence path (nearbyRows fence sqrt request stops visited s.location s.maxDistance)
    · obtain ⟨next, hnext, hkept, hrest⟩ := h.next hlimit hfirst
      -- With as many rows as the limit, these would be the nearest ones, which raise.
      have hfewer : next.stopsRetrieved.length < request.limit := by
        by_contra hfull
        rw [hkept, not_lt] at hfull
        exact hlooks (h.rows_full hlimit hfull ▸ hfirst)
      rw [run_step h.goesOn hnext, ih (hrest hfewer)]
      rfl
    · exact run_none h.goesOn (next_none s hfirst)

/-- Where not all of the nearest rows are inside, the search goes on from the middle. -/
theorem FromStart.passes (hlimit : 0 < request.limit) (h : FromStart location request bound n s)
    (hlooks : Looks fence path (nearbyRows fence sqrt request stops visited location bound))
    (hfewer : (kept fence path (nearbyRows fence sqrt request stops visited location bound)).length < request.limit) :
    ∃ searches s', FromMiddle fence request bound 3 s' ∧
      Search.run fence path sqrt request stops visited s =
        (Search.run fence path sqrt request stops visited s').map (searches ++ ·) := by
  induction n generalizing s with
  | zero =>
    refine ⟨[s], _, ⟨rfl, rfl, rfl, le_rfl, hfewer⟩, run_step h.goesOn (h.last hlimit hlooks)⟩
  | succ n ih =>
    have hfirst : Looks fence path (nearbyRows fence sqrt request stops visited s.location s.maxDistance) :=
      fun stop hstop => hlooks stop ((h.rows hlimit).subset hstop)
    obtain ⟨next, hnext, hkept, hrest⟩ := h.next hlimit hfirst
    have hfewer' : next.stopsRetrieved.length < request.limit := by
      by_contra hfull
      rw [hkept, not_lt] at hfull
      have hsame := h.rows_full hlimit hfull
      rw [hsame] at hfull
      exact absurd hfewer (not_lt.mpr hfull)
    obtain ⟨searches, s', hmiddle, hrun⟩ := ih (hrest hfewer')
    refine ⟨s :: searches, s', hmiddle, ?_⟩
    rw [run_step h.goesOn hnext, hrun, Option.map_map]
    rfl

/-! ## What is found -/

omit [IsStrictOrderedRing K] in
/-- A search whose last iteration kept the rows around `location'` finds what it should, if one of these is inside
where a wanted stop is near. -/
theorem nearbyFound_of_ends (hlimit : 0 < request.limit) {maxDistance : K} {location' : Location K} {s last : Search K}
    (hends : Ends fence path sqrt request stops visited ⟨0, [], location, maxDistance⟩ s last)
    (hlocation : s.location = location')
    (hlooks : Looks fence path (nearbyRows fence sqrt request stops visited location' bound))
    (hlast : last.stopsRetrieved = kept fence path (nearbyRows fence sqrt request stops visited location' bound))
    (hsome : (∃ stop ∈ stops, Wanted fence path request visited stop ∧ distance sqrt location stop ≤ maxDistance) →
      ∃ stop ∈ nearbyRows fence sqrt request stops visited location' bound, fence.Inside path stop.coord) :
    NearbyFound fence path sqrt request stops visited location maxDistance := by
  obtain ⟨searches, hrun⟩ := hends
  refine ⟨searches, s, last, hrun, ?_, ?_, ?_, ?_, ?_⟩
  · unfold getNearbyIncreasingRangeWithinArea
    rw [hrun]
    simp
  · rw [hlast]
    exact (kept_length_le _).trans (nearbyRows_length hlimit)
  · intro stop hstop
    rw [hlast] at hstop
    obtain ⟨hrow, hinside⟩ := (mem_kept hlooks).mp hstop
    obtain ⟨hmem, hunvisited⟩ := mem_nearbyRows hlimit hrow
    exact ⟨hmem, hinside, hunvisited⟩
  · rw [hlast, hlocation]
    exact (pairwise_nearbyRows hlimit).sublist List.filter_sublist
  · intro hnear hempty
    obtain ⟨stop, hrow, hinside⟩ := hsome hnear
    have hmem := (mem_kept hlooks).mpr ⟨hrow, hinside⟩
    rw [← hlast, hempty] at hmem
    cases hmem

omit [LinearOrder K] [IsStrictOrderedRing K] in
theorem fromStart_zero (hlimit : 0 < request.limit) (location : Location K) (maxDistance : K) :
    FromStart location request (maxDistance + 18) 6 ⟨0, [], location, maxDistance⟩ where
  location := rfl
  maxDistance := by norm_num
  iteration := rfl
  fewer := hlimit

/-- What the search returns that goes on from the middle. -/
theorem last_of_fewer (hlimit : 0 < request.limit) {maxDistance : K} {searches : List (Search K)} {s last : Search K}
    (hlooks : Looks fence path (nearbyRows fence sqrt request stops visited location (maxDistance + 18)))
    (hfewer : (kept fence path
      (nearbyRows fence sqrt request stops visited location (maxDistance + 18))).length < request.limit)
    (hrun : Search.run fence path sqrt request stops visited ⟨0, [], location, maxDistance⟩ =
      some (searches ++ [s, last])) :
    Looks fence path
        (nearbyRows fence sqrt request stops visited fence.getMiddleFromFence (maxDistance + 18)) ∧
      last.stopsRetrieved = kept fence path
        (nearbyRows fence sqrt request stops visited fence.getMiddleFromFence (maxDistance + 18)) := by
  obtain ⟨before, s', hmiddle, hpass⟩ := (fromStart_zero hlimit location maxDistance).passes hlimit hlooks hfewer
  have hlooks' : Looks fence path
      (nearbyRows fence sqrt request stops visited fence.getMiddleFromFence (maxDistance + 18)) := by
    by_contra hnot
    rw [hpass, hmiddle.raises hnot] at hrun
    cases hrun
  obtain ⟨from', last', ⟨after, hrun'⟩, _, hkept⟩ := hmiddle.ends hlimit hlooks'
  have hlast : last' = last := by
    rw [hpass, hrun', Option.map_some, Option.some.injEq] at hrun
    have hends := congrArg List.getLast? hrun
    simpa [← List.append_assoc] using hends
  exact ⟨hlooks', hlast ▸ hkept⟩

/-- The search finds what it should exactly if no look at the rows nearest to the start raises, and either these are
as many as the limit and inside of the fence, or no look at the rows nearest to the middle of the fence raises and one
of them is inside if a wanted stop is near. -/
theorem nearby_found_iff (sqrt : K → K) (stops : List (Pokestop K)) (visited : List TrsVisited) (location : Location K)
    (maxDistance : K) (hlimit : 0 < request.limit) :
    NearbyFound fence path sqrt request stops visited location maxDistance ↔
      Looks fence path (nearbyRows fence sqrt request stops visited location (maxDistance + 18)) ∧
      ((nearbyRows fence sqrt request stops visited location (maxDistance + 18)).length = request.limit ∧
          (∀ stop ∈ nearbyRows fence sqrt request stops visited location (maxDistance + 18),
            fence.Inside path stop.coord) ∨
        Looks fence path (nearbyRows fence sqrt request stops visited fence.getMiddleFromFence (maxDistance + 18)) ∧
        ((∃ stop ∈ stops, Wanted fence path request visited stop ∧ distance sqrt location stop ≤ maxDistance) →
          ∃ stop ∈ nearbyRows fence sqrt request stops visited fence.getMiddleFromFence (maxDistance + 18),
            fence.Inside path stop.coord)) := by
  have hstart := fromStart_zero hlimit location maxDistance
  have hmost : (nearbyRows fence sqrt request stops visited location (maxDistance + 18)).length ≤ request.limit :=
    nearbyRows_length hlimit
  constructor
  · rintro ⟨searches, s, last, hrun, _, _, hwanted, _, hsome⟩
    have hlooks : Looks fence path (nearbyRows fence sqrt request stops visited location (maxDistance + 18)) := by
      by_contra hnot
      rw [hstart.raises hlimit hnot] at hrun
      cases hrun
    refine ⟨hlooks, ?_⟩
    -- What the widest range around the start keeps decides where the last iteration searched.
    by_cases hfewer : (kept fence path
        (nearbyRows fence sqrt request stops visited location (maxDistance + 18))).length < request.limit
    · right
      obtain ⟨hlooks', hkept⟩ := last_of_fewer hlimit hlooks hfewer hrun
      refine ⟨hlooks', fun hnear => ?_⟩
      have hne := hsome hnear
      rw [hkept] at hne
      obtain ⟨stop, hstop⟩ := List.exists_mem_of_ne_nil _ hne
      exact ⟨stop, (mem_kept hlooks').mp hstop⟩
    · left
      have hall : (kept fence path
          (nearbyRows fence sqrt request stops visited location (maxDistance + 18))).length =
            (nearbyRows fence sqrt request stops visited location (maxDistance + 18)).length :=
        le_antisymm (kept_length_le _) (hmost.trans (not_lt.mp hfewer))
      exact ⟨le_antisymm hmost (hall ▸ not_lt.mp hfewer), (kept_eq_self hlooks).mp hall⟩
  · rintro ⟨hlooks, hcases⟩
    by_cases hfewer : (kept fence path
        (nearbyRows fence sqrt request stops visited location (maxDistance + 18))).length < request.limit
    · -- Then not all rows are inside, so that the second condition holds.
      have hmiddle := hcases.resolve_left (by
        rintro ⟨hlength, hall⟩
        rw [(kept_eq_self hlooks).mpr hall, hlength] at hfewer
        exact lt_irrefl _ hfewer)
      obtain ⟨before, s', hfrom, hpass⟩ := hstart.passes hlimit hlooks hfewer
      obtain ⟨from', last, ⟨after, hrun⟩, hlocation, hkept⟩ := hfrom.ends hlimit hmiddle.1
      have hends : Ends fence path sqrt request stops visited ⟨0, [], location, maxDistance⟩ from' last :=
        ⟨before ++ after, by rw [hpass, hrun]; simp⟩
      exact nearbyFound_of_ends hlimit hends hlocation hmiddle.1 hkept hmiddle.2
    · -- As many as the limit: one at least, wherever the wanted stop is.
      obtain ⟨from', last, hends, hlocation, hkept⟩ := hstart.ends hlimit hlooks (not_lt.mp hfewer)
      refine nearbyFound_of_ends hlimit hends hlocation hlooks hkept fun _ => ?_
      have hne : kept fence path (nearbyRows fence sqrt request stops visited location (maxDistance + 18)) ≠ [] := by
        intro hempty
        rw [hempty] at hfewer
        exact hfewer hlimit
      obtain ⟨stop, hstop⟩ := List.exists_mem_of_ne_nil _ hne
      exact ⟨stop, (mem_kept hlooks).mp hstop⟩

end

/-! ## A stop lost on the way to the middle -/

/-- The roots of two squares. -/
def root (x : ℚ) : ℚ := if x = 0 then 0 else 6219 / 100

def parkFence : GeofenceHelper ℚ := ⟨[⟨false, ['P', 'a', 'r', 'k'], [⟨0, 0⟩, ⟨0, 2⟩, ⟨2, 2⟩, ⟨2, 0⟩]⟩], [], true⟩

def atEdge : Pokestop ℚ := ⟨"stop", 1 / 10, 1⟩

def request20 : Request := ⟨"user", 20, true⟩

/-- A stop in the middle of the fence. -/
def atMiddle : Pokestop ℚ := ⟨"fountain", 1, 1⟩

/-- With a stop in the middle it is found. -/
theorem nearby_found_iff_park :
    NearbyFound parkFence containsPoint root request20 [atEdge, atMiddle] [] ⟨1 / 10, 1⟩ 1 := by
  have hstart : nearbyRows parkFence root request20 [atEdge, atMiddle] [] ⟨1 / 10, 1⟩ (1 + 18) = [atEdge] := by
    decide +kernel
  have hmiddle : nearbyRows parkFence root request20 [atEdge, atMiddle] [] parkFence.getMiddleFromFence (1 + 18) =
      [atMiddle] := by decide +kernel
  refine (nearby_found_iff root [atEdge, atMiddle] [] ⟨1 / 10, 1⟩ 1 (by decide)).mpr ⟨?_, .inr ⟨?_, fun _ => ?_⟩⟩
  · rw [hstart]
    unfold Looks
    decide +kernel
  · rw [hmiddle]
    unfold Looks
    decide +kernel
  · rw [hmiddle]
    unfold GeofenceHelper.Inside
    decide +kernel

/-- A stop at the very place of the start is not found, since there are fewer stops than the limit and the middle of
the fence is far from them. -/
theorem nearby_lost :
    Wanted parkFence containsPoint request20 [] atEdge ∧ distance root ⟨1 / 10, 1⟩ atEdge ≤ 1 ∧
      ¬ NearbyFound parkFence containsPoint root request20 [atEdge] [] ⟨1 / 10, 1⟩ 1 := by
  have hwanted : Wanted parkFence containsPoint request20 [] atEdge := by
    refine ⟨?_, by simp⟩
    unfold GeofenceHelper.Inside
    decide +kernel
  have hdistance : distance root ⟨1 / 10, 1⟩ atEdge ≤ 1 := by decide +kernel
  have hstart : nearbyRows parkFence root request20 [atEdge] [] ⟨1 / 10, 1⟩ (1 + 18) = [atEdge] := by decide +kernel
  have hmiddle : nearbyRows parkFence root request20 [atEdge] [] parkFence.getMiddleFromFence (1 + 18) = [] := by
    decide +kernel
  refine ⟨hwanted, hdistance, ?_⟩
  rintro ⟨searches, s, last, hrun, _, _, _, _, hsome⟩
  have hlooks : Looks parkFence containsPoint [atEdge] := by
    unfold Looks
    decide +kernel
  have hkept := (last_of_fewer (by decide) (by rw [hstart]; exact hlooks) (by rw [hstart]; decide +kernel) hrun).2
  rw [hmiddle] at hkept
  exact hsome ⟨atEdge, by simp, hwanted, hdistance⟩ hkept

end MapADroid.Pokestops
