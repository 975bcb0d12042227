import MapADroid.Clustering.Circle

/- The circles are a partition of the events (`clusters_partition`).

   Every iteration of `_sum_up_relations` takes a circle around the most western event
   off the relations, so the loop is one that takes groups off a set of keys
   (`round_peels`). -/
namespace MapADroid.Clustering
open Lib

variable {K : Type} [Field K] [LinearOrder K]

namespace ClusteringHelper

variable {h : ClusteringHelper K}

omit [Field K] in
theorem getMostWest_mem {relations : Relations K} (hne : relations.keys ≠ []) :
    ∃ west ∈ relations.keys, getMostWestAmongstRelations relations = some west := by
  unfold getMostWestAmongstRelations
  cases hkeys : relations.keys with
  | nil => exact absurd hkeys hne
  | cons first rest =>
    refine ⟨_, ?_, rfl⟩
    apply List.foldlRecOn (motive := fun e => e ∈ first :: rest) _ _ List.mem_cons_self
    intro selected hselected event hevent
    split
    · exact hevent
    split
    · exact hevent
    · exact hselected

variable [IsStrictOrderedRing K]

/-- The most western event, with its relations, all of which are near. -/
theorem Sound.exists_west {relations : Relations K} (hs : h.Sound relations) (hne : relations.keys ≠ []) :
    ∃ west related, west ∈ relations.keys ∧ getMostWestAmongstRelations relations = some west ∧
      relations.get? west = some related ∧ ∀ r ∈ related, h.Related west r ∧ r.distance ≤ 2 * h.maxRadius := by
  obtain ⟨west, hmem, hwest⟩ := getMostWest_mem hne
  obtain ⟨related, hrelated⟩ := Dict.mem_keys_iff.mp hmem
  refine ⟨west, related, hmem, hwest, hrelated, ?_⟩
  intro r hr
  have hr := hs west related hrelated r hr
  have hle := hr.admitted.1.2
  exact ⟨hr, by linarith⟩

/-- A round takes a circle around the most western event. -/
theorem round_spec (hg : h.geo.Metric) {relations : Relations K} (hs : h.Sound relations)
    (hne : relations.keys ≠ []) :
    ∃ west c, getMostWestAmongstRelations relations = some west ∧
      h.round relations = some (c, removeCoordsFromRelations relations c.events) ∧
      c.Around h west relations.keys := by
  obtain ⟨west, related, hmem, hwest, hrelated, hnear⟩ := hs.exists_west hne
  obtain ⟨c, hc, haround⟩ := getCircle_spec hg hmem relations.keys_nodup le_rfl hnear
  refine ⟨west, c, hwest, ?_, haround⟩
  simp [round, hwest, hrelated, hc]

theorem round_peels (hg : h.geo.Metric) :
    Peels h.round (fun relations => relations.keys.isEmpty) Dict.keys Circle.events h.Sound := by
  refine ⟨fun relations => List.isEmpty_iff, ?_⟩
  intro relations hs hne
  obtain ⟨west, c, _, hround, haround⟩ := round_spec hg hs hne
  exact ⟨c, _, hround, hs.removeCoords _, List.ne_nil_of_mem haround.event_mem, haround.subset,
    keys_removeCoords _⟩

/-- Every circle that is found is a circle around an event. -/
theorem circle_around (hg : h.geo.Metric) {relations : Relations K} (hs : h.Sound relations)
    {circles : List (Circle K)} (hcircles : h.sumUpRelations relations = some circles)
    {c : Circle K} (hc : c ∈ circles) : ∃ west events, c.Around h west events := by
  obtain ⟨t, u, hreach, hleft, hround⟩ := rounds_reached hcircles hc
  have hne : t.keys ≠ [] := by
    intro hnil
    simp [hnil] at hleft
  obtain ⟨west, d, _, hround', haround⟩ := round_spec hg ((round_peels hg).reached hs hreach) hne
  rw [hround] at hround'
  cases hround'
  exact ⟨west, _, haround⟩

/-- The events removed with the circles are a partition of the events of the queue,
within the capacity and the time window. -/
structure IsPartition (h : ClusteringHelper K) (queue : List (Event K)) (circles : List (Circle K)) :
    Prop where
  cover : ∀ e, e ∈ queue ↔ ∃ c ∈ circles, e ∈ c.events
  disjoint : circles.Pairwise fun c d => ∀ e ∈ c.events, e ∉ d.events
  nonempty : ∀ c ∈ circles, c.events ≠ []
  nodup : ∀ c ∈ circles, c.events.Nodup
  capacity : ∀ c ∈ circles, (c.events.length : Int) ≤ h.maxCountPerCircle
  window : ∀ c ∈ circles, ∀ x ∈ c.events, ∀ y ∈ c.events,
    x.timestamp - y.timestamp ≤ h.maxTimedeltaSeconds
  latest : ∀ c ∈ circles, (∀ x ∈ c.events, x.timestamp ≤ c.timestamp) ∧
    ∃ x ∈ c.events, x.timestamp = c.timestamp

/-- The clustering ends, with a partition of the events of the queue; what it returns is
the timestamp and the middle of each circle. -/
theorem clusters_partition (hg : h.geo.Metric) (hcount : 1 ≤ h.maxCountPerCircle)
    (htime : 0 ≤ h.maxTimedeltaSeconds) (queue : List (Event K)) :
    ∃ circles, h.sumUpRelations (h.getRelationsInRangeWithinTime queue) = some circles ∧
      h.getClustered queue = some (circles.map fun c => (c.timestamp, c.location)) ∧
      h.IsPartition queue circles := by
  have hs := sound_getRelations (h := h) queue
  obtain ⟨circles, hcircles, hdisjoint, hcover⟩ := (round_peels hg).partition hs le_rfl
  have hsum : h.sumUpRelations (h.getRelationsInRangeWithinTime queue) = some circles := hcircles
  have haround : ∀ c ∈ circles, ∃ west events, c.Around h west events :=
    fun c hc => circle_around hg hs hsum hc
  refine ⟨circles, hsum, by simp [getClustered, hsum], ?_, hdisjoint, ?_, ?_, ?_, ?_, ?_⟩
  -- The keys of the first relations are the events of the queue.
  · intro e
    rw [← mem_keys_getRelations (h := h), hcover]
  · intro c hc
    obtain ⟨west, events, hc⟩ := haround c hc
    exact List.ne_nil_of_mem hc.event_mem
  · intro c hc
    obtain ⟨west, events, hc⟩ := haround c hc
    exact hc.nodup
  · intro c hc
    obtain ⟨west, events, hc⟩ := haround c hc
    rcases hc.bounded with hself | ⟨hsize, _⟩
    · rw [hself]
      simpa using hcount
    · exact hsize
  · intro c hc
    obtain ⟨west, events, hc⟩ := haround c hc
    rcases hc.bounded with hself | ⟨_, hspan⟩
    · -- An event that is a circle of its own.
      intro x hx y hy
      rw [hself, List.mem_singleton] at hx hy
      rw [hx, hy]
      omega
    · exact hspan
  · intro c hc
    obtain ⟨west, events, hc⟩ := haround c hc
    exact ⟨hc.latest, hc.attained⟩

/-- Circles of at most three events, of radius ten, in the plane. -/
def threes : ClusteringHelper ℚ where
  geo := plane
  maxRadius := 10
  maxCountPerCircle := 3
  maxTimedeltaSeconds := 10

/-- Five events on a line, the last two a second later. -/
def strip : List (Event ℚ) :=
  [⟨100, ⟨0, 0⟩⟩, ⟨100, ⟨0, 2⟩⟩, ⟨100, ⟨0, 12⟩⟩, ⟨101, ⟨0, 15⟩⟩, ⟨101, ⟨0, 34⟩⟩]

theorem clusters_partition_strip :
    ∃ circles, threes.sumUpRelations (threes.getRelationsInRangeWithinTime strip) = some circles ∧
      threes.getClustered strip = some (circles.map fun c => (c.timestamp, c.location)) ∧
      threes.IsPartition strip circles :=
  clusters_partition plane_metric (by decide) (by decide) strip

end ClusteringHelper

end MapADroid.Clustering
