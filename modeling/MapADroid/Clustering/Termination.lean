import Mathlib.Data.List.Perm.Subperm
import MapADroid.Clustering.Partition

/- The clustering ends, and raises nothing.

   The `while` of `_sum_up_relations` goes on with the same relations where `_get_circle`
   raises (`iteration`), so a single exception would keep it running forever. None is
   raised: the most western event is in the circle that is built around it, so each
   iteration takes it off the relations (`clustering_terminates`). -/
namespace MapADroid.Clustering
open Lib

variable {K : Type} [Field K] [LinearOrder K]

namespace ClusteringHelper

/-- One iteration of the `while`; the `except` block leaves the relations as they are. -/
def iteration (h : ClusteringHelper K) : Relations K → Relations K :=
  attempt h.round fun relations => relations.keys.isEmpty

/-- `_get_circle` returns a circle with the most western event in it, and the iteration takes this off
the relations and adds none. -/
structure RemovesWest (h : ClusteringHelper K) (relations : Relations K) (west : Event K) (circle : Circle K) :
    Prop where
  chosen : getMostWestAmongstRelations relations = some west
  built : h.getCircle west relations.keys ((relations.get? west).getD []).length ((relations.get? west).getD [])
    h.maxRadius = some circle
  inside : west ∈ circle.events
  before : west ∈ relations.keys
  after : west ∉ (h.iteration relations).keys
  fewer : (h.iteration relations).keys ⊆ relations.keys

variable {h : ClusteringHelper K} [IsStrictOrderedRing K]

/-- An iteration takes the most western event off. -/
theorem removesWest (hg : h.geo.Metric) {relations : Relations K} (hs : h.Sound relations)
    (hne : relations.keys ≠ []) : ∃ west circle, h.RemovesWest relations west circle := by
  obtain ⟨west, circle, hwest, hround, haround⟩ := round_spec hg hs hne
  have hiteration : h.iteration relations = removeCoordsFromRelations relations circle.events := by
    unfold iteration attempt
    rw [if_neg fun hempty => hne (List.isEmpty_iff.mp hempty), hround]
    rfl
  have hcircle : h.getCircle west relations.keys ((relations.get? west).getD []).length
      ((relations.get? west).getD []) h.maxRadius = some circle := by
    unfold round at hround
    rw [hwest] at hround
    obtain ⟨c, hc, heq⟩ := Option.map_eq_some_iff.mp hround
    rw [hc, (Prod.mk.inj heq).1]
  refine ⟨west, circle, hwest, hcircle, haround.event_mem, haround.subset haround.event_mem, ?_, ?_⟩
  · rw [hiteration, keys_removeCoords, List.mem_filter]
    simp [haround.event_mem]
  · rw [hiteration, keys_removeCoords]
    exact List.filter_subset_self _

omit [IsStrictOrderedRing K] in
/-- There are no more events in the relations than in the queue. -/
theorem length_keys_getRelations (h : ClusteringHelper K) (queue : List (Event K)) :
    (h.getRelationsInRangeWithinTime queue).keys.length ≤ queue.length :=
  (List.Nodup.subperm (Dict.keys_nodup _) fun _ he => (mem_keys_getRelations (h := h)).mp he).length_le

/-- Each iteration removes the most western event, so the loop ends within as many as there are events; nothing is
raised, and the clusters are returned. -/
theorem clustering_terminates (hg : h.geo.Metric) (queue : List (Event K)) :
    (∀ n, (h.iteration^[n] (h.getRelationsInRangeWithinTime queue)).keys ≠ [] →
      ∃ west circle, h.RemovesWest (h.iteration^[n] (h.getRelationsInRangeWithinTime queue)) west circle) ∧
    (h.iteration^[queue.length] (h.getRelationsInRangeWithinTime queue)).keys = [] ∧
    ∃ clustered, h.getClustered queue = some clustered := by
  have hs := sound_getRelations (h := h) queue
  refine ⟨?_, ?_, ?_⟩
  · intro n hne
    exact removesWest hg ((round_peels hg).attempts hs n).1 hne
  · exact (round_peels hg).attempts_end hs (length_keys_getRelations h queue)
  · obtain ⟨circles, hcircles, _⟩ := (round_peels hg).partition hs le_rfl
    have hsum : h.sumUpRelations (h.getRelationsInRangeWithinTime queue) = some circles := hcircles
    exact ⟨circles.map fun circle => (circle.timestamp, circle.location), by rw [getClustered, hsum]; rfl⟩

theorem clustering_terminates_strip :
    (∀ n, (threes.iteration^[n] (threes.getRelationsInRangeWithinTime strip)).keys ≠ [] →
      ∃ west circle, threes.RemovesWest (threes.iteration^[n] (threes.getRelationsInRangeWithinTime strip))
        west circle) ∧
    (threes.iteration^[5] (threes.getRelationsInRangeWithinTime strip)).keys = [] ∧
    ∃ clustered, threes.getClustered strip = some clustered :=
  clustering_terminates plane_metric strip

end ClusteringHelper

end MapADroid.Clustering
