import Mathlib.Algebra.Order.Field.Basic
import Mathlib.Algebra.Order.Ring.Rat
import Mathlib.Algebra.Field.Rat
import Mathlib.Algebra.Order.Group.Abs
import Mathlib.Tactic.Linarith
import Mathlib.Tactic.Ring

/- Locations, and the two helpers of `utils/geo.py` the route calculation uses.

   Latitudes and longitudes are in a linearly ordered field. The haversine distance and
   the middle of two coordinates are a parameter (`Geo`); what is proved about them
   holds of every metric with midpoints (`Geo.Metric`), the rational plane with the
   maximum metric for one (`plane_metric`). -/
namespace MapADroid

/-- `Location`. -/
structure Location (K : Type) where
  lat : K
  lng : K
  deriving DecidableEq, Repr

/-- `get_distance_of_two_points_in_meters`, and `get_middle_of_coord_list` of two. -/
structure Geo (K : Type) where
  distance : Location K → Location K → K
  middle : Location K → Location K → Location K

variable {K : Type} [Field K] [LinearOrder K] [IsStrictOrderedRing K]

/-- A metric with midpoints. -/
structure Geo.Metric (g : Geo K) : Prop where
  self : ∀ a, g.distance a a = 0
  symm : ∀ a b, g.distance a b = g.distance b a
  triangle : ∀ a b c, g.distance a c ≤ g.distance a b + g.distance b c
  middle_left : ∀ a b, g.distance (g.middle a b) a = g.distance a b / 2
  middle_right : ∀ a b, g.distance (g.middle a b) b = g.distance a b / 2

theorem Geo.Metric.nonneg {g : Geo K} (h : g.Metric) (a b : Location K) : 0 ≤ g.distance a b := by
  have htri := h.triangle a b a
  rw [h.self, h.symm b a] at htri
  linarith

/-- The rational plane with the maximum metric. -/
def plane : Geo ℚ where
  distance a b := max |a.lat - b.lat| |a.lng - b.lng|
  middle a b := ⟨(a.lat + b.lat) / 2, (a.lng + b.lng) / 2⟩

theorem plane_metric : plane.Metric where
  self a := by simp [plane]
  symm a b := by simp only [plane, abs_sub_comm]
  triangle a b c := by
    have hlat := abs_sub_le a.lat b.lat c.lat
    have hlng := abs_sub_le a.lng b.lng c.lng
    apply max_le
    · exact hlat.trans (add_le_add (le_max_left _ _) (le_max_left _ _))
    · exact hlng.trans (add_le_add (le_max_right _ _) (le_max_right _ _))
  middle_left a b := by
    have half : ∀ x y : ℚ, |(x + y) / 2 - x| = |x - y| / 2 := by
      intro x y
      rw [show (x + y) / 2 - x = -((x - y) / 2) by ring, abs_neg, abs_div, abs_two]
    simp only [plane, half]
    exact max_div_div_right zero_le_two _ _
  middle_right a b := by
    have half : ∀ x y : ℚ, |(x + y) / 2 - y| = |x - y| / 2 := by
      intro x y
      rw [show (x + y) / 2 - y = (x - y) / 2 by ring, abs_div, abs_two]
    simp only [plane, half]
    exact max_div_div_right zero_le_two _ _

end MapADroid
