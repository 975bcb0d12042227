import MapADroid.Location
import MapADroid.Geofence.FenceData

/- The fence of an area (`GeofenceHelper`): its bounding box, its middle, and whether a
   coordinate lies in it.

   What `matplotlib` makes of a polygon and a point is left open, up to the polygon's
   bounding box: no point beyond it is in it. A look at an area without corners raises. The
   point may have come from a row, as decimals. These can be compared with floats but not
   subtracted from them, so that without `matplotlib` the first edge whose crossing would
   have to be computed raises. Where an answer is given, it is the same for both kinds
   (`isCoordInsideIncludeGeofence_rows`), and what is inside is within the box if there are
   areas (`inBox_of_inside`). -/
namespace MapADroid.Geofence

variable {K : Type}

/-- Where a coordinate comes from: `float(..)`, or the columns of a row. -/
inductive Source where
  | floats
  | row
  deriving DecidableEq

/-- `GeofenceHelper`. -/
structure GeofenceHelper (K : Type) where
  geofencedAreas : List (Area K)
  excludedAreas : List (Area K)
  useMatplotlib : Bool

/-- `(min_lat, min_lon, max_lat, max_lon)`. -/
structure Box (K : Type) where
  minLat : K
  minLon : K
  maxLat : K
  maxLon : K

/-- What a row has in the columns of its place is between the bounds of the box. -/
def Box.Holds [LinearOrder K] (box : Box K) (c : Coord K) : Prop :=
  box.minLat ≤ c.lat ∧ box.minLon ≤ c.lon ∧ c.lat ≤ box.maxLat ∧ c.lon ≤ box.maxLon

instance [LinearOrder K] (box : Box K) (c : Coord K) : Decidable (box.Holds c) := inferInstanceAs (Decidable (_ ∧ _))

/-- One turn of the loops of `get_polygon_from_fence`. -/
def Box.grow [LinearOrder K] (box : Box K) (corner : Coord K) : Box K where
  maxLat := max corner.lat box.maxLat
  minLat := min corner.lat box.minLat
  maxLon := max corner.lon box.maxLon
  minLon := min corner.lon box.minLon

theorem anyM_of_anyM {f g : Area K → Option Bool} (h : ∀ area b, f area = some b → g area = some b)
    {areas : List (Area K)} (hany : areas.anyM f = some b) : areas.anyM g = some b := by
  induction areas with
  | nil => exact hany
  | cons area areas ih =>
    rw [List.anyM_cons] at hany ⊢
    obtain ⟨a, ha, hrest⟩ := Option.bind_eq_some_iff.mp hany
    refine Option.bind_eq_some_iff.mpr ⟨a, h area a ha, ?_⟩
    cases a with
    | true => exact hrest
    | false => exact ih hrest

theorem exists_of_anyM {f : Area K → Option Bool} {areas : List (Area K)} (h : areas.anyM f = some true) :
    ∃ area ∈ areas, f area = some true := by
  induction areas with
  | nil => cases h
  | cons area areas ih =>
    rw [List.anyM_cons] at h
    obtain ⟨b, hb, hrest⟩ := Option.bind_eq_some_iff.mp h
    cases b with
    | true => exact ⟨area, List.mem_cons_self, hb⟩
    | false =>
      obtain ⟨found, hfound, htrue⟩ := ih hrest
      exact ⟨found, List.mem_cons_of_mem _ hfound, htrue⟩

section
variable [LinearOrder K]

theorem holds_corner {corners : List (Coord K)} {corner : Coord K} (h : corner ∈ corners) (box : Box K) :
    (corners.foldl Box.grow box).Holds corner := by
  induction corners using List.reverseRecOn with
  | nil => cases h
  | append_singleton corners last ih =>
    rw [List.foldl_append]
    rcases List.mem_append.mp h with h | h
    · obtain ⟨hminLat, hminLon, hmaxLat, hmaxLon⟩ := ih h
      exact ⟨min_le_of_right_le hminLat, min_le_of_right_le hminLon, le_max_of_le_right hmaxLat,
        le_max_of_le_right hmaxLon⟩
    · rw [List.mem_singleton.mp h]
      exact ⟨min_le_left _ _, min_le_left _ _, le_max_left _ _, le_max_left _ _⟩

/-- The bounding box of a polygon is within a box that holds its corners. -/
theorem boundingBox_within {box : Box K} {first : Coord K} {polygon : List (Coord K)} (hfirst : box.Holds first)
    (hpolygon : ∀ corner ∈ polygon, box.Holds corner) :
    box.minLat ≤ (boundingBox first polygon).minLat ∧ box.minLon ≤ (boundingBox first polygon).minLon ∧
      (boundingBox first polygon).maxLat ≤ box.maxLat ∧ (boundingBox first polygon).maxLon ≤ box.maxLon := by
  induction polygon using List.reverseRecOn with
  | nil => exact hfirst
  | append_singleton polygon last ih =>
    obtain ⟨hminLat, hminLon, hmaxLat, hmaxLon⟩ := ih fun corner h => hpolygon corner (List.mem_append_left _ h)
    obtain ⟨hlast1, hlast2, hlast3, hlast4⟩ := hpolygon last (by simp)
    simp only [boundingBox, List.foldl_append, List.foldl_cons, List.foldl_nil] at hminLat hminLon hmaxLat hmaxLon ⊢
    exact ⟨le_min hlast1 hminLat, le_min hlast2 hminLon, max_le hlast3 hmaxLat, max_le hlast4 hmaxLon⟩

theorem holds_of_not_excludes {box : Box K} {first c : Coord K} {polygon : List (Coord K)} (hfirst : box.Holds first)
    (hpolygon : ∀ corner ∈ polygon, box.Holds corner) (h : (boundingBox first polygon).excludes c = false) :
    box.Holds c := by
  obtain ⟨hminLat, hminLon, hmaxLat, hmaxLon⟩ := boundingBox_within hfirst hpolygon
  simp only [BoundingBox.excludes, Bool.or_eq_false_iff, decide_eq_false_iff_not, not_lt] at h
  obtain ⟨⟨⟨habove, hbelow⟩, hright⟩, hleft⟩ := h
  exact ⟨hminLat.trans hbelow, hminLon.trans hleft, habove.trans hmaxLat, hright.trans hmaxLon⟩

end

section
variable [Field K] [LinearOrder K]

/-! ## Points in polygons -/

/-- One edge, for a point of decimals: where a crossing would have to be computed, a float would be subtracted
from a decimal. -/
def Loop.nextDecimal (point : Coord K) (loop : Loop K) (coords : Coord K) : Option (Loop K) :=
  if min loop.last.lon coords.lon < point.lon ∧ point.lon ≤ max loop.last.lon coords.lon ∧
      point.lat ≤ max loop.last.lat coords.lat then none
  else some ⟨loop.inside, coords, loop.latIntersection⟩

/-- `is_point_in_polygon_custom` of decimals. -/
def isPointInPolygonDecimal (point : Coord K) : List (Coord K) → Option Bool
  | [] => none
  | first :: rest =>
    if (boundingBox first (first :: rest)).excludes point then some false
    else ((rest ++ [first]).foldlM (Loop.nextDecimal point) ⟨false, first, none⟩).map Loop.inside

/-- `is_point_in_polygon_matplotlib`; `path` is `contains_point` of a `Path`. -/
def isPointInPolygonMatplotlib (path : List (Coord K) → Coord K → Bool) (point : Coord K) :
    List (Coord K) → Option Bool
  | [] => none
  | first :: rest => some (path (first :: rest ++ [first]) point)

/-! ## The fence -/

namespace GeofenceHelper
variable (fence : GeofenceHelper K) (path : List (Coord K) → Coord K → Bool)

def getPolygonFromFence : Box K :=
  (fence.geofencedAreas.flatMap Area.polygon).foldl Box.grow ⟨(90 : ℕ), (180 : ℕ), -(90 : ℕ), -(180 : ℕ)⟩

def getMiddleFromFence : Location K :=
  let box := fence.getPolygonFromFence
  ⟨box.minLat + (box.maxLat - box.minLat) / (2 : ℕ), box.minLon + (box.maxLon - box.minLon) / (2 : ℕ)⟩

def inArea (source : Source) (coordinate : Coord K) (area : Area K) : Option Bool :=
  if fence.useMatplotlib then isPointInPolygonMatplotlib path coordinate area.polygon
  else match source with
    | .floats => isPointInPolygonCustom coordinate area.polygon
    | .row => isPointInPolygonDecimal coordinate area.polygon

/-- `none` where an exception is raised. -/
def isCoordInsideIncludeGeofence (source : Source) (coordinate : Coord K) : Option Bool := do
  if ← fence.excludedAreas.anyM (fence.inArea path source coordinate) then some false
  else if fence.geofencedAreas.isEmpty then some true
  else fence.geofencedAreas.anyM (fence.inArea path source coordinate)

/-- The coordinate lies in the fence. -/
def Inside (coordinate : Coord K) : Prop := fence.isCoordInsideIncludeGeofence path .floats coordinate = some true

end GeofenceHelper

/-- No point beyond the bounding box of a polygon is in it. -/
def Encloses (path : List (Coord K) → Coord K → Bool) : Prop :=
  ∀ first rest point, path (first :: rest) point = true →
    (boundingBox first (first :: rest)).excludes point = false

/-- The polygons that `is_point_in_polygon_custom` takes a point to be in. -/
def containsPoint (polygon : List (Coord K)) (point : Coord K) : Bool :=
  isPointInPolygonCustom point polygon = some true

theorem containsPoint_encloses : Encloses (containsPoint (K := K)) := by
  intro first rest point h
  rw [containsPoint, decide_eq_true_eq, isPointInPolygonCustom] at h
  split at h
  · cases h
  · next hbox => exact Bool.eq_false_iff.mpr hbox

/-! ## Rows and floats -/

variable {point coordinate : Coord K} {polygon : List (Coord K)} {path : List (Coord K) → Coord K → Bool}
  {fence : GeofenceHelper K} {b : Bool}

theorem Loop.next_of_decimal {loop loop' : Loop K} {coords : Coord K}
    (h : loop.nextDecimal point coords = some loop') : loop.next point coords = some loop' := by
  unfold Loop.nextDecimal at h
  split at h
  · cases h
  · next hnot => rw [Loop.next, if_neg hnot, ← Option.some.inj h]

theorem foldlM_next_of_decimal {l : List (Coord K)} {loop loop' : Loop K}
    (h : l.foldlM (Loop.nextDecimal point) loop = some loop') : l.foldlM (Loop.next point) loop = some loop' := by
  induction l generalizing loop with
  | nil => exact h
  | cons coords l ih =>
    rw [List.foldlM_cons] at h ⊢
    obtain ⟨loop₁, hnext, h⟩ := Option.bind_eq_some_iff.mp h
    exact Option.bind_eq_some_iff.mpr ⟨loop₁, Loop.next_of_decimal hnext, ih h⟩

theorem isPointInPolygonCustom_of_decimal (h : isPointInPolygonDecimal point polygon = some b) :
    isPointInPolygonCustom point polygon = some b := by
  cases polygon with
  | nil => cases h
  | cons first rest =>
    rw [isPointInPolygonDecimal] at h
    rw [isPointInPolygonCustom]
    split at h
    · next hbox => rw [if_pos hbox, h]
    · next hbox =>
      obtain ⟨loop, hloop, hinside⟩ := Option.map_eq_some_iff.mp h
      rw [if_neg hbox, insideEdges, foldlM_next_of_decimal hloop, ← hinside]
      rfl

theorem inArea_of_row {area : Area K} (h : fence.inArea path .row coordinate area = some b) :
    fence.inArea path .floats coordinate area = some b := by
  unfold GeofenceHelper.inArea at h ⊢
  split at h
  · next huse => rw [if_pos huse, h]
  · next huse =>
    rw [if_neg huse]
    exact isPointInPolygonCustom_of_decimal h

/-- An answer for the columns of a row is that for floats. -/
theorem isCoordInsideIncludeGeofence_rows (h : fence.isCoordInsideIncludeGeofence path .row coordinate = some b) :
    fence.isCoordInsideIncludeGeofence path .floats coordinate = some b := by
  have harea : ∀ area b, fence.inArea path .row coordinate area = some b →
      fence.inArea path .floats coordinate area = some b := fun _ _ => inArea_of_row
  unfold GeofenceHelper.isCoordInsideIncludeGeofence at h ⊢
  obtain ⟨excluded, hexcluded, h⟩ := Option.bind_eq_some_iff.mp h
  refine Option.bind_eq_some_iff.mpr ⟨excluded, anyM_of_anyM harea hexcluded, ?_⟩
  split at h
  · next hyes => rw [if_pos hyes, h]
  · next hno =>
    rw [if_neg hno]
    split at h
    · next hempty => rw [if_pos hempty, h]
    · next hempty =>
      rw [if_neg hempty]
      exact anyM_of_anyM harea h

/-! ## The box -/

/-- What is in an area is in a box that holds its corners. -/
theorem holds_of_inArea (hpath : Encloses path) {area : Area K} {box : Box K}
    (hcorners : ∀ corner ∈ area.polygon, box.Holds corner)
    (h : fence.inArea path .floats coordinate area = some true) : box.Holds coordinate := by
  unfold GeofenceHelper.inArea at h
  cases hpolygon : area.polygon with
  | nil =>
    rw [hpolygon] at h
    split at h
    · cases h
    · cases h
  | cons first rest =>
    rw [hpolygon] at h hcorners
    have hfirst := hcorners first List.mem_cons_self
    split at h
    · apply holds_of_not_excludes hfirst _ (hpath first (rest ++ [first]) coordinate (Option.some.inj h))
      intro corner hcorner
      apply hcorners
      simp only [List.mem_cons, List.mem_append, List.not_mem_nil, or_false] at hcorner ⊢
      tauto
    · simp only [isPointInPolygonCustom] at h
      split at h
      · cases h
      · next hnot => exact holds_of_not_excludes hfirst hcorners (Bool.eq_false_iff.mpr hnot)

/-- **What is inside a fence with areas is in its box.** -/
theorem inBox_of_inside (hpath : Encloses path) (hareas : fence.geofencedAreas ≠ [])
    (h : fence.Inside path coordinate) : fence.getPolygonFromFence.Holds coordinate := by
  obtain ⟨excluded, _, h⟩ := Option.bind_eq_some_iff.mp h
  split at h
  · cases h
  · rw [if_neg (by simpa using hareas)] at h
    obtain ⟨area, harea, hin⟩ := exists_of_anyM h
    apply holds_of_inArea hpath _ hin
    intro corner hcorner
    exact holds_corner (List.mem_flatMap.mpr ⟨area, harea, hcorner⟩) _

/-- Without areas the box is turned inside out. -/
theorem not_holds_of_noAreas [IsStrictOrderedRing K] (hareas : fence.geofencedAreas = []) (c : Coord K) :
    ¬ fence.getPolygonFromFence.Holds c := by
  intro h
  have hbox : fence.getPolygonFromFence = ⟨(90 : ℕ), (180 : ℕ), -(90 : ℕ), -(180 : ℕ)⟩ := by
    rw [GeofenceHelper.getPolygonFromFence, hareas]
    rfl
  rw [hbox] at h
  have hlat : (90 : K) ≤ -90 := h.1.trans h.2.2.1
  linarith

end

end MapADroid.Geofence
