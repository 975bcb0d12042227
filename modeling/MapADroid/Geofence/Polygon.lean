import Mathlib.Algebra.Order.Field.Basic
import Mathlib.Tactic.FieldSimp
import Mathlib.Tactic.Ring
import Mathlib.Tactic.Linarith
import Mathlib.Data.List.Induction
import Mathlib.Data.Rat.Defs
import Mathlib.Algebra.Order.Ring.Rat
import MapADroid.Lib.Cycles

/- Whether a point lies in a fence (`GeofenceHelper.is_point_in_polygon_custom`).

   The function counts which edges a ray from the point to greater latitudes crosses, after
   a look at the bounding box. An edge is crossed from either end alike, so a fence that is
   cut along a line between two of its corners claims a point exactly if one of its parts
   does (`split_additive`); a point outside of the box sees an even number of crossings, so
   the look at the box changes nothing. Coordinates are exact, as rationals are. -/
namespace MapADroid.Geofence
open Lib

variable {K : Type}

/-- A point, or a corner of a fence. -/
structure Coord (K : Type) where
  lat : K
  lon : K
  deriving DecidableEq, Repr

structure BoundingBox (K : Type) where
  maxLat : K
  minLat : K
  maxLon : K
  minLon : K

/-- The loop over the edges: `lat1` and `lon1` are of the corner that came last, and
`lat_intersection` has no value at first. -/
structure Loop (K : Type) where
  inside : Bool
  last : Coord K
  latIntersection : Option K

section
variable [LinearOrder K]

/-- The first loop; `first` is `polygon[0]`. -/
def boundingBox (first : Coord K) (polygon : List (Coord K)) : BoundingBox K :=
  polygon.foldl (fun box coords =>
    { maxLat := max coords.lat box.maxLat, minLat := min coords.lat box.minLat,
      maxLon := max coords.lon box.maxLon, minLon := min coords.lon box.minLon })
    ⟨first.lat, first.lat, first.lon, first.lon⟩

def BoundingBox.excludes (box : BoundingBox K) (point : Coord K) : Bool :=
  box.maxLat < point.lat || point.lat < box.minLat || box.maxLon < point.lon || point.lon < box.minLon

end

section
variable [Field K]

/-- `lat_intersection`: where the edge has the longitude `lon`. -/
def edgeLat (lon : K) (a b : Coord K) : K :=
  (lon - a.lon) * (b.lat - a.lat) / (b.lon - a.lon) + a.lat

variable [LinearOrder K]

/-- One edge, to the corner `coords`; `none` if `lat_intersection` is read without a value. -/
def Loop.next (point : Coord K) (loop : Loop K) (coords : Coord K) : Option (Loop K) :=
  if min loop.last.lon coords.lon < point.lon ∧ point.lon ≤ max loop.last.lon coords.lon ∧
      point.lat ≤ max loop.last.lat coords.lat then
    let intersection :=
      if loop.last.lon ≠ coords.lon then some (edgeLat point.lon loop.last coords)
      else loop.latIntersection
    if loop.last.lat = coords.lat then some ⟨!loop.inside, coords, intersection⟩
    else intersection.map fun lat =>
      ⟨if point.lat ≤ lat then !loop.inside else loop.inside, coords, intersection⟩
  else some ⟨loop.inside, coords, loop.latIntersection⟩

/-- The second loop: `polygon[1]` to the last corner, and back to `polygon[0]`. -/
def insideEdges (point : Coord K) : List (Coord K) → Option Bool
  | [] => none
  | first :: rest =>
    ((rest ++ [first]).foldlM (Loop.next point) ⟨false, first, none⟩).map Loop.inside

/-- `is_point_in_polygon_custom`; `none` where an exception is raised. -/
def isPointInPolygonCustom (point : Coord K) : List (Coord K) → Option Bool
  | [] => none
  | first :: rest =>
    if (boundingBox first (first :: rest)).excludes point then some false
    else insideEdges point (first :: rest)

/-! ## Edges -/

/-- The edge from `a` to `b` is crossed. -/
def crosses (point a b : Coord K) : Bool :=
  min a.lon b.lon < point.lon ∧ point.lon ≤ max a.lon b.lon ∧ point.lat ≤ max a.lat b.lat ∧
    (a.lat = b.lat ∨ point.lat ≤ edgeLat point.lon a b)

variable {point a b : Coord K}

omit [Field K] in
theorem lon_ne (h : min a.lon b.lon < point.lon) (h' : point.lon ≤ max a.lon b.lon) : a.lon ≠ b.lon := by
  intro heq
  rw [heq, min_self] at h
  rw [heq, max_self] at h'
  exact absurd h (not_lt.mpr h')

/-- An edge that is looked at has an intersection, whatever the edges before it had. -/
theorem Loop.next_eq (point : Coord K) (loop : Loop K) (coords : Coord K) : ∃ intersection,
    loop.next point coords = some ⟨loop.inside ^^ crosses point loop.last coords, coords, intersection⟩ := by
  unfold Loop.next
  split
  · next h =>
    obtain ⟨hmin, hmax, hlat⟩ := h
    have hcrosses : crosses point loop.last coords =
        decide (loop.last.lat = coords.lat ∨ point.lat ≤ edgeLat point.lon loop.last coords) :=
      decide_eq_decide.mpr ⟨fun h => h.2.2.2, fun h => ⟨hmin, hmax, hlat, h⟩⟩
    refine ⟨some (edgeLat point.lon loop.last coords), ?_⟩
    simp only [if_pos (lon_ne hmin hmax), hcrosses]
    by_cases heq : loop.last.lat = coords.lat
    · simp [heq]
    · by_cases hle : point.lat ≤ edgeLat point.lon loop.last coords
      · simp [heq, hle]
      · simp [heq, hle]
  · next h =>
    have hcrosses : crosses point loop.last coords = false :=
      decide_eq_false fun hall => h ⟨hall.1, hall.2.1, hall.2.2.1⟩
    exact ⟨loop.latIntersection, by rw [hcrosses, Bool.xor_false]⟩

theorem foldlM_next (loop : Loop K) (l : List (Coord K)) :
    (l.foldlM (Loop.next point) loop).map Loop.inside = some (loop.inside ^^ walkXor (crosses point) loop.last l) := by
  induction l generalizing loop with
  | nil => simp [walkXor]
  | cons coords l ih =>
    obtain ⟨intersection, hnext⟩ := loop.next_eq point coords
    rw [List.foldlM_cons, hnext]
    exact (ih _).trans (by rw [walkXor, Bool.xor_assoc])

/-- The edges of a fence are walked once around it. -/
theorem insideEdges_eq {polygon : List (Coord K)} (hne : polygon ≠ []) :
    insideEdges point polygon = some (cycleXor (crosses point) polygon) := by
  cases polygon with
  | nil => exact absurd rfl hne
  | cons first rest => rw [insideEdges, foldlM_next, Bool.false_xor, cycleXor]

omit [LinearOrder K] in
theorem edgeLat_comm (lon : K) (h : a.lon ≠ b.lon) :
    edgeLat lon a b = edgeLat lon b a := by
  have hab : b.lon - a.lon ≠ 0 := sub_ne_zero.mpr (Ne.symm h)
  have hba : a.lon - b.lon ≠ 0 := sub_ne_zero.mpr h
  unfold edgeLat
  field_simp
  ring

theorem crosses_comm (point a b : Coord K) : crosses point a b = crosses point b a := by
  have himp : ∀ a b : Coord K, crosses point a b = true → crosses point b a = true := by
    intro a b h
    obtain ⟨hmin, hmax, hlat, hcross⟩ := of_decide_eq_true h
    refine decide_eq_true ⟨by rwa [min_comm], by rwa [max_comm], by rwa [max_comm], ?_⟩
    rcases hcross with heq | hle
    · exact .inl heq.symm
    · exact .inr (by rwa [← edgeLat_comm _ (lon_ne hmin hmax)])
  exact Bool.eq_iff_iff.mpr ⟨himp a b, himp b a⟩

/-! ## The bounding box -/

variable {polygon : List (Coord K)}

omit [Field K] in
theorem mem_boundingBox (first : Coord K) {coords : Coord K} (h : coords ∈ polygon) :
    let box := boundingBox first polygon
    coords.lat ≤ box.maxLat ∧ box.minLat ≤ coords.lat ∧ coords.lon ≤ box.maxLon ∧ box.minLon ≤ coords.lon := by
  induction polygon using List.reverseRecOn with
  | nil => cases h
  | append_singleton polygon last ih =>
    simp only [boundingBox, List.foldl_append, List.foldl_cons, List.foldl_nil] at ih ⊢
    rcases List.mem_append.mp h with h | h
    · -- The box only grows.
      obtain ⟨hmaxLat, hminLat, hmaxLon, hminLon⟩ := ih h
      exact ⟨le_max_of_le_right hmaxLat, min_le_of_right_le hminLat, le_max_of_le_right hmaxLon,
        min_le_of_right_le hminLon⟩
    · rw [List.mem_singleton.mp h]
      exact ⟨le_max_left _ _, min_le_left _ _, le_max_left _ _, min_le_left _ _⟩

variable [IsStrictOrderedRing K]

/-- A point below both ends of an edge is below the edge. -/
theorem le_edgeLat (ha : point.lat ≤ a.lat) (hb : point.lat ≤ b.lat) (hmin : min a.lon b.lon < point.lon)
    (hmax : point.lon ≤ max a.lon b.lon) : point.lat ≤ edgeLat point.lon a b := by
  have hup : ∀ a b : Coord K, point.lat ≤ a.lat → point.lat ≤ b.lat → a.lon < point.lon → point.lon ≤ b.lon →
      point.lat ≤ edgeLat point.lon a b := by
    intro a b ha hb hfrom hto
    have hpos : 0 < b.lon - a.lon := by linarith
    have hweights : (edgeLat point.lon a b - point.lat) * (b.lon - a.lon) =
        (b.lon - point.lon) * (a.lat - point.lat) + (point.lon - a.lon) * (b.lat - point.lat) := by
      unfold edgeLat
      field_simp
      ring
    have hsum : 0 ≤ (edgeLat point.lon a b - point.lat) * (b.lon - a.lon) := by
      rw [hweights]
      exact add_nonneg (mul_nonneg (by linarith) (by linarith)) (mul_nonneg (by linarith) (by linarith))
    linarith [nonneg_of_mul_nonneg_left hsum hpos]
  rcases le_total a.lon b.lon with h | h
  · rw [min_eq_left h] at hmin
    rw [max_eq_right h] at hmax
    exact hup a b ha hb hmin hmax
  · rw [min_eq_right h] at hmin
    rw [max_eq_left h] at hmax
    rw [edgeLat_comm _ (ne_of_gt (hmin.trans_le hmax))]
    exact hup b a hb ha hmin hmax

/-- A point below a fence crosses each edge between two corners on different sides of it. -/
theorem crosses_of_below (ha : point.lat ≤ a.lat) (hb : point.lat ≤ b.lat) :
    crosses point a b = (decide (a.lon < point.lon) ^^ decide (b.lon < point.lon)) := by
  have hcrosses : crosses point a b = decide (min a.lon b.lon < point.lon ∧ point.lon ≤ max a.lon b.lon) :=
    decide_eq_decide.mpr ⟨fun h => ⟨h.1, h.2.1⟩, fun h =>
      ⟨h.1, h.2, ha.trans (le_max_left _ _), .inr (le_edgeLat ha hb h.1 h.2)⟩⟩
  rw [hcrosses]
  by_cases hleft : a.lon < point.lon
  · by_cases hright : b.lon < point.lon
    · simp [hleft, hright]
    · simp [hleft, hright, not_lt.mp hright]
  · by_cases hright : b.lon < point.lon
    · simp [hleft, hright, not_lt.mp hleft]
    · simp [hleft, hright]

/-- A point outside of the box sees an even number of crossings. -/
theorem cycleXor_of_excludes {first : Coord K} (h : (boundingBox first polygon).excludes point = true) :
    cycleXor (crosses point) polygon = false := by
  simp only [BoundingBox.excludes, Bool.or_eq_true, decide_eq_true_eq] at h
  have hbox := fun coords (hc : coords ∈ polygon) => mem_boundingBox first hc
  rcases h with ((habove | hbelow) | hright) | hleft
  · refine cycleXor_eq_false fun a ha b hb => decide_eq_false fun hcross => ?_
    have hmax := max_le (hbox a ha).1 (hbox b hb).1
    exact absurd (hcross.2.2.1.trans hmax) (not_le.mpr habove)
  · refine cycleXor_of_sides (fun a => decide (a.lon < point.lon)) fun a ha b hb => ?_
    exact crosses_of_below (hbelow.le.trans (hbox a ha).2.1) (hbelow.le.trans (hbox b hb).2.1)
  · refine cycleXor_eq_false fun a ha b hb => decide_eq_false fun hcross => ?_
    have hmax := max_le (hbox a ha).2.2.1 (hbox b hb).2.2.1
    exact absurd (hcross.2.1.trans hmax) (not_le.mpr hright)
  · refine cycleXor_eq_false fun a ha b hb => decide_eq_false fun hcross => ?_
    have hmin := le_min (hbox a ha).2.2.2 (hbox b hb).2.2.2
    exact absurd (hleft.trans_le hmin) (not_lt.mpr hcross.1.le)

/-- The look at the box changes nothing. -/
theorem isPointInPolygonCustom_eq {polygon : List (Coord K)} (hne : polygon ≠ []) :
    isPointInPolygonCustom point polygon = some (cycleXor (crosses point) polygon) := by
  cases polygon with
  | nil => exact absurd rfl hne
  | cons first rest =>
    rw [isPointInPolygonCustom]
    split
    · next hbox => rw [cycleXor_of_excludes hbox]
    · exact insideEdges_eq hne

/-- A fence cut along the line between two of its corners claims the points that exactly one
of its parts claims, and the look at the box changes none of the answers. -/
theorem split_additive (point : Coord K) (polygon : List (Coord K)) {k : Nat} (hk : 0 < k)
    (hlength : k < polygon.length) :
    ∃ whole left right : Bool, isPointInPolygonCustom point polygon = some whole ∧
      isPointInPolygonCustom point (polygon.take (k + 1)) = some left ∧
      isPointInPolygonCustom point (polygon.drop k ++ polygon.take 1) = some right ∧
      whole = (left ^^ right) ∧ (whole = true → (left = true ↔ right = false)) ∧
      insideEdges point polygon = some whole ∧ insideEdges point (polygon.take (k + 1)) = some left ∧
      insideEdges point (polygon.drop k ++ polygon.take 1) = some right := by
  obtain ⟨a, l, b, l', rfl, rfl⟩ : ∃ a l b l', polygon = a :: (l ++ b :: l') ∧ k = l.length + 1 := by
    obtain ⟨a, rest, rfl⟩ := List.exists_cons_of_length_pos (hk.trans hlength)
    obtain ⟨j, rfl⟩ : ∃ j, k = j + 1 := ⟨k - 1, by omega⟩
    have hj : j < rest.length := by simpa using hlength
    refine ⟨a, rest.take j, rest[j], rest.drop (j + 1), ?_, by simp [hj.le]⟩
    rw [List.getElem_cons_drop, List.take_append_drop]
  have hleft : (a :: (l ++ b :: l')).take (l.length + 1 + 1) = a :: (l ++ [b]) := by
    rw [List.take_succ_cons, List.take_length_add_append]
    rfl
  have hright : (a :: (l ++ b :: l')).drop (l.length + 1) ++ (a :: (l ++ b :: l')).take 1 = b :: (l' ++ [a]) := by
    rw [List.drop_succ_cons, List.drop_left]
    rfl
  rw [hleft, hright]
  refine ⟨_, _, _, isPointInPolygonCustom_eq (by simp), isPointInPolygonCustom_eq (by simp),
    isPointInPolygonCustom_eq (by simp), cycleXor_split (crosses_comm point) a b l l', ?_,
    insideEdges_eq (by simp), insideEdges_eq (by simp), insideEdges_eq (by simp)⟩
  rw [cycleXor_split (crosses_comm point) a b l l']
  cases cycleXor (crosses point) (a :: (l ++ [b])) <;> simp

/-- A square, cut along its diagonal: its middle is in one of the triangles. -/
theorem square_split :
    ∃ whole left right : Bool,
      isPointInPolygonCustom (⟨1, 1⟩ : Coord ℚ) [⟨0, 0⟩, ⟨0, 2⟩, ⟨2, 2⟩, ⟨2, 0⟩] = some whole ∧
      isPointInPolygonCustom (⟨1, 1⟩ : Coord ℚ) [⟨0, 0⟩, ⟨0, 2⟩, ⟨2, 2⟩] = some left ∧
      isPointInPolygonCustom (⟨1, 1⟩ : Coord ℚ) [⟨2, 2⟩, ⟨2, 0⟩, ⟨0, 0⟩] = some right ∧
      whole = (left ^^ right) := by
  obtain ⟨whole, left, right, hwhole, hleft, hright, hxor, -⟩ :=
    split_additive (⟨1, 1⟩ : Coord ℚ) [⟨0, 0⟩, ⟨0, 2⟩, ⟨2, 2⟩, ⟨2, 0⟩] (k := 2) (by decide) (by decide)
  exact ⟨whole, left, right, hwhole, hleft, hright, hxor⟩

end

end MapADroid.Geofence
