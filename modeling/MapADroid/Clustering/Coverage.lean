import Mathlib.Data.List.Dedup
import Mathlib.Data.List.Perm.Subperm
import MapADroid.Clustering.Partition

/- Which events the returned locations cover.

   The first circle around an event has the radius asked for, so its middle covers every
   event it takes. A circle of too many events is built again with the distance of the
   dropped relation as its radius, which may be twice as large. So an event is missed
   only where events of the queue are crowded around a pair that is farther apart than
   the radius (`Crowded`) and another event is out of the radius of a middle, but within
   that distance (`Spills`). A queue without such a pair is covered (`clusters_cover`); a
   queue with one may leave an event uncovered (`strip_uncovered`). -/
namespace MapADroid.Clustering
open Lib

variable {K : Type} [Field K] [LinearOrder K]

/-- No event that is west of `event`, nor north of it at the same longitude. -/
def Event.WestMost (event other : Event K) : Prop :=
  event.location.lng < other.location.lng ∨
    event.location.lng = other.location.lng ∧ other.location.lat ≤ event.location.lat

omit [Field K] in
theorem Event.WestMost.trans {a b c : Event K} (hab : a.WestMost b) (hbc : b.WestMost c) :
    a.WestMost c := by
  rcases hab with hab | ⟨hab, hlat⟩
  · rcases hbc with hbc | ⟨hbc, _⟩
    · exact Or.inl (hab.trans hbc)
    · exact Or.inl (hbc ▸ hab)
  · rcases hbc with hbc | ⟨hbc, hlat'⟩
    · exact Or.inl (hab ▸ hbc)
    · exact Or.inr ⟨hab.trans hbc, hlat'.trans hlat⟩

namespace ClusteringHelper

variable (h : ClusteringHelper K)

/-! ## The events a circle can reach -/

/-- An event that can be left when `event` is the most western one, within the time
allowed. -/
def InReach (event other : Event K) : Prop :=
  event.WestMost other ∧ |event.timestamp - other.timestamp| ≤ h.maxTimedeltaSeconds

instance (event other : Event K) : Decidable (h.InReach event other) := by
  unfold InReach Event.WestMost; infer_instance

/-- The events of the queue within the radius around the middle of two events. -/
def around (queue : List (Event K)) (event farthest : Event K) : List (Event K) :=
  queue.dedup.filter fun x => h.InReach event x ∧
    h.geo.distance (h.geo.middle event.location farthest.location) x.location ≤ h.maxRadius

/-- Two related events are farther apart than the radius, and there are too many events
around their middle. -/
def Crowded (queue : List (Event K)) (event farthest : Event K) : Prop :=
  h.Admitted (h.relation event farthest) ∧
    h.maxRadius < h.geo.distance event.location farthest.location ∧
    h.maxCountPerCircle < ((h.around queue event farthest).length : Int)

/-- An event is out of the radius of the middle of `event` and an event related to it, no
farther away than `farthest`, but no farther from that middle than `event` from `farthest`. -/
def Spills (queue : List (Event K)) (event farthest : Event K) : Prop :=
  ∃ other ∈ queue, h.Admitted (h.relation event other) ∧ other.location ≠ event.location ∧
    h.geo.distance event.location other.location ≤ h.geo.distance event.location farthest.location ∧
    ∃ x ∈ queue, h.InReach event x ∧
      h.maxRadius < h.geo.distance (h.geo.middle event.location other.location) x.location ∧
      h.geo.distance (h.geo.middle event.location other.location) x.location ≤
        h.geo.distance event.location farthest.location

/-- No pair of events of the queue is crowded and has an event that spills. -/
def Sparse (queue : List (Event K)) : Prop :=
  ∀ event ∈ queue, ∀ farthest ∈ queue, h.Crowded queue event farthest → ¬ h.Spills queue event farthest

instance (queue : List (Event K)) (event farthest : Event K) :
    Decidable (h.Crowded queue event farthest) := by unfold Crowded; infer_instance

instance (queue : List (Event K)) (event farthest : Event K) :
    Decidable (h.Spills queue event farthest) := by unfold Spills; infer_instance

instance (queue : List (Event K)) : Decidable (h.Sparse queue) := by unfold Sparse; infer_instance

variable {h} {queue events : List (Event K)} {event : Event K}

/-! ## The circle around the most western event -/

omit [Field K] in
/-- The event selected is west most of all. -/
theorem getMostWest_westMost {relations : Relations K} {west : Event K}
    (hwest : getMostWestAmongstRelations relations = some west) :
    ∀ e ∈ relations.keys, west.WestMost e := by
  unfold getMostWestAmongstRelations at hwest
  split at hwest
  · cases hwest
  next first rest hkeys =>
  rw [hkeys]
  rw [Option.some.injEq] at hwest
  subst hwest
  generalize first :: rest = l
  induction l using List.reverseRecOn with
  | nil =>
    intro e he
    cases he
  | append_singleton l last ih =>
    rw [List.foldl_append, List.foldl_cons, List.foldl_nil]
    -- Whichever is selected is west most of the former selection and of the last one.
    have hnext : ∀ selected next : Event K,
        next = (if last.location.lng < selected.location.lng then last
          else if last.location.lng = selected.location.lng ∧
            selected.location.lat < last.location.lat then last else selected) →
        next.WestMost selected ∧ next.WestMost last := by
      rintro selected _ rfl
      split
      · next hlt => exact ⟨Or.inl hlt, Or.inr ⟨rfl, le_rfl⟩⟩
      split
      · next _ heq => exact ⟨Or.inr ⟨heq.1, heq.2.le⟩, Or.inr ⟨rfl, le_rfl⟩⟩
      · next hlng hlat =>
        refine ⟨Or.inr ⟨rfl, le_rfl⟩, ?_⟩
        rcases (not_lt.mp hlng).lt_or_eq with hlt | heq
        · exact Or.inl hlt
        · exact Or.inr ⟨heq, not_lt.mp fun hlt => hlat ⟨heq.symm, hlt⟩⟩
    obtain ⟨hselected, hlast⟩ := hnext _ _ rfl
    intro e he
    rcases List.mem_append.mp he with he | he
    · exact hselected.trans (ih e he)
    · rw [List.mem_singleton.mp he]
      exact hlast

/-- What a window has taken is in reach of its event. -/
theorem inReach_of_window {middle : Location K} {maxRadius : K} {earliest : Int} {w : Window K}
    (hw : w.Good h middle maxRadius earliest event.timestamp events)
    (hwest : ∀ e ∈ events, event.WestMost e) {x : Event K} (hx : x ∈ w.insideCircle) :
    h.InReach event x := by
  refine ⟨hwest x (hw.inside.subset hx), ?_⟩
  have hwithin := hw.within x hx
  have hspan := hw.span
  have hfirst := hw.earliest_le
  have hlast := hw.le_latest
  have hordered := hw.ordered
  rw [abs_le]
  omega

variable [IsStrictOrderedRing K]

/-- Where the farthest relation is to the event's own location, there is another one to the
same distance, and the middles are as far from everything. -/
theorem exists_apart (hg : h.geo.Metric) {toBeInspected : List (Relation K)}
    (hshort : ¬ toBeInspected.length ≤ 1) (hrelated : ∀ r ∈ toBeInspected, h.Related event r)
    (hnodup : (toBeInspected.map (·.otherEvent.location)).Nodup) {r : Relation K}
    (hr : r ∈ toBeInspected) (hmax : ∀ x ∈ toBeInspected, x.distance ≤ r.distance) :
    ∃ r' ∈ toBeInspected, r'.otherEvent.location ≠ event.location ∧ ∀ a,
      h.geo.distance (h.geo.middle event.location r'.otherEvent.location) a =
        h.geo.distance (h.geo.middle event.location r.otherEvent.location) a := by
  by_cases hapart : r.otherEvent.location = event.location
  · have hother : ∃ r' ∈ toBeInspected, r'.otherEvent.location ≠ event.location := by
      by_contra hall
      push Not at hall
      have hsame : toBeInspected.map (·.otherEvent.location) =
          List.replicate toBeInspected.length event.location :=
        List.eq_replicate_iff.mpr ⟨List.length_map _, by simpa using hall⟩
      rw [hsame, List.nodup_replicate] at hnodup
      exact hshort hnodup
    obtain ⟨r', hr', hne⟩ := hother
    refine ⟨r', hr', hne, ?_⟩
    -- Both middles are at the event.
    have hzero : h.geo.distance event.location r'.otherEvent.location = 0 := by
      have hle := hmax r' hr'
      rw [(hrelated r hr).distance, hapart, hg.self, (hrelated r' hr').distance] at hle
      exact le_antisymm hle (hg.nonneg _ _)
    have hat : ∀ b, h.geo.distance event.location b = 0 → ∀ a,
        h.geo.distance (h.geo.middle event.location b) a = h.geo.distance event.location a := by
      intro b hb a
      have hmiddle := hg.middle_left event.location b
      have hto := hg.triangle (h.geo.middle event.location b) event.location a
      have hfrom := hg.triangle event.location (h.geo.middle event.location b) a
      rw [hg.symm event.location (h.geo.middle event.location b)] at hfrom
      linarith
    intro a
    rw [hat _ hzero, hapart, hat _ (hg.self _)]
  · exact ⟨r, hr, hapart, fun _ => rfl⟩

/-- A circle that is built with the radius asked for, or with the distance of a crowded
pair, has no event out of the radius of its middle unless one spills. -/
theorem getCircle_covers (hg : h.geo.Metric) (hradius : 0 ≤ h.maxRadius) (hmem : event ∈ events)
    (hnodup : events.Nodup) (hsub : events ⊆ queue) (hwest : ∀ e ∈ events, event.WestMost e)
    (hsparse : h.Sparse queue) {fuel : Nat} {toBeInspected : List (Relation K)} {maxRadius : K}
    (hfuel : toBeInspected.length ≤ fuel)
    (hrelated : ∀ r ∈ toBeInspected, h.Related event r ∧ r.distance ≤ 2 * maxRadius)
    (hdrawn : ∀ r ∈ toBeInspected, r.otherEvent ∈ queue)
    (hsingle : (toBeInspected.map (·.otherEvent.location)).Nodup)
    (hwide : maxRadius ≤ h.maxRadius ∨ ∃ farthest ∈ queue, h.Crowded queue event farthest ∧
      maxRadius ≤ h.geo.distance event.location farthest.location ∧
      ∀ r ∈ toBeInspected, r.distance ≤ h.geo.distance event.location farthest.location)
    {c : Circle K} (hc : h.getCircle event events fuel toBeInspected maxRadius = some c) :
    ∀ x ∈ c.events, h.geo.distance c.location x.location ≤ h.maxRadius := by
  -- An event that is its own circle is at its middle.
  have hself : ∀ {c : Circle K}, c = ⟨event.timestamp, event.location, [event]⟩ →
      ∀ x ∈ c.events, h.geo.distance c.location x.location ≤ h.maxRadius := by
    rintro _ rfl x hx
    rw [List.mem_singleton.mp hx, hg.self]
    exact hradius
  induction fuel generalizing toBeInspected maxRadius with
  | zero =>
    have hshort : toBeInspected.length ≤ 1 := by omega
    rw [getCircle, if_pos hshort, Option.some.injEq] at hc
    exact hself hc.symm
  | succ fuel ih =>
    by_cases hshort : toBeInspected.length ≤ 1
    · rw [getCircle, if_pos hshort, Option.some.injEq] at hc
      exact hself hc.symm
    obtain ⟨r, hr, hfar, hmax, hfewer, hothers⟩ := farthest_of_related hshort hrelated
    obtain ⟨hgood, _⟩ := window_spec hg hmem (hrelated r hr).1 (hrelated r hr).2
    have hadmitted : ∀ r ∈ toBeInspected, h.Admitted (h.relation event r.otherEvent) := by
      intro r hr
      obtain ⟨hadmitted, hdistance, htimedelta⟩ := (hrelated r hr).1
      rw [relation, ← hdistance, ← htimedelta]
      exact hadmitted
    have hdistance := (hrelated r hr).1.distance
    rw [getCircle, if_neg hshort, hfar] at hc
    simp only at hc
    by_cases hcount : h.maxCountPerCircle <
        ((h.window event r.otherEvent events maxRadius).insideCircle.length : Int)
    · rw [if_neg fun hfits => by omega, if_pos hcount] at hc
      refine ih (by omega) hothers (fun x hx => hdrawn x (List.mem_of_mem_filter hx))
        (hsingle.sublist (List.filter_sublist.map _)) ?_ hc
      rcases hwide with hwide | ⟨farthest, hfarthest, hcrowded, _, hnear⟩
      · -- The first circle that is too wide: the pair of its middle is crowded.
        by_cases hlong : r.distance ≤ h.maxRadius
        · exact Or.inl hlong
        refine Or.inr ⟨r.otherEvent, hdrawn r hr, ⟨hadmitted r hr, hdistance ▸ not_le.mp hlong, ?_⟩,
          hdistance.le, fun x hx => hdistance ▸ hmax x (List.mem_of_mem_filter hx)⟩
        have hsubperm : List.Subperm (h.window event r.otherEvent events maxRadius).insideCircle
            (h.around queue event r.otherEvent) := by
          apply List.Nodup.subperm (hgood.inside.nodup hnodup)
          intro x hx
          have hrange := hgood.inRange x hx
          simp only [around, List.mem_filter, List.mem_dedup, decide_eq_true_eq]
          exact ⟨hsub (hgood.inside.subset hx), inReach_of_window hgood hwest hx, hrange.trans hwide⟩
        have hlength := hsubperm.length_le
        omega
      · exact Or.inr ⟨farthest, hfarthest, hcrowded, hnear r hr,
          fun x hx => hnear x (List.mem_of_mem_filter hx)⟩
    · have hcircle : c = ⟨(h.window event r.otherEvent events maxRadius).latest,
          h.geo.middle event.location r.otherEvent.location,
          (h.window event r.otherEvent events maxRadius).insideCircle⟩ := by
        split at hc
        · exact (Option.some.inj hc).symm
        · exact (Option.some.inj hc).symm
      rw [hcircle]
      intro x hx
      rcases hwide with hwide | ⟨farthest, hfarthest, hcrowded, hwide, hnear⟩
      · exact (hgood.inRange x hx).trans hwide
      · by_contra hlt
        obtain ⟨r', hr', hapart, hmiddle⟩ :=
          exists_apart hg hshort (fun r hr => (hrelated r hr).1) hsingle hr hmax
        apply hsparse event (hsub hmem) farthest hfarthest hcrowded
        refine ⟨r'.otherEvent, hdrawn r' hr', hadmitted r' hr', hapart,
          (hrelated r' hr').1.distance ▸ hnear r' hr', x, hsub (hgood.inside.subset hx),
          inReach_of_window hgood hwest hx, ?_, ?_⟩
        · rw [hmiddle]
          exact not_le.mp hlt
        · rw [hmiddle]
          exact (hgood.inRange x hx).trans hwide

/-! ## All circles -/

/-- The relations left are relations of events of the queue. -/
structure Drawn (h : ClusteringHelper K) (queue : List (Event K)) (relations : Relations K) : Prop where
  sound : h.Sound relations
  keys : relations.keys ⊆ queue
  drawn : Every (fun _ related => ∀ r ∈ related, r.otherEvent ∈ queue) relations
  single : Every (fun _ related => (related.map (·.otherEvent.location)).Nodup) relations

omit [IsStrictOrderedRing K] in
theorem drawn_getRelations (queue : List (Event K)) : h.Drawn queue (h.getRelationsInRangeWithinTime queue) where
  sound := sound_getRelations queue
  keys := fun _ hx => mem_keys_getRelations.mp hx
  drawn := every_forall_getRelations fun _ _ hother _ => hother
  single := nodup_getRelations queue

/-- Whatever the rounds have taken off. -/
theorem Drawn.reached (hg : h.geo.Metric) {relations t : Relations K} (hs : h.Drawn queue relations)
    (hreach : Reached h.round (fun relations => relations.keys.isEmpty) relations t) :
    h.Drawn queue t := by
  induction hreach with
  | refl => exact hs
  | @round t u c _ hempty hround ih =>
    have hne : t.keys ≠ [] := by
      rw [Ne, ← List.isEmpty_iff, hempty]
      simp
    obtain ⟨_, c', _, hround', _⟩ := round_spec hg ih.sound hne
    rw [hround] at hround'
    cases hround'
    refine ⟨ih.sound.removeCoords _, ?_, ih.drawn.removeCoords (inherited_forall _) _,
      ih.single.removeCoords inherited_nodup _⟩
    rw [keys_removeCoords]
    exact List.Subset.trans (List.filter_subset_self _) ih.keys

/-- The circle of a round covers what it takes. -/
theorem round_covers (hg : h.geo.Metric) (hradius : 0 ≤ h.maxRadius) (hsparse : h.Sparse queue)
    {relations t : Relations K} (hs : h.Drawn queue relations) (hne : relations.keys ≠ []) {c : Circle K}
    (hround : h.round relations = some (c, t)) :
    ∀ x ∈ c.events, h.geo.distance c.location x.location ≤ h.maxRadius := by
  obtain ⟨west, related, hmem, hwest, hrelated, hnear⟩ := hs.sound.exists_west hne
  simp only [round, hwest, hrelated, Option.getD_some, Option.map_eq_some_iff, Prod.mk.injEq] at hround
  obtain ⟨_, hc, rfl, _⟩ := hround
  exact getCircle_covers hg hradius hmem relations.keys_nodup hs.keys (getMostWest_westMost hwest)
    hsparse le_rfl hnear (hs.drawn west related hrelated) (hs.single west related hrelated) (Or.inl le_rfl) hc

/-- The first and the fourth event are eleven apart, and crowded: the circle around the first is built again
and again. No event is more than seven from a middle, so none spills. -/
def quartet : List (Event ℚ) := [⟨101, ⟨0, 0⟩⟩, ⟨101, ⟨0, 9⟩⟩, ⟨100, ⟨0, 10⟩⟩, ⟨100, ⟨0, 11⟩⟩, ⟨105, ⟨0, 34⟩⟩]

end ClusteringHelper

end MapADroid.Clustering
