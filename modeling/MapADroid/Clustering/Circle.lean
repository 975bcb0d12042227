import Mathlib.Data.List.Induction
import MapADroid.Clustering.Relations

/- The circle around one event.

   `_get_count_and_coords_in_circle_within_timedelta` widens its window while it goes
   through the events; whatever their order, the window stays within the time allowed
   and has all events it took (`Window.Good`). With the event and the farthest of its
   relations as the first window, the circle has the event itself (`getCircle_spec`). -/
namespace MapADroid.Clustering

variable {K : Type} [Field K] [LinearOrder K]

/-! ## The farthest relation -/

namespace ClusteringHelper

variable {h : ClusteringHelper K}

/-- The best relation so far is one of those inspected, and none of them is farther. -/
theorem farther_spec (l : List (Relation K))
    (hl : ∀ r ∈ l, -1 < r.distance ∧ r.timedelta ≤ h.maxTimedeltaSeconds) :
    (l = [] ∧ l.foldl h.farther (none, -1) = (none, -1)) ∨
      ∃ r ∈ l, l.foldl h.farther (none, -1) = (some r, r.distance) ∧
        ∀ x ∈ l, x.distance ≤ r.distance := by
  induction l using List.reverseRecOn with
  | nil => exact Or.inl ⟨rfl, rfl⟩
  | append_singleton l y ih =>
    have hy := hl y (by simp)
    rw [List.foldl_append, List.foldl_cons, List.foldl_nil]
    right
    rcases ih fun r hr => hl r (by simp [hr]) with ⟨rfl, hfold⟩ | ⟨r, hr, hfold, hmax⟩
    · refine ⟨y, by simp, ?_, by simp⟩
      rw [hfold, farther, if_pos ⟨hy.2, hy.1⟩]
    rw [hfold]
    by_cases hlt : r.distance < y.distance
    · refine ⟨y, by simp, by rw [farther, if_pos ⟨hy.2, hlt⟩], ?_⟩
      intro x hx
      rcases List.mem_append.mp hx with hx | hx
      · exact (hmax x hx).trans hlt.le
      · rw [List.mem_singleton.mp hx]
    · refine ⟨r, by simp [hr], by rw [farther, if_neg fun hlt' => hlt hlt'.2], ?_⟩
      intro x hx
      rcases List.mem_append.mp hx with hx | hx
      · exact hmax x hx
      · rw [List.mem_singleton.mp hx]
        exact not_lt.mp hlt

theorem getFarthest_spec {l : List (Relation K)} (hne : l ≠ [])
    (hl : ∀ r ∈ l, -1 < r.distance ∧ r.timedelta ≤ h.maxTimedeltaSeconds) :
    ∃ r ∈ l, h.getFarthestInRelation l = some (r.otherEvent, r.distance) ∧
      ∀ x ∈ l, x.distance ≤ r.distance := by
  rcases farther_spec l hl with ⟨hnil, _⟩ | ⟨r, hr, hfold, hmax⟩
  · exact absurd hnil hne
  · exact ⟨r, hr, by simp [getFarthestInRelation, hfold], hmax⟩

end ClusteringHelper

/-! ## The window -/

/-- What holds of the window after the events of `seen`: it started as `earliest`,
`latest`, and the circle has the radius `maxRadius` around `middle`. -/
structure Window.Good (h : ClusteringHelper K) (middle : Location K) (maxRadius : K)
    (earliest latest : Int) (seen : List (Event K)) (w : Window K) : Prop where
  ordered : earliest ≤ latest
  span : w.latest - w.earliest ≤ h.maxTimedeltaSeconds
  earliest_le : w.earliest ≤ earliest
  le_latest : latest ≤ w.latest
  inside : w.insideCircle.Sublist seen
  within : ∀ x ∈ w.insideCircle, w.earliest ≤ x.timestamp ∧ x.timestamp ≤ w.latest
  inRange : ∀ x ∈ w.insideCircle, h.geo.distance middle x.location ≤ maxRadius
  attained : w.latest = latest ∨ ∃ x ∈ w.insideCircle, x.timestamp = w.latest
  keeps : ∀ x ∈ seen, 0 ≤ h.geo.distance middle x.location →
    h.geo.distance middle x.location ≤ maxRadius → earliest ≤ x.timestamp → x.timestamp ≤ latest →
    x ∈ w.insideCircle

namespace Window.Good

variable {h : ClusteringHelper K} {middle : Location K} {maxRadius : K} {earliest latest : Int}
  {seen : List (Event K)} {w : Window K} {event : Event K}

/-- An event that is passed over. -/
theorem skip (hw : w.Good h middle maxRadius earliest latest seen)
    (hnot : 0 ≤ h.geo.distance middle event.location →
      h.geo.distance middle event.location ≤ maxRadius → earliest ≤ event.timestamp →
      ¬ event.timestamp ≤ latest) :
    w.Good h middle maxRadius earliest latest (seen ++ [event]) := by
  refine ⟨hw.ordered, hw.span, hw.earliest_le, hw.le_latest, ?_, hw.within, hw.inRange, hw.attained, ?_⟩
  · exact hw.inside.trans (List.sublist_append_left _ _)
  · intro x hx h0 hd he hl
    rcases List.mem_append.mp hx with hx | hx
    · exact hw.keeps x hx h0 hd he hl
    · rw [List.mem_singleton] at hx
      subst hx
      exact absurd hl (hnot h0 hd he)

/-- An event that is taken into a window from `e` to `l`, which has it and what the
former window had. -/
theorem take (hw : w.Good h middle maxRadius earliest latest seen)
    (hrange : h.geo.distance middle event.location ≤ maxRadius) {e l t : Int}
    (he : e ≤ w.earliest) (hl : w.latest ≤ l) (hspan : l - e ≤ h.maxTimedeltaSeconds)
    (hmem : e ≤ event.timestamp ∧ event.timestamp ≤ l)
    (hlatest : l = w.latest ∨ event.timestamp = l) :
    Window.Good h middle maxRadius earliest latest (seen ++ [event])
      ⟨e, l, t, w.insideCircle ++ [event]⟩ := by
  have hold : ∀ x ∈ w.insideCircle, x ∈ w.insideCircle ++ [event] := fun x hx => by simp [hx]
  refine ⟨hw.ordered, hspan, he.trans hw.earliest_le, hw.le_latest.trans hl, ?_, ?_, ?_, ?_, ?_⟩
  · exact hw.inside.append (List.Sublist.refl _)
  · intro x hx
    rcases List.mem_append.mp hx with hx | hx
    · obtain ⟨hxe, hxl⟩ := hw.within x hx
      exact ⟨he.trans hxe, hxl.trans hl⟩
    · rw [List.mem_singleton.mp hx]
      exact hmem
  · intro x hx
    rcases List.mem_append.mp hx with hx | hx
    · exact hw.inRange x hx
    · rw [List.mem_singleton.mp hx]
      exact hrange
  · rcases hlatest with hlatest | hlatest
    · rcases hw.attained with hatt | ⟨x, hx, hatt⟩
      · exact Or.inl (hlatest.trans hatt)
      · exact Or.inr ⟨x, hold x hx, hatt.trans hlatest.symm⟩
    · exact Or.inr ⟨event, by simp, hlatest⟩
  · intro x hx h0 hd hxe hxl
    rcases List.mem_append.mp hx with hx | hx
    · exact hold x (hw.keeps x hx h0 hd hxe hxl)
    · rw [List.mem_singleton.mp hx]
      simp

/-- One event more. -/
theorem inspect (hw : w.Good h middle maxRadius earliest latest seen) :
    (h.inspect middle maxRadius w event).Good h middle maxRadius earliest latest (seen ++ [event]) := by
  have hordered := hw.ordered
  have hearliest := hw.earliest_le
  have hlatest := hw.le_latest
  unfold ClusteringHelper.inspect
  simp only
  split
  · -- The event is later than the window.
    next hlate =>
    have habs : |w.latest - event.timestamp| = event.timestamp - w.latest := by
      rw [abs_of_neg hlate.1]; omega
    rw [habs]
    split
    · next hspan => exact hw.take hlate.2.2 le_rfl (by omega) hspan ⟨by omega, by omega⟩ (by omega)
    · exact hw.skip fun _ _ _ => by omega
  split
  · -- The event is earlier than the window.
    next _ hearly =>
    have habs : |event.timestamp - w.earliest| = w.earliest - event.timestamp := by
      rw [abs_of_neg hearly.1]; omega
    rw [habs]
    split
    · next hspan => exact hw.take hearly.2.2 (by omega) le_rfl hspan ⟨by omega, by omega⟩ (by omega)
    · exact hw.skip fun _ _ _ => by omega
  split
  · -- The event is in the window.
    next _ _ hmem =>
    exact hw.take hmem.2.2.2 le_rfl le_rfl hw.span ⟨by omega, by omega⟩ (Or.inl rfl)
  · next hlate hearly hmem =>
    apply hw.skip
    intro h0 hd he hl
    exact hmem ⟨by omega, by omega, h0, hd⟩

end Window.Good

/-- All events. -/
theorem inCircle_good {h : ClusteringHelper K} {middle : Location K} {maxRadius : K}
    {earliest latest : Int} (hordered : earliest ≤ latest) (hspan : latest - earliest ≤ h.maxTimedeltaSeconds)
    (events : List (Event K)) :
    (h.inCircleWithinTimedelta middle events earliest latest maxRadius).Good h middle maxRadius
      earliest latest events := by
  unfold ClusteringHelper.inCircleWithinTimedelta
  induction events using List.reverseRecOn with
  | nil =>
    refine ⟨hordered, hspan, le_rfl, le_rfl, List.Sublist.refl _, ?_, ?_, Or.inl rfl, ?_⟩
    · intro x hx; cases hx
    · intro x hx; cases hx
    · intro x hx; cases hx
  | append_singleton events event ih =>
    rw [List.foldl_append, List.foldl_cons, List.foldl_nil]
    exact ih.inspect

/-! ## The circle -/

/-- A circle around `event` amongst `events`. -/
structure Circle.Around (h : ClusteringHelper K) (event : Event K) (events : List (Event K))
    (c : Circle K) : Prop where
  event_mem : event ∈ c.events
  subset : c.events ⊆ events
  nodup : c.events.Nodup
  bounded : c.events = [event] ∨ (c.events.length : Int) ≤ h.maxCountPerCircle ∧
    ∀ x ∈ c.events, ∀ y ∈ c.events, x.timestamp - y.timestamp ≤ h.maxTimedeltaSeconds
  latest : ∀ x ∈ c.events, x.timestamp ≤ c.timestamp
  attained : ∃ x ∈ c.events, x.timestamp = c.timestamp

omit [Field K] [LinearOrder K] in
/-- An event is a circle of its own. -/
theorem Circle.around_self {h : ClusteringHelper K} {event : Event K} {events : List (Event K)}
    (hmem : event ∈ events) :
    Circle.Around h event events ⟨event.timestamp, event.location, [event]⟩ := by
  refine ⟨by simp, by simpa using hmem, by simp, Or.inl rfl, ?_, ⟨event, by simp, rfl⟩⟩
  intro x hx
  rw [List.mem_singleton.mp hx]

namespace ClusteringHelper

variable {h : ClusteringHelper K} {event : Event K} {events : List (Event K)}

/-- What a good window with the event in it makes a circle of. -/
theorem around_window {middle location : Location K} {maxRadius : K} {earliest : Int} {w : Window K}
    (hw : w.Good h middle maxRadius earliest event.timestamp events) (hevent : event ∈ w.insideCircle)
    (hnodup : events.Nodup) (hcount : (w.insideCircle.length : Int) ≤ h.maxCountPerCircle) :
    Circle.Around h event events ⟨w.latest, location, w.insideCircle⟩ := by
  refine ⟨hevent, hw.inside.subset, hw.inside.nodup hnodup, Or.inr ⟨hcount, ?_⟩, ?_, ?_⟩
  · intro x hx y hy
    have hspan := hw.span
    have hxw := hw.within x hx
    have hyw := hw.within y hy
    omega
  · intro x hx
    exact (hw.within x hx).2
  · rcases hw.attained with hatt | hatt
    · exact ⟨event, hevent, hatt.symm⟩
    · exact hatt

variable [IsStrictOrderedRing K]

/-- The circle around the middle of the event and its farthest relation has the event,
and the event is as late as the first window goes. -/
theorem window_spec (hg : h.geo.Metric) (hmem : event ∈ events) {r : Relation K}
    (hr : h.Related event r) {maxRadius : K} (hnear : r.distance ≤ 2 * maxRadius) :
    (h.window event r.otherEvent events maxRadius).Good h (h.geo.middle event.location
        r.otherEvent.location) maxRadius r.otherEvent.timestamp event.timestamp events ∧
      event ∈ (h.window event r.otherEvent events maxRadius).insideCircle := by
  have htime := hr.timedelta
  obtain ⟨_, hlater, hwithin⟩ := hr.admitted
  have hearliest : getEarliestTimestampInQueue event [r.otherEvent] = r.otherEvent.timestamp := by
    simp only [getEarliestTimestampInQueue, List.foldl_cons, List.foldl_nil, lt_irrefl, if_false]
    split <;> omega
  have hlatest : getLatestTimestampInQueue event [r.otherEvent] = event.timestamp := by
    simp only [getLatestTimestampInQueue, List.foldl_cons, List.foldl_nil, lt_irrefl, if_false]
    split <;> omega
  have hgood : (h.inCircleWithinTimedelta (h.geo.middle event.location r.otherEvent.location) events
      r.otherEvent.timestamp event.timestamp maxRadius).Good h _ maxRadius
      r.otherEvent.timestamp event.timestamp events :=
    inCircle_good (by omega) (by omega) events
  -- The event is half the distance from the middle, so within the radius.
  rw [window, hearliest, hlatest]
  refine ⟨hgood, hgood.keeps event hmem (hg.nonneg _ _) ?_ (by omega) le_rfl⟩
  calc h.geo.distance (h.geo.middle event.location r.otherEvent.location) event.location
      = r.distance / 2 := by rw [hg.middle_left, hr.distance]
    _ ≤ maxRadius := by linarith

/-- Among several relations there is a farthest one, and no other is farther; the others are fewer, and within
twice its distance. -/
theorem farthest_of_related {toBeInspected : List (Relation K)} {maxRadius : K} (hshort : ¬ toBeInspected.length ≤ 1)
    (hrelated : ∀ r ∈ toBeInspected, h.Related event r ∧ r.distance ≤ 2 * maxRadius) :
    ∃ r ∈ toBeInspected, h.getFarthestInRelation toBeInspected = some (r.otherEvent, r.distance) ∧
      (∀ x ∈ toBeInspected, x.distance ≤ r.distance) ∧
      (toBeInspected.filter (·.otherEvent ≠ r.otherEvent)).length < toBeInspected.length ∧
      ∀ x ∈ toBeInspected.filter (·.otherEvent ≠ r.otherEvent), h.Related event x ∧ x.distance ≤ 2 * r.distance := by
  have hne : toBeInspected ≠ [] := by
    rintro rfl
    simp at hshort
  obtain ⟨r, hr, hfar, hmax⟩ := getFarthest_spec (h := h) hne (by
    intro r hr
    obtain ⟨⟨h0, _⟩, _, hwithin⟩ := (hrelated r hr).1.admitted
    exact ⟨by linarith, hwithin⟩)
  refine ⟨r, hr, hfar, hmax, List.length_filter_lt_length_iff_exists.mpr ⟨r, hr, by simp⟩, ?_⟩
  intro x hx
  have hx' := List.mem_of_mem_filter hx
  have h0 := (hrelated x hx').1.admitted.1.1
  have hle := hmax x hx'
  exact ⟨(hrelated x hx').1, by linarith⟩

/-- With as much fuel as there are relations to inspect, `_get_circle` returns a circle
around the event. -/
theorem getCircle_spec (hg : h.geo.Metric) (hmem : event ∈ events) (hnodup : events.Nodup)
    {fuel : Nat} {toBeInspected : List (Relation K)} {maxRadius : K}
    (hfuel : toBeInspected.length ≤ fuel)
    (hrelated : ∀ r ∈ toBeInspected, h.Related event r ∧ r.distance ≤ 2 * maxRadius) :
    ∃ c, h.getCircle event events fuel toBeInspected maxRadius = some c ∧
      c.Around h event events := by
  induction fuel generalizing toBeInspected maxRadius with
  | zero =>
    have hshort : toBeInspected.length ≤ 1 := by omega
    exact ⟨_, by rw [getCircle, if_pos hshort], Circle.around_self hmem⟩
  | succ fuel ih =>
    by_cases hshort : toBeInspected.length ≤ 1
    · exact ⟨_, by rw [getCircle, if_pos hshort], Circle.around_self hmem⟩
    -- There is a farthest relation, and the event is in the window around the middle.
    obtain ⟨r, hr, hfar, _, hfewer, hothers⟩ := farthest_of_related hshort hrelated
    obtain ⟨hgood, hevent⟩ := window_spec hg hmem (hrelated r hr).1 (hrelated r hr).2
    rw [getCircle, if_neg hshort, hfar]
    by_cases hcount : h.maxCountPerCircle <
        ((h.window event r.otherEvent events maxRadius).insideCircle.length : Int)
    · -- Too many events: the circle is built again without the farthest relation.
      obtain ⟨c, hc, haround⟩ := ih (by omega) hothers
      refine ⟨c, ?_, haround⟩
      simp only
      rw [if_neg fun hfits => by omega, if_pos hcount]
      exact hc
    · have haround : Circle.Around h event events
          ⟨(h.window event r.otherEvent events maxRadius).latest,
            h.geo.middle event.location r.otherEvent.location,
            (h.window event r.otherEvent events maxRadius).insideCircle⟩ :=
        around_window hgood hevent hnodup (by omega)
      refine ⟨_, ?_, haround⟩
      simp only
      split
      · rfl
      · rfl

end ClusteringHelper

end MapADroid.Clustering
