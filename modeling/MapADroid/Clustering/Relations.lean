import MapADroid.Clustering.Helper

/- What the relations of the events say (`Sound`), and that they have a list for every
   event of the queue and no other (`mem_keys_getRelations`). Removing events from the
   relations removes their lists and otherwise only shortens lists, so what is true of
   every list when it is made, and of what it is shortened to, stays true (`Every`). -/
namespace MapADroid.Clustering
open Lib

variable {K : Type} [LinearOrder K]

namespace ClusteringHelper

variable {relations : Relations K} {event other x : Event K}

/-! ## The lists of the relations -/

theorem get?_register : (register relations event).get? x =
    if x = event then some ((relations.get? event).getD []) else relations.get? x := by
  unfold register
  by_cases hsome : (relations.get? event).isSome
  · obtain ⟨related, hrelated⟩ := Option.isSome_iff_exists.mp hsome
    rw [if_pos hsome]
    by_cases hx : x = event
    · rw [if_pos hx, hx, hrelated]; rfl
    · rw [if_neg hx]
  · have hnone : relations.get? event = none := by simpa using hsome
    rw [if_neg hsome, Dict.get?_insert, hnone]
    rfl

theorem mem_keys_register : x ∈ (register relations event).keys ↔ x = event ∨ x ∈ relations.keys := by
  rw [← Dict.isSome_get?_iff, ← Dict.isSome_get?_iff, get?_register]
  by_cases hx : x = event
  · simp [hx]
  · simp [hx]

theorem mem_keys_addRelation {r : Relation K} :
    x ∈ (addRelation relations event r).keys ↔ x = event ∨ x ∈ relations.keys := by
  unfold addRelation
  rw [Dict.keys_modify]
  exact mem_keys_register

theorem mem_keys_registerAt (hx : x ∈ (registerAt relations event other).keys) :
    x = event ∨ x ∈ relations.keys := by
  unfold registerAt at hx
  split at hx
  · exact mem_keys_register.mp hx
  · exact Or.inr hx

theorem mem_keys_registerAt_of_mem (hx : x ∈ relations.keys) :
    x ∈ (registerAt relations event other).keys := by
  unfold registerAt
  split
  · exact mem_keys_register.mpr (Or.inr hx)
  · exact hx

theorem pruneFrom_sublist (fuel i : Nat) (related : List (Relation K)) :
    (pruneFrom event fuel i related).Sublist related := by
  induction fuel generalizing i related with
  | zero => exact List.Sublist.refl _
  | succ fuel ih =>
    unfold pruneFrom
    split
    · exact List.Sublist.refl _
    split
    · exact (ih _ _).trans List.erase_sublist
    · exact ih _ _

theorem keys_removeCoords (events : List (Event K)) :
    (removeCoordsFromRelations relations events).keys =
      relations.keys.filter fun e => e ∉ events := by
  unfold removeCoordsFromRelations
  rw [Dict.keys_mapValues]
  show (relations.items.filter _).map Prod.fst = (relations.items.map Prod.fst).filter _
  rw [List.filter_map]
  rfl

/-! ## What holds of every list -/

/-- Every event has a list `P` holds of. -/
def Every (P : Event K → List (Relation K) → Prop) (relations : Relations K) : Prop :=
  ∀ event related, relations.get? event = some related → P event related

/-- A property that holds of the empty list, and of what is left of a list. -/
structure Inherited (P : Event K → List (Relation K) → Prop) : Prop where
  nil : ∀ event, P event []
  sublist : ∀ {event related left}, P event related → left.Sublist related → P event left

namespace Every

variable {P : Event K → List (Relation K) → Prop}

theorem register (hp : Inherited P) (hs : Every P relations) : Every P (register relations event) := by
  intro e related hrelated
  rw [get?_register] at hrelated
  split at hrelated
  · next he =>
    rw [Option.some.injEq] at hrelated
    subst hrelated
    cases hget : relations.get? event with
    | none => exact hp.nil e
    | some old => exact he ▸ hs event old hget
  · exact hs e related hrelated

theorem registerAt (hp : Inherited P) (hs : Every P relations) :
    Every P (registerAt relations event other) := by
  unfold ClusteringHelper.registerAt
  split
  · exact hs.register hp
  · exact hs

/-- A relation is added where the list has none to its location. -/
theorem addRelation (hp : Inherited P) (hs : Every P relations) {new : Relation K}
    (hnew : ∀ related, P event related →
      (∀ r ∈ related, r.otherEvent.location ≠ new.otherEvent.location) → P event (related ++ [new])) :
    Every P (addRelation relations event new) := by
  intro e related hrelated
  unfold ClusteringHelper.addRelation at hrelated
  rw [Dict.get?_modify] at hrelated
  split at hrelated
  · next he =>
    obtain ⟨old, hold, rfl⟩ := Option.map_eq_some_iff.mp hrelated
    subst he
    have hp' := hs.register hp e old hold
    split
    · exact hp'
    · next hnone =>
      apply hnew old hp'
      intro r hr heq
      exact hnone (List.any_eq_true.mpr ⟨r, hr, by simpa using heq⟩)
  · exact hs.register hp e related hrelated

theorem removeCoords (hp : Inherited P) (hs : Every P relations) (events : List (Event K)) :
    Every P (removeCoordsFromRelations relations events) := by
  intro e related hrelated
  unfold removeCoordsFromRelations at hrelated
  rw [Dict.get?_mapValues, Dict.get?_filter] at hrelated
  obtain ⟨old, hold, rfl⟩ := Option.map_eq_some_iff.mp hrelated
  have hget := (Option.filter_eq_some_iff.mp hold).1
  apply hp.sublist (hs e old hget)
  apply List.foldlRecOn (motive := fun l : List (Relation K) => l.Sublist old)
  · exact List.Sublist.refl _
  · intro l hl event _
    exact (pruneFrom_sublist _ _ _).trans hl

end Every

variable [Field K] (h : ClusteringHelper K)

/-- A relation of `event`, as it was made. -/
structure Related (event : Event K) (r : Relation K) : Prop where
  admitted : h.Admitted r
  distance : r.distance = h.geo.distance event.location r.otherEvent.location
  timedelta : r.timedelta = event.timestamp - r.otherEvent.timestamp

/-- Every list has relations of its own event only. -/
def Sound (relations : Relations K) : Prop :=
  ∀ event related, relations.get? event = some related → ∀ r ∈ related, h.Related event r

variable {h}

theorem mem_keys_relate (hx : x ∈ (h.relate event relations other).keys) :
    x = event ∨ x ∈ relations.keys := by
  unfold relate at hx
  split at hx
  · rcases mem_keys_addRelation.mp hx with hx | hx
    · exact Or.inl hx
    · exact mem_keys_registerAt hx
  · exact mem_keys_registerAt hx

theorem mem_keys_relate_of_mem (hx : x ∈ relations.keys) :
    x ∈ (h.relate event relations other).keys := by
  unfold relate
  split
  · exact mem_keys_addRelation.mpr (Or.inr (mem_keys_registerAt_of_mem hx))
  · exact mem_keys_registerAt_of_mem hx

theorem self_mem_keys_relate : event ∈ (h.relate event relations event).keys := by
  unfold relate
  split
  · exact mem_keys_addRelation.mpr (Or.inl rfl)
  · rw [registerAt, if_pos rfl]
    exact mem_keys_register.mpr (Or.inl rfl)

theorem Every.relate {P : Event K → List (Relation K) → Prop} (hp : Inherited P) (hs : Every P relations)
    (hnew : h.Admitted (h.relation event other) → ∀ related, P event related →
      (∀ r ∈ related, r.otherEvent.location ≠ other.location) →
        P event (related ++ [h.relation event other])) :
    Every P (h.relate event relations other) := by
  unfold ClusteringHelper.relate
  split
  · next hadmitted => exact (hs.registerAt hp).addRelation hp (hnew hadmitted)
  · exact hs.registerAt hp

omit [Field K] [LinearOrder K] in
/-- What holds of a list as soon as it holds of each relation. -/
theorem inherited_forall (Q : Event K → Relation K → Prop) :
    Inherited fun event related => ∀ r ∈ related, Q event r where
  nil := by
    intro event r hr
    cases hr
  sublist := fun hall hleft r hr => hall r (hleft.subset hr)

omit [Field K] [LinearOrder K] in
/-- One relation for each location. -/
theorem inherited_nodup :
    Inherited fun (_ : Event K) related => (related.map (·.otherEvent.location)).Nodup where
  nil := fun _ => List.nodup_nil
  sublist := fun hnodup hleft => hnodup.sublist (hleft.map _)

theorem Sound.removeCoords (hs : h.Sound relations) (events : List (Event K)) :
    h.Sound (removeCoordsFromRelations relations events) :=
  Every.removeCoords (inherited_forall h.Related) hs events

/-! ## The relations of a queue -/

/-- The relations of one more event of the queue. -/
def relateAll (h : ClusteringHelper K) (queue : List (Event K)) (relations : Relations K)
    (event : Event K) : Relations K :=
  queue.foldl (h.relate event) relations

theorem mem_keys_relateAll_of_mem {queue : List (Event K)} (hx : x ∈ relations.keys) :
    x ∈ (h.relateAll queue relations event).keys := by
  unfold relateAll
  apply List.foldlRecOn (motive := fun rel : Relations K => x ∈ rel.keys) _ _ hx
  intro rel hrel other _
  exact mem_keys_relate_of_mem hrel

theorem mem_keys_relateAll {queue : List (Event K)} (hx : x ∈ (h.relateAll queue relations event).keys) :
    x = event ∨ x ∈ relations.keys := by
  revert hx
  unfold relateAll
  apply List.foldlRecOn
    (motive := fun rel : Relations K => x ∈ rel.keys → x = event ∨ x ∈ relations.keys) _ _ Or.inr
  intro rel ih other _ hx
  rcases mem_keys_relate hx with hx | hx
  · exact Or.inl hx
  · exact ih hx

/-- An event of the queue enters at the latest when it meets itself. -/
theorem self_mem_keys_relateAll {queue : List (Event K)} (hevent : event ∈ queue) :
    event ∈ (h.relateAll queue relations event).keys := by
  obtain ⟨pre, post, rfl⟩ := List.append_of_mem hevent
  have hself : event ∈ (h.relate event (pre.foldl (h.relate event) relations) event).keys :=
    self_mem_keys_relate
  have hrest : event ∈ (h.relateAll post
      (h.relate event (pre.foldl (h.relate event) relations) event) event).keys :=
    mem_keys_relateAll_of_mem hself
  simpa [relateAll] using hrest

theorem getRelations_eq (queue : List (Event K)) :
    h.getRelationsInRangeWithinTime queue = queue.foldl (h.relateAll queue) .empty := rfl

/-- What holds of every list, since it holds of the empty one and still does with one more
relation to an event of the queue. -/
theorem every_getRelations {P : Event K → List (Relation K) → Prop} (hp : Inherited P)
    {queue : List (Event K)}
    (hnew : ∀ event, ∀ other ∈ queue, h.Admitted (h.relation event other) → ∀ related,
      P event related → (∀ r ∈ related, r.otherEvent.location ≠ other.location) →
        P event (related ++ [h.relation event other])) :
    Every P (h.getRelationsInRangeWithinTime queue) := by
  rw [getRelations_eq]
  apply List.foldlRecOn
  · intro event related hnone
    cases hnone
  · intro relations hs event _
    apply List.foldlRecOn (motive := Every P) _ _ hs
    intro relations hs other hother
    exact hs.relate hp (hnew event other hother)

theorem every_forall_getRelations {Q : Event K → Relation K → Prop} {queue : List (Event K)}
    (hnew : ∀ event, ∀ other ∈ queue, h.Admitted (h.relation event other) →
      Q event (h.relation event other)) :
    Every (fun event related => ∀ r ∈ related, Q event r) (h.getRelationsInRangeWithinTime queue) := by
  apply every_getRelations (inherited_forall Q)
  intro event other hother hadmitted related hrelated _ r hr
  rcases List.mem_append.mp hr with hr | hr
  · exact hrelated r hr
  · rw [List.mem_singleton.mp hr]
    exact hnew event other hother hadmitted

theorem sound_getRelations (queue : List (Event K)) : h.Sound (h.getRelationsInRangeWithinTime queue) :=
  every_forall_getRelations fun _ _ _ hadmitted => ⟨hadmitted, rfl, rfl⟩

/-- No two relations of an event are to one location. -/
theorem nodup_getRelations (queue : List (Event K)) :
    Every (fun _ related => (related.map (·.otherEvent.location)).Nodup)
      (h.getRelationsInRangeWithinTime queue) := by
  apply every_getRelations inherited_nodup
  intro event other _ _ related hnodup hother
  rw [List.map_append, List.map_singleton, List.nodup_append]
  refine ⟨hnodup, List.nodup_singleton _, ?_⟩
  intro l hl l' hl'
  obtain ⟨r, hr, rfl⟩ := List.mem_map.mp hl
  rw [List.mem_singleton.mp hl']
  exact hother r hr

/-- The events of the queue, and no others, have relations. -/
theorem mem_keys_getRelations {queue : List (Event K)} :
    x ∈ (h.getRelationsInRangeWithinTime queue).keys ↔ x ∈ queue := by
  rw [getRelations_eq]
  constructor
  · apply List.foldlRecOn (motive := fun rel : Relations K => x ∈ rel.keys → x ∈ queue)
    · intro hx; cases hx
    · intro rel ih event hevent hx
      rcases mem_keys_relateAll hx with rfl | hx
      · exact hevent
      · exact ih hx
  · intro hx
    have hwhole : ∀ l : List (Event K), x ∈ l → ∀ rel : Relations K,
        x ∈ (l.foldl (h.relateAll queue) rel).keys := by
      intro l hl rel
      obtain ⟨pre, post, rfl⟩ := List.append_of_mem hl
      rw [List.foldl_append, List.foldl_cons]
      apply List.foldlRecOn (motive := fun rel : Relations K => x ∈ rel.keys) _ _
        (self_mem_keys_relateAll hx)
      intro rel hrel event _
      exact mem_keys_relateAll_of_mem hrel
    exact hwhole queue hx _

end ClusteringHelper

end MapADroid.Clustering
