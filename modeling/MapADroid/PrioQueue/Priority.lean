import MapADroid.Lib.HeapOrder
import MapADroid.PrioQueue.Queue

/- The order in which events leave the queue.

   Here any number of updates are in progress, and each is in three steps: its coords are
   retrieved, it merges them while it holds the lock, and it puts the merged list in
   place. The strategy may be another one each time, so that `filter_queue` may raise at
   one merge and not at the next.

   The queue is a heap as long as it is replaced by heaps. `heapify` makes one, but where
   `filter_queue` raises the coords are taken as they come (`merged_isHeap_iff`), and then
   the first of them may not be due while another one is (`late_event_hidden`). -/
namespace MapADroid.PrioQueue
open Lib

variable {L : Type}

/-- `get_copy_of_prioq`: what is popped off a copy of the queue. -/
def getCopyOfPrioq (queue : List (RoutePriorityQueueEntry L)) : List (RoutePriorityQueueEntry L) :=
  Heapq.drain RoutePriorityQueueEntry.lt queue.length queue

namespace Priority

/-- `RoutePriorityQueue`, with the updates in progress. -/
structure State (L : Type) where
  queue : List (RoutePriorityQueueEntry L)
  /-- The coords of the updates that wait for the lock. -/
  retrieved : List (List (RoutePriorityQueueEntry L))
  /-- What the update that holds the lock has merged. -/
  merged : Option (List (RoutePriorityQueueEntry L))

inductive Action (L : Type) where
  /-- The coords of an update have been retrieved and post-processed. -/
  | retrieve (coords : List (RoutePriorityQueueEntry L))
  /-- `__merge_filter_queue` of an update, which takes the lock for it. -/
  | merge (update : Nat) (strategy : Strategy L) (now : Int)
  /-- The merged list is put in place, and the lock released. -/
  | replace
  /-- The update that holds the lock is cancelled. -/
  | cancel
  /-- `pop_event`. -/
  | pop (now : Int)
  /-- `get_copy_of_prioq`, for which no lock is taken. -/
  | copy

namespace State

def init : State L := ⟨[], [], none⟩

def step (s : State L) : Action L → Option (State L)
  | .retrieve coords => some { s with retrieved := s.retrieved ++ [coords] }
  | .merge update strategy now =>
    match s.merged, s.retrieved[update]? with
    | none, some coords =>
      some { s with
        retrieved := s.retrieved.eraseIdx update
        merged := some (mergeFilterQueue strategy now s.queue coords) }
    | _, _ => none
  | .replace =>
    match s.merged with
    | some merged => some { s with queue := merged, merged := none }
    | none => none
  | .cancel =>
    match s.merged with
    | some _ => some { s with merged := none }
    | none => none
  | .pop now =>
    match s.merged with
    | some _ => none
    | none => some { s with queue := (popEvent now s.queue).2 }
  | .copy => some s

/-- Events leave the queue in order: it is a heap, so that an event that is popped is due and a first one, none
is popped only if none is due, and a copy is in order. -/
structure Ordered (s : State L) : Prop where
  heap : Heapq.IsHeap RoutePriorityQueueEntry.lt s.queue
  popped : ∀ now, ∀ event ∈ (popEvent now s.queue).1, event ∈ s.queue ∧ event.timestampDue ≤ now ∧
    ∀ other ∈ s.queue, event.timestampDue ≤ other.timestampDue
  noDueEntry : ∀ now, (popEvent now s.queue).1 = none → ∀ event ∈ s.queue, now < event.timestampDue
  copied : (getCopyOfPrioq s.queue).Perm s.queue ∧
    (getCopyOfPrioq s.queue).Pairwise fun event other => event.timestampDue ≤ other.timestampDue
  unchanged : s.step .copy = some s

/-- What `filter_queue` gets at a merge. -/
def unfiltered (strategy : Strategy L) (now : Int) (queue coords : List (RoutePriorityQueueEntry L)) :
    List (RoutePriorityQueueEntry L) :=
  if strategy.fullReplaceQueue then coords else mergeQueues strategy now queue coords

/-- Where `filter_queue` raises, the coords are a heap as they come. -/
def MergesHeap (s : State L) : Action L → Prop
  | .merge update strategy now => ∀ coords ∈ s.retrieved[update]?,
      strategy.filterQueue (unfiltered strategy now s.queue coords) = none →
      Heapq.IsHeap RoutePriorityQueueEntry.lt coords
  | _ => True

instance (s : State L) : (a : Action L) → Decidable (s.MergesHeap a)
  | .retrieve _ => isTrue trivial
  | .merge update strategy now => inferInstanceAs (Decidable (∀ coords ∈ s.retrieved[update]?,
      strategy.filterQueue (unfiltered strategy now s.queue coords) = none →
      Heapq.IsHeap RoutePriorityQueueEntry.lt coords))
  | .replace => isTrue trivial
  | .cancel => isTrue trivial
  | .pop _ => isTrue trivial
  | .copy => isTrue trivial

end State

/-! ## Heaps of events -/

theorem lt_weak : Heapq.Weak (RoutePriorityQueueEntry.lt (L := L)) where
  asymm := by
    intro a b h
    unfold RoutePriorityQueueEntry.lt at h ⊢
    rw [decide_eq_true_eq] at h
    rw [decide_eq_false_iff_not]
    omega
  trans := by
    intro a b c h h'
    unfold RoutePriorityQueueEntry.lt at h h' ⊢
    rw [decide_eq_false_iff_not] at h h' ⊢
    omega

theorem lt_eq_false {a b : RoutePriorityQueueEntry L} : b.lt a = false ↔ a.timestampDue ≤ b.timestampDue := by
  unfold RoutePriorityQueueEntry.lt
  rw [decide_eq_false_iff_not, Int.not_lt]

/-- What is merged is a heap, unless `filter_queue` raises and the coords are none. -/
theorem merged_isHeap_iff (strategy : Strategy L) (now : Int) (queue coords : List (RoutePriorityQueueEntry L)) :
    Heapq.IsHeap RoutePriorityQueueEntry.lt (mergeFilterQueue strategy now queue coords) ↔
      (strategy.filterQueue (State.unfiltered strategy now queue coords) = none →
        Heapq.IsHeap RoutePriorityQueueEntry.lt coords) := by
  unfold mergeFilterQueue State.unfiltered
  cases hfilter : strategy.filterQueue
      (if strategy.fullReplaceQueue then coords else mergeQueues strategy now queue coords) with
  | none => simp only [hfilter, true_implies]
  | some filtered =>
    simp only [hfilter, reduceCtorEq, false_implies, iff_true]
    exact Heapq.heapify_isHeap lt_weak filtered

/-- What `pop_event` does with a heap. -/
theorem popEvent_spec {queue : List (RoutePriorityQueueEntry L)} (h : Heapq.IsHeap RoutePriorityQueueEntry.lt queue)
    (now : Int) :
    Heapq.IsHeap RoutePriorityQueueEntry.lt (popEvent now queue).2 ∧
      (∀ event ∈ (popEvent now queue).1, event ∈ queue ∧ event.timestampDue ≤ now ∧
        ∀ other ∈ queue, event.timestampDue ≤ other.timestampDue) ∧
      ((popEvent now queue).1 = none → ∀ event ∈ queue, now < event.timestampDue) := by
  cases queue with
  | nil => exact ⟨h, fun event hevent => (by cases hevent), fun _ event hevent => (by cases hevent)⟩
  | cons first rest =>
    have hfirst : ∀ other ∈ first :: rest, first.timestampDue ≤ other.timestampDue := by
      intro other hother
      obtain ⟨i, hi⟩ := List.mem_iff_getElem?.mp hother
      exact lt_eq_false.mp (h.first lt_weak i first rfl other hi)
    simp only [popEvent]
    split
    · next hearly =>
      refine ⟨h, fun event hevent => (by cases hevent), fun _ event hevent => ?_⟩
      have hle := hfirst event hevent
      omega
    · next hdue =>
      cases hpop : Heapq.heappop RoutePriorityQueueEntry.lt (first :: rest) with
      | none => cases Heapq.heappop_eq_none hpop
      | some popped =>
        obtain ⟨event, left⟩ := popped
        obtain ⟨hleft, hleast⟩ := Heapq.heappop_isHeap lt_weak h hpop
        have hmem : event ∈ first :: rest := (Heapq.heappop_perm hpop).mem_iff.mpr List.mem_cons_self
        have hmin : ∀ other ∈ first :: rest, event.timestampDue ≤ other.timestampDue := fun other hother =>
          lt_eq_false.mp (hleast other hother)
        refine ⟨hleft, fun event' hevent => ?_, fun hnone => (by cases hnone)⟩
        cases hevent
        have hle := hmin first List.mem_cons_self
        exact ⟨hmem, by omega, hmin⟩

namespace State

theorem ordered_of_isHeap {s : State L} (h : Heapq.IsHeap RoutePriorityQueueEntry.lt s.queue) : Ordered s where
  heap := h
  popped now := (popEvent_spec h now).2.1
  noDueEntry now := (popEvent_spec h now).2.2
  copied := by
    refine ⟨Heapq.drain_perm _ (Nat.le_refl _), ?_⟩
    exact (Heapq.drain_sorted lt_weak _ h (Nat.le_refl _)).imp fun hle => lt_eq_false.mp hle
  unchanged := rfl

/-- The queue is a heap, and so is what will be put in its place. -/
def Heaps (s : State L) : Prop :=
  Heapq.IsHeap RoutePriorityQueueEntry.lt s.queue ∧ ∀ merged ∈ s.merged, Heapq.IsHeap RoutePriorityQueueEntry.lt merged

theorem Heaps.step {s t : State L} {a : Action L} (h : Heaps s) (hok : s.MergesHeap a) (hs : s.step a = some t) :
    Heaps t := by
  cases a with
  | retrieve coords => cases hs; exact h
  | merge update strategy now =>
    simp only [State.step] at hs
    split at hs
    · next coords hnone hcoords =>
      cases hs
      refine ⟨h.1, fun merged hmerged => ?_⟩
      cases hmerged
      exact (merged_isHeap_iff strategy now s.queue coords).mpr (hok coords hcoords)
    · cases hs
  | replace =>
    simp only [State.step] at hs
    split at hs
    · next merged hmerged =>
      cases hs
      exact ⟨h.2 merged hmerged, fun merged' hmerged' => (by cases hmerged')⟩
    · cases hs
  | cancel =>
    simp only [State.step] at hs
    split at hs
    · cases hs
      exact ⟨h.1, fun merged' hmerged' => (by cases hmerged')⟩
    · cases hs
  | pop now =>
    simp only [State.step] at hs
    split at hs
    · cases hs
    · cases hs
      exact ⟨(popEvent_spec h.1 now).1, h.2⟩
  | copy => cases hs; exact h

/-- While the coords are a heap wherever `filter_queue` raises, events leave the queue in order. -/
theorem events_ordered {s : State L} {l : List (Action L)} (h : Run State.step MergesHeap init l s) : Ordered s := by
  refine ordered_of_isHeap (h.invariant (I := Heaps) ?_ fun _ _ _ hi hok hs => hi.step hok hs).1
  refine ⟨fun i _ _ x hx => ?_, fun merged hmerged => (by cases hmerged)⟩
  cases hx

/-- The queue of one task that updates with one strategy is one of these. -/
theorem run_of_queue_run {strategy : Strategy L} {s : PrioQueue.State L} {time : Int} {l : List PrioQueue.Action}
    (h : Run (PrioQueue.step strategy) Any ⟨[], none, time⟩ l s) :
    ∃ m, Run State.step Any init m ⟨s.queue, (s.retrieved.map (·.coords)).toList, none⟩ := by
  refine h.invariant (I := fun s => ∃ m, Run State.step Any init m ⟨s.queue, (s.retrieved.map (·.coords)).toList, none⟩)
    ⟨[], .nil _⟩ ?_
  rintro s a t ⟨m, hrun⟩ _ hs
  cases step_some hs with
  | @retrieve now _ hnone =>
    rw [hnone] at hrun
    exact ⟨_, hrun.snoc (a := .retrieve (strategy.postprocessCoords (strategy.retrieveNewCoords now))) trivial rfl⟩
  | @merge now r _ hsome =>
    rw [hsome] at hrun
    have hmerged := hrun.snoc (a := .merge 0 strategy now) trivial rfl
    exact ⟨_, hmerged.snoc (a := .replace) trivial rfl⟩
  | @pop now _ => exact ⟨_, hrun.snoc (a := .pop now) trivial rfl⟩

/-! ## A filter that raises -/

/-- A strategy whose filter raises. -/
def raising : Strategy Nat where
  updateInterval := 600
  fullReplaceQueue := false
  maxBacklogDuration := none
  delayAfterEvent := 0
  retrieveNewCoords _ := []
  filterQueue _ := none
  postprocessCoords coords := coords

theorem events_ordered_inOrder : Ordered (after State.step MergesHeap (init : State Nat)
    [.retrieve [⟨1, 0⟩, ⟨5, 1⟩], .merge 0 raising 3, .replace, .pop 3]) :=
  events_ordered (.of_after (by decide +kernel))

/-- The coords are not in order and the filter raises: an event that is due is behind one that is not. -/
theorem late_event_hidden : ¬ ∀ (s : State Nat) (l : List (Action Nat)), Run State.step Any init l s → Ordered s := by
  intro h
  have hordered := h _ [.retrieve [⟨5, 0⟩, ⟨1, 1⟩], .merge 0 raising 3, .replace] (.of_after (by decide +kernel))
  have hlate := hordered.noDueEntry 3 (by decide +kernel) ⟨1, 1⟩ (by decide +kernel)
  exact absurd hlate (by decide)

end State

end Priority

end MapADroid.PrioQueue
