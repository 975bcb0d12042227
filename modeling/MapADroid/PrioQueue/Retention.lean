import MapADroid.PrioQueue.Queue

/- Events in the queue across updates (`MonSpawnPrioStrategy`, clustering left out).

   A merge drops what is not due yet and relies on the coords just retrieved to have it
   again. Those are the spawns that start from now on; an event is due only some delay
   after its start. An event that has started but is not due at an update is therefore
   dropped (`started_event_dropped`), and no other event is lost before its backlog is
   over (`event_retained`). -/
namespace MapADroid.PrioQueue
open Lib

variable {L : Type} (rows : List (TrsSpawn L)) (inside : L → Bool) (maxBacklogDuration : Option Int)
  (delay : Int)

/-- The strategy, with every event its own cluster. -/
abbrev monSpawn : Strategy L := monSpawnPrioStrategy rows inside id maxBacklogDuration delay

/-- The event was found, at the moment `since` or before, as the start of a spawn. -/
def Found (since : Int) (x : RoutePriorityQueueEntry L) : Prop :=
  ∃ spawn ∈ rows, inside spawn.location = true ∧ x.location = spawn.location ∧
    ∃ found, found ≤ since ∧ spawnTime found spawn = x.timestampDue - delay ∧
      found ≤ x.timestampDue - delay ∧ x.timestampDue - delay ≤ found + 600

/-- At a merge, the event had not started when the coords were retrieved, or is due. -/
def NotStarted (x : RoutePriorityQueueEntry L) (s : State L) : Action → Prop
  | .merge now => ∀ r ∈ s.retrieved, ¬ (x.timestampDue - delay < r.readAt ∧ now < x.timestampDue)
  | _ => True

/-- The action pops the event. -/
def Pops (x : RoutePriorityQueueEntry L) (s : State L) : Action → Prop
  | .pop now => (popEvent now s.queue).1 = some x
  | _ => False

/-- An empty queue, and no update in progress. -/
def Initial (s : State L) : Prop := s.queue = [] ∧ s.retrieved = none

/-- The events in the queue were found before the update in progress began. -/
structure Inv (s : State L) : Prop where
  queue : ∀ x ∈ s.queue, Found rows inside delay (s.retrieved.elim s.time Retrieval.readAt) x
  retrieved : ∀ r, s.retrieved = some r → r.readAt ≤ s.time ∧
    r.coords = (monSpawn rows inside maxBacklogDuration delay).postprocessCoords
      ((monSpawn rows inside maxBacklogDuration delay).retrieveNewCoords r.readAt)

variable {rows inside maxBacklogDuration delay} {x : RoutePriorityQueueEntry L} {s t : State L}
  {a : Action}

theorem Found.mono {since since' : Int} (h : Found rows inside delay since x) (hle : since ≤ since') :
    Found rows inside delay since' x := by
  obtain ⟨spawn, hspawn, hinside, hlocation, found, hfound, hrest⟩ := h
  exact ⟨spawn, hspawn, hinside, hlocation, found, Int.le_trans hfound hle, hrest⟩

/-- What an update retrieves. -/
theorem mem_retrieved {now : Int} :
    x ∈ (monSpawn rows inside maxBacklogDuration delay).postprocessCoords
        ((monSpawn rows inside maxBacklogDuration delay).retrieveNewCoords now) ↔
      ∃ spawn ∈ rows, inside spawn.location = true ∧ x.location = spawn.location ∧
        spawnTime now spawn = x.timestampDue - delay ∧ now ≤ x.timestampDue - delay ∧
        x.timestampDue - delay ≤ now + 600 := by
  have h600 : (600 : Int) ≠ 0 := by omega
  simp only [monSpawnPrioStrategy, id, List.map_map, List.mem_map, Function.comp_apply,
    mem_processNextToEncounter h600]
  constructor
  · rintro ⟨p, ⟨spawn, hspawn, hinside, rfl, hstart, hlimit⟩, rfl⟩
    exact ⟨spawn, hspawn, hinside, rfl, by simp only; omega, by simp only at *; omega,
      by simp only at *; omega⟩
  · rintro ⟨spawn, hspawn, hinside, hlocation, hstart, hnow, hlimit⟩
    refine ⟨(spawnTime now spawn, spawn.location), ⟨spawn, hspawn, hinside, rfl, ?_, ?_⟩, ?_⟩
    · simp only; omega
    · simp only; omega
    · obtain ⟨due, location⟩ := x
      simp only at hlocation hstart ⊢
      rw [hlocation, hstart]
      congr 1
      omega

/-- What a merge leaves in the queue. -/
theorem mem_mergeFilterQueue {now : Int} {queue coords : List (RoutePriorityQueueEntry L)} :
    x ∈ mergeFilterQueue (monSpawn rows inside maxBacklogDuration delay) now queue coords ↔
      (x ∈ queue ∧ x.timestampDue ≤ now ∧
        ((monSpawn rows inside maxBacklogDuration delay).getMaxBacklogDuration = 0 ∨
          now - (monSpawn rows inside maxBacklogDuration delay).getMaxBacklogDuration <
            x.timestampDue)) ∨ x ∈ coords := by
  have hmerge : mergeFilterQueue (monSpawn rows inside maxBacklogDuration delay) now queue coords =
      Heapq.heapify RoutePriorityQueueEntry.lt
        (mergeQueues (monSpawn rows inside maxBacklogDuration delay) now queue coords) := rfl
  rw [hmerge, (Heapq.heapify_perm _).mem_iff]
  unfold mergeQueues
  rw [List.mem_append, List.mem_filter]
  simp only [Bool.and_eq_true, Bool.or_eq_true, decide_eq_true_eq]

/-- What was popped was in the queue, and what is left was. -/
theorem mem_popEvent {now : Int} {queue : List (RoutePriorityQueueEntry L)} :
    x ∈ queue ↔ (popEvent now queue).1 = some x ∨ x ∈ (popEvent now queue).2 := by
  have hperm := (popEvent_perm now queue).mem_iff (a := x)
  rw [List.mem_append, Option.mem_toList] at hperm
  exact hperm

/-! ## Steps -/

theorem step_time {strategy : Strategy L} (hs : Step strategy s a t) : s.time ≤ t.time := by
  cases hs with
  | retrieve hnow _ => exact hnow
  | merge hnow _ => exact hnow
  | pop hnow => exact hnow

theorem Inv.step (h : Inv rows inside maxBacklogDuration delay s)
    (hs : Step (monSpawn rows inside maxBacklogDuration delay) s a t) :
    Inv rows inside maxBacklogDuration delay t := by
  cases hs with
  | @retrieve now hnow hnone =>
    refine ⟨?_, ?_⟩
    · intro x hx
      have hfound := h.queue x hx
      rw [hnone] at hfound
      exact hfound.mono hnow
    · intro r hr
      cases hr
      exact ⟨le_rfl, rfl⟩
  | @merge now r hnow hsome =>
    obtain ⟨hread, hcoords⟩ := h.retrieved r hsome
    refine ⟨?_, fun r hr => by cases hr⟩
    intro x hx
    show Found rows inside delay now x
    rcases mem_mergeFilterQueue.mp hx with ⟨hold, _⟩ | hnew
    · have hfound := h.queue x hold
      rw [hsome] at hfound
      exact hfound.mono (Int.le_trans hread hnow)
    -- A new event was found when the coords were read, so before the merge.
    · rw [hcoords, mem_retrieved] at hnew
      obtain ⟨spawn, hspawn, hinside, hlocation, hstart⟩ := hnew
      exact ⟨spawn, hspawn, hinside, hlocation, r.readAt, Int.le_trans hread hnow, hstart⟩
  | @pop now hnow =>
    refine ⟨?_, ?_⟩
    · intro x hx
      have hfound := h.queue x (mem_popEvent.mpr (Or.inr hx))
      cases hsome : s.retrieved with
      | none => rw [hsome] at hfound; exact hfound.mono hnow
      | some r => rw [hsome] at hfound; exact hfound
    · intro r hr
      obtain ⟨hread, hcoords⟩ := h.retrieved r hr
      exact ⟨Int.le_trans hread hnow, hcoords⟩

/-- A step that neither pops the event nor finds it started and not due keeps it, until
its backlog is over. -/
theorem step_keeps (h : Inv rows inside maxBacklogDuration delay s)
    (hs : Step (monSpawn rows inside maxBacklogDuration delay) s a t)
    (hstart : NotStarted delay x s a) (hpop : ¬ Pops x s a)
    (hbacklog : t.time < x.timestampDue +
      (monSpawn rows inside maxBacklogDuration delay).getMaxBacklogDuration)
    (hx : x ∈ s.queue) : x ∈ t.queue := by
  cases hs with
  | retrieve hnow hnone => exact hx
  | @merge now r hnow hsome =>
    obtain ⟨hread, hcoords⟩ := h.retrieved r hsome
    apply mem_mergeFilterQueue.mpr
    have hbacklog : now < x.timestampDue +
      (monSpawn rows inside maxBacklogDuration delay).getMaxBacklogDuration := hbacklog
    by_cases hdue : x.timestampDue ≤ now
    · exact Or.inl ⟨hx, hdue, Or.inr (by omega)⟩
    · -- It is not due and is dropped, but starts after the retrieval, which had it.
      right
      have hlater : r.readAt ≤ x.timestampDue - delay := by
        by_contra hearlier
        exact hstart r hsome ⟨by omega, by omega⟩
      have hfound := h.queue x hx
      rw [hsome] at hfound
      obtain ⟨spawn, hspawn, hinside, hlocation, found, hbefore, htime, hahead, hsoon⟩ := hfound
      have hbefore : found ≤ r.readAt := hbefore
      rw [hcoords, mem_retrieved]
      exact ⟨spawn, hspawn, hinside, hlocation, spawnTime_eq htime hbefore hlater (by omega), hlater,
        by omega⟩
  | @pop now hnow =>
    rcases mem_popEvent.mp hx with hpopped | hleft
    · exact absurd hpopped hpop
    · exact hleft

/-- An event in the queue stays there, whatever is popped and updated, until it is popped
itself or its backlog is over. -/
theorem event_retained {s₀ : State L} {l m : List Action} (h0 : Initial s₀)
    (hs : Run (step (monSpawn rows inside maxBacklogDuration delay)) Any s₀ l s) (hx : x ∈ s.queue)
    (ht : Run (step (monSpawn rows inside maxBacklogDuration delay))
      (fun u a => NotStarted delay x u a ∧ ¬ Pops x u a) s m t)
    (hbacklog : t.time < x.timestampDue +
      (monSpawn rows inside maxBacklogDuration delay).getMaxBacklogDuration) :
    x ∈ t.queue := by
  have hinv : Inv rows inside maxBacklogDuration delay s := by
    refine Run.invariant hs ⟨?_, ?_⟩ fun u a v h _ hstep => h.step (step_some hstep)
    · intro y hy; rw [h0.1] at hy; cases hy
    · intro r hr; rw [h0.2] at hr; cases hr
  have hall := Run.invariant (I := fun u => Inv rows inside maxBacklogDuration delay u ∧
      (u.time < x.timestampDue +
        (monSpawn rows inside maxBacklogDuration delay).getMaxBacklogDuration → x ∈ u.queue)) ht
    ⟨hinv, fun _ => hx⟩ (by
      intro u a v hkept hquiet hstep
      obtain ⟨hu, hmem⟩ := hkept
      obtain ⟨hstart, hpop⟩ := hquiet
      have hstep := step_some hstep
      have htime := step_time hstep
      refine ⟨hu.step hstep, ?_⟩
      intro hlt
      exact step_keeps hu hstep hstart hpop hlt (hmem (by omega)))
  exact hall.2 hbacklog

section
variable [DecidableEq L]

instance (x : RoutePriorityQueueEntry L) (s : State L) : (a : Action) → Decidable (Pops x s a)
  | .pop now => inferInstanceAs (Decidable ((popEvent now s.queue).1 = some x))
  | .retrieve _ | .merge _ => isFalse id

instance (x : RoutePriorityQueueEntry L) (s : State L) : (a : Action) → Decidable (NotStarted delay x s a)
  | .merge now => inferInstanceAs (Decidable (∀ r ∈ s.retrieved,
      ¬ (x.timestampDue - delay < r.readAt ∧ now < x.timestampDue)))
  | .retrieve _ | .pop _ => isTrue trivial

end

/-- A spawn of half an hour that ends at 39:50 and starts at 9:50, so at second 590. -/
def spawn3950 : TrsSpawn Unit := ⟨(), 39, 50, 1⟩

/-- Its event, due a minute after the start. -/
def event650 : RoutePriorityQueueEntry Unit := ⟨650, ()⟩

abbrev oneSpawn : Strategy Unit := monSpawn [spawn3950] (fun _ => true) none 60

/-- The queue after the first update. -/
def updatedOnce : State Unit := after (step oneSpawn) Any ⟨[], none, 0⟩ [.retrieve 0, .merge 0]

/-- An update 10 seconds before the start, and one that begins once the event is due. -/
def updatedLater : State Unit :=
  after (step oneSpawn) (fun u a => NotStarted 60 event650 u a ∧ ¬ Pops event650 u a) updatedOnce
    [.retrieve 575, .pop 580, .merge 580, .retrieve 660, .merge 700]

theorem event_retained_later : event650 ∈ updatedLater.queue := by
  have hinit : Initial (⟨[], none, 0⟩ : State Unit) := ⟨rfl, rfl⟩
  have hfirst : Run (step oneSpawn) Any ⟨[], none, 0⟩ [.retrieve 0, .merge 0] updatedOnce :=
    .of_after (by decide)
  exact event_retained hinit hfirst (by decide) (.of_after (by decide)) (by decide)

/-- An update between the start and the moment the event is due. -/
def updatedBetween : State Unit :=
  after (step oneSpawn) (fun u a => ¬ Pops event650 u a) updatedOnce [.retrieve 600, .merge 600]

theorem started_event_dropped : ¬ ∀ (rows : List (TrsSpawn Unit)) (inside : Unit → Bool)
    (maxBacklogDuration : Option Int) (delay : Int) (s₀ s t : State Unit) (l m : List Action)
    (x : RoutePriorityQueueEntry Unit), 0 ≤ delay → Initial s₀ →
    Run (step (monSpawn rows inside maxBacklogDuration delay)) Any s₀ l s → x ∈ s.queue →
    Run (step (monSpawn rows inside maxBacklogDuration delay)) (fun u a => ¬ Pops x u a) s m t →
    t.time < x.timestampDue +
      (monSpawn rows inside maxBacklogDuration delay).getMaxBacklogDuration →
    x ∈ t.queue := by
  intro h
  have hfirst : Run (step oneSpawn) Any ⟨[], none, 0⟩ [.retrieve 0, .merge 0] updatedOnce :=
    .of_after (by decide)
  have hsecond : Run (step oneSpawn) (fun u a => ¬ Pops event650 u a) updatedOnce
      [.retrieve 600, .merge 600] updatedBetween := .of_after (by decide)
  have hkept := h [spawn3950] (fun _ => true) none 60 _ updatedOnce updatedBetween _ _ event650
    (by decide) ⟨rfl, rfl⟩ hfirst (by decide) hsecond (by decide)
  exact absurd hkept (by decide)

end MapADroid.PrioQueue
