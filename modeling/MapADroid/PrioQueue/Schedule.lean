import MapADroid.Lib.Windows
import MapADroid.PrioQueue.Queue
import Mathlib.Algebra.Order.Ring.Int

/- The updates of a prio queue of spawns, one after another.

   The loop sleeps for the update interval after an update, and an update looks that far
   ahead of the moment it reads the clock. Processing takes time on both sides of that
   moment, so the next window opens later than the last one ends by what the processing
   took: a start in the gap is in none (`start_scheduled_iff`). The clock counts
   microseconds here, the spawns whole seconds. -/
namespace MapADroid.PrioQueue
open Lib

variable {L : Type}

/-- The processing time of an update, before and after it reads the clock. -/
structure Processing where
  beforeRead : Nat
  afterRead : Nat

/-- `.replace(microsecond=0)`. -/
def wholeSecond (t : Int) : Int := t / 1000000

/-- `_update_priority_queue_loop`: what each update retrieves, the first one starting at `t`. -/
def updatePriorityQueueLoop (strategy : Strategy L) : Int → List Processing →
    List (List (RoutePriorityQueueEntry L))
  | _, [] => []
  | t, p :: ps => strategy.retrieveNewCoords (wholeSecond (t + p.beforeRead)) ::
      updatePriorityQueueLoop strategy
        (t + p.beforeRead + p.afterRead + 1000000 * strategy.updateInterval) ps

/-- The seconds at which the updates read the clock. -/
def reads (interval : Int) : Int → List Processing → List Int
  | _, [] => []
  | t, p :: ps => wholeSecond (t + p.beforeRead) ::
      reads interval (t + p.beforeRead + p.afterRead + 1000000 * interval) ps

theorem updatePriorityQueueLoop_eq (strategy : Strategy L) (t : Int) (ps : List Processing) :
    updatePriorityQueueLoop strategy t ps =
      (reads strategy.updateInterval t ps).map strategy.retrieveNewCoords := by
  induction ps generalizing t with
  | nil => rfl
  | cons p ps ih => rw [updatePriorityQueueLoop, reads, List.map_cons, ih]

/-- The clock is read at moments that do not decrease. -/
theorem reads_sorted {interval : Int} (h : 0 ≤ interval) (t : Int) (ps : List Processing) :
    (∀ r ∈ reads interval t ps, wholeSecond t ≤ r) ∧ (reads interval t ps).Pairwise (· ≤ ·) := by
  induction ps generalizing t with
  | nil => simp [reads]
  | cons p ps ih =>
    obtain ⟨hfrom, hsorted⟩ := ih (t + p.beforeRead + p.afterRead + 1000000 * interval)
    have hread : wholeSecond t ≤ wholeSecond (t + p.beforeRead) := by
      unfold wholeSecond
      omega
    have hnext : wholeSecond (t + p.beforeRead) ≤
        wholeSecond (t + p.beforeRead + p.afterRead + 1000000 * interval) := by
      unfold wholeSecond
      omega
    rw [reads]
    constructor
    · intro r hr
      rcases List.mem_cons.mp hr with rfl | hr
      · exact hread
      · exact (hread.trans hnext).trans (hfrom r hr)
    · apply List.Pairwise.cons _ hsorted
      intro r hr
      exact hnext.trans (hfrom r hr)

/-- A spawn of the spawnpoint starts at `s`: it ends at its minute and second of an hour. -/
def StartsAt (spawn : TrsSpawn L) (s : Int) : Prop :=
  (s + 60 * spawnDurationMinutes spawn) % 3600 = 60 * (spawn.minutes.val : Int) + (spawn.seconds.val : Int)

instance (spawn : TrsSpawn L) (s : Int) : Decidable (StartsAt spawn s) :=
  inferInstanceAs (Decidable (_ = _))

/-- In the next ten minutes, the starts that are found are those of the spawns of half an hour. -/
theorem spawnTime_eq_iff {spawn : TrsSpawn L} {now s : Int} (hnow : now ≤ s) (hs : s ≤ now + 600) :
    spawnTime now spawn = s ↔ spawn.spawndef ≠ 15 ∧ StartsAt spawn s := by
  obtain ⟨hfrom, hto, hmod⟩ := despawnTime_next now spawn
  unfold spawnTime StartsAt
  by_cases hdef : spawn.spawndef = 15
  · have hduration : spawnDurationMinutes spawn = 60 := if_pos hdef
    rw [hduration]
    constructor
    · intro h
      omega
    · intro h
      exact absurd hdef h.1
  · have hduration : spawnDurationMinutes spawn = 30 := if_neg hdef
    rw [hduration]
    constructor
    · intro h
      exact ⟨hdef, by omega⟩
    · intro h
      obtain ⟨_, hstart⟩ := h
      omega

section
variable {rows : List (TrsSpawn L)} {inside : L → Bool} {getClustered : List (Int × L) → List (Int × L)}
  {backlog : Option Int} {delay : Int}

/-- A spawnpoint of half an hour at `location` in the fence has a spawn that starts at `s`. -/
def HalfHourStart (rows : List (TrsSpawn L)) (inside : L → Bool) (location : L) (s : Int) : Prop :=
  ∃ spawn ∈ rows, inside spawn.location = true ∧ spawn.location = location ∧ spawn.spawndef ≠ 15 ∧
    StartsAt spawn s

theorem mem_retrieveNewCoords {now s : Int} {location : L} :
    ⟨s, location⟩ ∈ (monSpawnPrioStrategy rows inside getClustered backlog delay).retrieveNewCoords now ↔
      HalfHourStart rows inside location s ∧ now ≤ s ∧ s ≤ now + 600 := by
  have hentry : ⟨s, location⟩ ∈
      (monSpawnPrioStrategy rows inside getClustered backlog delay).retrieveNewCoords now ↔
        (s, location) ∈ processNextToEncounter inside (some 600) now rows := by
    simp [monSpawnPrioStrategy]
  rw [hentry, mem_processNextToEncounter (by omega)]
  constructor
  · intro h
    obtain ⟨spawn, hspawn, hinside, hp, hnow, hs⟩ := h
    obtain ⟨htime, hlocation⟩ := Prod.mk.injEq .. ▸ hp
    have hstart := (spawnTime_eq_iff hnow hs).mp htime.symm
    exact ⟨⟨spawn, hspawn, hinside, hlocation.symm, hstart⟩, hnow, hs⟩
  · intro h
    obtain ⟨⟨spawn, hspawn, hinside, hlocation, hstart⟩, hnow, hs⟩ := h
    have htime := (spawnTime_eq_iff hnow hs).mpr hstart
    exact ⟨spawn, hspawn, hinside, by rw [htime, hlocation], hnow, hs⟩

/-- A start between the first and the last update is retrieved by one of them exactly if it is
that of a spawn of half an hour and in no gap between the windows of two updates. -/
theorem start_scheduled_iff {t s : Int} {ps : List Processing} {location : L}
    (hfirst : ∃ r ∈ (reads 600 t ps).head?, r ≤ s) (hlast : ∃ r ∈ (reads 600 t ps).getLast?, s ≤ r) :
    (∃ coords ∈ updatePriorityQueueLoop (monSpawnPrioStrategy rows inside getClustered backlog delay) t ps,
        ⟨s, location⟩ ∈ coords) ↔
      HalfHourStart rows inside location s ∧ (reads 600 t ps).IsChain (NoGap 600 s) := by
  have hsorted := (reads_sorted (by omega : (0 : Int) ≤ 600) t ps).2
  rw [← covered_iff (by omega) hsorted hfirst hlast, updatePriorityQueueLoop_eq]
  constructor
  · intro h
    obtain ⟨coords, hcoords, hmem⟩ := h
    obtain ⟨r, hr, rfl⟩ := List.mem_map.mp hcoords
    obtain ⟨hstart, hwindow⟩ := mem_retrieveNewCoords.mp hmem
    exact ⟨hstart, r, hr, hwindow⟩
  · intro h
    obtain ⟨hstart, r, hr, hwindow⟩ := h
    exact ⟨_, List.mem_map.mpr ⟨r, hr, rfl⟩, mem_retrieveNewCoords.mpr ⟨hstart, hwindow⟩⟩

/-- Updates that follow each other within 601 whole seconds leave no gap. -/
theorem no_gap_of_quick {rs : List Int} (h : rs.IsChain fun r r' => r' ≤ r + 601) (s : Int) :
    rs.IsChain (NoGap 600 s) := by
  apply h.imp
  intro r r' hrr'
  unfold NoGap
  omega

end

/-- A spawn that ends in minute 40. -/
def spawnpoint : TrsSpawn Nat := ⟨0, ⟨40, by decide⟩, ⟨1, by decide⟩, 1⟩

/-- Two updates without processing time find the start. -/
theorem spawnpoint_scheduled :
    ∃ coords ∈ updatePriorityQueueLoop (monSpawnPrioStrategy [spawnpoint] (fun _ => true) id none 0)
        1000000 [⟨0, 0⟩, ⟨0, 0⟩], ⟨601, 0⟩ ∈ coords :=
  (start_scheduled_iff ⟨1, rfl, by decide⟩ ⟨601, rfl, by decide⟩).mpr
    ⟨⟨spawnpoint, by simp, rfl, rfl, by decide, by decide⟩, by decide⟩

/-- The first update reads the clock in second 0 and takes two seconds: the start in second
601 is after its window, and before the next one. -/
theorem start_in_gap :
    ¬ ∀ (rows : List (TrsSpawn Nat)) (inside : Nat → Bool) (t : Int) (ps : List Processing)
      (spawn : TrsSpawn Nat) (s : Int), spawn ∈ rows → inside spawn.location = true → StartsAt spawn s →
      spawn.spawndef ≠ 15 →
      (∃ r ∈ (reads 600 t ps).head?, r ≤ s) → (∃ r ∈ (reads 600 t ps).getLast?, s ≤ r) →
      ∃ coords ∈ updatePriorityQueueLoop (monSpawnPrioStrategy rows inside id none 0) t ps,
        ⟨s, spawn.location⟩ ∈ coords := by
  intro h
  have hfound := h [spawnpoint] (fun _ => true) 0 [⟨0, 2000000⟩, ⟨0, 0⟩] spawnpoint 601 (by simp) rfl
    (by decide) (by decide) ⟨0, rfl, by decide⟩ ⟨602, rfl, by decide⟩
  revert hfound
  decide

end MapADroid.PrioQueue
