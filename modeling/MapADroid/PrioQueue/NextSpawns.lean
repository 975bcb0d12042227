import Mathlib.Data.List.Basic
import MapADroid.Lib.Windows
import MapADroid.PrioQueue.Spawns

/- The starts that `__process_next_to_encounter` finds.

   A spawnpoint starts once an hour. The end that is computed is the next one, so a spawn of
   half an hour ahead of it starts next where the start is not over; but an hour before the
   next end is always over, so a spawn of an hour is never found (`next_spawns_iff`). -/
namespace MapADroid.PrioQueue
open Lib

variable {L : Type}

/-- The place of the spawn's start in the hour. -/
def startPlace (spawn : TrsSpawn L) : Int :=
  (60 * (spawn.minutes.val : Int) + (spawn.seconds.val : Int) - 60 * spawnDurationMinutes spawn) % 3600

/-- The least moment from `now` on at which the spawn starts. -/
def nextStart (now : Int) (spawn : TrsSpawn L) : Int := firstAhead 3600 now (startPlace spawn)

theorem isLeast_nextStart (now : Int) (spawn : TrsSpawn L) :
    IsLeast {t | now ≤ t ∧ (t + 60 * spawnDurationMinutes spawn) % 3600 =
      (60 * (spawn.minutes.val : Int) + (spawn.seconds.val : Int)) % 3600} (nextStart now spawn) := by
  have hset : {t | now ≤ t ∧ (t + 60 * spawnDurationMinutes spawn) % 3600 =
      (60 * (spawn.minutes.val : Int) + (spawn.seconds.val : Int)) % 3600} = Ahead 3600 now (startPlace spawn) := by
    ext t
    simp only [Ahead, Set.mem_ofPred_eq, startPlace]
    omega
  rw [hset]
  exact isLeast_firstAhead (Int.emod_nonneg _ (by omega)) (Int.emod_lt_of_pos _ (by omega))

theorem nextStart_spec (now : Int) (spawn : TrsSpawn L) : now ≤ nextStart now spawn ∧
    nextStart now spawn < now + 3600 ∧ nextStart now spawn % 3600 = startPlace spawn :=
  (isLeast_ahead_iff (by omega)).mp
    (isLeast_firstAhead (Int.emod_nonneg _ (by omega)) (Int.emod_lt_of_pos _ (by omega)))

/-- A spawn of an hour is over when its next end is computed. -/
theorem skipped_of_hour {spawn : TrsSpawn L} (hdef : spawn.spawndef = 15) (limit : Option Int) (now : Int) :
    skipped limit now spawn = true := by
  obtain ⟨_, hto, hplace⟩ := despawnTime_next now spawn
  have hminutes := spawn.minutes.isLt
  have hseconds := spawn.seconds.isLt
  have hover : spawnTime now spawn < now := by
    simp only [spawnTime, spawnDurationMinutes, hdef, if_true]
    omega
  simp [skipped, hover]

/-- A spawn of half an hour is found where it starts next within the limit, and then at that moment. -/
theorem skipped_of_half {spawn : TrsSpawn L} (hdef : spawn.spawndef ≠ 15) (now : Int) {limit : Int} (h0 : 0 < limit)
    (hlimit : limit ≤ 600) : (skipped (some limit) now spawn = false ↔ nextStart now spawn ≤ now + limit) ∧
      (skipped (some limit) now spawn = false → spawnTime now spawn = nextStart now spawn) := by
  obtain ⟨hfrom, hto, hplace⟩ := despawnTime_next now spawn
  obtain ⟨hnow, hsoon, hstart⟩ := nextStart_spec now spawn
  have hskipped : skipped (some limit) now spawn = false ↔
      now ≤ spawnTime now spawn ∧ spawnTime now spawn ≤ now + limit := by
    simp [skipped, h0.ne']
  rw [hskipped]
  simp only [spawnTime, startPlace, spawnDurationMinutes, hdef, if_false] at *
  exact ⟨⟨fun h => by omega, fun h => by omega⟩, fun h => by omega⟩

/-- The entries that are returned: the half-hour spawns that start next within the limit. -/
theorem processNextToEncounter_eq {inside : L → Bool} {limit now : Int} (h0 : 0 < limit) (hlimit : limit ≤ 600)
    {result : List (TrsSpawn L)} (hinside : ∀ spawn ∈ result, inside spawn.location = true) :
    processNextToEncounter inside (some limit) now result =
      (result.filter fun spawn => spawn.spawndef ≠ 15 && nextStart now spawn ≤ now + limit).map
        fun spawn => (nextStart now spawn, spawn.location) := by
  rw [← List.filterMap_eq_filter, List.map_filterMap]
  apply List.filterMap_congr
  intro spawn hspawn
  rw [hinside spawn hspawn]
  by_cases hdef : spawn.spawndef = 15
  · simp [skipped_of_hour hdef, hdef, Option.guard]
  · obtain ⟨hiff, htime⟩ := skipped_of_half hdef now h0 hlimit
    cases hskip : skipped (some limit) now spawn with
    | true =>
      have hlate : ¬ nextStart now spawn ≤ now + limit := by
        rw [← hiff, hskip]
        simp
      simp [hlate, Option.guard]
    | false => simp [hiff.mp hskip, htime hskip, hdef, Option.guard]

/-- The spawnpoints whose next start is within the limit are returned with exactly that start, and no others,
exactly if no spawn of an hour starts next within the limit. -/
theorem next_spawns_iff (inside : L → Bool) {limit : Int} (now : Int) (h0 : 0 < limit) (hlimit : limit ≤ 600)
    (result : List (TrsSpawn L)) (hinside : ∀ spawn ∈ result, inside spawn.location = true) :
    processNextToEncounter inside (some limit) now result =
        ((result.filter fun spawn => nextStart now spawn ≤ now + limit).map
          fun spawn => (nextStart now spawn, spawn.location)) ↔
      ∀ spawn ∈ result, spawn.spawndef = 15 → now + limit < nextStart now spawn := by
  rw [processNextToEncounter_eq h0 hlimit hinside]
  constructor
  · intro heq spawn hspawn hdef
    by_contra hsoon
    -- The spawn of an hour is in the longer list only.
    have hlength := congrArg List.length heq
    rw [List.length_map, List.length_map, ← List.filter_filter] at hlength
    have hall := (List.length_filter_eq_length_iff.mp hlength) spawn
      (List.mem_filter.mpr ⟨hspawn, decide_eq_true (not_lt.mp hsoon)⟩)
    exact absurd hdef (by simpa using hall)
  · intro hhours
    congr 1
    apply List.filter_congr
    intro spawn hspawn
    by_cases hdef : spawn.spawndef = 15
    · simp [hdef, not_le.mpr (hhours spawn hspawn hdef)]
    · simp [hdef]

/-- It ends at 00:35:00. -/
def halfHour : TrsSpawn Unit := ⟨(), ⟨35, by decide⟩, ⟨0, by decide⟩, 1⟩

theorem half_hour_found :
    processNextToEncounter (fun _ => true) (some 600) 0 [halfHour] = [(300, ())] := by
  have hfound := (next_spawns_iff (fun _ => true) 0 (by decide : (0 : Int) < 600) (by decide) [halfHour]
    (by decide)).mpr (by decide)
  rw [hfound]
  decide

/-- It starts at 00:05:00, and ends then. -/
def wholeHour : TrsSpawn Unit := ⟨(), ⟨5, by decide⟩, ⟨0, by decide⟩, 15⟩

/-- A spawn of an hour that starts in five minutes is not returned. -/
theorem hour_missed : ¬ ∀ (limit now : Int) (result : List (TrsSpawn Unit)), 0 < limit → limit ≤ 600 →
    processNextToEncounter (fun _ => true) (some limit) now result =
      (result.filter fun spawn => nextStart now spawn ≤ now + limit).map
        fun spawn => (nextStart now spawn, spawn.location) := by
  intro h
  exact absurd (h 600 0 [wholeHour] (by decide) (by decide)) (by decide)

end MapADroid.PrioQueue
