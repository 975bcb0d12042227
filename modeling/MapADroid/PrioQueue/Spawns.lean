import Mathlib.Data.Int.Order.Basic

/- The spawns that start next (`TrsSpawnHelper.get_next_spawns`).

   Moments are UTC seconds since the epoch; `now().replace(minute, second)` is a moment
   of the hour `now` is in. A spawnpoint is known by the minute and the second it ends
   at, whatever the hour. The rows are those the query returns: their event and the
   bounding box of the fence are not modelled. -/
namespace MapADroid.PrioQueue

variable {L : Type}

/-- `TrsSpawn`; the two numbers of `calc_endminsec`. -/
structure TrsSpawn (L : Type) where
  location : L
  minutes : Fin 60
  seconds : Fin 60
  spawndef : Int

/-- `current_time_of_day.minute`. -/
def minuteOf (now : Int) : Int := now % 3600 / 60

/-- `despawn_time`. -/
def despawnTime (now : Int) (spawn : TrsSpawn L) : Int :=
  let despawn := now / 3600 * 3600 + 60 * (spawn.minutes.val : Int) + (spawn.seconds.val : Int)
  if (spawn.minutes.val : Int) < minuteOf now then despawn + 3600 else despawn

/-- `spawn_duration_minutes`. -/
def spawnDurationMinutes (spawn : TrsSpawn L) : Int := if spawn.spawndef = 15 then 60 else 30

/-- `spawn_time`. -/
def spawnTime (now : Int) (spawn : TrsSpawn L) : Int :=
  despawnTime now spawn - 60 * spawnDurationMinutes spawn

/-- The start of the spawn is over, or beyond the limit. -/
def skipped (limitNextNSeconds : Option Int) (now : Int) (spawn : TrsSpawn L) : Bool :=
  spawnTime now spawn < now ||
    limitNextNSeconds.any fun n => n ≠ 0 && now + n < spawnTime now spawn

/-- `__process_next_to_encounter`. -/
def processNextToEncounter (isCoordInsideIncludeGeofence : L → Bool)
    (limitNextNSeconds : Option Int) (now : Int) (result : List (TrsSpawn L)) : List (Int × L) :=
  result.filterMap fun spawn =>
    if !isCoordInsideIncludeGeofence spawn.location then none
    else if skipped limitNextNSeconds now spawn then none
    else some (spawnTime now spawn, spawn.location)

/-- The spawns that are returned start from now on and within the limit. -/
theorem mem_processNextToEncounter {inside : L → Bool} {n now : Int} (hn : n ≠ 0)
    {result : List (TrsSpawn L)} {p : Int × L} :
    p ∈ processNextToEncounter inside (some n) now result ↔
      ∃ spawn ∈ result, inside spawn.location = true ∧ p = (spawnTime now spawn, spawn.location) ∧
        now ≤ p.1 ∧ p.1 ≤ now + n := by
  unfold processNextToEncounter
  rw [List.mem_filterMap]
  constructor
  · rintro ⟨spawn, hspawn, hp⟩
    cases hinside : inside spawn.location with
    | false => simp [hinside] at hp
    | true =>
      cases hskip : skipped (some n) now spawn with
      | true => simp [hinside, hskip] at hp
      | false =>
        simp only [hinside, hskip, Bool.not_true, Bool.false_eq_true, if_false, Option.some.injEq] at hp
        simp [skipped, hn] at hskip
        exact ⟨spawn, hspawn, hinside, hp.symm, by rw [← hp]; omega, by rw [← hp]; omega⟩
  · rintro ⟨spawn, hspawn, hinside, rfl, hstart, hlimit⟩
    have hskip : skipped (some n) now spawn = false := by
      simp only at hstart hlimit
      simp [skipped, hn]
      omega
    exact ⟨spawn, hspawn, by simp [hinside, hskip]⟩

/-- The end of a spawn is the one at its minute and second that comes next, up to the
seconds of the minute that has begun. -/
theorem despawnTime_next (now : Int) (spawn : TrsSpawn L) :
    now - now % 60 ≤ despawnTime now spawn ∧ despawnTime now spawn < now - now % 60 + 3600 ∧
      despawnTime now spawn % 3600 = 60 * (spawn.minutes.val : Int) + (spawn.seconds.val : Int) := by
  have hminutes := spawn.minutes.isLt
  have hseconds := spawn.seconds.isLt
  -- Within the hour: the minute of the end is at or after that of `now`, or an hour is added.
  unfold despawnTime minuteOf
  simp only
  split
  · omega
  · omega

/-- A start that is ahead is found again at every moment before it, if it was found at
most the 29 minutes ahead that a spawn of half an hour allows. -/
theorem spawnTime_eq {spawn : TrsSpawn L} {before now start : Int}
    (hstart : spawnTime before spawn = start) (h0 : before ≤ now) (hnow : now ≤ start)
    (hsoon : start ≤ before + 1740) : spawnTime now spawn = start := by
  obtain ⟨_, hbefore, hbeforeMod⟩ := despawnTime_next before spawn
  obtain ⟨hfrom, hto, hnowMod⟩ := despawnTime_next now spawn
  unfold spawnTime at *
  by_cases hdef : spawn.spawndef = 15
  · -- A spawn of an hour has always begun.
    have hduration : spawnDurationMinutes spawn = 60 := if_pos hdef
    rw [hduration] at hstart
    omega
  · have hduration : spawnDurationMinutes spawn = 30 := if_neg hdef
    rw [hduration] at hstart ⊢
    omega

end MapADroid.PrioQueue
