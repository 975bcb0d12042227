import Mathlib.Data.Rat.Floor
import MapADroid.Lib.Windows
import MapADroid.Worker.WalkerValue

/- When a mon disappears, from what is known of its spawnpoint (`gen_despawn_timestamp`).

   The minute and second the spawnpoint ends at are put into the hour of the timestamp, and
   an hour is added where the minute of the timestamp is greater. Where the minutes are
   equal the seconds are not looked at, so the time can be one that has passed
   (`despawn_least_iff`). A timestamp is a rational here; it is rounded to microseconds
   before anything is read off it. -/
namespace MapADroid.Mons
open Lib Worker

/-- The microsecond `fromtimestamp` rounds to; of two that are equally close, the even one. -/
def microseconds (timestamp : ℚ) : Int :=
  let below := ⌊timestamp * 1000000⌋
  let rest := timestamp * 1000000 - below
  if rest < 1 / 2 then below
  else if 1 / 2 < rest then below + 1
  else if below % 2 = 0 then below
  else below + 1

/-- `minute` of a moment in seconds. -/
def minute (t : Int) : Int := t % 3600 / 60

/-- The numbers that are put in for the minute and the second; `none` where they are missing, are no
numbers or no minute and second. -/
def minuteSecond (u : Unicode) (knownDespawn : String) : Option (Int × Int) :=
  match knownDespawn.toList.splitOn ':' with
  | mm :: ss :: _ =>
    (u.int mm).bind fun m => (u.int ss).bind fun s =>
      if 0 ≤ m ∧ m < 60 ∧ 0 ≤ s ∧ s < 60 then some (m, s) else none
  | _ => none

/-- `despawn`, for a moment in whole seconds. -/
def despawn (datatime m s : Int) : Int :=
  let despawn := datatime / 3600 * 3600 + 60 * m + s
  if m < minute datatime then despawn + 3600 else despawn

/-- `gen_despawn_timestamp`; `none` where an exception is raised, `now` is the clock where it is read. -/
def genDespawnTimestamp (u : Unicode) (now : ℚ) (knownDespawn : Option String) (timestamp : ℚ)
    (defaultTimeLeftMinutes : Int) : Option Int :=
  match knownDespawn with
  | none => some (⌊now + defaultTimeLeftMinutes * 60⌋ / 60 * 60)
  | some known =>
    if known = "" then some (⌊now + defaultTimeLeftMinutes * 60⌋ / 60 * 60)
    else (minuteSecond u known).map fun p => despawn (microseconds timestamp / 1000000) p.1 p.2

theorem minuteSecond_bounds {u : Unicode} {known : String} {m s : Int} (h : minuteSecond u known = some (m, s)) :
    (0 ≤ m ∧ m < 60) ∧ 0 ≤ s ∧ s < 60 := by
  unfold minuteSecond at h
  split at h
  · obtain ⟨m', _, h⟩ := Option.bind_eq_some_iff.mp h
    obtain ⟨s', _, h⟩ := Option.bind_eq_some_iff.mp h
    split at h
    · next hrange =>
      cases h
      exact ⟨⟨hrange.1, hrange.2.1⟩, hrange.2.2⟩
    · cases h
  · cases h

/-- The second of the timestamp, or the one it is rounded up to. -/
theorem microseconds_second (timestamp : ℚ) :
    microseconds timestamp / 1000000 = ⌊timestamp⌋ ∨ microseconds timestamp / 1000000 = ⌊timestamp⌋ + 1 := by
  have hfrom : ⌊timestamp⌋ * 1000000 ≤ ⌊timestamp * 1000000⌋ := by
    rw [Int.le_floor]
    push_cast
    exact mul_le_mul_of_nonneg_right (Int.floor_le timestamp) (by norm_num)
  have hto : ⌊timestamp * 1000000⌋ < (⌊timestamp⌋ + 1) * 1000000 := by
    rw [Int.floor_lt]
    push_cast
    exact mul_lt_mul_of_pos_right (Int.lt_floor_add_one timestamp) (by norm_num)
  have hround : microseconds timestamp = ⌊timestamp * 1000000⌋ ∨
      microseconds timestamp = ⌊timestamp * 1000000⌋ + 1 := by
    simp only [microseconds]
    split
    · exact .inl rfl
    split
    · exact .inr rfl
    split
    · exact .inl rfl
    · exact .inr rfl
  omega

/-- The end at `m` and `s` is in the minute of the timestamp, and over. Where the timestamp is rounded up to the
minute after, only the last second of the minute is. -/
def Passed (timestamp : ℚ) (m s : Int) : Prop :=
  m = minute ⌊timestamp⌋ ∧
    if microseconds timestamp / 1000000 ≠ ⌊timestamp⌋ ∧ ⌊timestamp⌋ % 60 = 59 then s = 59
    else s < ⌊timestamp⌋ % 60

/-- The moment that is put together is the first one ahead, but for one of the minute that goes. -/
theorem isLeast_despawn_iff {timestamp : ℚ} {m s : Int} (hm : 0 ≤ m ∧ m < 60) (hs : 0 ≤ s ∧ s < 60) :
    IsLeast (Ahead 3600 ⌊timestamp⌋ (60 * m + s)) (despawn (microseconds timestamp / 1000000) m s) ↔
      ¬ Passed timestamp m s := by
  rw [isLeast_ahead_iff (by omega)]
  unfold Passed despawn minute
  dsimp only
  have hsecond := microseconds_second timestamp
  generalize ⌊timestamp⌋ = second at *
  generalize microseconds timestamp / 1000000 = rounded at *
  rcases hsecond with rfl | rfl
  · split_ifs <;> omega
  · -- The minute that is read is that of the second after.
    split_ifs <;> omega

/-- The time a known minute and second give is the first of these from the second of the timestamp on exactly if
the end in the minute of the timestamp is not over. -/
theorem despawn_least_iff (u : Unicode) (now timestamp : ℚ) (defaultTimeLeftMinutes : Int) {known : String}
    {m s : Int} (hknown : minuteSecond u known = some (m, s)) :
    ∃ t, genDespawnTimestamp u now (some known) timestamp defaultTimeLeftMinutes = some t ∧
      (IsLeast {t | ⌊timestamp⌋ ≤ t ∧ t % 3600 = 60 * m + s} t ↔ ¬ Passed timestamp m s) := by
  obtain ⟨hm, hs⟩ := minuteSecond_bounds hknown
  refine ⟨despawn (microseconds timestamp / 1000000) m s, ?_, isLeast_despawn_iff hm hs⟩
  have hne : known ≠ "" := by
    rintro rfl
    cases hknown
  simp [genDespawnTimestamp, hne, hknown]

/-- A mon that is seen at 00:05:00 at a spawnpoint that ends at 00:10:15. -/
theorem despawn_least_ahead :
    ∃ t, genDespawnTimestamp ascii 0 (some "10:15") 300 3 = some t ∧
      (IsLeast {t | ⌊(300 : ℚ)⌋ ≤ t ∧ t % 3600 = 60 * 10 + 15} t ↔ ¬ Passed 300 10 15) :=
  despawn_least_iff ascii 0 300 3 (by decide +kernel)

/-- Seen at 00:10:30, the mon disappeared a quarter of a minute ago. -/
theorem despawn_before_seen : ¬ ∀ (u : Unicode) (now timestamp : ℚ) (known : String) (m s t : Int),
    minuteSecond u known = some (m, s) → genDespawnTimestamp u now (some known) timestamp 3 = some t →
      IsLeast {t | ⌊timestamp⌋ ≤ t ∧ t % 3600 = 60 * m + s} t := by
  intro h
  have hleast := h ascii 0 630 "10:15" 10 15 615 (by decide +kernel) (by decide +kernel)
  exact absurd hleast.1.1 (by decide +kernel)

end MapADroid.Mons
