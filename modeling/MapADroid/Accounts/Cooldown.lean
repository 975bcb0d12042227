import MapADroid.Lib.Rates
import MapADroid.Accounts.AccountHandler

/- How long an account waits after it travelled (`calculate_cooldown`).

   Each row of the table is a speed, so that the wait at the distance the row begins with
   comes out as a whole number of minutes; it grows from row to row. Within a row it grows
   as well, to more than what the next row begins with: the wait falls at that distance
   (`cooldown_falls`). It never does for a distance within the reach of its row
   (`cooldown_grows`). -/
namespace MapADroid.Accounts
open Lib

theorem calculateCooldown_eq (distance speed : ℚ) :
    calculateCooldown distance speed = min (time speed speeds distance) 7200 := by
  show (if 7200 < time speed speeds distance then 7200 else time speed speeds distance) = _
  split
  · next h => rw [min_eq_right h.le]
  · next h => rw [min_eq_left (not_lt.mp h)]

theorem speeds_rising : Rising speeds := by decide +kernel

theorem speeds_pos : ∀ row ∈ speeds, 0 < row.2 := by decide +kernel

/-- The distances of a row with no more than the wait the next row begins with; there is no
limit where that is the longest wait. -/
def reach? (speed distance : ℚ) : Option ℚ :=
  (nextRow? distance speeds).bind fun row =>
    if row.1 / row.2 < 7200 then some (rateAt speed speeds distance * (row.1 / row.2)) else none

/-- No row begins between the distances. -/
def SameRow (distance distance' : ℚ) : Prop := rowsAbove distance speeds = rowsAbove distance' speeds

variable {d d' speed : ℚ}

theorem cooldown_le (distance speed : ℚ) : calculateCooldown distance speed ≤ 7200 := by
  rw [calculateCooldown_eq]
  exact min_le_right _ _

/-- A distance beyond the reach of its row has a longer wait than the next row begins with. -/
theorem cooldown_beyond (hspeed : 0 < speed) {limit : ℚ} (hreach : reach? speed d = some limit) (hd : limit < d) :
    ∃ d', d < d' ∧ calculateCooldown d' speed < calculateCooldown d speed := by
  obtain ⟨row, hrow, hlimit⟩ := Option.bind_eq_some_iff.mp hreach
  split at hlimit
  · next hshort =>
    cases hlimit
    have hrate : 0 < rateAt speed speeds d := rateAt_pos hspeed speeds_pos
    have hlonger : row.1 / row.2 < time speed speeds d := by
      rw [time, lt_div_iff₀ hrate, mul_comm]
      exact hd
    refine ⟨row.1, (nextRow?_spec hrow).2, ?_⟩
    rw [calculateCooldown_eq, calculateCooldown_eq, time_nextRow speeds_rising hrow]
    exact (min_le_left _ _).trans_lt (lt_min hlonger hshort)
  · cases hlimit

/-- The wait does not fall within a row, nor from a distance within the reach of its row on. -/
theorem cooldown_le_of_reach (hspeed : 0 < speed) (hle : d ≤ d')
    (h : SameRow d d' ∨ ∀ limit ∈ reach? speed d, d ≤ limit) :
    calculateCooldown d speed ≤ calculateCooldown d' speed := by
  have hrate : 0 < rateAt speed speeds d := rateAt_pos hspeed speeds_pos
  have hwithin : SameRow d d' → calculateCooldown d speed ≤ calculateCooldown d' speed := by
    intro hsame
    rw [calculateCooldown_eq, calculateCooldown_eq]
    exact min_le_min_right _ (time_le_of_same hrate hle hsame)
  rcases h with hsame | hreach
  · exact hwithin hsame
  rcases time_le_or speed speeds_rising speeds_pos hle with hsame | ⟨row, hrow, hbegin⟩
  · exact hwithin hsame
  rw [calculateCooldown_eq, calculateCooldown_eq]
  by_cases hshort : row.1 / row.2 < 7200
  · have hlimit : d ≤ rateAt speed speeds d * (row.1 / row.2) :=
      hreach _ (by simp [reach?, hrow, hshort])
    have htime : time speed speeds d ≤ row.1 / row.2 := by
      rw [time, div_le_iff₀ hrate, mul_comm]
      exact hlimit
    exact min_le_min_right _ (htime.trans hbegin)
  · -- The next row begins with the longest wait.
    exact le_min ((min_le_right _ _).trans ((not_lt.mp hshort).trans hbegin)) (min_le_right _ _)

/-- The wait never falls below the one a row begins with. -/
theorem cooldown_from_begin (hspeed : 0 < speed) {row : ℚ × ℚ} (hrow : row ∈ speeds) (hle : row.1 ≤ d') :
    calculateCooldown row.1 speed ≤ calculateCooldown d' speed := by
  refine cooldown_le_of_reach hspeed hle (.inr fun limit hlimit => ?_)
  obtain ⟨next, hnext, hlimit⟩ := Option.bind_eq_some_iff.mp hlimit
  split at hlimit
  · cases hlimit
    rw [rateAt_threshold (speeds_rising.imp And.left) hrow, mul_comm, ← div_le_iff₀ (speeds_pos row hrow)]
    exact begin_le_nextRow speeds_rising hrow hnext
  · cases hlimit

/-- The wait is no longer than two hours; it does not fall within a row, nor from a distance
within the reach of its row on, and from every other distance on it does. -/
theorem cooldown_grows (hspeed : 0 < speed) (hle : d ≤ d') :
    calculateCooldown d' speed ≤ 7200 ∧
      (SameRow d d' ∨ (∀ limit ∈ reach? speed d, d ≤ limit) →
        calculateCooldown d speed ≤ calculateCooldown d' speed) ∧
      ((∀ d', d ≤ d' → calculateCooldown d speed ≤ calculateCooldown d' speed) ↔
        ∀ limit ∈ reach? speed d, d ≤ limit) := by
  refine ⟨cooldown_le d' speed, cooldown_le_of_reach hspeed hle, ?_, ?_⟩
  · intro hgrows limit hlimit
    by_contra hbeyond
    obtain ⟨d', hd', hfalls⟩ := cooldown_beyond hspeed hlimit (not_le.mp hbeyond)
    exact absurd (hgrows d' hd'.le) (not_le.mpr hfalls)
  · intro hreach d' hle
    exact cooldown_le_of_reach hspeed hle (.inr hreach)

/-- From 10 km, where a row begins, to 14 km, beyond its reach. -/
theorem cooldown_grows_ten :
    calculateCooldown 14000 questWalkSpeedCalculated ≤ 7200 ∧
      (SameRow 10000 14000 ∨ (∀ limit ∈ reach? questWalkSpeedCalculated 10000, (10000 : ℚ) ≤ limit) →
        calculateCooldown 10000 questWalkSpeedCalculated ≤ calculateCooldown 14000 questWalkSpeedCalculated) ∧
      ((∀ d', 10000 ≤ d' → calculateCooldown 10000 questWalkSpeedCalculated ≤
        calculateCooldown d' questWalkSpeedCalculated) ↔
          ∀ limit ∈ reach? questWalkSpeedCalculated 10000, (10000 : ℚ) ≤ limit) :=
  cooldown_grows (by decide +kernel) (by decide +kernel)

/-- The wait falls from ten and a half minutes to nine where a row begins. -/
theorem cooldown_falls : ¬ ∀ d d' speed : ℚ, 0 ≤ d → d ≤ d' → 0 < speed → speed ≤ 2222222222 / 100000000 →
    calculateCooldown d speed ≤ calculateCooldown d' speed ∧ calculateCooldown d' speed ≤ 7200 := by
  intro h
  have hgrows := (h 14999 15000 questWalkSpeedCalculated (by decide +kernel) (by decide +kernel)
    (by decide +kernel) (by decide +kernel)).1
  exact absurd hgrows (by decide +kernel)

end MapADroid.Accounts
