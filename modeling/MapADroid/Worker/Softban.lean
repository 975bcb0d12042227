import MapADroid.Accounts.AccountHandler
import MapADroid.Lib.Methods
import Mathlib.Data.Rat.Floor
import Mathlib.Order.Monotone.Basic
import Mathlib.Tactic.Linarith

/- Moving to a quest location (`QuestStrategy.move_to_location`).

   After a teleport or a walk the worker waits until the softban of its account has cooled
   down, in whole seconds from a time that is rounded down or before the arrival. What is
   waited for is rounded down as well, but the clock has to be past it, so not a second of
   the cooldown is missing (`cooldown_waited_out`). The clock is read at every `time.time()`;
   the other awaited calls may raise. -/
namespace MapADroid.Worker.Softban
open Lib

inductive Raised where
  /-- `InternalStopWorkerException`. -/
  | stopWorker
  /-- What a call raised that was awaited. -/
  | awaited
  /-- The loop is not over. -/
  | waiting
  deriving DecidableEq, Repr

/-- What is read of the account that is assigned to the device. -/
structure ActiveAccount where
  lastSoftbanAction : Option ℚ
  lastSoftbanActionLocation : Option (Location ℚ)
  deriving DecidableEq

/-- The clock, the settings, and what the awaited calls come to; `false` or `none` where they raise. -/
structure Course where
  clock : Nat → ℚ
  distance : Location ℚ → Location ℚ → ℚ
  currentLocation : Location ℚ
  routeManagerPresent : Bool
  speed : Option ℚ
  maxDistance : Option ℚ
  postTeleportDelay : ℚ
  walkAfterTeleportDistance : ℚ
  postWalkDelay : ℚ
  lastActionTime : Option ℚ
  screendetection : Bool
  accountRotation : Bool
  rotationWaittime : ℚ
  levelmode : Bool
  level : Int
  account : Option ActiveAccount
  setLocation : Bool
  walkAfterTeleport : Option ℚ
  walkFromTo : Bool
  switchAccount : Bool
  /-- At a reading of the clock, the worker is to stop. -/
  stopped : Nat → Bool

/-- What a move changes; the first two are not in the source: how often the clock was read, and whether
`switch_account` was called. -/
structure Move where
  readings : Nat
  switched : Bool
  currentSleepDuration : Int
  lastLocation : Location ℚ
  deriving DecidableEq

abbrev Moving (α : Type) := Method Move Raised α

def secondsBeforeArrivalOfWalkBuffer : Int := 10

/-- `time.time()`. -/
def time (c : Course) : Moving ℚ := do
  let n := (← get).readings
  modify fun s => { s with readings := n + 1 }
  pure (c.clock n)

/-- A call that is awaited. -/
def await (comesBack : Bool) : Moving Unit := if comesBack then pure () else throw .awaited

/-- `_walk_to_location`. -/
def walkToLocation (c : Course) : Moving Int := do
  let before ← time c
  let timeBeforeWalk := ⌊before⌋
  await c.walkFromTo
  let returned ← time c
  let timeReturned := ⌊returned⌋
  if timeReturned - secondsBeforeArrivalOfWalkBuffer < timeBeforeWalk then pure timeBeforeWalk
  else do
    let now ← time c
    if (⌊now⌋ + timeBeforeWalk) / 2 < timeReturned - secondsBeforeArrivalOfWalkBuffer then
      pure (timeReturned - secondsBeforeArrivalOfWalkBuffer)
    else do
      let now ← time c
      pure ((⌊now⌋ + timeBeforeWalk) / 2)

/-- The conditions for a teleport. -/
def teleports (c : Course) (lastLocation : Location ℚ) (distance : ℚ) : Bool :=
  c.speed.getD 0 = 0 || c.maxDistance.any (fun maxDistance => 0 < maxDistance && maxDistance < distance) ||
    lastLocation.lat = 0 && lastLocation.lng = 0

/-- The move itself: `cur_time` and `delay_used` after it. -/
def transport (c : Course) (distance : ℚ) : Moving (Int × ℚ) := do
  if teleports c (← get).lastLocation distance then do
    await c.setLocation
    let now ← time c
    if 0 < c.walkAfterTeleportDistance ∧ c.walkAfterTeleportDistance < distance then
      match c.walkAfterTeleport with
      | none => throw .awaited
      | some toWalk => pure (⌊now⌋, max 0 (c.postTeleportDelay - (toWalk / (305 / 100) - 1)))
    else pure (⌊now⌋, c.postTeleportDelay)
  else do
    let curTime ← walkToLocation c
    pure (curTime, c.postWalkDelay)

/-- `_calculate_remaining_softban_avoidance_duration`: the delay, and the distance it is for. -/
def calculateRemainingSoftbanAvoidanceDuration (c : Course) (curTime : Int) (delayToAvoidSoftban distance speed : ℚ) :
    ℚ × ℚ :=
  match c.account with
  | some ⟨some lastSoftbanAction, some lastActionLocation⟩ =>
    let distanceLastAction := c.distance lastActionLocation c.currentLocation
    let delayToLastAction := Accounts.calculateCooldown distanceLastAction speed
    if lastSoftbanAction + delayToLastAction > curTime then
      (max 0 (delayToLastAction - (curTime - lastSoftbanAction)), distanceLastAction)
    else (delayToAvoidSoftban, distance)
  | _ => (delayToAvoidSoftban, distance)

/-- The delay where there is none for the softban. -/
def delayWithoutSoftban (c : Course) (delayUsed distance : ℚ) : Moving ℚ := do
  match c.lastActionTime with
  | some lastActionTime =>
    if 0 < lastActionTime then do
      let now ← time c
      pure (delayUsed - (now - lastActionTime))
    else otherwise (← get).lastLocation
  | none => otherwise (← get).lastLocation
where
  otherwise (lastLocation : Location ℚ) : Moving ℚ :=
    if lastLocation.lat = 0 ∧ lastLocation.lng = 0 then pure 0
    else pure (Accounts.calculateCooldown distance Accounts.questWalkSpeedCalculated)

/-- `switch_account`. -/
def switchAccount (c : Course) : Moving Unit := do
  modify fun s => { s with switched := true }
  if !c.switchAccount then throw .stopWorker

/-- `_rotate_account_after_moving_locations_if_applicable`. -/
def rotateAccount (c : Course) (delayUsed : ℚ) : Moving ℚ := do
  if c.screendetection && c.rotationWaittime ≤ delayUsed && c.accountRotation && !c.levelmode then do
    switchAccount c
    pure (-1)
  else if c.levelmode && Accounts.minLevelIv ≤ c.level then do
    switchAccount c
    pure (-1)
  else pure delayUsed

/-- The loop that waits until the clock is past a second. -/
def wait (c : Course) (until_ : Int) : Nat → Moving Unit
  | 0 => throw .waiting
  | fuel + 1 => do
    let now ← time c
    if now ≤ until_ then do
      if c.stopped (← get).readings then do
        modify fun s => { s with currentSleepDuration := 0 }
        throw .stopWorker
      wait c until_ fuel

/-- What is left of the delay is waited for. -/
def sleepDelay (c : Course) (fuel : Nat) (curTime delayUsed : Int) : Moving Int := do
  if delayUsed ≤ 0 then do
    modify fun s => { s with currentSleepDuration := 0 }
    pure curTime
  else do
    modify fun s => { s with currentSleepDuration := delayUsed }
    wait c (curTime + delayUsed) fuel
    pure (if delayUsed > 10 then curTime - 10 else curTime - delayUsed)

/-- `delay_to_avoid_softban` after the move. -/
def delayToAvoidSoftban (c : Course) (moved : Int × ℚ) (distance : ℚ) : Moving ℚ :=
  let remaining := calculateRemainingSoftbanAvoidanceDuration c moved.1 0 distance Accounts.questWalkSpeedCalculated
  if remaining.1 = 0 then delayWithoutSoftban c moved.2 remaining.2 else pure remaining.1

/-- The larger of the delays is waited for, and the worker is there. -/
def waitBeforeSpinning (c : Course) (fuel : Nat) (moved : Int × ℚ) (delayToAvoidSoftban : ℚ) : Moving Int := do
  let delayUsed :=
    if delayToAvoidSoftban > 0 ∧ delayToAvoidSoftban > moved.2 then delayToAvoidSoftban else moved.2
  let delayUsed ← rotateAccount c delayUsed
  let curTime ← sleepDelay c fuel moved.1 ⌊delayUsed⌋
  modify fun s => { s with currentSleepDuration := 0, lastLocation := c.currentLocation }
  pure curTime

/-- `move_to_location`. -/
def moveToLocation (c : Course) (fuel : Nat) : Moving Int :=
  if !c.routeManagerPresent then throw .stopWorker
  else do
    let distance := c.distance (← get).lastLocation c.currentLocation
    let moved ← transport c distance
    let delay ← delayToAvoidSoftban c moved distance
    waitBeforeSpinning c fuel moved delay

/-! ## Readings of the clock -/

/-- A time that one of the first readings of the clock has reached. -/
def Past (c : Course) (n : Nat) (x : ℚ) : Prop := ∃ j < n, x ≤ c.clock j

variable {c : Course} {s t : Move} {x : ℚ} {n m : Nat}

theorem Past.mono (h : Past c n x) (hle : n ≤ m) : Past c m x := by
  obtain ⟨j, hj, hx⟩ := h
  exact ⟨j, hj.trans_le hle, hx⟩

theorem past_floor (c : Course) (n : Nat) : Past c (n + 1) (⌊c.clock n⌋ : ℤ) :=
  ⟨n, Nat.lt_succ_self _, Int.floor_le _⟩

/-- The middle of two times is not after the later one. -/
theorem past_middle {a : Int} (h : Past c n a) (hmono : Monotone c.clock) :
    Past c (n + 1) (((⌊c.clock n⌋ + a) / 2 : ℤ) : ℚ) := by
  obtain ⟨j, hj, ha⟩ := h
  refine ⟨n, Nat.lt_succ_self _, ?_⟩
  have hle : a ≤ ⌊c.clock n⌋ := Int.le_floor.mpr (ha.trans (hmono hj.le))
  have hmiddle : (⌊c.clock n⌋ + a) / 2 ≤ ⌊c.clock n⌋ := by omega
  exact Int.le_floor.mp hmiddle

theorem call_time (c : Course) (s : Move) :
    call (time c) s = (.ok (c.clock s.readings), { s with readings := s.readings + 1 }) := rfl

theorem call_time_eq_ok (h : call (time c) s = (.ok x, t)) :
    x = c.clock s.readings ∧ t = { s with readings := s.readings + 1 } := by
  rw [call_time] at h
  obtain ⟨hx, ht⟩ := Prod.mk.inj h
  exact ⟨(Except.ok.inj hx).symm, ht.symm⟩

theorem call_await_eq_ok {b : Bool} {a : Unit} (h : call (await b) s = (.ok a, t)) : t = s := by
  unfold await at h
  split at h
  · exact (Prod.mk.inj h).2.symm
  · cases h

/-- After a walk the time returned has been reached. -/
theorem past_walkToLocation (hmono : Monotone c.clock) {curTime : Int}
    (h : call (walkToLocation c) s = (.ok curTime, t)) : Past c t.readings curTime := by
  rw [walkToLocation] at h
  obtain ⟨before, s1, hbefore, h⟩ := call_bind_eq_ok_iff.mp h
  obtain ⟨_, s2, hawait, h⟩ := call_bind_eq_ok_iff.mp h
  obtain ⟨returned, s3, hreturned, h⟩ := call_bind_eq_ok_iff.mp h
  obtain ⟨rfl, rfl⟩ := call_time_eq_ok hbefore
  obtain rfl := call_await_eq_ok hawait
  obtain ⟨rfl, rfl⟩ := call_time_eq_ok hreturned
  dsimp only at h
  have hbefore : Past c (s.readings + 2) (⌊c.clock s.readings⌋ : ℤ) := (past_floor c s.readings).mono (Nat.le_succ _)
  have hbuffered : Past c (s.readings + 2)
      ((⌊c.clock (s.readings + 1)⌋ - secondsBeforeArrivalOfWalkBuffer : ℤ) : ℚ) := by
    obtain ⟨j, hj, hle⟩ := past_floor c (s.readings + 1)
    refine ⟨j, hj, le_trans ?_ hle⟩
    rw [secondsBeforeArrivalOfWalkBuffer]
    push_cast
    linarith
  split at h
  · obtain ⟨hcur, rfl⟩ := Prod.mk.inj h
    obtain rfl := Except.ok.inj hcur
    exact hbefore
  · obtain ⟨now, s4, hnow, h⟩ := call_bind_eq_ok_iff.mp h
    obtain ⟨rfl, rfl⟩ := call_time_eq_ok hnow
    split at h
    · obtain ⟨hcur, rfl⟩ := Prod.mk.inj h
      obtain rfl := Except.ok.inj hcur
      exact hbuffered.mono (Nat.le_succ _)
    · obtain ⟨now, s5, hnow, h⟩ := call_bind_eq_ok_iff.mp h
      obtain ⟨rfl, rfl⟩ := call_time_eq_ok hnow
      obtain ⟨hcur, rfl⟩ := Prod.mk.inj h
      obtain rfl := Except.ok.inj hcur
      exact past_middle (hbefore.mono (Nat.le_succ _)) hmono

/-- So it has after a teleport. -/
theorem past_transport (hmono : Monotone c.clock) {distance : ℚ} {moved : Int × ℚ}
    (h : call (transport c distance) s = (.ok moved, t)) : Past c t.readings moved.1 := by
  rw [transport] at h
  obtain ⟨s', s1, hget, hrest⟩ := call_bind_eq_ok_iff.mp h
  obtain ⟨hs, rfl⟩ := Prod.mk.inj hget
  obtain rfl := Except.ok.inj hs
  split at hrest
  · obtain ⟨_, s2, hawait, hteleported⟩ := call_bind_eq_ok_iff.mp hrest
    obtain rfl := call_await_eq_ok hawait
    obtain ⟨now, s3, hnow, hread⟩ := call_bind_eq_ok_iff.mp hteleported
    obtain ⟨rfl, rfl⟩ := call_time_eq_ok hnow
    have hpast := past_floor c s2.readings
    split at hread
    · cases hwalk : c.walkAfterTeleport with
      | none =>
        rw [hwalk] at hread
        cases hread
      | some toWalk =>
        rw [hwalk] at hread
        obtain ⟨hmoved, rfl⟩ := Prod.mk.inj hread
        obtain rfl := Except.ok.inj hmoved
        exact hpast
    · obtain ⟨hmoved, rfl⟩ := Prod.mk.inj hread
      obtain rfl := Except.ok.inj hmoved
      exact hpast
  · obtain ⟨curTime, s2, hwalk, hwalked⟩ := call_bind_eq_ok_iff.mp hrest
    obtain ⟨hmoved, rfl⟩ := Prod.mk.inj hwalked
    obtain rfl := Except.ok.inj hmoved
    exact past_walkToLocation hmono hwalk

/-! ## The delay -/

/-- Where the softban has not cooled down at `cur_time`, the delay is all of what is left. -/
theorem calculateRemaining_eq {t0 : ℚ} {l0 : Location ℚ} (haccount : c.account = some ⟨some t0, some l0⟩) (curTime : Int)
    (delay distance speed : ℚ) :
    let cooldown := Accounts.calculateCooldown (c.distance l0 c.currentLocation) speed
    (calculateRemainingSoftbanAvoidanceDuration c curTime delay distance speed).1 =
      if t0 + cooldown > curTime then t0 + cooldown - curTime else delay := by
  simp only [calculateRemainingSoftbanAvoidanceDuration, haccount]
  split
  · next h =>
    show max 0 _ = _
    rw [max_eq_right (by linarith)]
    linarith
  · rfl

/-- Reading the clock for another delay, or none, does not take the readings back. -/
theorem readings_delayWithoutSoftban {delayUsed distance y : ℚ}
    (h : call (delayWithoutSoftban c delayUsed distance) s = (.ok y, t)) : s.readings ≤ t.readings := by
  have hotherwise : ∀ s' : Move, ∀ lastLocation, call (delayWithoutSoftban.otherwise distance lastLocation) s' = (.ok y, t) →
      s'.readings ≤ t.readings := by
    intro s' lastLocation h
    unfold delayWithoutSoftban.otherwise at h
    split at h
    · obtain ⟨_, rfl⟩ := Prod.mk.inj h
      exact le_refl _
    · obtain ⟨_, rfl⟩ := Prod.mk.inj h
      exact le_refl _
  rw [delayWithoutSoftban] at h
  split at h
  · split at h
    · obtain ⟨now, s1, hnow, h⟩ := call_bind_eq_ok_iff.mp h
      obtain ⟨rfl, rfl⟩ := call_time_eq_ok hnow
      obtain ⟨_, rfl⟩ := Prod.mk.inj h
      exact Nat.le_succ _
    · obtain ⟨s', s1, hget, h⟩ := call_bind_eq_ok_iff.mp h
      obtain ⟨_, rfl⟩ := Prod.mk.inj hget
      exact hotherwise _ _ h
  · obtain ⟨s', s1, hget, h⟩ := call_bind_eq_ok_iff.mp h
    obtain ⟨_, rfl⟩ := Prod.mk.inj hget
    exact hotherwise _ _ h

theorem switched_switchAccount {a : Unit} (h : call (switchAccount c) s = (.ok a, t)) : t.switched = true := by
  rw [switchAccount] at h
  obtain ⟨_, s1, hmodify, h⟩ := call_bind_eq_ok_iff.mp h
  obtain ⟨_, rfl⟩ := Prod.mk.inj hmodify
  split at h
  · cases h
  · obtain ⟨_, rfl⟩ := Prod.mk.inj h
    rfl

/-- Without a switch the delay stays. -/
theorem rotateAccount_eq {delayUsed y : ℚ} (h : call (rotateAccount c delayUsed) s = (.ok y, t))
    (hswitched : t.switched = false) : y = delayUsed ∧ t = s := by
  have hswitch : call (do switchAccount c; pure (-1 : ℚ)) s = (.ok y, t) → False := by
    intro h
    obtain ⟨_, s1, hswitch, h⟩ := call_bind_eq_ok_iff.mp h
    obtain ⟨_, rfl⟩ := Prod.mk.inj h
    rw [switched_switchAccount hswitch] at hswitched
    cases hswitched
  rw [rotateAccount] at h
  split at h
  · exact (hswitch h).elim
  · split at h
    · exact (hswitch h).elim
    · obtain ⟨hy, rfl⟩ := Prod.mk.inj h
      exact ⟨(Except.ok.inj hy).symm, rfl⟩

/-! ## The wait -/

/-- The loop ends with a reading past the second. -/
theorem wait_spec {until_ : Int} {fuel : Nat} {a : Unit} (h : call (wait c until_ fuel) s = (.ok a, t)) :
    (∃ j < t.readings, (until_ : ℚ) < c.clock j) ∧ s.readings ≤ t.readings ∧ t.switched = s.switched := by
  induction fuel generalizing s with
  | zero => cases h
  | succ fuel ih =>
    rw [wait] at h
    obtain ⟨now, s1, hnow, h⟩ := call_bind_eq_ok_iff.mp h
    obtain ⟨rfl, rfl⟩ := call_time_eq_ok hnow
    split at h
    · obtain ⟨s', s2, hget, h⟩ := call_bind_eq_ok_iff.mp h
      obtain ⟨hs, rfl⟩ := Prod.mk.inj hget
      obtain rfl := Except.ok.inj hs
      split at h
      · obtain ⟨_, s3, _, hraise⟩ := call_bind_eq_ok_iff.mp h
        obtain ⟨_, s4, hthrow, _⟩ := call_bind_eq_ok_iff.mp hraise
        cases hthrow
      · obtain ⟨hpast, hle, hsame⟩ := ih h
        exact ⟨hpast, (Nat.le_succ _).trans hle, hsame⟩
    · next hnot =>
      obtain ⟨_, rfl⟩ := Prod.mk.inj h
      exact ⟨⟨s.readings, Nat.lt_succ_self _, not_le.mp hnot⟩, Nat.le_succ _, rfl⟩

/-- It ends when the clock gets past the second, unless the worker is stopped. -/
theorem wait_returns (hrunning : ∀ j, c.stopped j = false) {until_ : Int} {n : Nat}
    (hpast : (until_ : ℚ) < c.clock (s.readings + n)) : ∃ t, call (wait c until_ (n + 1)) s = (.ok (), t) := by
  induction n generalizing s with
  | zero =>
    have hnot : ¬ c.clock s.readings ≤ until_ := not_le.mpr hpast
    refine ⟨{ s with readings := s.readings + 1 }, ?_⟩
    rw [wait, call_bind, call_time, andThen_ok, if_neg hnot]
    rfl
  | succ n ih =>
    rw [wait, call_bind, call_time, andThen_ok]
    split
    · rw [call_bind, call_get, andThen_ok, if_neg (by rw [hrunning]; exact Bool.false_ne_true)]
      exact ih (by rwa [Nat.add_right_comm])
    · exact ⟨_, rfl⟩

/-- After the wait, if there is one, a reading is past the delay. -/
theorem sleepDelay_spec {fuel : Nat} {curTime delayUsed r : Int}
    (h : call (sleepDelay c fuel curTime delayUsed) s = (.ok r, t)) :
    (0 < delayUsed → ∃ j < t.readings, ((curTime + delayUsed : ℤ) : ℚ) < c.clock j) ∧
      s.readings ≤ t.readings ∧ t.switched = s.switched := by
  rw [sleepDelay] at h
  split at h
  · next hle =>
    obtain ⟨_, s1, hmodify, h⟩ := call_bind_eq_ok_iff.mp h
    obtain ⟨_, rfl⟩ := Prod.mk.inj hmodify
    obtain ⟨_, rfl⟩ := Prod.mk.inj h
    exact ⟨fun hlt => absurd hle (not_le.mpr hlt), le_refl _, rfl⟩
  · obtain ⟨_, s1, hmodify, h⟩ := call_bind_eq_ok_iff.mp h
    obtain ⟨_, rfl⟩ := Prod.mk.inj hmodify
    obtain ⟨_, s2, hwait, h⟩ := call_bind_eq_ok_iff.mp h
    obtain ⟨_, rfl⟩ := Prod.mk.inj h
    obtain ⟨hpast, hle, hsame⟩ := wait_spec hwait
    exact ⟨fun _ => hpast, hle, hsame⟩

/-! ## A whole move -/

/-- The delay is what is left of the cooldown, where something is. -/
theorem delayToAvoidSoftban_spec {t0 : ℚ} {l0 : Location ℚ} (haccount : c.account = some ⟨some t0, some l0⟩)
    {moved : Int × ℚ} {distance delay : ℚ}
    (h : call (delayToAvoidSoftban c moved distance) s = (.ok delay, t)) :
    let cooldown := Accounts.calculateCooldown (c.distance l0 c.currentLocation) Accounts.questWalkSpeedCalculated
    s.readings ≤ t.readings ∧ (t0 + cooldown > moved.1 → delay = t0 + cooldown - moved.1) := by
  intro cooldown
  have hremaining := calculateRemaining_eq haccount moved.1 0 distance Accounts.questWalkSpeedCalculated
  unfold delayToAvoidSoftban at h
  dsimp only at h hremaining
  split at h
  · next hzero =>
    refine ⟨readings_delayWithoutSoftban h, fun hlater => ?_⟩
    rw [hzero, if_pos hlater] at hremaining
    linarith
  · obtain ⟨hdelay, rfl⟩ := Prod.mk.inj h
    obtain rfl := Except.ok.inj hdelay
    refine ⟨le_refl _, fun hlater => ?_⟩
    rw [hremaining, if_pos hlater]

/-- A delay of a second or more is waited for, but for a second. -/
theorem waitBeforeSpinning_spec {fuel : Nat} {moved : Int × ℚ} {delay : ℚ} {r : Int}
    (h : call (waitBeforeSpinning c fuel moved delay) s = (.ok r, t)) (hswitched : t.switched = false) :
    s.readings ≤ t.readings ∧ (1 ≤ delay → ∃ j < t.readings, moved.1 + delay - 1 < c.clock j) := by
  rw [waitBeforeSpinning] at h
  obtain ⟨rotated, s1, hrotate, hrotated⟩ := call_bind_eq_ok_iff.mp h
  obtain ⟨curTime, s2, hsleep, hslept⟩ := call_bind_eq_ok_iff.mp hrotated
  obtain ⟨_, s3, hmodify, hdone⟩ := call_bind_eq_ok_iff.mp hslept
  obtain ⟨_, rfl⟩ := Prod.mk.inj hmodify
  obtain ⟨_, rfl⟩ := Prod.mk.inj hdone
  obtain ⟨hpast, hle, hsame⟩ := sleepDelay_spec hsleep
  obtain ⟨rfl, rfl⟩ := rotateAccount_eq hrotate (hsame.symm.trans hswitched)
  refine ⟨hle, fun hdelay => ?_⟩
  set delayUsed := if delay > 0 ∧ delay > moved.2 then delay else moved.2 with hused
  have hlarger : delay ≤ delayUsed := by
    rw [hused]
    split
    · exact le_refl _
    · next hnot =>
      by_contra hlt
      exact hnot ⟨by linarith, not_le.mp hlt⟩
  have hpositive : 0 < ⌊delayUsed⌋ := Int.floor_pos.mpr (hdelay.trans hlarger)
  obtain ⟨j, hj, hreading⟩ := hpast hpositive
  refine ⟨j, hj, ?_⟩
  have hfloor := Int.lt_floor_add_one delayUsed
  push_cast at hreading
  linarith

/-- When a move returns and the account was not switched, the clock is later than a second before the
cooldown of the last softban action is over. -/
theorem cooldown_waited_out (hmono : Monotone c.clock) {t0 : ℚ} {l0 : Location ℚ}
    (haccount : c.account = some ⟨some t0, some l0⟩) {fuel : Nat} {curTime : Int}
    (h : call (moveToLocation c fuel) s = (.ok curTime, t)) (hswitched : t.switched = false) :
    ∀ k, t.readings ≤ k + 1 →
      t0 + Accounts.calculateCooldown (c.distance l0 c.currentLocation) Accounts.questWalkSpeedCalculated - 1 <
        c.clock k := by
  intro k hk
  set cooldown := Accounts.calculateCooldown (c.distance l0 c.currentLocation) Accounts.questWalkSpeedCalculated
  suffices hreading : ∃ j < t.readings, t0 + cooldown - 1 < c.clock j by
    obtain ⟨j, hj, hlt⟩ := hreading
    exact hlt.trans_le (hmono (by omega))
  unfold moveToLocation at h
  split at h
  · cases h
  obtain ⟨s', s1, hget, hmove⟩ := call_bind_eq_ok_iff.mp h
  obtain ⟨moved, s2, hmoved, hdelay⟩ := call_bind_eq_ok_iff.mp hmove
  obtain ⟨delay, s3, hdelayed, hwait⟩ := call_bind_eq_ok_iff.mp hdelay
  obtain ⟨hle, hremains⟩ := delayToAvoidSoftban_spec haccount hdelayed
  obtain ⟨hle', hwaited⟩ := waitBeforeSpinning_spec hwait hswitched
  obtain ⟨j, hj, hpast⟩ := (past_transport hmono hmoved).mono (hle.trans hle')
  -- at `cur_time` the cooldown is over, or within a second, or the delay is at least one
  rcases le_or_gt (t0 + cooldown) moved.1 with hover | hlater
  · exact ⟨j, hj, by linarith⟩
  have hdelay := hremains hlater
  rcases le_or_gt 1 delay with hone | hshort
  · obtain ⟨i, hi, hreading⟩ := hwaited hone
    exact ⟨i, hi, by linarith⟩
  · exact ⟨j, hj, by linarith⟩

/-- A teleport by 100 meters, on a device without delays. -/
def teleport : Course where
  clock n := 3 * n
  distance _ _ := 100
  currentLocation := ⟨1, 1⟩
  routeManagerPresent := true
  speed := none
  maxDistance := none
  postTeleportDelay := 0
  walkAfterTeleportDistance := 0
  postWalkDelay := 0
  lastActionTime := none
  screendetection := true
  accountRotation := false
  rotationWaittime := 300
  levelmode := false
  level := 30
  account := some ⟨some 0, some ⟨0, 0⟩⟩
  setLocation := true
  walkAfterTeleport := none
  walkFromTo := true
  switchAccount := true
  stopped _ := false

theorem monotone_clock_teleport : Monotone teleport.clock :=
  fun n m hle => mul_le_mul_of_nonneg_left (Nat.cast_le.mpr hle) (by norm_num)

theorem moveToLocation_teleport :
    call (moveToLocation teleport 4) ⟨0, false, 0, ⟨0, 0⟩⟩ = (.ok (-5), ⟨3, false, 0, ⟨1, 1⟩⟩) := by
  decide +kernel

/-- It takes the third reading to be past five seconds. -/
theorem teleport_waited_out :
    0 + Accounts.calculateCooldown 100 Accounts.questWalkSpeedCalculated - 1 < teleport.clock 2 :=
  cooldown_waited_out monotone_clock_teleport rfl moveToLocation_teleport rfl 2 (le_refl _)

end MapADroid.Worker.Softban
