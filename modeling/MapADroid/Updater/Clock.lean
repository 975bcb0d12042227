import MapADroid.Updater.Entries

/- The updater with its clock.

   `time.time()` and `DatetimeWrapper.now()` read one clock, which never goes back. A step of
   the clocked updater is an action with the moment it ends: for `start` the call of
   `__start_job_type`, for `finish` its end. -/
namespace MapADroid.Updater
open Lib

/-- The readings of the clock in an action, in program order. -/
def readings : Action → List ℚ
  | .restartJob now _ => [now]
  | .handle _ clk => [clk.now, clk.sub, clk.algo, clk.wait, clk.check, clk.start]
  | .connect _ _ now => [now]
  | .restart _ now => [now]
  | _ => []

/-- The updater with its clock. -/
def clocked (jobRestartNotconnect : Int) : State × ℚ → Action × ℚ → Option (State × ℚ) :=
  timed (step jobRestartNotconnect) readings

variable {cfg : Int} {s s' : State} {a : Action} {r : Ref} {clk : Readings} {e : GlobalJobLogEntry}

/-- How the first part of `__handle_job` ends, as far as the date of the job is concerned. -/
inductive Handled (cfg : Int) (clk : Readings) (e : GlobalJobLogEntry) : GlobalJobLogEntry → Next → Prop where
  /-- It returned `True` or raised. -/
  | given (next : Next) (hnext : ∀ why, next ≠ .restarting why) (hnot : next ≠ .processing) : Handled cfg clk e e next
  | redone (hstatus : e.lastStatus = .failing) : Handled cfg clk e e (.restarting .failing)
  | aborted (hstatus : e.lastStatus = .failing) : Handled cfg clk e { e with lastStatus := .failed } (.returned true)
  /-- The device was not connected, and `job_restart_notconnect` is set. -/
  | postponed (hstatus : e.lastStatus = .notConnected) : Handled cfg clk e
      { e with processingDate := some (clk.now + 60 * cfg) } (.restarting .notConnected)
  | future {scheduled : GlobalJobLogEntry} (hscheduled : schedule clk e = .ok (some scheduled))
      (hdue : scheduled.dueAfter clk.check = true) :
      Handled cfg clk e { scheduled with lastStatus := .future } (.returned false)
  | processing {scheduled : GlobalJobLogEntry} (hscheduled : schedule clk e = .ok (some scheduled))
      (hdue : scheduled.dueAfter clk.check = false) : Handled cfg clk e
      { scheduled with lastStatus := .processing, processingDate := some ⌊clk.start⌋ } .processing

theorem handleStart_handled (cfg : Int) (clk : Readings) (e : GlobalJobLogEntry) :
    Handled cfg clk e (handleStart cfg clk e).1 (handleStart cfg clk e).2 := by
  have hreturned : Handled cfg clk e e (.returned true) := .given _ (by simp) (by simp)
  unfold handleStart
  split
  · exact hreturned
  split
  · exact hreturned
  split
  · exact hreturned
  split
  · split
    · next hstatus =>
      split
      · exact .redone hstatus
      · exact .aborted hstatus
    · split
      · next h => exact .postponed h.1
      · exact hreturned
  · split
    · exact .given _ (by simp) (by simp)
    · exact hreturned
    · next scheduled hscheduled =>
      split
      · next hdue => exact .future hscheduled hdue
      · next hdue => exact .processing hscheduled (by simpa using hdue)

/-- An entry that no task is past the checks with keeps its fields at a step, unless it is handled or brought in;
it may be given up after a restart. -/
theorem step_idle (hs : Step cfg s a s') (hr : r < s.next) (hincoming : s.incoming a ≠ some r)
    (hhandle : ∀ w clk, a = .handle w clk → (s.workers w).held ≠ some r)
    (hidle : ∀ v, RedoOnError.executing (s.workers v) ≠ some r) :
    s'.heap r = s.heap r ∨
      (∃ w, s.workers w = .restarting r .failing) ∧ s'.heap r = { s.heap r with lastStatus := .failed } := by
  by_cases hacts : s.acts r a
  · rw [step_heap hs]
    cases hs with
    | @handle w x clk hw => exact absurd hacts (hhandle w clk rfl)
    | @connect w x connected now hw =>
      obtain rfl : x = r := by simpa [State.acts, hw, Pc.held] using hacts
      exact absurd (by rw [hw]; rfl) (hidle w)
    | @start w x hw =>
      obtain rfl : x = r := by simpa [State.acts, hw, Pc.held] using hacts
      exact absurd (by rw [hw]; rfl) (hidle w)
    | @finish w x i o hw =>
      obtain rfl : x = r := by simpa [State.acts, hw, Pc.held] using hacts
      exact absurd (by rw [hw]; rfl) (hidle w)
    | @restart w x why now hw =>
      simp only [State.changed, if_neg hincoming]
      split
      · next hfailing => exact .inr ⟨⟨w, hfailing⟩, rfl⟩
      · exact .inl rfl
    | _ => exact hacts.elim
  · exact .inl (step_heap_other hs hr hacts hincoming)

/-- No task gets past the checks with a job but by handling it. -/
theorem idle_step (hs : Step cfg s a s') (hhandle : ∀ w clk, a = .handle w clk → (s.workers w).held ≠ some r)
    (hidle : ∀ v, RedoOnError.executing (s.workers v) ≠ some r) (v : Worker) :
    RedoOnError.executing (s'.workers v) ≠ some r := by
  intro hv
  rcases RedoOnError.step_executing hs hv with hv | ⟨clk, ha, hw, _⟩
  · exact hidle v hv
  · exact hhandle v clk ha (by rw [hw]; rfl)

/-- The index of an entry goes back to 0 by a restart only. -/
theorem step_index (hs : Step cfg s a s') (hr : r < s.next) (hincoming : s.incoming a ≠ some r)
    (hindex : (s'.heap r).subJobIndex = 0) : (s.heap r).subJobIndex = 0 := by
  rw [step_heap hs] at hindex
  cases a with
  | addJob now origin jobName auto =>
    simp only [State.changed] at hindex
    split at hindex
    · exact hindex
    · rw [if_neg (Nat.ne_of_lt hr)] at hindex
      exact hindex
  | restartJob now id =>
    rw [State.changed, if_neg (show ¬ s.log.get? id = some r from hincoming)] at hindex
    exact hindex
  | handle w clk =>
    simp only [State.changed] at hindex
    split at hindex
    · rw [← (handleStart_same cfg clk (s.heap r)).2]
      exact hindex
    · exact hindex
  | connect w connected now =>
    simp only [State.changed] at hindex
    split at hindex
    · rw [← (handleConnect_same connected now (s.heap r)).2]
      exact hindex
    · exact hindex
  | start w =>
    simp only [State.changed] at hindex
    split at hindex <;> exact hindex
  | finish w o =>
    simp only [State.changed] at hindex
    split at hindex
    · cases o with
      | success => exact absurd hindex (Nat.succ_ne_zero _)
      | failure => exact hindex
      | exception => exact hindex
    · exact hindex
  | restart w now =>
    simp only [State.changed, if_neg hincoming] at hindex
    split at hindex <;> exact hindex
  | _ => exact hindex

/-- A failed job that is not brought in stays failed. -/
theorem quiet_step (h : RedoOnError.Quiet s r) (hs : Step cfg s a s') (hincoming : s.incoming a ≠ some r) :
    RedoOnError.Quiet s' r := by
  refine h.step hs fun hmem => hincoming ?_
  cases a with
  | restartJob now id => simpa [RedoOnError.emit, RedoOnError.restarted, State.incoming] using hmem
  | restart w now =>
    simp only [RedoOnError.emit] at hmem
    simp only [State.incoming]
    split at hmem
    · next x hw =>
      rw [hw]
      simpa [RedoOnError.restarted] using hmem
    · next x why hwhy hw =>
      rw [hw]
      simpa [RedoOnError.restarted] using hmem
    · cases hmem
  | handle w clk =>
    simp only [RedoOnError.emit] at hmem
    split at hmem
    · split at hmem <;> simp at hmem
    · cases hmem
  | start w =>
    simp only [RedoOnError.emit] at hmem
    split at hmem
    · split at hmem <;> simp at hmem
    · cases hmem
  | _ => cases hmem

end MapADroid.Updater
