import MapADroid.Lib.Run
import Mathlib.Logic.Function.Basic

/- The tasks of a worker (`Worker.start_worker`, `stop_worker`, `cancel_scan`, `_run`).

   `_run` is a task that makes a task of `_run_scan`, awaits it, chooses a strategy and
   begins again. What is between two suspension points is one step. Most sections of the
   mutex have no `await` in them and are part of a step; a scan holds it during its health
   check, and `_run` at its very end, so who holds it is part of the state. What a scan does
   otherwise, and how it ends, is arbitrary.

   A cancellation is requested at once and takes place when the task goes on. One of a task
   that awaits another task is handed on to that task: this is why a scan is never left
   behind (`one_scan`), and why a stop is lost while a scan is running (`stop_lost`). -/
namespace MapADroid.Worker.Tasks
open Lib

/-- How a scan ends, as far as `_run` tells. -/
inductive ScanEnd where
  | returned
  | cancelled
  /-- An `InternalStopWorkerException`, or a connection that timed out or was closed. -/
  | stoppedInternally
  | routemanagerShuttingDown
  /-- A `WebsocketWorkerRemovedException`, or anything else. -/
  | raised
  deriving DecidableEq

inductive ScanPc where
  | absent
  | running
  | done (outcome : ScanEnd)
  deriving DecidableEq

/-- A task of `_run_scan`. -/
structure ScanTask where
  pc : ScanPc
  cancelRequested : Bool
  /-- The strategy when it was made. -/
  strategy : Nat
  deriving DecidableEq

/-- Where a task of `_run` is. -/
inductive RunPc where
  | absent
  /-- Made, and not begun. -/
  | created
  /-- Until the communicator is alive. -/
  | connecting
  /-- Waits for the mutex. -/
  | waitingToScan
  | scanning (scan : Nat)
  /-- In the inner `finally`, until it has the mutex; `raises` where an exception waits for the end of it. -/
  | ending (raises : Bool)
  /-- In `__update_strategy`. -/
  | updating (raises : Bool)
  /-- In the outer `finally`, until it has the mutex. -/
  | waitingToFinish
  /-- Holds the mutex, in `worker_specific_setup_stop`. -/
  | finishing
  | done
  deriving DecidableEq

def RunPc.live : RunPc → Bool
  | .absent | .done => false
  | _ => true

/-- A task of `_run`. -/
structure RunTask where
  pc : RunPc
  cancelRequested : Bool
  deriving DecidableEq

/-- Who holds the mutex over an `await`. -/
inductive Holder where
  | run (r : Nat)
  | scan (n : Nat)
  deriving DecidableEq

structure WorkerTasks where
  workMutex : Option Holder
  stopWorkerEvent : Bool
  workerTask : Option Nat
  scanTask : Option Nat
  /-- `_scan_strategy`, by how often it was replaced. -/
  scanStrategy : Nat
  run : Nat → RunTask
  runsMade : Nat
  scan : Nat → ScanTask
  scansMade : Nat
  /-- Calls of `stop_worker` that wait for the mutex. -/
  stopsPending : Nat
  /-- Calls of `set_scan_strategy` that wait for the mutex. -/
  changesPending : Nat

inductive Action where
  | startWorker
  /-- `stop_worker`, up to the mutex. -/
  | stopWorker
  | stopCancels
  | cancelScan
  /-- `set_scan_strategy`, up to the mutex. -/
  | setScanStrategy
  | scanStrategyChanged
  /-- A requested cancellation takes place. -/
  | runCancelled (r : Nat)
  | runBegins (r : Nat)
  | connected (r : Nat)
  | connectionRaises (r : Nat)
  | scanMade (r : Nat)
  | healthCheck (n : Nat)
  | healthChecked (n : Nat)
  | scanEnds (n : Nat) (outcome : ScanEnd)
  /-- `_run` goes on after the scan. -/
  | scanAwaited (r : Nat)
  | scanForgotten (r : Nat)
  | strategyUpdated (r : Nat)
  | updateRaises (r : Nat)
  | finishes (r : Nat)
  | finished (r : Nat) (raises : Bool)
  deriving DecidableEq

/-- `_run` goes on where a scan ends so. -/
def ScanEnd.handled : ScanEnd → Bool
  | .raised => false
  | _ => true

namespace WorkerTasks

def init : WorkerTasks :=
  ⟨none, false, none, none, 0, fun _ => ⟨.absent, false⟩, 0, fun _ => ⟨.absent, false, 0⟩, 0, 0, 0⟩

def setRun (s : WorkerTasks) (r : Nat) (task : RunTask) : WorkerTasks := { s with run := Function.update s.run r task }

def setScan (s : WorkerTasks) (n : Nat) (task : ScanTask) : WorkerTasks := { s with scan := Function.update s.scan n task }

/-- `Task.cancel` of a scan. -/
def requestCancelScan (s : WorkerTasks) (n : Nat) : WorkerTasks :=
  if (s.scan n).pc = .running then s.setScan n { s.scan n with cancelRequested := true } else s

/-- `Task.cancel` of `_run`: one that awaits a scan hands it on. -/
def requestCancelRun (s : WorkerTasks) (r : Nat) : WorkerTasks :=
  match (s.run r).pc with
  | .absent | .done => s
  | .scanning n =>
    if (s.scan n).pc = .running then s.requestCancelScan n
    else s.setRun r { s.run r with cancelRequested := true }
  | _ => s.setRun r { s.run r with cancelRequested := true }

/-- `start_worker`, with the mutex. -/
def startWorker (s : WorkerTasks) : WorkerTasks :=
  match s.workerTask.filter fun r => (s.run r).pc ≠ .done with
  | some _ => s
  | none =>
    { s.setRun s.runsMade ⟨.created, false⟩ with workerTask := some s.runsMade, runsMade := s.runsMade + 1 }

/-- `cancel_scan` and `_scan_strategy_changed`, with the mutex. -/
def cancelScan (s : WorkerTasks) : WorkerTasks :=
  match s.scanTask with
  | some n => s.requestCancelScan n
  | none => s

/-- Where a `CancelledError` takes `_run`: the one that comes at the end of a scan is caught. -/
def cancelledAt : RunPc → RunPc
  | .created | .waitingToFinish | .finishing => .done
  | .scanning _ => .ending false
  | .connecting | .waitingToScan | .ending _ | .updating _ => .waitingToFinish
  | pc => pc

/-- The scan that `_run` awaits is running. -/
def awaits (s : WorkerTasks) (r : Nat) : Bool :=
  match (s.run r).pc with
  | .scanning n => (s.scan n).pc = .running
  | _ => false

def release (s : WorkerTasks) (holder : Holder) : WorkerTasks :=
  if s.workMutex = some holder then { s with workMutex := none } else s

/-- `_run` goes from `pc` to `pc'`, unless it is to be cancelled. -/
def moveRun (s : WorkerTasks) (r : Nat) (pc pc' : RunPc) : Option WorkerTasks :=
  if (s.run r).pc = pc ∧ (s.run r).cancelRequested = false then some (s.setRun r ⟨pc', false⟩) else none

/-- What needs the mutex. -/
def locking (s : WorkerTasks) (t : Option WorkerTasks) : Option WorkerTasks := if s.workMutex = none then t else none

/-- The outer `finally`, with the mutex. -/
def finish (s : WorkerTasks) (r : Nat) : WorkerTasks :=
  match s.scanTask with
  | some n => { (s.requestCancelScan n).setRun r ⟨.finishing, false⟩ with workMutex := some (.run r) }
  | none => s.setRun r ⟨.done, false⟩

def step (s : WorkerTasks) : Action → Option WorkerTasks
  | .startWorker => s.locking (some s.startWorker)
  | .stopWorker =>
    if s.stopWorkerEvent then some s
    else some { s with stopWorkerEvent := true, stopsPending := s.stopsPending + 1 }
  | .stopCancels => s.locking <|
    if s.stopsPending = 0 then none
    else
      let s := { s with stopsPending := s.stopsPending - 1 }
      some (match s.workerTask with
        | some r => s.requestCancelRun r
        | none => s)
  | .cancelScan => s.locking (some s.cancelScan)
  | .setScanStrategy => some { s with scanStrategy := s.scanStrategy + 1, changesPending := s.changesPending + 1 }
  | .scanStrategyChanged => s.locking <|
    if s.changesPending = 0 then none else some { s.cancelScan with changesPending := s.changesPending - 1 }
  | .runCancelled r =>
    if (s.run r).cancelRequested ∧ s.awaits r = false then
      some ((s.release (.run r)).setRun r ⟨cancelledAt (s.run r).pc, false⟩)
    else none
  | .runBegins r => (s.moveRun r .created .connecting).map fun t => { t with stopWorkerEvent := false }
  | .connected r => s.moveRun r .connecting .waitingToScan
  | .connectionRaises r => s.moveRun r .connecting .waitingToFinish
  | .scanMade r => s.locking <|
    (s.moveRun r .waitingToScan (.scanning s.scansMade)).map fun t =>
      { t.setScan s.scansMade ⟨.running, false, s.scanStrategy⟩ with
        scanTask := some s.scansMade, scansMade := s.scansMade + 1 }
  | .healthCheck n => s.locking <|
    if (s.scan n).pc = .running then some { s with workMutex := some (.scan n) } else none
  | .healthChecked n => if s.workMutex = some (.scan n) then some { s with workMutex := none } else none
  | .scanEnds n outcome =>
    if (s.scan n).pc = .running then some ((s.release (.scan n)).setScan n { s.scan n with pc := .done outcome })
    else none
  | .scanAwaited r =>
    match (s.run r).pc with
    | .scanning n =>
      match (s.scan n).pc with
      | .done outcome => s.moveRun r (.scanning n) (.ending !outcome.handled)
      | _ => none
    | _ => none
  | .scanForgotten r => s.locking <|
    match (s.run r).pc with
    | .ending raises => (s.moveRun r (.ending raises) (.updating raises)).map fun t => { t with scanTask := none }
    | _ => none
  | .strategyUpdated r =>
    match (s.run r).pc with
    | .updating raises => s.moveRun r (.updating raises) (if raises then .waitingToFinish else .connecting)
    | _ => none
  | .updateRaises r =>
    match (s.run r).pc with
    | .updating raises => s.moveRun r (.updating raises) .waitingToFinish
    | _ => none
  | .finishes r => s.locking <|
    if (s.run r).pc = .waitingToFinish ∧ (s.run r).cancelRequested = false then some (s.finish r) else none
  | .finished r raises =>
    (s.moveRun r .finishing .done).map fun t =>
      { t.release (.run r) with scanTask := if raises then t.scanTask else none }

@[simp] theorem setRun_self (s : WorkerTasks) (r : Nat) (task : RunTask) : (s.setRun r task).run r = task := by
  simp [setRun]

theorem setRun_of_ne (s : WorkerTasks) {r q : Nat} (h : q ≠ r) (task : RunTask) : (s.setRun r task).run q = s.run q := by
  simp [setRun, h]

@[simp] theorem setScan_self (s : WorkerTasks) (n : Nat) (task : ScanTask) : (s.setScan n task).scan n = task := by
  simp [setScan]

theorem setScan_of_ne (s : WorkerTasks) {n m : Nat} (h : m ≠ n) (task : ScanTask) : (s.setScan n task).scan m = s.scan m := by
  simp [setScan, h]

@[simp] theorem release_run (s : WorkerTasks) (holder : Holder) : (s.release holder).run = s.run := by
  unfold release
  split <;> rfl

@[simp] theorem release_scan (s : WorkerTasks) (holder : Holder) : (s.release holder).scan = s.scan := by
  unfold release
  split <;> rfl

theorem release_same (s : WorkerTasks) (holder : Holder) :
    (s.release holder).stopWorkerEvent = s.stopWorkerEvent ∧ (s.release holder).stopsPending = s.stopsPending := by
  unfold release
  split <;> exact ⟨rfl, rfl⟩

@[simp] theorem release_scanTask (s : WorkerTasks) (holder : Holder) : (s.release holder).scanTask = s.scanTask := by
  unfold release
  split <;> rfl

theorem release_awaits (s : WorkerTasks) (holder : Holder) (r : Nat) : (s.release holder).awaits r = s.awaits r := by
  unfold awaits
  rw [release_run, release_scan]

theorem requestCancelScan_pc (s : WorkerTasks) (n m : Nat) : ((s.requestCancelScan n).scan m).pc = (s.scan m).pc := by
  unfold requestCancelScan
  split
  · by_cases hmn : m = n
    · rw [hmn, setScan_self]
    · rw [setScan_of_ne s hmn]
  · rfl

theorem cancelScan_pc (s : WorkerTasks) (m : Nat) : (s.cancelScan.scan m).pc = (s.scan m).pc := by
  unfold cancelScan
  split
  · exact requestCancelScan_pc s _ m
  · rfl

/-- Cancelling a scan changes nothing else. -/
theorem cancelScan_same (s : WorkerTasks) : s.cancelScan.run = s.run ∧
    s.cancelScan.stopWorkerEvent = s.stopWorkerEvent ∧ s.cancelScan.stopsPending = s.stopsPending := by
  unfold cancelScan
  split
  · unfold requestCancelScan
    split <;> exact ⟨rfl, rfl, rfl⟩
  · exact ⟨rfl, rfl, rfl⟩

theorem locking_eq_some {s t : WorkerTasks} {o : Option WorkerTasks} (h : s.locking o = some t) :
    s.workMutex = none ∧ o = some t := by
  unfold locking at h
  split at h
  · exact ⟨‹_›, h⟩
  · cases h

theorem moveRun_eq_some {s t : WorkerTasks} {r : Nat} {pc pc' : RunPc} (h : s.moveRun r pc pc' = some t) :
    (s.run r).pc = pc ∧ (s.run r).cancelRequested = false ∧ t = s.setRun r ⟨pc', false⟩ := by
  unfold moveRun at h
  split at h
  · next hpc => exact ⟨hpc.1, hpc.2, (Option.some.inj h).symm⟩
  · cases h

theorem awaits_iff {s : WorkerTasks} {r : Nat} :
    s.awaits r = true ↔ ∃ n, (s.run r).pc = .scanning n ∧ (s.scan n).pc = .running := by
  unfold awaits
  split
  · next n hpc => simp [hpc]
  · next hpc =>
    constructor
    · exact nofun
    · rintro ⟨n, hscanning, _⟩
      exact absurd hscanning (hpc n)

theorem awaits_eq_false {s : WorkerTasks} {r : Nat} (h : ∀ n, (s.run r).pc ≠ .scanning n) : s.awaits r = false := by
  rw [← Bool.not_eq_true, awaits_iff]
  rintro ⟨n, hscanning, _⟩
  exact h n hscanning

end WorkerTasks

/-! ## One scan at a time -/

/-- The task of the worker is the only one of `_run` that is not done, and a scan that is running is the one it
    awaits. A scan with a strategy that was replaced is to be cancelled, or will be. -/
structure Sound (s : WorkerTasks) : Prop where
  one : ∀ r, (s.run r).pc.live = true → s.workerTask = some r
  awaited : ∀ n, (s.scan n).pc = .running → s.scanTask = some n ∧ ∃ r, s.run r = ⟨.scanning n, false⟩
  current : ∀ n, (s.scan n).pc = .running →
    (s.scan n).cancelRequested = true ∨ (s.scan n).strategy = s.scanStrategy ∨ 0 < s.changesPending

namespace Sound

variable {s t : WorkerTasks} {r n : Nat}

theorem init : Sound .init where
  one _ h := by cases h
  awaited _ h := by cases h
  current _ h := by cases h

/-- Where only the mutex, the event and what waits for the mutex change. -/
theorem frame (h : Sound s) (hrun : t.run = s.run) (hscan : t.scan = s.scan) (hworker : t.workerTask = s.workerTask)
    (htask : t.scanTask = s.scanTask)
    (hcurrent : s.scanStrategy = t.scanStrategy ∧ s.changesPending ≤ t.changesPending ∨ 0 < t.changesPending) :
    Sound t where
  one r hlive := by
    rw [hrun] at hlive
    rw [hworker]
    exact h.one r hlive
  awaited n hn := by
    rw [hscan] at hn
    rw [hrun, htask]
    exact h.awaited n hn
  current n hn := by
    rw [hscan] at hn ⊢
    rcases hcurrent with ⟨hstrategy, hpending⟩ | hpending
    · rw [← hstrategy]
      exact (h.current n hn).imp_right (Or.imp_right fun hlt => Nat.lt_of_lt_of_le hlt hpending)
    · exact .inr (.inr hpending)

theorem release (h : Sound s) (holder : Holder) : Sound (s.release holder) := by
  unfold WorkerTasks.release
  split
  · exact h.frame rfl rfl rfl rfl (.inl ⟨rfl, Nat.le_refl _⟩)
  · exact h

/-- `_run` goes somewhere else, if not away from a scan that is running. -/
theorem setRun (h : Sound s) {task : RunTask} (hlive : task.pc.live = true → (s.run r).pc.live = true)
    (htask : s.awaits r = true → task = s.run r) : Sound (s.setRun r task) where
  one q hq := by
    by_cases hqr : q = r
    · subst hqr
      rw [WorkerTasks.setRun_self] at hq
      exact h.one q (hlive hq)
    · rw [s.setRun_of_ne hqr] at hq
      exact h.one q hq
  awaited n hn := by
    obtain ⟨hscan, q, hq⟩ := h.awaited n hn
    refine ⟨hscan, q, ?_⟩
    by_cases hqr : q = r
    · subst hqr
      rw [WorkerTasks.setRun_self, htask (WorkerTasks.awaits_iff.mpr ⟨n, by rw [hq], hn⟩)]
      exact hq
    · rw [s.setRun_of_ne hqr]
      exact hq
  current := h.current

theorem moveRun (h : Sound s) {pc pc' : RunPc} (hmove : s.moveRun r pc pc' = some t) (hlive : pc.live = true)
    (hawaits : s.awaits r = false) : Sound t := by
  obtain ⟨hold, _, rfl⟩ := WorkerTasks.moveRun_eq_some hmove
  refine h.setRun (fun _ => by rw [hold]; exact hlive) fun hyes => ?_
  rw [hawaits] at hyes
  cases hyes

theorem moveRun_from (h : Sound s) {pc pc' : RunPc} (hmove : s.moveRun r pc pc' = some t) (hlive : pc.live = true)
    (hpc : ∀ n, pc ≠ .scanning n) : Sound t := by
  obtain ⟨hold, _, _⟩ := WorkerTasks.moveRun_eq_some hmove
  exact h.moveRun hmove hlive (WorkerTasks.awaits_eq_false (by rw [hold]; exact hpc))

/-- No scan is running where `_run` does not await one. -/
theorem idle (h : Sound s) (hlive : (s.run r).pc.live = true) (hawaits : s.awaits r = false) (n : Nat) :
    (s.scan n).pc ≠ .running := by
  intro hn
  obtain ⟨_, q, hq⟩ := h.awaited n hn
  have hqr : q = r := by
    have hworker := h.one q (by rw [hq]; rfl)
    rw [h.one r hlive] at hworker
    exact (Option.some.inj hworker).symm
  have hyes : s.awaits r = true := WorkerTasks.awaits_iff.mpr ⟨n, by rw [← hqr, hq], hn⟩
  rw [hawaits] at hyes
  cases hyes

theorem requestCancelScan (h : Sound s) (n : Nat) : Sound (s.requestCancelScan n) := by
  unfold WorkerTasks.requestCancelScan
  split
  · next hrunning =>
    constructor
    · exact h.one
    · intro m hm
      by_cases hmn : m = n
      · subst hmn
        exact h.awaited m hrunning
      · rw [s.setScan_of_ne hmn] at hm
        exact h.awaited m hm
    · intro m hm
      by_cases hmn : m = n
      · subst hmn
        left
        rw [WorkerTasks.setScan_self]
      · rw [s.setScan_of_ne hmn] at hm ⊢
        exact h.current m hm
  · exact h

theorem requestCancelRun (h : Sound s) (r : Nat) : Sound (s.requestCancelRun r) := by
  unfold WorkerTasks.requestCancelRun
  split
  · exact h
  · exact h
  · next n hpc =>
    split
    · exact h.requestCancelScan n
    · next hnot =>
      refine h.setRun id fun hyes => ?_
      obtain ⟨m, hm, hrunning⟩ := WorkerTasks.awaits_iff.mp hyes
      obtain rfl := RunPc.scanning.inj (hpc.symm.trans hm)
      exact absurd hrunning hnot
  · next hpc =>
    refine h.setRun id fun hyes => ?_
    obtain ⟨m, hm, _⟩ := WorkerTasks.awaits_iff.mp hyes
    exact absurd hm (hpc m)

theorem cancelScan (h : Sound s) : Sound s.cancelScan := by
  unfold WorkerTasks.cancelScan
  split
  · exact h.requestCancelScan _
  · exact h

/-- No task of `_run` is left where the task of the worker is done. -/
theorem startWorker (h : Sound s) : Sound s.startWorker := by
  unfold WorkerTasks.startWorker
  split
  · exact h
  · next hnone =>
    have hdead : ∀ r, (s.run r).pc.live = false := by
      intro r
      rw [← Bool.not_eq_true]
      intro hlive
      have hne : (s.run r).pc ≠ .done := by
        intro hdone
        rw [hdone] at hlive
        cases hlive
      rw [h.one r hlive] at hnone
      simp [hne] at hnone
    constructor
    · intro r hlive
      by_cases hr : r = s.runsMade
      · rw [hr]
      · have hold : (s.run r).pc.live = true := by
          rw [← s.setRun_of_ne hr]
          exact hlive
        rw [hdead r] at hold
        cases hold
    · intro n hn
      obtain ⟨_, r, hr⟩ := h.awaited n hn
      have hlive := hdead r
      rw [hr] at hlive
      cases hlive
    · exact h.current

/-- A scan is made by a `_run` that does not await one. -/
theorem scanMade (h : Sound s) (hpc : (s.run r).pc = .waitingToScan) :
    Sound { (s.setRun r ⟨.scanning s.scansMade, false⟩).setScan s.scansMade ⟨.running, false, s.scanStrategy⟩ with
      scanTask := some s.scansMade, scansMade := s.scansMade + 1 } := by
  have hworker : s.workerTask = some r := h.one r (by rw [hpc]; rfl)
  have hnone := h.idle (by rw [hpc]; rfl) (WorkerTasks.awaits_eq_false (by rw [hpc]; exact nofun))
  have hnew : ∀ n, ((s.setScan s.scansMade ⟨.running, false, s.scanStrategy⟩).scan n).pc = .running →
      n = s.scansMade := by
    intro n hn
    by_contra hne
    rw [s.setScan_of_ne hne] at hn
    exact hnone n hn
  constructor
  · intro q hq
    by_cases hqr : q = r
    · rw [hqr]
      exact hworker
    · exact h.one q ((congrArg (fun task => task.pc.live) (s.setRun_of_ne hqr _)).symm.trans hq)
  · intro n hn
    obtain rfl := hnew n hn
    exact ⟨rfl, r, s.setRun_self r _⟩
  · intro n hn
    obtain rfl := hnew n hn
    exact .inr (.inl (congrArg ScanTask.strategy (s.setScan_self s.scansMade _)))

theorem scanEnds (h : Sound s) (outcome : ScanEnd) : Sound (s.setScan n { s.scan n with pc := .done outcome }) := by
  have hkept : ∀ m, ((s.setScan n { s.scan n with pc := .done outcome }).scan m).pc = .running →
      (s.setScan n { s.scan n with pc := .done outcome }).scan m = s.scan m := by
    intro m hm
    by_cases hmn : m = n
    · subst hmn
      rw [WorkerTasks.setScan_self] at hm
      cases hm
    · exact s.setScan_of_ne hmn _
  constructor
  · exact h.one
  · intro m hm
    have hold := hkept m hm
    rw [hold] at hm
    exact h.awaited m hm
  · intro m hm
    have hold := hkept m hm
    rw [hold] at hm ⊢
    exact h.current m hm

/-- `_scan_task` may be forgotten when no scan is running. -/
theorem forget (h : Sound s) (hidle : ∀ n, (s.scan n).pc ≠ .running) : Sound { s with scanTask := none } where
  one := h.one
  awaited n hn := absurd hn (hidle n)
  current := h.current

/-- The scan that is running is `_scan_task`, so it is the one that is cancelled. -/
theorem cancelScan_requested (h : Sound s) {n : Nat} (hn : (s.cancelScan.scan n).pc = .running) :
    (s.cancelScan.scan n).cancelRequested = true := by
  rw [WorkerTasks.cancelScan_pc] at hn
  obtain ⟨htask, _⟩ := h.awaited n hn
  rw [WorkerTasks.cancelScan, htask]
  show ((s.requestCancelScan n).scan n).cancelRequested = true
  rw [WorkerTasks.requestCancelScan, if_pos hn, WorkerTasks.setScan_self]

theorem scanStrategyChanged (h : Sound s) (k : Nat) : Sound { s.cancelScan with changesPending := k } where
  one := h.cancelScan.one
  awaited := h.cancelScan.awaited
  current _ hn := .inl (h.cancelScan_requested hn)

theorem step {a : Action} (h : Sound s) (hs : s.step a = some t) : Sound t := by
  cases a with
  | startWorker =>
    obtain ⟨_, hs⟩ := WorkerTasks.locking_eq_some hs
    exact Option.some.inj hs ▸ h.startWorker
  | stopWorker =>
    rw [WorkerTasks.step] at hs
    split at hs
    · exact Option.some.inj hs ▸ h
    · exact Option.some.inj hs ▸ h.frame rfl rfl rfl rfl (.inl ⟨rfl, Nat.le_refl _⟩)
  | stopCancels =>
    obtain ⟨_, hs⟩ := WorkerTasks.locking_eq_some hs
    split at hs
    · cases hs
    · have hpending : Sound { s with stopsPending := s.stopsPending - 1 } :=
        h.frame rfl rfl rfl rfl (.inl ⟨rfl, Nat.le_refl _⟩)
      obtain rfl := Option.some.inj hs
      split
      · exact hpending.requestCancelRun _
      · exact hpending
  | cancelScan =>
    obtain ⟨_, hs⟩ := WorkerTasks.locking_eq_some hs
    exact Option.some.inj hs ▸ h.cancelScan
  | setScanStrategy => exact Option.some.inj hs ▸ h.frame rfl rfl rfl rfl (.inr (Nat.succ_pos _))
  | scanStrategyChanged =>
    obtain ⟨_, hs⟩ := WorkerTasks.locking_eq_some hs
    split at hs
    · cases hs
    · exact Option.some.inj hs ▸ h.scanStrategyChanged _
  | runCancelled r =>
    rw [WorkerTasks.step] at hs
    split at hs
    · next hcancel =>
      obtain rfl := Option.some.inj hs
      refine (h.release (.run r)).setRun ?_ fun hyes => ?_
      · rw [WorkerTasks.release_run]
        cases (s.run r).pc <;> simp [WorkerTasks.cancelledAt, RunPc.live]
      · rw [WorkerTasks.release_awaits, hcancel.2] at hyes
        cases hyes
    · cases hs
  | runBegins r =>
    obtain ⟨t', hmove, rfl⟩ := Option.map_eq_some_iff.mp hs
    exact (h.moveRun_from hmove rfl nofun).frame rfl rfl rfl rfl (.inl ⟨rfl, Nat.le_refl _⟩)
  | connected r => exact h.moveRun_from hs rfl nofun
  | connectionRaises r => exact h.moveRun_from hs rfl nofun
  | scanMade r =>
    obtain ⟨_, hs⟩ := WorkerTasks.locking_eq_some hs
    obtain ⟨t', hmove, rfl⟩ := Option.map_eq_some_iff.mp hs
    obtain ⟨hpc, _, rfl⟩ := WorkerTasks.moveRun_eq_some hmove
    exact h.scanMade hpc
  | healthCheck n =>
    obtain ⟨_, hs⟩ := WorkerTasks.locking_eq_some hs
    split at hs
    · exact Option.some.inj hs ▸ h.frame rfl rfl rfl rfl (.inl ⟨rfl, Nat.le_refl _⟩)
    · cases hs
  | healthChecked n =>
    rw [WorkerTasks.step] at hs
    split at hs
    · exact Option.some.inj hs ▸ h.frame rfl rfl rfl rfl (.inl ⟨rfl, Nat.le_refl _⟩)
    · cases hs
  | scanEnds n outcome =>
    rw [WorkerTasks.step] at hs
    split at hs
    · have hended := (h.release (.scan n)).scanEnds (n := n) outcome
      rw [WorkerTasks.release_scan] at hended
      exact Option.some.inj hs ▸ hended
    · cases hs
  | scanAwaited r =>
    rw [WorkerTasks.step] at hs
    split at hs
    · next n hpc =>
      split at hs
      · next outcome hdone =>
        refine h.moveRun hs rfl ?_
        rw [← Bool.not_eq_true, WorkerTasks.awaits_iff]
        rintro ⟨m, hm, hrunning⟩
        obtain rfl := RunPc.scanning.inj (hpc.symm.trans hm)
        rw [hdone] at hrunning
        cases hrunning
      · cases hs
    · cases hs
  | scanForgotten r =>
    obtain ⟨_, hs⟩ := WorkerTasks.locking_eq_some hs
    split at hs
    · next raises hpc =>
      obtain ⟨t', hmove, rfl⟩ := Option.map_eq_some_iff.mp hs
      have hidle := h.idle (by rw [hpc]; rfl) (WorkerTasks.awaits_eq_false (by rw [hpc]; exact nofun))
      obtain ⟨_, _, rfl⟩ := WorkerTasks.moveRun_eq_some hmove
      exact (h.moveRun_from hmove rfl nofun).forget hidle
    · cases hs
  | strategyUpdated r =>
    rw [WorkerTasks.step] at hs
    split at hs
    · exact h.moveRun_from hs rfl nofun
    · cases hs
  | updateRaises r =>
    rw [WorkerTasks.step] at hs
    split at hs
    · exact h.moveRun_from hs rfl nofun
    · cases hs
  | finishes r =>
    obtain ⟨_, hs⟩ := WorkerTasks.locking_eq_some hs
    split at hs
    · next hpc =>
      have hawaits : s.awaits r = false := WorkerTasks.awaits_eq_false (by rw [hpc.1]; exact nofun)
      have hidle := h.idle (by rw [hpc.1]; rfl) hawaits
      obtain rfl := Option.some.inj hs
      unfold WorkerTasks.finish
      split
      · next n htask =>
        -- The scan is done, and nothing is left to be cancelled.
        have hsame : s.requestCancelScan n = s := if_neg (hidle n)
        rw [hsame]
        have hset : Sound (s.setRun r ⟨.finishing, false⟩) :=
          h.setRun (fun _ => by rw [hpc.1]; rfl) fun hyes => by rw [hawaits] at hyes; cases hyes
        exact hset.frame rfl rfl rfl rfl (.inl ⟨rfl, Nat.le_refl _⟩)
      · exact h.setRun nofun fun hyes => by rw [hawaits] at hyes; cases hyes
    · cases hs
  | finished r raises =>
    obtain ⟨t', hmove, rfl⟩ := Option.map_eq_some_iff.mp hs
    obtain ⟨hpc, _, rfl⟩ := WorkerTasks.moveRun_eq_some hmove
    have hidle := h.idle (by rw [hpc]; rfl) (WorkerTasks.awaits_eq_false (by rw [hpc]; exact nofun))
    have hreleased := (h.moveRun_from hmove rfl nofun).release (.run r)
    cases raises with
    | true =>
      have htask : (s.setRun r ⟨.done, false⟩).scanTask = ((s.setRun r ⟨.done, false⟩).release (.run r)).scanTask :=
        (WorkerTasks.release_scanTask _ _).symm
      exact hreleased.frame rfl rfl rfl htask (.inl ⟨rfl, Nat.le_refl _⟩)
    | false => exact hreleased.forget fun n => by rw [WorkerTasks.release_scan]; exact hidle n

end Sound

variable {s t u : WorkerTasks} {l l' : List Action} {r n : Nat}

theorem sound (h : Run WorkerTasks.step Any .init l s) : Sound s :=
  h.invariant Sound.init fun _ _ _ hs _ hstep => hs.step hstep

/-- **One scan at a time**: in every state the tasks of a worker reach, however they are started, stopped and cancelled,
    at most one `_run` is not done, and at most one scan is running; `_run` awaits it, and it is the one that cancelling
    the scan or changing the strategy cancels. -/
theorem one_scan (h : Run WorkerTasks.step Any .init l s) :
    (∀ r, (s.run r).pc.live = true → s.workerTask = some r) ∧
      (∀ n m, (s.scan n).pc = .running → (s.scan m).pc = .running → n = m) ∧
      ∀ n, (s.scan n).pc = .running →
        (∃ r, s.workerTask = some r ∧ (s.run r).pc = .scanning n) ∧ (s.cancelScan.scan n).cancelRequested = true := by
  have hsound := sound h
  refine ⟨hsound.one, fun n m hn hm => ?_, fun n hn => ⟨?_, ?_⟩⟩
  · obtain ⟨htask, _⟩ := hsound.awaited n hn
    rw [(hsound.awaited m hm).1] at htask
    exact (Option.some.inj htask).symm
  · obtain ⟨_, r, hr⟩ := hsound.awaited n hn
    exact ⟨r, hsound.one r (by rw [hr]; rfl), by rw [hr]⟩
  · exact hsound.cancelScan_requested (by rw [WorkerTasks.cancelScan_pc]; exact hn)

/-- **No scan goes on with a strategy that was replaced**: once every change has been announced, a scan that is running
    was made with the present strategy, or has been cancelled. -/
theorem scans_current (h : Run WorkerTasks.step Any .init l s) (hannounced : s.changesPending = 0)
    (hn : (s.scan n).pc = .running) : (s.scan n).cancelRequested = true ∨ (s.scan n).strategy = s.scanStrategy := by
  rcases (sound h).current n hn with hcancelled | hsame | hpending
  · exact .inl hcancelled
  · exact .inr hsame
  · omega

/-! ## A stop that is lost -/

/-- Nothing is raised that `_run` does not handle. -/
def NothingRaised (_ : WorkerTasks) : Action → Prop
  | .connectionRaises _ | .updateRaises _ => False
  | .scanEnds _ outcome => outcome.handled = true
  | _ => True

instance (s : WorkerTasks) (a : Action) : Decidable (NothingRaised s a) := by
  cases a <;> unfold NothingRaised <;> infer_instance

/-- In the loop, with nothing raised. -/
def RunPc.inLoop : RunPc → Bool
  | .connecting | .waitingToScan | .scanning _ | .ending false | .updating false => true
  | _ => false

theorem RunPc.live_of_inLoop {pc : RunPc} (h : pc.inLoop = true) : pc.live = true := by
  cases pc <;> first | rfl | cases h

/-- `_run` goes round its loop, and no stop is on its way. -/
structure Unstoppable (r : Nat) (s : WorkerTasks) : Prop where
  sound : Sound s
  event : s.stopWorkerEvent = true
  pending : s.stopsPending = 0
  unasked : (s.run r).cancelRequested = false
  inLoop : (s.run r).pc.inLoop = true
  handled : ∀ n, (s.run r).pc = .scanning n → (s.scan n).pc ≠ .done .raised

namespace Unstoppable

theorem worker (h : Unstoppable r s) : s.workerTask = some r := h.sound.one r (RunPc.live_of_inLoop h.inLoop)

/-- It is the only one. -/
theorem only (h : Unstoppable r s) {q : Nat} (hq : (s.run q).pc.live = true) : q = r :=
  Option.some.inj ((h.sound.one q hq).symm.trans h.worker)

/-- A `_run` that is elsewhere is none that goes on. -/
theorem not_at (h : Unstoppable r s) {q : Nat} {pc : RunPc} (hq : (s.run q).pc = pc) (hlive : pc.live = true)
    (hpc : pc.inLoop = false) : False := by
  have hqr := h.only (by rw [hq]; exact hlive)
  have hin := h.inLoop
  rw [← hqr, hq, hpc] at hin
  cases hin

/-- Where neither this `_run` nor how a scan ended changes. -/
theorem frame (h : Unstoppable r s) (hsound : Sound t) (hrun : t.run r = s.run r)
    (hscan : ∀ n, (t.scan n).pc = .done .raised → (s.scan n).pc = .done .raised)
    (hevent : t.stopWorkerEvent = s.stopWorkerEvent) (hpending : t.stopsPending = s.stopsPending) :
    Unstoppable r t where
  sound := hsound
  event := hevent.trans h.event
  pending := hpending.trans h.pending
  unasked := by rw [hrun]; exact h.unasked
  inLoop := by rw [hrun]; exact h.inLoop
  handled n hn hraised := by
    rw [hrun] at hn
    exact h.handled n hn (hscan n hraised)

theorem cancelScan (h : Unstoppable r s) (hsound : Sound t) (hrun : t.run = s.cancelScan.run)
    (hscan : t.scan = s.cancelScan.scan) (hevent : t.stopWorkerEvent = s.cancelScan.stopWorkerEvent)
    (hpending : t.stopsPending = s.cancelScan.stopsPending) : Unstoppable r t := by
  obtain ⟨hrun', hevent', hpending'⟩ := s.cancelScan_same
  refine h.frame hsound (by rw [hrun, hrun']) (fun n hn => ?_) (hevent.trans hevent') (hpending.trans hpending')
  rw [hscan, WorkerTasks.cancelScan_pc] at hn
  exact hn

/-- It goes on in its loop. -/
theorem moveRun (h : Unstoppable r s) {q : Nat} {pc pc' : RunPc} (hmove : s.moveRun q pc pc' = some t)
    (hlive : pc.live = true) (hsound : Sound u) (hrun : u.run = t.run) (hevent : u.stopWorkerEvent = t.stopWorkerEvent)
    (hpending : u.stopsPending = t.stopsPending) (hin : pc.inLoop = true → pc'.inLoop = true)
    (hhandled : ∀ n, pc' = .scanning n → (u.scan n).pc ≠ .done .raised) : Unstoppable r u := by
  obtain ⟨hpc, _, rfl⟩ := WorkerTasks.moveRun_eq_some hmove
  obtain rfl := h.only (by rw [hpc]; exact hlive)
  have htask : u.run q = ⟨pc', false⟩ := by rw [hrun, WorkerTasks.setRun_self]
  constructor
  · exact hsound
  · exact hevent.trans h.event
  · exact hpending.trans h.pending
  · rw [htask]
  · rw [htask]
    exact hin (hpc ▸ h.inLoop)
  · intro n hn
    rw [htask] at hn
    exact hhandled n hn

theorem step (h : Unstoppable r s) {a : Action} (hok : NothingRaised s a) (hs : s.step a = some t) :
    Unstoppable r t := by
  have hsound := h.sound.step hs
  cases a with
  | startWorker =>
    obtain ⟨_, hs⟩ := WorkerTasks.locking_eq_some hs
    have hfilter : s.workerTask.filter (fun r => (s.run r).pc ≠ .done) = some r := by
      rw [h.worker, Option.filter_some, if_pos]
      rw [decide_eq_true_eq]
      intro hdone
      have hin := h.inLoop
      rw [hdone] at hin
      cases hin
    have hsame : s.startWorker = s := by rw [WorkerTasks.startWorker, hfilter]
    rw [hsame] at hs
    exact Option.some.inj hs ▸ h
  | stopWorker =>
    rw [WorkerTasks.step, if_pos h.event] at hs
    exact Option.some.inj hs ▸ h
  | stopCancels =>
    obtain ⟨_, hs⟩ := WorkerTasks.locking_eq_some hs
    rw [if_pos h.pending] at hs
    cases hs
  | cancelScan =>
    obtain ⟨_, hs⟩ := WorkerTasks.locking_eq_some hs
    obtain rfl := Option.some.inj hs
    exact h.cancelScan hsound rfl rfl rfl rfl
  | setScanStrategy =>
    obtain rfl := Option.some.inj hs
    exact h.frame hsound rfl (fun _ => id) rfl rfl
  | scanStrategyChanged =>
    obtain ⟨_, hs⟩ := WorkerTasks.locking_eq_some hs
    split at hs
    · cases hs
    · obtain rfl := Option.some.inj hs
      exact h.cancelScan hsound rfl rfl rfl rfl
  | runCancelled q =>
    rw [WorkerTasks.step] at hs
    split at hs
    · next hcancel =>
      have hne : r ≠ q := by
        rintro rfl
        rw [h.unasked] at hcancel
        cases hcancel.1
      obtain rfl := Option.some.inj hs
      obtain ⟨hevent, hpending⟩ := s.release_same (.run q)
      refine h.frame hsound ?_ (fun n hn => ?_) hevent hpending
      · rw [WorkerTasks.setRun_of_ne _ hne, WorkerTasks.release_run]
      · rw [← s.release_scan (.run q)]
        exact hn
    · cases hs
  | runBegins q =>
    obtain ⟨t', hmove, rfl⟩ := Option.map_eq_some_iff.mp hs
    exact (h.not_at (WorkerTasks.moveRun_eq_some hmove).1 rfl rfl).elim
  | connected q => exact h.moveRun hs rfl hsound rfl rfl rfl (fun _ => rfl) nofun
  | connectionRaises q => exact hok.elim
  | scanMade q =>
    obtain ⟨_, hs⟩ := WorkerTasks.locking_eq_some hs
    obtain ⟨t', hmove, rfl⟩ := Option.map_eq_some_iff.mp hs
    refine h.moveRun hmove rfl hsound rfl rfl rfl (fun _ => rfl) fun n hn hraised => ?_
    obtain rfl := RunPc.scanning.inj hn
    have hnew := congrArg ScanTask.pc (t'.setScan_self s.scansMade ⟨.running, false, s.scanStrategy⟩)
    cases hnew.symm.trans hraised
  | healthCheck n =>
    obtain ⟨_, hs⟩ := WorkerTasks.locking_eq_some hs
    split at hs
    · obtain rfl := Option.some.inj hs
      exact h.frame hsound rfl (fun _ => id) rfl rfl
    · cases hs
  | healthChecked n =>
    rw [WorkerTasks.step] at hs
    split at hs
    · obtain rfl := Option.some.inj hs
      exact h.frame hsound rfl (fun _ => id) rfl rfl
    · cases hs
  | scanEnds n outcome =>
    rw [WorkerTasks.step] at hs
    split at hs
    · obtain rfl := Option.some.inj hs
      obtain ⟨hevent, hpending⟩ := s.release_same (.scan n)
      refine h.frame hsound (congrFun (s.release_run (.scan n)) r) (fun m hm => ?_) hevent hpending
      by_cases hmn : m = n
      · subst hmn
        rw [WorkerTasks.setScan_self] at hm
        obtain rfl := ScanPc.done.inj hm
        cases hok
      · rw [WorkerTasks.setScan_of_ne _ hmn, WorkerTasks.release_scan] at hm
        exact hm
    · cases hs
  | scanAwaited q =>
    rw [WorkerTasks.step] at hs
    split at hs
    · next n hpc =>
      split at hs
      · next outcome hdone =>
        have hqr : q = r := h.only (by rw [hpc]; rfl)
        have hhandled : outcome.handled = true := by
          cases outcome with
          | raised => exact absurd hdone (h.handled n (hqr ▸ hpc))
          | _ => rfl
        exact h.moveRun hs rfl hsound rfl rfl rfl (fun _ => by rw [hhandled]; rfl) nofun
      · cases hs
    · cases hs
  | scanForgotten q =>
    obtain ⟨_, hs⟩ := WorkerTasks.locking_eq_some hs
    split at hs
    · next raises _ =>
      obtain ⟨t', hmove, rfl⟩ := Option.map_eq_some_iff.mp hs
      refine h.moveRun hmove rfl hsound rfl rfl rfl (fun hin => ?_) nofun
      cases raises with
      | true => cases hin
      | false => rfl
    · cases hs
  | strategyUpdated q =>
    rw [WorkerTasks.step] at hs
    split at hs
    · next raises _ =>
      cases raises with
      | true => exact h.moveRun hs rfl hsound rfl rfl rfl nofun nofun
      | false => exact h.moveRun hs rfl hsound rfl rfl rfl (fun _ => rfl) nofun
    · cases hs
  | updateRaises q => exact hok.elim
  | finishes q =>
    obtain ⟨_, hs⟩ := WorkerTasks.locking_eq_some hs
    split at hs
    · next hpc => exact (h.not_at hpc.1 rfl rfl).elim
    · cases hs
  | finished q raises =>
    obtain ⟨t', hmove, rfl⟩ := Option.map_eq_some_iff.mp hs
    exact (h.not_at (WorkerTasks.moveRun_eq_some hmove).1 rfl rfl).elim

end Unstoppable

/-- **A stop is lost while a scan is running**: it cancels the scan, `_run` takes that for a change of the strategy, and
    later calls of `stop_worker` return at once, the event being set. So where no other call waits for the mutex, the task
    of the worker goes on, however often it is stopped, as long as nothing else is raised. -/
theorem stop_lost (h : Run WorkerTasks.step Any .init l s) (hevent : s.stopWorkerEvent = true)
    (hpending : s.stopsPending = 1) (hpc : (s.run r).pc = .scanning n) (hn : (s.scan n).pc = .running)
    (hs : s.step .stopCancels = some t) (h' : Run WorkerTasks.step NothingRaised t l' u) :
    (t.scan n).cancelRequested = true ∧ u.workerTask = some r ∧ (u.run r).pc.inLoop = true := by
  have hsound := sound h
  have hworker : s.workerTask = some r := hsound.one r (by rw [hpc]; rfl)
  have hunasked : (s.run r).cancelRequested = false := by
    obtain ⟨_, q, hq⟩ := hsound.awaited n hn
    have hqr : q = r := Option.some.inj ((hsound.one q (by rw [hq]; rfl)).symm.trans hworker)
    rw [← hqr, hq]
  have ht : t = ({ s with stopsPending := 0 } : WorkerTasks).setScan n { s.scan n with cancelRequested := true } := by
    obtain ⟨_, hs⟩ := WorkerTasks.locking_eq_some hs
    rw [if_neg (by omega), hworker, hpending] at hs
    rw [← Option.some.inj hs]
    simp only [WorkerTasks.requestCancelRun, WorkerTasks.requestCancelScan, hpc, hn, hworker, if_true, Nat.sub_self]
  have hstart : Unstoppable r t := by
    constructor
    · exact hsound.step hs
    · rw [ht]; exact hevent
    · rw [ht]; rfl
    · rw [ht]; exact hunasked
    · rw [ht]; exact congrArg RunPc.inLoop hpc
    · intro m hm hraised
      rw [ht] at hm hraised
      obtain rfl := RunPc.scanning.inj (hpc.symm.trans hm)
      rw [WorkerTasks.setScan_self] at hraised
      cases hn.symm.trans hraised
  have hend : Unstoppable r u := h'.invariant hstart fun _ _ _ hs hok hstep => hs.step hok hstep
  refine ⟨?_, hend.worker, hend.inLoop⟩
  rw [ht, WorkerTasks.setScan_self]

/-- A scan is made, the strategy is changed, and the worker is stopped while the second scan is running. -/
def busyWorker : List Action :=
  [.startWorker, .runBegins 0, .startWorker, .connected 0, .scanMade 0, .healthCheck 0, .healthChecked 0,
    .setScanStrategy, .scanStrategyChanged, .scanEnds 0 .cancelled, .scanAwaited 0, .scanForgotten 0,
    .strategyUpdated 0, .connected 0, .scanMade 0, .stopWorker]

/-- The scan is cancelled and another one made, and the worker is stopped again. -/
def stoppedTwice : List Action :=
  [.scanEnds 1 .cancelled, .scanAwaited 0, .scanForgotten 0, .stopWorker, .strategyUpdated 0, .connected 0, .scanMade 0]

def busy : WorkerTasks := after WorkerTasks.step Any .init busyWorker

def stopped : WorkerTasks := after WorkerTasks.step Any busy [.stopCancels]

theorem busy_run : Run WorkerTasks.step Any .init busyWorker busy := .of_after (by decide +kernel)

theorem one_scan_busyWorker :
    (∀ n m, (busy.scan n).pc = .running → (busy.scan m).pc = .running → n = m) ∧
      (busy.cancelScan.scan 1).cancelRequested = true :=
  ⟨(one_scan busy_run).2.1, ((one_scan busy_run).2.2 1 (by decide +kernel)).2⟩

theorem scans_current_busyWorker : (busy.scan 1).cancelRequested = true ∨ (busy.scan 1).strategy = busy.scanStrategy :=
  scans_current busy_run (by decide +kernel) (by decide +kernel)

theorem stop_lost_busyWorker :
    ((after WorkerTasks.step NothingRaised stopped stoppedTwice).run 0).pc.inLoop = true := by
  have hstops : busy.step .stopCancels = some stopped := @step_after _ _ _ Any _ _ _ trivial (by decide +kernel)
  have hgoes : Run WorkerTasks.step NothingRaised stopped stoppedTwice
      (after WorkerTasks.step NothingRaised stopped stoppedTwice) := .of_after (by decide +kernel)
  exact (stop_lost busy_run (by decide +kernel) (by decide +kernel) (show (busy.run 0).pc = .scanning 1 by decide +kernel)
    (by decide +kernel) hstops hgoes).2.2

end MapADroid.Worker.Tasks
