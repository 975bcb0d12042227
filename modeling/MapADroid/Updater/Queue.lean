import Mathlib.Logic.Function.Basic
import MapADroid.Lib.Dict
import MapADroid.Lib.Run
import MapADroid.Updater.Job

/- The device updater as the tasks that share it (`DeviceUpdater`).

   A task running `_process_update_queue` can be switched away from at its awaits
   and nowhere else, so a worker is described by the await it is suspended at
   (`Pc`), and one action of a worker runs it to its next await. The critical
   sections under `_update_mutex` contain no other await: each is one action.

   Entries are Python objects that the queue, the log and the reservations refer to,
   so they live in a heap and are named by `Ref`: `restart_job` changes the entry the
   log has under an id, `__handle_job` the one it was given.

   What `commands.json` and the upload directory hold, what devices answer, what
   clocks read and in which order tasks run is left to the actions. Cancelling the
   tasks (`stop_updater`) and the file `update_log.json` are not modelled. -/
namespace MapADroid.Updater
open Lib

/-- A reference to a `GlobalJobLogEntry`. -/
abbrev Ref := Nat

/-- `threadnumber`. -/
abbrev Worker := Nat

/-- Where an updater task is suspended. -/
inductive Pc where
  /-- At the head of the loop, with no entry. -/
  | idle
  /-- It took an entry from the queue and awaits the mutex to look at the reservations. -/
  | locking (r : Ref)
  /-- It reserved the device and awaits `set_job_activated`. -/
  | activating (r : Ref)
  /-- In `__handle_job`: status `PROCESSING`, awaits `__update_log`. -/
  | processing (r : Ref)
  /-- In `__handle_job`: status `STARTING`, awaits `__update_log`. -/
  | starting (r : Ref)
  /-- In `__start_job_type` of the sub job with index `i`. -/
  | running (r : Ref) (i : Nat)
  /-- In `__handle_job`: awaits `restart_job`. -/
  | restarting (r : Ref) (why : Restarting)
  /-- In the `finally` block: awaits `set_job_deactivated` and `__update_log`. -/
  | finishing (r : Ref) (requeue : Bool)
  /-- In the `finally` block: awaits the mutex to release the device. -/
  | releasing (r : Ref)
  /-- An exception left the task. -/
  | dead (e : PyError)
  deriving DecidableEq, Repr

/-- `DeviceUpdater`. -/
structure State where
  heap : Ref → GlobalJobLogEntry
  /-- The references below it are in use. -/
  next : Ref
  jobQueue : List Ref
  log : Dict String Ref
  availableJobs : String → Option (List SubJob)
  runningJobsPerOrigin : Dict String Ref
  workers : Worker → Pc

inductive Action where
  /-- `add_job`; `now` is how `time.time()` prints in the job's id. -/
  | addJob (now origin jobName : String) (auto : Option Autocommand)
  | reloadJobs (jobs : String → Option (List SubJob))
  /-- `restart_job`, called from the web interface. -/
  | restartJob (now : ℚ) (id : String)
  | deleteLogId (id : String)
  /-- `delete_log` with `only_success`; without it, it is `deleteLogId` of every id. -/
  | deleteLogSuccess
  | getNowait (w : Worker)
  | reserve (w : Worker)
  | handle (w : Worker) (clk : Readings)
  | connect (w : Worker) (connected : Bool) (now : ℚ)
  | start (w : Worker)
  | finish (w : Worker) (o : Outcome)
  | restart (w : Worker) (now : ℚ)
  | deactivate (w : Worker)
  | release (w : Worker)

/-- `f"{time.time()}_{origin}_{job_name}"`. -/
def jobId (now origin jobName : String) : String := now ++ "_" ++ origin ++ "_" ++ jobName

namespace State

def id (s : State) (r : Ref) : String := (s.heap r).id

def origin (s : State) (r : Ref) : String := (s.heap r).origin

def setPc (s : State) (w : Worker) (p : Pc) : State :=
  { s with workers := Function.update s.workers w p }

def setRunning (s : State) (running : Dict String Ref) : State :=
  { s with runningJobsPerOrigin := running }

/-- `_job_queue.put`. -/
def put (s : State) (r : Ref) : State := { s with jobQueue := s.jobQueue ++ [r] }

/-- Assignments to the fields of an entry. -/
def setEntry (s : State) (r : Ref) (e : GlobalJobLogEntry) : State :=
  { s with heap := Function.update s.heap r e }

/-- `__update_log`. -/
def updateLog (s : State) (r : Ref) : State :=
  if (s.log.get? (s.id r)).isSome then s else { s with log := s.log.insert (s.id r) r }

/-- `restart_job`. -/
def restartJob (s : State) (now : ℚ) (id : String) : State :=
  match s.log.get? id with
  | none => s
  | some r => ((s.setEntry r ((s.heap r).restart now)).put r).updateLog r

/-- The entry `add_job` makes. -/
def newEntry (now origin jobName : String) (jobs : List SubJob) (auto : Option Autocommand) :
    GlobalJobLogEntry :=
  { id := jobId now origin jobName, origin, jobName, subJobs := jobs, autoCommandSettings := auto }

/-- A new object in the heap. -/
def alloc (s : State) (e : GlobalJobLogEntry) : State :=
  { s with heap := Function.update s.heap s.next e, next := s.next + 1 }

/-- `add_job`. -/
def addJob (s : State) (now origin jobName : String) (auto : Option Autocommand) : State :=
  match s.availableJobs jobName with
  | none => s
  | some jobs => ((s.alloc (newEntry now origin jobName jobs auto)).put s.next).updateLog s.next

/-- `delete_log_id`: a job that has a device reserved stays in the log. -/
def deleteLogId (s : State) (id : String) : State :=
  if s.runningJobsPerOrigin.items.any fun i => s.id i.2 = id then s
  else { s with log := s.log.erase id }

/-- `SUCCESS_STATES`. -/
def successStates : List JobStatus := [.success, .notRequired, .notSupported]

/-- `delete_log` with `only_success`. -/
def deleteLogSuccess (s : State) : State :=
  { s with log := s.log.filter fun _ r =>
      !((s.heap r).lastStatus ∈ successStates && !(s.heap r).redo) }

/-- The statuses `_kill_old_jobs` cancels. -/
def outdated : List JobStatus :=
  [.pending, .starting, .processing, .notConnected, .future, .notRequired, .failing]

/-- `_kill_old_jobs`, on the log as it was loaded. -/
def killOldJobs (s : State) : State :=
  { s with
    heap := fun r =>
      if s.log.items.any (·.2 = r) && (s.heap r).lastStatus ∈ outdated then
        { s.heap r with lastStatus := .cancelled }
      else s.heap r
    log := s.log.filter fun _ r =>
      (s.heap r).lastStatus ∈ outdated || (s.heap r).autoCommandSettings.isNone }

/-! ## The iterations of `_process_update_queue` -/

/-- The origin is reserved for a job with another id. -/
def busy (s : State) (r : Ref) : Bool :=
  (s.runningJobsPerOrigin.get? (s.origin r)).any fun r' => s.id r' ≠ s.id r

/-- The critical section before `set_job_activated`. Both early exits `continue`, which
runs the `finally` block with `requeue` still `False`. -/
def reserve (s : State) (w : Worker) (r : Ref) : State :=
  if (s.log.get? (s.id r)).isNone then s.setPc w (.finishing r false)
  else if s.busy r then (s.put r).setPc w (.finishing r false)
  else (s.setRunning (s.runningJobsPerOrigin.insert (s.origin r) r)).setPc w (.activating r)

/-- `__handle_job` returned: the entry is put back unless it has been processed. -/
def leave (s : State) (w : Worker) (r : Ref) (requeue : Bool) : State :=
  (if requeue then s.put r else s).setPc w (.finishing r requeue)

/-- The first part of `__handle_job`. -/
def handle (s : State) (jobRestartNotconnect : Int) (w : Worker) (r : Ref) (clk : Readings) : State :=
  let after := handleStart jobRestartNotconnect clk (s.heap r)
  let s := s.setEntry r after.1
  match after.2 with
  | .returned processed => s.leave w r (!processed)
  | .raised _ => s.leave w r false
  | .restarting why => s.setPc w (.restarting r why)
  | .processing => s.setPc w (.processing r)

/-- `__update_log`, then the communicator of the device. -/
def connect (s : State) (w : Worker) (r : Ref) (connected : Bool) (now : ℚ) : State :=
  let s := (s.updateLog r).setEntry r (handleConnect connected now (s.heap r))
  if connected then s.setPc w (.starting r) else s.leave w r true

/-- `__update_log`, then the call of `__start_job_type`, which indexes the sub jobs
outside of its own `try`. -/
def start (s : State) (w : Worker) (r : Ref) : State :=
  let s := s.updateLog r
  if (s.heap r).subJobIndex < (s.heap r).subJobs.length then
    s.setPc w (.running r (s.heap r).subJobIndex)
  else (s.setEntry r (handleOutcome (s.heap r) .exception)).leave w r true

/-- The end of `__start_job_type`; falling off the end of `__handle_job` returns `None`. -/
def finish (s : State) (w : Worker) (r : Ref) (o : Outcome) : State :=
  let s := s.setEntry r (handleOutcome (s.heap r) o)
  if o = .success && (s.heap r).redo then s.setPc w (.restarting r .redo) else s.leave w r true

/-- `restart_job` and what `__handle_job` does after it. -/
def restart (s : State) (w : Worker) (r : Ref) (why : Restarting) (now : ℚ) : State :=
  let s := s.restartJob now (s.id r)
  match why with
  | .failing => (s.setEntry r { s.heap r with lastStatus := .failed }).leave w r false
  | .notConnected => s.leave w r false
  | .redo => s.leave w r true

/-- The `finally` block up to its decision about the reservation. -/
def deactivate (s : State) (w : Worker) (r : Ref) (requeue : Bool) : State :=
  let s := s.updateLog r
  let e := s.heap r
  if !requeue || e.autoCommandSettings.isSome && e.lastStatus ≠ .future then
    s.setPc w (.releasing r)
  else s.setPc w .idle

/-- `_running_jobs_per_origin.pop`. -/
def release (s : State) (w : Worker) (r : Ref) : State :=
  match s.runningJobsPerOrigin.get? (s.origin r) with
  | none => s.setPc w (.dead .keyError)
  | some _ => (s.setRunning (s.runningJobsPerOrigin.erase (s.origin r))).setPc w .idle

end State

/-- One action; `jobRestartNotconnect` is the setting of that name, in minutes. -/
def step (jobRestartNotconnect : Int) (s : State) : Action → Option State
  | .addJob now origin jobName auto => some (s.addJob now origin jobName auto)
  | .reloadJobs jobs => some { s with availableJobs := jobs }
  | .restartJob now id => some (s.restartJob now id)
  | .deleteLogId id => some (s.deleteLogId id)
  | .deleteLogSuccess => some s.deleteLogSuccess
  | .getNowait w =>
    match s.workers w, s.jobQueue with
    | .idle, r :: rest => some ({ s with jobQueue := rest }.setPc w (.locking r))
    | _, _ => none
  | .reserve w => match s.workers w with
    | .locking r => some (s.reserve w r)
    | _ => none
  | .handle w clk => match s.workers w with
    | .activating r => some (s.handle jobRestartNotconnect w r clk)
    | _ => none
  | .connect w connected now => match s.workers w with
    | .processing r => some (s.connect w r connected now)
    | _ => none
  | .start w => match s.workers w with
    | .starting r => some (s.start w r)
    | _ => none
  | .finish w o => match s.workers w with
    | .running r _ => some (s.finish w r o)
    | _ => none
  | .restart w now => match s.workers w with
    | .restarting r why => some (s.restart w r why now)
    | _ => none
  | .deactivate w => match s.workers w with
    | .finishing r requeue => some (s.deactivate w r requeue)
    | _ => none
  | .release w => match s.workers w with
    | .releasing r => some (s.release w r)
    | _ => none

/-- `step` as a relation: for each action, where the worker was and what became of it. -/
inductive Step (jobRestartNotconnect : Int) (s : State) : Action → State → Prop where
  | addJob (now origin jobName : String) (auto : Option Autocommand) :
      Step jobRestartNotconnect s (.addJob now origin jobName auto) (s.addJob now origin jobName auto)
  | reloadJobs (jobs : String → Option (List SubJob)) :
      Step jobRestartNotconnect s (.reloadJobs jobs) { s with availableJobs := jobs }
  | restartJob (now : ℚ) (id : String) :
      Step jobRestartNotconnect s (.restartJob now id) (s.restartJob now id)
  | deleteLogId (id : String) : Step jobRestartNotconnect s (.deleteLogId id) (s.deleteLogId id)
  | deleteLogSuccess : Step jobRestartNotconnect s .deleteLogSuccess s.deleteLogSuccess
  | getNowait {w : Worker} {r : Ref} {rest : List Ref} (hw : s.workers w = .idle)
      (hq : s.jobQueue = r :: rest) :
      Step jobRestartNotconnect s (.getNowait w) ({ s with jobQueue := rest }.setPc w (.locking r))
  | reserve {w : Worker} {r : Ref} (hw : s.workers w = .locking r) :
      Step jobRestartNotconnect s (.reserve w) (s.reserve w r)
  | handle {w : Worker} {r : Ref} (clk : Readings) (hw : s.workers w = .activating r) :
      Step jobRestartNotconnect s (.handle w clk) (s.handle jobRestartNotconnect w r clk)
  | connect {w : Worker} {r : Ref} (connected : Bool) (now : ℚ) (hw : s.workers w = .processing r) :
      Step jobRestartNotconnect s (.connect w connected now) (s.connect w r connected now)
  | start {w : Worker} {r : Ref} (hw : s.workers w = .starting r) :
      Step jobRestartNotconnect s (.start w) (s.start w r)
  | finish {w : Worker} {r : Ref} {i : Nat} (o : Outcome) (hw : s.workers w = .running r i) :
      Step jobRestartNotconnect s (.finish w o) (s.finish w r o)
  | restart {w : Worker} {r : Ref} {why : Restarting} (now : ℚ)
      (hw : s.workers w = .restarting r why) :
      Step jobRestartNotconnect s (.restart w now) (s.restart w r why now)
  | deactivate {w : Worker} {r : Ref} {requeue : Bool} (hw : s.workers w = .finishing r requeue) :
      Step jobRestartNotconnect s (.deactivate w) (s.deactivate w r requeue)
  | release {w : Worker} {r : Ref} (hw : s.workers w = .releasing r) :
      Step jobRestartNotconnect s (.release w) (s.release w r)

theorem step_some {cfg : Int} {s s' : State} {a : Action} (h : step cfg s a = some s') :
    Step cfg s a s' := by
  cases a with
  | addJob now origin jobName auto => cases h; exact .addJob now origin jobName auto
  | reloadJobs jobs => cases h; exact .reloadJobs jobs
  | restartJob now id => cases h; exact .restartJob now id
  | deleteLogId id => cases h; exact .deleteLogId id
  | deleteLogSuccess => cases h; exact .deleteLogSuccess
  | getNowait w =>
    simp only [step] at h
    split at h
    · next hw hq => cases h; exact .getNowait hw hq
    · cases h
  | reserve w =>
    simp only [step] at h
    split at h
    · next hw => cases h; exact .reserve hw
    · cases h
  | handle w clk =>
    simp only [step] at h
    split at h
    · next hw => cases h; exact .handle clk hw
    · cases h
  | connect w connected now =>
    simp only [step] at h
    split at h
    · next hw => cases h; exact .connect connected now hw
    · cases h
  | start w =>
    simp only [step] at h
    split at h
    · next hw => cases h; exact .start hw
    · cases h
  | finish w o =>
    simp only [step] at h
    split at h
    · next hw => cases h; exact .finish o hw
    · cases h
  | restart w now =>
    simp only [step] at h
    split at h
    · next hw => cases h; exact .restart now hw
    · cases h
  | deactivate w =>
    simp only [step] at h
    split at h
    · next hw => cases h; exact .deactivate hw
    · cases h
  | release w =>
    simp only [step] at h
    split at h
    · next hw => cases h; exact .release hw
    · cases h

end MapADroid.Updater
