import MapADroid.Updater.Reservation

/- Jobs in the queue and at the tasks.

   An entry is put back by two parties: `__handle_job` awaits `restart_job`, which puts
   the logged entry into the queue, and its caller puts the entry back unless
   `__handle_job` returned `True`. Where the restarts of a failing or unconnected job
   are followed by `return True`, the restart of a redone one is followed by nothing:
   the caller gets `None` and puts the entry back a second time (`redo_multiplies`).

   While no redone job is found in the log, and jobs only enter from outside while they
   are nowhere (`SafeRequeue`), every job is in one place at most
   (`jobs_at_most_once`). -/
namespace MapADroid.Updater
open Lib

/-- The queue and what the tasks process, by the ids of the jobs. -/
def State.work (s : State) : WorkQueue Worker String where
  queue := s.jobQueue.map s.id
  held w := (s.workers w).held.map s.id

/-- A job that enters from outside is nowhere yet, and the restart after a successful
sub job of a redone job finds no job in the log. -/
def SafeRequeue (s : State) : Action → Prop
  | .addJob now origin jobName _ => s.work.Absent (jobId now origin jobName)
  | .restartJob _ id => s.work.Absent id
  | .restart w _ => ∀ r, s.workers w = .restarting r .redo → s.log.get? (s.id r) = none
  | _ => True

/-- The tasks and `add_job` alone: nothing is restarted or deleted from outside, and no
two jobs are added under one id. -/
def Unaided (s : State) : Action → Prop
  | .addJob now origin jobName _ => ∀ r < s.next, s.id r ≠ jobId now origin jobName
  | .restartJob _ _ => False
  | .deleteLogId _ => False
  | .deleteLogSuccess => False
  | _ => True

instance (s : State) : (a : Action) → Decidable (Unaided s a)
  | .addJob now origin jobName _ =>
    Nat.decidableBallLT s.next fun r _ => s.id r ≠ jobId now origin jobName
  | .restartJob _ _ | .deleteLogId _ | .deleteLogSuccess => isFalse id
  | .reloadJobs _ | .getNowait _ | .reserve _ | .handle _ _ | .connect _ _ _ | .start _
  | .finish _ _ | .restart _ _ | .deactivate _ | .release _ => isTrue trivial

/-! ## The queue and the tasks after each part of a step -/

theorem put_work (s : State) (r : Ref) :
    (s.put r).work = s.work.enqueue (s.id r) := by
  show (⟨(s.jobQueue ++ [r]).map s.id, _⟩ : WorkQueue Worker String) = _
  rw [List.map_append, List.map_singleton]
  rfl

theorem setPc_work (s : State) (w : Worker) (p : Pc) :
    (s.setPc w p).work = ⟨s.work.queue, Function.update s.work.held w (p.held.map s.id)⟩ := by
  have hheld : (s.setPc w p).work.held = Function.update s.work.held w (p.held.map s.id) := by
    funext v
    by_cases hv : v = w
    · subst hv; simp [State.work, State.setPc]; rfl
    · simp only [State.work, State.setPc, Function.update_of_ne hv]; rfl
  rw [← hheld]
  rfl

/-- A worker moves on with its entry, or without one. -/
theorem stay_move {s t : State} (ht : t.work = s.work) {w : Worker} {p : Pc} {o : Option Ref}
    (hw : (t.workers w).held = o) (hp : p.held = o) : s.work.Move (t.setPc w p).work := by
  have hsame : Function.update t.work.held w ((t.workers w).held.map t.id) = t.work.held :=
    Function.update_eq_self w t.work.held
  rw [setPc_work, hp, ← hw, hsame, ← ht]
  exact .stay _

theorem setEntry_work {s : State} {r : Ref} {e : GlobalJobLogEntry} (he : SameJob (s.heap r) e) :
    (s.setEntry r e).work = s.work := by
  unfold State.work
  rw [setEntry_id he]
  rfl

theorem updateLog_work (s : State) (r : Ref) : (s.updateLog r).work = s.work := by
  unfold State.work
  rw [updateLog_jobQueue, updateLog_id, updateLog_workers]

theorem setRunning_work (s : State) (d : Dict String Ref) : (s.setRunning d).work = s.work := rfl

/-- A worker that is done with its entry hands it back or drops it. -/
theorem leave_move {s t : State} (ht : t.work = s.work) {w : Worker} {r : Ref}
    (hw : (t.workers w).held = some r) (requeue : Bool) : s.work.Move (t.leave w r requeue).work := by
  have hheld : t.work.held w = some (t.id r) := by simp [State.work, hw]
  rw [← ht]
  cases requeue
  · rw [show t.leave w r false = t.setPc w (.finishing r false) from rfl, setPc_work]
    exact .drop w
  · rw [show t.leave w r true = (t.put r).setPc w (.finishing r true) from rfl, setPc_work, put_work]
    exact .handBack hheld

/-- The early exit of a busy device puts the entry back itself. -/
theorem leave_busy_move {s : State} {w : Worker} {r : Ref} (hw : (s.workers w).held = some r) :
    s.work.Move ((s.put r).setPc w (.finishing r false)).work := by
  rw [setPc_work, put_work]
  exact .handBack (by simp [State.work, hw])

theorem restartJob_work {s : State} (h : Wf s) (now : ℚ) (id : String) :
    (s.restartJob now id).work =
      if (s.log.get? id).isSome then s.work.enqueue id else s.work := by
  unfold State.restartJob
  split
  · next hnone => rw [hnone]; rfl
  · next r hr =>
    have hid : s.id r = id := (h.log hr).2
    have hsame : SameJob (s.heap r) ((s.heap r).restart now) := restart_same _ now
    rw [updateLog_work, put_work, setEntry_work hsame, setEntry_id hsame, hid, hr]
    rfl

/-- Restarting the job a worker has, and letting go of it, hands it back if the log
has it. -/
theorem restart_drop_move {s t : State} (h : Wf s) {w : Worker} {r : Ref} {now : ℚ}
    (hw : (s.workers w).held = some r) (ht : t.work = (s.restartJob now (s.id r)).work) :
    s.work.Move (t.leave w r false).work := by
  have hheld : s.work.held w = some (s.id r) := by simp [State.work, hw]
  rw [show t.leave w r false = t.setPc w (.finishing r false) from rfl, setPc_work, ht,
    restartJob_work h]
  split
  · exact .handBack hheld
  · exact .drop w

theorem alloc_work {s : State} (h : Wf s) (e : GlobalJobLogEntry) : (s.alloc e).work = s.work := by
  have hid : ∀ {x}, x < s.next → (s.alloc e).id x = s.id x := by
    intro x hx
    simp only [State.id, State.alloc, Function.update_of_ne (Nat.ne_of_lt hx)]
  have hqueue : s.jobQueue.map (s.alloc e).id = s.jobQueue.map s.id :=
    List.map_congr_left fun x hx => hid (h.queue hx)
  have hheld : ∀ w, (s.workers w).held.map (s.alloc e).id = (s.workers w).held.map s.id := by
    intro w
    cases hw : (s.workers w).held with
    | none => rfl
    | some x => simp [hid (h.workers (Pc.entry_of_held hw))]
  show (⟨s.jobQueue.map (s.alloc e).id, fun w => (s.workers w).held.map (s.alloc e).id⟩ :
    WorkQueue Worker String) = _
  rw [hqueue, funext hheld]
  rfl

theorem addJob_work {s : State} (h : Wf s) (now origin jobName : String)
    (auto : Option Autocommand) : (s.addJob now origin jobName auto).work = s.work ∨
      (s.addJob now origin jobName auto).work = s.work.enqueue (jobId now origin jobName) := by
  unfold State.addJob
  split
  · exact Or.inl rfl
  · next jobs _ =>
    have hid : (s.alloc (State.newEntry now origin jobName jobs auto)).id s.next =
        jobId now origin jobName := by
      simp [State.id, State.alloc, State.newEntry]
    rw [updateLog_work, put_work, alloc_work h, hid]
    exact Or.inr rfl

/-! ## Steps on the queue and the tasks -/

/-- The actions that bring a job into the queue from outside. -/
def Action.enters : Action → Bool
  | .addJob _ _ _ _ => true
  | .restartJob _ _ => true
  | _ => false

/-- Every other safe step is a move of the queue and its workers. -/
theorem step_move {cfg : Int} {s s' : State} {a : Action} (h : Wf s) (hsafe : SafeRequeue s a)
    (hs : Step cfg s a s') (ha : a.enters = false) : s.work.Move s'.work := by
  cases hs with
  | addJob now origin jobName auto => cases ha
  | reloadJobs jobs => exact .stay _
  | restartJob now id => cases ha
  | deleteLogId id => unfold State.deleteLogId; split <;> exact .stay _
  | deleteLogSuccess => exact .stay _
  | @getNowait w r rest hw hq =>
    have hqueue : s.work.queue = s.id r :: rest.map s.id := by simp [State.work, hq]
    rw [setPc_work]
    exact .take hqueue
  | @reserve w r hw =>
    have hheld : (s.workers w).held = some r := by rw [hw]; rfl
    unfold State.reserve
    split
    · exact leave_move rfl hheld false
    split
    · exact leave_busy_move hheld
    · exact stay_move (setRunning_work s _) hheld rfl
  | @handle w r clk hw =>
    have hheld : (s.workers w).held = some r := by rw [hw]; rfl
    have hwork := setEntry_work (handleStart_same cfg clk (s.heap r)).1
    simp only [State.handle]
    split
    · exact leave_move hwork hheld _
    · exact leave_move hwork hheld _
    · exact stay_move hwork hheld rfl
    · exact stay_move hwork hheld rfl
  | @connect w r connected now hw =>
    have hheld : ((s.updateLog r).workers w).held = some r := by rw [updateLog_workers, hw]; rfl
    have hsame : SameJob ((s.updateLog r).heap r) (handleConnect connected now (s.heap r)) := by
      rw [updateLog_heap]; exact (handleConnect_same connected now (s.heap r)).1
    have hwork := (setEntry_work hsame).trans (updateLog_work s r)
    simp only [State.connect]
    split
    · exact stay_move hwork hheld rfl
    · exact leave_move hwork hheld true
  | @start w r hw =>
    have hheld : ((s.updateLog r).workers w).held = some r := by rw [updateLog_workers, hw]; rfl
    have hsame := handleOutcome_same ((s.updateLog r).heap r) .exception
    simp only [State.start]
    split
    · exact stay_move (updateLog_work s r) hheld rfl
    · exact leave_move ((setEntry_work hsame).trans (updateLog_work s r)) hheld true
  | @finish w r i o hw =>
    have hheld : (s.workers w).held = some r := by rw [hw]; rfl
    have hwork := setEntry_work (handleOutcome_same (s.heap r) o)
    simp only [State.finish]
    split
    · exact stay_move hwork hheld rfl
    · exact leave_move hwork hheld true
  | @restart w r why now hw =>
    have hheld : (s.workers w).held = some r := by rw [hw]; rfl
    cases why with
    | failing =>
      have hsame : SameJob ((s.restartJob now (s.id r)).heap r)
          { (s.restartJob now (s.id r)).heap r with lastStatus := .failed } := ⟨rfl, rfl, rfl, rfl⟩
      exact restart_drop_move h hheld (setEntry_work hsame)
    | notConnected => exact restart_drop_move h hheld rfl
    | redo =>
      -- The log has no such job, so it is the caller alone that puts the entry back.
      have hlog := hsafe r hw
      have hnone : s.restartJob now (s.id r) = s := by simp [State.restartJob, hlog]
      simp only [State.restart, hnone]
      exact leave_move rfl hheld true
  | @deactivate w r requeue hw =>
    have hheld : ((s.updateLog r).workers w).held = none := by rw [updateLog_workers, hw]; rfl
    simp only [State.deactivate]
    split
    · exact stay_move (updateLog_work s r) hheld rfl
    · exact stay_move (updateLog_work s r) hheld rfl
  | @release w r hw =>
    have hheld : (s.workers w).held = none := by rw [hw]; rfl
    unfold State.release
    split
    · exact stay_move rfl hheld rfl
    · exact stay_move (setRunning_work s _) hheld rfl

theorem step_once {cfg : Int} {s s' : State} {a : Action} (h : Wf s) (hsafe : SafeRequeue s a)
    (hs : Step cfg s a s') (honce : s.work.AtMostOnce) : s'.work.AtMostOnce := by
  -- Workers move jobs about, and what enters from outside is nowhere yet.
  by_cases ha : a.enters = false
  · exact (step_move h hsafe hs ha).atMostOnce honce
  cases hs with
  | addJob now origin jobName auto =>
    rcases addJob_work h now origin jobName auto with hwork | hwork
    · rw [hwork]; exact honce
    · rw [hwork]; exact honce.enqueue hsafe
  | restartJob now id =>
    rw [restartJob_work h]
    split
    · exact honce.enqueue hsafe
    · exact honce
  | _ => exact absurd rfl ha

/-- Nothing is in the queue when the updater starts, and no task has anything. -/
theorem Loaded.atMostOnce {s : State} (h : Loaded s) : s.work.AtMostOnce := by
  have hheld : ∀ w, s.work.held w = none := by
    intro w
    simp [State.work, h.workers w, Pc.held]
  refine ⟨by simp [State.work, h.queue], ?_, ?_⟩
  · intro w x hx; rw [hheld] at hx; cases hx
  · intro v w x hx; rw [hheld] at hx; cases hx

/-- No job is twice in the queue, at two tasks, or in the queue and at a task. -/
theorem jobs_at_most_once {cfg : Int} {s₀ s : State} {l : List Action} (h0 : Initial s₀)
    (hs : Run (step cfg) SafeRequeue s₀ l s) : s.work.AtMostOnce := by
  refine (Run.invariant (I := fun s => Wf s ∧ s.work.AtMostOnce) hs
    ⟨h0.loaded.wf, h0.loaded.atMostOnce⟩ ?_).2
  intro t a u hinv hsafe hs
  obtain ⟨hwf, honce⟩ := hinv
  have hstep := step_some hs
  exact ⟨hwf.step hstep, step_once hwf hsafe hstep honce⟩

/-- A job is added, and its first attempt fails. -/
def attempt : List Action := [.addJob "1" "dev" "reboot" none, .getNowait 0, .reserve 0,
  .handle 0 (.at 10), .connect 0 true 10, .start 0, .finish 0 .failure]

theorem attempt_safe : Run (step 0) SafeRequeue blank.killOldJobs attempt
    (after (step 0) Any blank.killOldJobs attempt) := by
  have habs : SafeRequeue blank.killOldJobs (.addJob "1" "dev" "reboot" none) := by
    refine ⟨by decide, ?_⟩
    intro w hw
    cases hw
  refine .cons habs rfl ?_
  refine .cons (a := Action.getNowait 0) trivial rfl ?_
  refine .cons (a := Action.reserve 0) trivial rfl ?_
  refine .cons (a := Action.handle 0 (.at 10)) trivial rfl ?_
  refine .cons (a := Action.connect 0 true 10) trivial rfl ?_
  refine .cons (a := Action.start 0) trivial rfl ?_
  exact .cons (a := Action.finish 0 .failure) trivial rfl (.nil _)

theorem jobs_at_most_once_attempt :
    (after (step 0) Any blank.killOldJobs attempt).work.AtMostOnce :=
  jobs_at_most_once blank_initial attempt_safe

/-- The settings of a job that is to be done again at once. -/
def redoAtOnce : Autocommand where
  redo := true
  algoValue := .int 0
  redoOnError := false

/-- The first sub job of a redone job succeeds. -/
def redone : List Action := [.addJob "1" "dev" "reboot" (some redoAtOnce), .getNowait 0, .reserve 0,
  .handle 0 (.at 10), .connect 0 true 10, .start 0, .finish 0 .success, .restart 0 10]

/-- `restart_job` puts the job back, and so does the caller of `__handle_job`. -/
theorem redo_multiplies : ¬ ∀ (cfg : Int) (s₀ s : State) (l : List Action), Initial s₀ →
    Run (step cfg) Unaided s₀ l s → s.work.AtMostOnce := by
  intro h
  have honce := h 0 _ (after (step 0) Unaided blank.killOldJobs redone) _ blank_initial
    (Run.of_after (by decide))
  exact absurd honce.queue (by decide)

end MapADroid.Updater
