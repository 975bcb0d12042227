import MapADroid.Updater.RedoOnError

/- Jobs that `delete_log_id` took out of the log.

   `delete_log_id` looks at the log and the reservations only. The queue keeps the entry, and
   whichever task takes it from there ends its iteration with `__update_log`, which has the
   entry in the log again; another entry of the job in the queue is executed then
   (`deleted_job_executed`).

   A job that is neither in the queue nor at a task stays deleted until it is added or
   restarted (`deleted_jobs_gone`). -/
namespace MapADroid.Updater.Deletion
open Lib

/-- What happens under an id. -/
inductive Event where
  /-- `delete_log_id` returned `True`. -/
  | deleted (id : String)
  /-- A job is added or restarted. -/
  | entered (id : String)
  /-- A sub job is started. -/
  | executed (id : String)
  deriving DecidableEq, Repr

/-- `delete_log_id` returns `True`: the job is not in the log, or no device is reserved for it. -/
def deletes (s : State) (id : String) : Bool :=
  (s.log.get? id).isNone || !s.runningJobsPerOrigin.items.any fun i => s.id i.2 = id

/-- What `restart_job` tells. -/
def restarted (s : State) (id : String) : List Event :=
  if (s.log.get? id).isSome then [.entered id] else []

/-- What an action in state `s` tells. -/
def emit (s : State) : Action → List Event
  | .addJob now origin jobName _ =>
    if (s.availableJobs jobName).isSome then [.entered (jobId now origin jobName)] else []
  | .restartJob _ id => restarted s id
  | .deleteLogId id => if deletes s id then [.deleted id] else []
  | .start w => match s.workers w with
    | .starting r =>
      if (s.heap r).subJobIndex < (s.heap r).subJobs.length then [.executed (s.id r)] else []
    | _ => []
  | .restart w _ => match s.workers w with
    | .restarting r _ => restarted s (s.id r)
    | _ => []
  | _ => []

/-- The entry for which a task has an `__update_log` ahead of it. -/
def logging : Pc → Option Ref
  | .releasing _ => none
  | p => p.entry

/-- Only jobs that are neither in the queue nor at a task are deleted. -/
def Meets (s : State) : Action → Prop
  | .deleteLogId id => deletes s id = true →
      (∀ r ∈ s.jobQueue, s.id r ≠ id) ∧ ∀ w r, logging (s.workers w) = some r → s.id r ≠ id
  | _ => True

/-- Nothing with the id is in the log, and no task is going to put it there. -/
structure Gone (s : State) (id : String) : Prop where
  log : s.log.get? id = none
  queue : ∀ r ∈ s.jobQueue, s.id r ≠ id
  tasks : ∀ w r, logging (s.workers w) = some r → s.id r ≠ id

/-- What `delete_log_id` took out of the log is not in it and was not executed since, unless it was added or
restarted. -/
def StaysDeleted (p : State × List Event) : Prop :=
  ∀ pre id post, p.2 = pre ++ .deleted id :: post → .entered id ∉ post →
    p.1.log.get? id = none ∧ .executed id ∉ post

/-! ## What a step brings into the queue and the log -/

variable {cfg : Int} {s s' : State} {a : Action} {id : String}

theorem updateLog_log (s : State) (r : Ref) {i : String} (hi : s.id r ≠ i) :
    (s.updateLog r).log.get? i = s.log.get? i := by
  unfold State.updateLog
  split
  · rfl
  · exact Dict.get?_insert_of_ne hi.symm

@[simp] theorem leave_log (s : State) (w : Worker) (r : Ref) (requeue : Bool) :
    (s.leave w r requeue).log = s.log := by
  cases requeue <;> rfl

theorem leave_queue {w : Worker} {r x : Ref} {requeue : Bool} (hx : x ∈ (s.leave w r requeue).jobQueue) :
    x ∈ s.jobQueue ∨ x = r := by
  cases requeue with
  | false => exact .inl hx
  | true => simpa [State.leave, State.put, State.setPc] using hx

/-- A restart that finds no job under its id. -/
theorem restartJob_of_unlogged (now : ℚ) (h : .entered id ∉ restarted s id) : s.restartJob now id = s := by
  have hnone : s.log.get? id = none := by simpa [restarted] using h
  simp [State.restartJob, hnone]

/-- `restart_job` logs and queues jobs of its id only. -/
theorem restartJob_other (h : Wf s) (now : ℚ) {i : String} (hi : .entered id ∉ restarted s i) :
    (s.restartJob now i).log.get? id = s.log.get? id ∧
      ∀ x ∈ (s.restartJob now i).jobQueue, x ∈ s.jobQueue ∨ s.id x ≠ id := by
  by_cases hid : i = id
  · subst hid
    rw [restartJob_of_unlogged now hi]
    exact ⟨rfl, fun _ hx => .inl hx⟩
  cases hlog : s.log.get? i with
  | none =>
    rw [show s.restartJob now i = s by simp [State.restartJob, hlog]]
    exact ⟨rfl, fun _ hx => .inl hx⟩
  | some r =>
    rw [RedoOnError.restartJob_of_logged h hlog]
    refine ⟨rfl, fun x hx => ?_⟩
    have hqueue : x ∈ s.jobQueue ∨ x = r := by simpa [State.put, State.setEntry] using hx
    rcases hqueue with hx | rfl
    · exact .inl hx
    · exact .inr ((h.log hlog).2 ▸ hid)

/-- The new entry of `add_job` has another id, and its id is another. -/
theorem addJob_other {now origin jobName : String} (auto : Option Autocommand)
    (hid : .entered id ∉ emit s (.addJob now origin jobName auto)) :
    (s.addJob now origin jobName auto).log.get? id = s.log.get? id ∧
      ∀ x ∈ (s.addJob now origin jobName auto).jobQueue,
        x ∈ s.jobQueue ∨ (s.addJob now origin jobName auto).id x ≠ id := by
  unfold State.addJob
  unfold emit at hid
  split
  · exact ⟨rfl, fun _ hx => .inl hx⟩
  · next jobs hjobs =>
    have hne : jobId now origin jobName ≠ id := by
      rintro rfl
      simp [hjobs] at hid
    have hnew : ((s.alloc (State.newEntry now origin jobName jobs auto)).put s.next).id s.next ≠ id := by
      simpa [State.id, State.put, State.alloc, State.newEntry] using hne
    refine ⟨updateLog_log _ _ hnew, fun x hx => ?_⟩
    rw [updateLog_jobQueue] at hx
    rw [updateLog_id]
    rcases List.mem_append.mp hx with hx | hx
    · exact .inl hx
    · rw [List.mem_singleton.mp hx]
      exact .inr hnew

theorem handle_log (s : State) (cfg : Int) (w : Worker) (r : Ref) (clk : Readings) :
    (s.handle cfg w r clk).log = s.log := by
  simp only [State.handle]
  split
  · exact leave_log _ _ _ _
  · exact leave_log _ _ _ _
  · rfl
  · rfl

/-- The log gets no entry with the id. -/
theorem Gone.step_log (h : Wf s) (hgone : Gone s id) (hs : Step cfg s a s') (hentered : .entered id ∉ emit s a) :
    s'.log.get? id = none := by
  have hlogged : ∀ {w r}, logging (s.workers w) = some r → (s.updateLog r).log.get? id = none := by
    intro w r hw
    rw [updateLog_log s r (hgone.tasks w r hw)]
    exact hgone.log
  cases hs with
  | addJob now origin jobName auto => rw [(addJob_other auto hentered).1, hgone.log]
  | reloadJobs jobs => exact hgone.log
  | restartJob now i => rw [(restartJob_other h now hentered).1, hgone.log]
  | deleteLogId i =>
    unfold State.deleteLogId
    split
    · exact hgone.log
    · rw [Dict.get?_erase, hgone.log, ite_self]
  | deleteLogSuccess => simp [State.deleteLogSuccess, Dict.get?_filter, hgone.log]
  | getNowait hw hq => exact hgone.log
  | reserve hw =>
    unfold State.reserve
    split
    · exact hgone.log
    split <;> exact hgone.log
  | handle clk hw => rw [handle_log, hgone.log]
  | @connect w r connected now hw =>
    have hnone := hlogged (w := w) (r := r) (by rw [hw]; rfl)
    simp only [State.connect]
    split
    · exact hnone
    · rw [leave_log]
      exact hnone
  | @start w r hw =>
    have hnone := hlogged (w := w) (r := r) (by rw [hw]; rfl)
    simp only [State.start]
    split
    · exact hnone
    · rw [leave_log]
      exact hnone
  | finish o hw =>
    simp only [State.finish]
    split
    · exact hgone.log
    · rw [leave_log]
      exact hgone.log
  | @restart w r why now hw =>
    have hother : (s.restartJob now (s.id r)).log.get? id = none := by
      rw [(restartJob_other h now (by simpa [emit, hw] using hentered)).1, hgone.log]
    cases why with
    | failing => simpa [State.restart, State.setEntry] using hother
    | notConnected => simpa [State.restart] using hother
    | redo => simpa [State.restart] using hother
  | @deactivate w r requeue hw =>
    have hnone := hlogged (w := w) (r := r) (by rw [hw]; rfl)
    simp only [State.deactivate]
    split <;> exact hnone
  | release hw => unfold State.release; split <;> exact hgone.log

/-- What a step puts into the queue was there, was at a task, or has another id. -/
theorem step_queue (h : Wf s) (hs : Step cfg s a s') (hentered : .entered id ∉ emit s a) {x : Ref}
    (hx : x ∈ s'.jobQueue) : x ∈ s.jobQueue ∨ (∃ w, logging (s.workers w) = some x) ∨ s'.id x ≠ id := by
  have hleft : ∀ {t : State} {w r requeue}, t.jobQueue = s.jobQueue → logging (s.workers w) = some r →
      x ∈ (t.leave w r requeue).jobQueue → x ∈ s.jobQueue ∨ ∃ w, logging (s.workers w) = some x := by
    intro t w r requeue ht hw hx
    rcases leave_queue hx with hx | rfl
    · exact .inl (ht ▸ hx)
    · exact .inr ⟨w, hw⟩
  -- What a restart queues is named as it was.
  have hrestarted : ∀ {now i}, .entered id ∉ restarted s i → x ∈ (s.restartJob now i).jobQueue →
      x ∈ s.jobQueue ∨ s'.id x ≠ id := by
    intro now i hi hx
    rcases (restartJob_other h now hi).2 x hx with hx' | hne
    · exact .inl hx'
    · have hlt : x < s.next := restartJob_next s now i ▸ (h.restartJob now i).queue hx
      have hid : s'.id x = s.id x := (step_same hs hlt).id
      exact .inr (hid ▸ hne)
  cases hs with
  | addJob now origin jobName auto =>
    rcases (addJob_other auto hentered).2 x hx with hx | hne
    · exact .inl hx
    · exact .inr (.inr hne)
  | reloadJobs jobs => exact .inl hx
  | restartJob now i =>
    rcases hrestarted hentered hx with hx | hne
    · exact .inl hx
    · exact .inr (.inr hne)
  | deleteLogId i =>
    left
    unfold State.deleteLogId at hx
    split at hx <;> exact hx
  | deleteLogSuccess => exact .inl hx
  | getNowait hw hq => exact .inl (hq ▸ List.mem_cons_of_mem _ hx)
  | @reserve w r hw =>
    unfold State.reserve at hx
    split at hx
    · exact .inl hx
    split at hx
    · rcases List.mem_append.mp hx with hx | hx
      · exact .inl hx
      · rw [List.mem_singleton.mp hx]
        exact .inr (.inl ⟨w, by rw [hw]; rfl⟩)
    · exact .inl hx
  | @handle w r clk hw =>
    have hlogging : logging (s.workers w) = some r := by rw [hw]; rfl
    rw [← or_assoc]
    left
    simp only [State.handle] at hx
    split at hx
    · exact hleft (by rfl) hlogging hx
    · exact hleft (by rfl) hlogging hx
    · exact .inl hx
    · exact .inl hx
  | @connect w r connected now hw =>
    have hlogging : logging (s.workers w) = some r := by rw [hw]; rfl
    have hqueue := updateLog_jobQueue s r
    rw [← or_assoc]
    left
    simp only [State.connect] at hx
    split at hx
    · exact .inl (hqueue ▸ hx)
    · exact hleft (t := (s.updateLog r).setEntry r _) hqueue hlogging hx
  | @start w r hw =>
    have hlogging : logging (s.workers w) = some r := by rw [hw]; rfl
    have hqueue := updateLog_jobQueue s r
    rw [← or_assoc]
    left
    simp only [State.start] at hx
    split at hx
    · exact .inl (hqueue ▸ hx)
    · exact hleft (t := (s.updateLog r).setEntry r _) hqueue hlogging hx
  | @finish w r i o hw =>
    have hlogging : logging (s.workers w) = some r := by rw [hw]; rfl
    rw [← or_assoc]
    left
    simp only [State.finish] at hx
    split at hx
    · exact .inl hx
    · exact hleft (by rfl) hlogging hx
  | @restart w r why now hw =>
    have hlogging : logging (s.workers w) = some r := by rw [hw]; rfl
    have hjob : x ∈ (s.restartJob now (s.id r)).jobQueue ∨ x = r := by
      cases why with
      | failing => exact leave_queue (s := (s.restartJob now (s.id r)).setEntry r _) hx
      | notConnected => exact leave_queue hx
      | redo => exact leave_queue hx
    rcases hjob with hx | rfl
    · rcases hrestarted (by simpa [emit, hw] using hentered) hx with hx | hne
      · exact .inl hx
      · exact .inr (.inr hne)
    · exact .inr (.inl ⟨w, hlogging⟩)
  | @deactivate w r requeue hw =>
    simp only [State.deactivate] at hx
    split at hx <;> exact .inl (updateLog_jobQueue s r ▸ hx)
  | release hw => unfold State.release at hx; split at hx <;> exact .inl hx

/-- A task has the entry it had, or one from the queue. -/
theorem step_tasks (hs : Step cfg s a s') {v : Worker} {x : Ref} (hv : logging (s'.workers v) = some x) :
    logging (s.workers v) = some x ∨ x ∈ s.jobQueue := by
  by_cases htaken : ∃ w, a = .getNowait w
  · obtain ⟨w, rfl⟩ := htaken
    cases hs with
    | @getNowait _ r rest hw hq =>
    by_cases hvw : v = w
    · subst hvw
      obtain rfl : r = x := by simpa [State.setPc, logging, Pc.entry] using hv
      exact .inr (hq ▸ List.mem_cons_self)
    · left
      simpa [State.setPc, Function.update_of_ne hvw] using hv
  left
  rcases step_moves hs with hwork | ⟨w, p, q, hp, hwork, hmoves⟩
  · exact hwork ▸ hv
  rw [hwork] at hv
  by_cases hvw : v = w
  · subst hvw
    rw [Function.update_self] at hv
    rw [hp]
    cases hmoves with
    | taken r => exact absurd ⟨v, rfl⟩ htaken
    | deactivated r requeue => cases hv
    | kept r requeue => cases hv
    | released r => cases hv
    | died r hgone => cases hv
    | _ => exact hv
  · rw [Function.update_of_ne hvw] at hv
    exact hv

/-! ## Deleted jobs -/

theorem logging_lt (h : Wf s) {w : Worker} {r : Ref} (hw : logging (s.workers w) = some r) : r < s.next := by
  apply h.workers (w := w)
  cases hp : s.workers w <;> simp_all [logging, Pc.entry]

/-- A job that is gone stays so until it is added or restarted. -/
theorem Gone.step (h : Wf s) (hgone : Gone s id) (hs : Step cfg s a s') (hentered : .entered id ∉ emit s a) :
    Gone s' id := by
  have hqueue : ∀ r ∈ s.jobQueue, s'.id r ≠ id := by
    intro r hr
    rw [show s'.id r = s.id r from (step_same hs (h.queue hr)).id]
    exact hgone.queue r hr
  have htasks : ∀ w r, logging (s.workers w) = some r → s'.id r ≠ id := by
    intro w r hw
    rw [show s'.id r = s.id r from (step_same hs (logging_lt h hw)).id]
    exact hgone.tasks w r hw
  refine ⟨hgone.step_log h hs hentered, ?_, ?_⟩
  · intro r hr
    rcases step_queue h hs hentered hr with hr | ⟨w, hw⟩ | hne
    · exact hqueue r hr
    · exact htasks w r hw
    · exact hne
  · intro w r hw
    rcases step_tasks hs hw with hw | hr
    · exact htasks w r hw
    · exact hqueue r hr

theorem Gone.not_executed (hgone : Gone s id) : .executed id ∉ emit s a := by
  intro h
  unfold emit at h
  split at h
  · split at h <;> simp at h
  · simp only [restarted] at h
    split at h <;> simp at h
  · split at h <;> simp at h
  · next w =>
    split at h
    · next r hw =>
      split at h
      · obtain rfl : id = s.id r := by simpa using h
        exact hgone.tasks w r (by rw [hw]; rfl) rfl
      · cases h
    · cases h
  · split at h
    · simp only [restarted] at h
      split at h <;> simp at h
    · cases h
  · cases h

/-- A deletion that meets the condition. -/
theorem Gone.of_deleted (hmeets : Meets s (.deleteLogId id)) (hdeletes : deletes s id = true) :
    Gone (s.deleteLogId id) id := by
  obtain ⟨hqueue, htasks⟩ := hmeets hdeletes
  unfold State.deleteLogId
  split
  · next hrunning =>
    refine ⟨?_, hqueue, htasks⟩
    simpa [deletes, hrunning] using hdeletes
  · exact ⟨by simp, hqueue, htasks⟩

theorem of_deleted_mem (h : .deleted id ∈ emit s a) :
    a = .deleteLogId id ∧ deletes s id = true ∧ emit s a = [.deleted id] := by
  have hrestarted : ∀ i, .deleted id ∉ restarted s i := by
    intro i hi
    unfold restarted at hi
    split at hi <;> simp at hi
  cases a with
  | addJob now origin jobName auto =>
    simp only [emit] at h
    split at h <;> simp at h
  | restartJob now i => exact absurd h (hrestarted i)
  | deleteLogId i =>
    simp only [emit] at h ⊢
    split at h
    · next hdeletes =>
      obtain rfl : id = i := by simpa using h
      exact ⟨rfl, hdeletes, by simp [hdeletes]⟩
    · cases h
  | start w =>
    simp only [emit] at h
    split at h
    · split at h <;> simp at h
    · cases h
  | restart w now =>
    simp only [emit] at h
    split at h
    · exact absurd h (hrestarted _)
    · cases h
  | _ => cases h

/-- What was deleted is gone besides. -/
structure Recorded (p : State × List Event) : Prop where
  wf : Wf p.1
  gone : ∀ pre id post, p.2 = pre ++ .deleted id :: post → .entered id ∉ post →
    Gone p.1 id ∧ .executed id ∉ post

theorem Recorded.step {p q : State × List Event} (h : Recorded p) (hmeets : Meets p.1 a)
    (hs : recording (step cfg) emit p a = some q) : Recorded q := by
  obtain ⟨hnext, hes⟩ := recording_some hs
  have hstep := step_some hnext
  refine ⟨h.wf.step hstep, ?_⟩
  intro pre id post hsplit hentered
  rw [hes] at hsplit
  rcases append_eq_cons hsplit with ⟨mid, hmid, rfl⟩ | ⟨mid, hmid⟩
  · rw [List.mem_append, not_or] at hentered
    obtain ⟨hgone, hexecuted⟩ := h.gone pre id mid hmid hentered.1
    refine ⟨hgone.step h.wf hstep hentered.2, ?_⟩
    rw [List.mem_append, not_or]
    exact ⟨hexecuted, hgone.not_executed⟩
  · -- The job is deleted in this step.
    obtain ⟨rfl, hdeletes, hemit⟩ := of_deleted_mem (by rw [hmid]; simp : .deleted id ∈ emit p.1 a)
    rw [hemit] at hmid
    obtain ⟨_, _, rfl⟩ := singleton_eq_cons hmid
    have hq : q.1 = p.1.deleteLogId id := by simpa [Updater.step] using hnext.symm
    rw [hq]
    exact ⟨.of_deleted hmeets hdeletes, List.not_mem_nil⟩

theorem deleted_jobs_gone {s₀ : State} {l : List Action} {p : State × List Event} (h0 : Initial s₀)
    (hs : Run (recording (step cfg) emit) (fun p a => Meets p.1 a) (s₀, []) l p) : StaysDeleted p := by
  have hrecorded : Recorded p := by
    refine Run.invariant hs ?_ fun _ _ _ h hmeets hs => h.step hmeets hs
    refine ⟨h0.loaded.wf, ?_⟩
    intro pre id post hsplit
    simp at hsplit
  intro pre id post hsplit hentered
  obtain ⟨hgone, hexecuted⟩ := hrecorded.gone pre id post hsplit hentered
  exact ⟨hgone.log, hexecuted⟩

/-- Nothing is deleted from the log. -/
def deletionless : Action → Bool
  | .deleteLogId _ => false
  | _ => true

theorem meets_of_deletionless (ha : deletionless a = true) : Meets s a := by
  cases a with
  | deleteLogId i => cases ha
  | _ => trivial

/-- Both sub jobs of a job are done, and the iteration after them drops the job. -/
def bothDropped : List Action := bothDone ++
  [.deactivate 0, .getNowait 0, .reserve 0, .handle 0 (.at 40), .deactivate 0, .release 0]

/-- The state and the record after `bothDropped`. -/
def dropped : State × List Event :=
  after (recording (step 0) emit) (fun _ a => deletionless a = true) (blank.killOldJobs, []) bothDropped

/-- The state and the record after the job is deleted. -/
def deleted : State × List Event :=
  after (recording (step 0) emit) Any dropped [.deleteLogId "1_dev_reboot"]

/-- Another job of the device is added and taken. -/
def nextTaken : State × List Event :=
  after (recording (step 0) emit) (fun _ a => deletionless a = true) deleted [.addJob "2" "dev" "reboot" none, .getNowait 0]

theorem dropped_meets : Meets dropped.1 (.deleteLogId "1_dev_reboot") := by
  refine fun _ => ⟨by decide +kernel, ?_⟩
  intro w r hw
  have hidle : dropped.1.workers w = .idle := by
    match w with
    | 0 => decide +kernel
    | w + 1 => rfl
  rw [hidle] at hw
  cases hw

theorem deleted_run : Run (recording (step 0) emit) (fun p a => Meets p.1 a) (blank.killOldJobs, [])
    (bothDropped ++ [.deleteLogId "1_dev_reboot"] ++ [.addJob "2" "dev" "reboot" none, .getNowait 0]) nextTaken := by
  have hdropped : Run (recording (step 0) emit) (fun _ a => deletionless a = true) (blank.killOldJobs, [])
      bothDropped dropped := .of_after (by decide +kernel)
  have hnext : Run (recording (step 0) emit) (fun _ a => deletionless a = true) deleted
      [.addJob "2" "dev" "reboot" none, .getNowait 0] nextTaken := .of_after (by decide +kernel)
  have hmeets : ∀ p a, deletionless a = true → Meets (Prod.fst (β := List Event) p) a := fun _ _ => meets_of_deletionless
  refine .append (.snoc (hdropped.mono hmeets) dropped_meets ?_) (hnext.mono hmeets)
  exact step_after trivial (by decide +kernel)

theorem deleted_jobs_gone_next : StaysDeleted nextTaken := deleted_jobs_gone blank_initial deleted_run

/-- A job that is in the queue twice is deleted: the first entry is dropped, and logged; the second one is
executed. -/
def deletedQueuedTwice : List Action := [.addJob "1" "dev" "reboot" none, .restartJob 5 "1_dev_reboot",
  .deleteLogId "1_dev_reboot", .getNowait 0, .reserve 0, .deactivate 0, .getNowait 1, .reserve 1,
  .handle 1 (.at 10), .connect 1 true 10, .start 1]

theorem deleted_job_executed : ¬ ∀ (cfg : Int) (s₀ : State) (l : List Action) (p : State × List Event),
    Initial s₀ → Run (recording (step cfg) emit) Any (s₀, []) l p → StaysDeleted p := by
  intro h
  have hrun : Run (recording (step 0) emit) Any (blank.killOldJobs, []) deletedQueuedTwice
      (after (recording (step 0) emit) Any (blank.killOldJobs, []) deletedQueuedTwice) := .of_after (by decide +kernel)
  have hstays := h 0 _ _ _ blank_initial hrun [.entered "1_dev_reboot", .entered "1_dev_reboot"] "1_dev_reboot"
    [.executed "1_dev_reboot"] (by decide +kernel) (by decide)
  exact hstays.2 (by decide)

end MapADroid.Updater.Deletion
