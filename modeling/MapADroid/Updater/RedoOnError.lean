import MapADroid.Updater.Order

/- Jobs whose sub job failed more than three times.

   `__handle_job` gives such a job up: its status becomes `FAILED`, and a job with that
   status is never processed. With `redo_on_error` it awaits `restart_job` first, which
   puts the job back into the queue as pending; the status is set to `FAILED` after that,
   on the same entry. So the job is in the queue and is dropped as soon as a task takes it
   (`honoured_iff`, `redo_never_honoured`).

   Without `redo_on_error` the job stays failed and is not executed until it is restarted,
   if no other task was past these checks with it when it was given up
   (`aborted_jobs_settled`). -/
namespace MapADroid.Updater.RedoOnError
open Lib

/-- What the statuses of a job that is given up depend on. -/
inductive Event where
  /-- The job is given up. -/
  | aborted (r : Ref)
  /-- `restart_job` has put the job back. -/
  | restarted (r : Ref)
  /-- A sub job of it is started. -/
  | executed (r : Ref)
  /-- The job is given up with `redo_on_error`: whether it is going to be executed again. -/
  | redone (r : Ref) (honoured : Bool)
  deriving DecidableEq, Repr

/-- `__handle_job` finds the job failing once more, and does not restart it. -/
def aborts (e : GlobalJobLogEntry) : Bool :=
  e.subJobIndex < e.subJobs.length && e.lastStatus = .failing && 3 < e.counter && !e.redoOnError

/-- A status that makes `__handle_job` return at once. -/
def terminal (status : JobStatus) : Bool := status = .cancelled || status = .failed

/-- After `restart_job` and what follows, the job is in the queue to be executed from its
first sub job on; a job that was deleted need not be. -/
def honoured (s : State) (w : Worker) (r : Ref) (now : ℚ) : Bool :=
  match s.log.get? (s.id r) with
  | none => true
  | some x =>
    let t := s.restart w r .failing now
    x ∈ t.jobQueue && !terminal (t.heap x).lastStatus && (t.heap x).subJobIndex = 0

/-- What `restart_job` tells. -/
def restarted (s : State) (id : String) : List Event := ((s.log.get? id).map Event.restarted).toList

/-- What an action in state `s` tells. -/
def emit (s : State) : Action → List Event
  | .handle w _ => match s.workers w with
    | .activating r => if aborts (s.heap r) then [.aborted r] else []
    | _ => []
  | .restartJob _ id => restarted s id
  | .restart w now => match s.workers w with
    | .restarting r .failing => restarted s (s.id r) ++ [.redone r (honoured s w r now)]
    | .restarting r _ => restarted s (s.id r)
    | _ => []
  | .start w => match s.workers w with
    | .starting r => if (s.heap r).subJobIndex < (s.heap r).subJobs.length then [.executed r] else []
    | _ => []
  | _ => []

/-- The entry a task has past the checks of `__handle_job`. -/
def executing : Pc → Option Ref
  | .processing r | .starting r | .running r _ => some r
  | _ => none

/-- No other task is past the checks with a job that is given up, and no job with
`redo_on_error` that is given up is still in the log when it is restarted. -/
def Meets (s : State) : Action → Prop
  | .handle w _ => ∀ r, s.workers w = .activating r → aborts (s.heap r) = true →
      ∀ v, executing (s.workers v) ≠ some r
  | .restart w _ => ∀ r, s.workers w = .restarting r .failing → s.log.get? (s.id r) ≠ some r
  | _ => True

/-! ## With `redo_on_error` -/

variable {cfg : Int} {s s' : State} {a : Action} {w : Worker} {r : Ref}

theorem restartJob_of_logged (h : Wf s) {now : ℚ} {id : String} {x : Ref} (hx : s.log.get? id = some x) :
    s.restartJob now id = (s.setEntry x ((s.heap x).restart now)).put x := by
  obtain ⟨_, hid⟩ := h.log hx
  have hkeep : ((s.setEntry x ((s.heap x).restart now)).put x).id x = id := by
    show ((s.setEntry x ((s.heap x).restart now)).heap x).id = id
    rw [setEntry_heap_self]
    exact hid
  rw [State.restartJob, hx]
  simp only [State.updateLog, hkeep]
  rw [if_pos (by simp [State.put, State.setEntry, hx])]

/-- The status that is set after `restart_job` is that of the entry it has put back, unless
the log had another one. -/
theorem honoured_iff (h : Wf s) (w : Worker) (r : Ref) (now : ℚ) :
    honoured s w r now = true ↔ s.log.get? (s.id r) ≠ some r := by
  unfold honoured
  cases hlog : s.log.get? (s.id r) with
  | none => simp
  | some x =>
    simp only [State.restart, restartJob_of_logged h hlog]
    by_cases hx : x = r
    · subst hx
      simp [State.setEntry, terminal]
    · simp [State.setEntry, State.put, State.leave, State.setPc, terminal, hx, GlobalJobLogEntry.restart]

/-- No two jobs are added under one id. -/
def NewIds (s : State) : Action → Prop
  | .addJob now origin jobName _ => ∀ x < s.next, s.id x ≠ jobId now origin jobName
  | _ => True

/-- Only `add_job` makes an entry. -/
theorem step_next (hs : Step cfg s a s') : s'.next = s.next ∨ ∃ now origin jobName auto,
    a = .addJob now origin jobName auto ∧ s'.next = s.next + 1 ∧ s'.id s.next = jobId now origin jobName := by
  cases hs with
  | addJob now origin jobName auto =>
    unfold State.addJob
    split
    · exact .inl rfl
    · refine .inr ⟨now, origin, jobName, auto, rfl, ?_, ?_⟩
      · rw [updateLog_next]
        rfl
      · rw [updateLog_id]
        simp [State.id, State.put, State.alloc, State.newEntry]
  | restartJob now id => exact .inl (restartJob_next s now id)
  | deleteLogId id => unfold State.deleteLogId; split <;> exact .inl rfl
  | reserve hw =>
    unfold State.reserve
    split
    · exact .inl rfl
    split <;> exact .inl rfl
  | @handle w r clk hw => exact .inl (handle_heap s cfg w r clk).1
  | connect connected now hw =>
    simp only [State.connect]
    split
    · exact .inl (updateLog_next s _)
    · exact .inl ((leave_next _ _ _ _).trans (updateLog_next s _))
  | start hw =>
    simp only [State.start]
    split
    · exact .inl (updateLog_next s _)
    · exact .inl ((leave_next _ _ _ _).trans (updateLog_next s _))
  | finish o hw =>
    simp only [State.finish]
    split
    · exact .inl rfl
    · exact .inl (leave_next _ _ _ _)
  | @restart w r why now hw =>
    have hnext := restartJob_next s now (s.id r)
    cases why with
    | failing => exact .inl ((leave_next _ _ _ _).trans hnext)
    | notConnected => exact .inl ((leave_next _ _ _ _).trans hnext)
    | redo => exact .inl ((leave_next _ _ _ _).trans hnext)
  | deactivate hw =>
    simp only [State.deactivate]
    split <;> exact .inl (updateLog_next s _)
  | release hw => unfold State.release; split <;> exact .inl rfl
  | _ => exact .inl rfl

theorem ids_distinct {s₀ : State} {l : List Action} (h0 : Initial s₀) (hs : Run (step cfg) NewIds s₀ l s)
    {x y : Ref} (hx : x < s.next) (hy : y < s.next) (hid : s.id x = s.id y) : x = y := by
  refine Run.invariant (I := fun s => ∀ x y, x < s.next → y < s.next → s.id x = s.id y → x = y) hs
    (fun x y => h0.ids) ?_ x y hx hy hid
  intro t a u hinv hnew hstep x y hx hy hxy
  have hold : ∀ {z}, z < t.next → u.id z = t.id z := fun hz => (step_same (step_some hstep) hz).id
  rcases step_next (step_some hstep) with hnext | ⟨now, origin, jobName, auto, rfl, hnext, hid⟩
  · rw [hnext] at hx hy
    rw [hold hx, hold hy] at hxy
    exact hinv x y hx hy hxy
  · -- The id of the new entry is none of the others.
    have hfresh : ∀ z < t.next, t.id z ≠ jobId now origin jobName := hnew
    rw [hnext, Nat.lt_succ_iff_lt_or_eq] at hx hy
    rcases hx with hx | rfl <;> rcases hy with hy | rfl
    · rw [hold hx, hold hy] at hxy
      exact hinv x y hx hy hxy
    · rw [hold hx, hid] at hxy
      exact absurd hxy (hfresh x hx)
    · rw [hid, hold hy] at hxy
      exact absurd hxy.symm (hfresh y hy)
    · rfl

/-- No job that is given up with `redo_on_error` and is still in the log is executed again. -/
theorem redo_never_honoured {s₀ : State} {l : List Action} (h0 : Initial s₀) (hs : Run (step cfg) NewIds s₀ l s)
    (hw : s.workers w = .restarting r .failing) (hlog : (s.log.get? (s.id r)).isSome) (now : ℚ) :
    honoured s w r now = false := by
  have hwf : Wf s := Run.invariant hs h0.loaded.wf fun _ _ _ hwf _ hstep => hwf.step (step_some hstep)
  obtain ⟨x, hx⟩ := Option.isSome_iff_exists.mp hlog
  obtain ⟨hlt, hid⟩ := hwf.log hx
  have hr : r < s.next := hwf.workers (by rw [hw]; rfl)
  obtain rfl := ids_distinct h0 hs hlt hr hid
  rw [← Bool.not_eq_true, honoured_iff hwf]
  exact not_not_intro hx

/-! ## Without it -/

/-- The job is failed, and no task is past the checks with it. -/
structure Quiet (s : State) (r : Ref) : Prop where
  allocated : r < s.next
  failed : (s.heap r).lastStatus = .failed
  idle : ∀ v, executing (s.workers v) ≠ some r

/-- A failed job does not pass the checks. -/
theorem handleStart_failed {clk : Readings} {e : GlobalJobLogEntry} (h : e.lastStatus = .failed) :
    (handleStart cfg clk e).1 = e ∧ (handleStart cfg clk e).2 = .returned true := by
  unfold handleStart
  split
  · exact ⟨rfl, rfl⟩
  · simp [h]

/-- A task passes the checks in `__handle_job` only. -/
theorem step_executing (hs : Step cfg s a s') {v : Worker} (hv : executing (s'.workers v) = some r) :
    executing (s.workers v) = some r ∨
      ∃ clk, a = .handle v clk ∧ s.workers v = .activating r ∧ (handleStart cfg clk (s.heap r)).2 = .processing := by
  rcases step_moves hs with hwork | ⟨w, p, q, hp, hwork, hmoves⟩
  · rw [hwork] at hv
    exact .inl hv
  rw [hwork] at hv
  by_cases hvw : v = w
  · subst hvw
    rw [Function.update_self] at hv
    rw [hp]
    cases hmoves with
    | processing x clk hchecked =>
      obtain rfl := Option.some.inj hv
      exact .inr ⟨clk, rfl, rfl, hchecked⟩
    | connected x connected now => exact .inl hv
    | started x i => exact .inl hv
    | _ => cases hv
  · rw [Function.update_of_ne hvw] at hv
    exact .inl hv

theorem setEntry_heap_of_ne {x y : Ref} (hx : y ≠ x) (e : GlobalJobLogEntry) : (s.setEntry x e).heap y = s.heap y :=
  Function.update_of_ne hx _ _

/-- A restart of another job. -/
theorem restartJob_heap (now : ℚ) {id : String} (hr : .restarted r ∉ restarted s id) :
    (s.restartJob now id).heap r = s.heap r := by
  unfold State.restartJob
  unfold restarted at hr
  split
  · rfl
  · next x hx =>
    rw [hx] at hr
    have hne : r ≠ x := by
      rintro rfl
      exact hr (by simp)
    rw [updateLog_heap]
    exact setEntry_heap_of_ne hne _

/-- A failed job that no task has past the checks stays failed, unless it is restarted. -/
theorem step_failed (h : Quiet s r) (hs : Step cfg s a s') (hrestarted : .restarted r ∉ emit s a) :
    (s'.heap r).lastStatus = .failed := by
  have hother : ∀ {w x}, executing (s.workers w) = some x → r ≠ x := by
    rintro w x hw rfl
    exact h.idle w hw
  cases hs with
  | addJob now origin jobName auto =>
    unfold State.addJob
    split
    · exact h.failed
    · rw [updateLog_heap]
      show ((Function.update s.heap s.next _) r).lastStatus = .failed
      rw [Function.update_of_ne (Nat.ne_of_lt h.allocated)]
      exact h.failed
  | reloadJobs jobs => exact h.failed
  | restartJob now id =>
    rw [restartJob_heap now hrestarted]
    exact h.failed
  | deleteLogId id => unfold State.deleteLogId; split <;> exact h.failed
  | deleteLogSuccess => exact h.failed
  | getNowait hw hq => exact h.failed
  | reserve hw =>
    unfold State.reserve
    split
    · exact h.failed
    split <;> exact h.failed
  | @handle w x clk hw =>
    rw [(handle_heap s cfg w x clk).2]
    by_cases hx : r = x
    · subst hx
      rw [setEntry_heap_self, (handleStart_failed h.failed).1]
      exact h.failed
    · rw [setEntry_heap_of_ne hx]
      exact h.failed
  | @connect w x connected now hw =>
    have hx : r ≠ x := hother (w := w) (by rw [hw]; rfl)
    have hheap : ((s.updateLog x).setEntry x (handleConnect connected now (s.heap x))).heap r = s.heap r := by
      rw [setEntry_heap_of_ne hx, updateLog_heap]
    simp only [State.connect]
    split
    · exact hheap ▸ h.failed
    · rw [leave_heap, hheap]
      exact h.failed
  | @start w x hw =>
    have hx : r ≠ x := hother (w := w) (by rw [hw]; rfl)
    simp only [State.start]
    split
    · show ((s.updateLog x).heap r).lastStatus = .failed
      rw [updateLog_heap]
      exact h.failed
    · rw [leave_heap, setEntry_heap_of_ne hx, updateLog_heap]
      exact h.failed
  | @finish w x i o hw =>
    have hx : r ≠ x := hother (w := w) (by rw [hw]; rfl)
    have hheap : (s.setEntry x (handleOutcome (s.heap x) o)).heap r = s.heap r := setEntry_heap_of_ne hx _
    simp only [State.finish]
    split
    · exact hheap ▸ h.failed
    · rw [leave_heap, hheap]
      exact h.failed
  | @restart w x why now hw =>
    have hnot : .restarted r ∉ restarted s (s.id x) := by
      intro hmem
      apply hrestarted
      cases why <;> simp [emit, hw, hmem]
    have hheap := restartJob_heap now hnot
    cases why with
    | failing =>
      simp only [State.restart]
      rw [leave_heap]
      by_cases hx : r = x
      · subst hx
        rw [setEntry_heap_self]
      · rw [setEntry_heap_of_ne hx, hheap]
        exact h.failed
    | notConnected =>
      simp only [State.restart]
      rw [leave_heap, hheap]
      exact h.failed
    | redo =>
      simp only [State.restart]
      rw [leave_heap, hheap]
      exact h.failed
  | deactivate hw =>
    simp only [State.deactivate]
    split <;> exact (updateLog_heap s _) ▸ h.failed
  | release hw => unfold State.release; split <;> exact h.failed

theorem Quiet.step (h : Quiet s r) (hs : Step cfg s a s') (hrestarted : .restarted r ∉ emit s a) : Quiet s' r where
  allocated := by
    rcases step_next hs with hnext | ⟨_, _, _, _, _, hnext, _⟩
    · rw [hnext]
      exact h.allocated
    · rw [hnext]
      exact Nat.lt_succ_of_lt h.allocated
  failed := step_failed h hs hrestarted
  idle v hv := by
    rcases step_executing hs hv with hv | ⟨clk, _, _, hclk⟩
    · exact h.idle v hv
    · rw [(handleStart_failed h.failed).2] at hclk
      cases hclk

theorem handleStart_aborts {clk : Readings} {e : GlobalJobLogEntry} (h : aborts e = true) :
    handleStart cfg clk e = ({ e with lastStatus := .failed }, .returned true) := by
  simp only [aborts, Bool.and_eq_true, decide_eq_true_eq, Bool.not_eq_true'] at h
  obtain ⟨⟨⟨hindex, hfailing⟩, hcounter⟩, hredo⟩ := h
  simp [handleStart, Nat.not_le.mpr hindex, hfailing, hcounter, hredo]

/-- A job that is given up. -/
theorem Quiet.of_aborted (h : Wf s) (cfg : Int) (clk : Readings) (hw : s.workers w = .activating r)
    (haborts : aborts (s.heap r) = true) (hothers : ∀ v, executing (s.workers v) ≠ some r) :
    Quiet (s.handle cfg w r clk) r where
  allocated := by
    rw [(handle_heap s cfg w r clk).1]
    exact h.workers (by rw [hw]; rfl)
  failed := by rw [(handle_heap s cfg w r clk).2, setEntry_heap_self, handleStart_aborts haborts]
  idle v hv := by
    rcases step_executing (.handle clk hw : Step cfg s (.handle w clk) _) hv with hv | ⟨clk', _, _, hclk⟩
    · exact hothers v hv
    · rw [handleStart_aborts haborts] at hclk
      cases hclk

/-! ## What the steps tell -/

theorem of_executed_mem (h : .executed r ∈ emit s a) : ∃ w, executing (s.workers w) = some r := by
  unfold emit at h
  split at h
  · split at h
    · split at h <;> simp at h
    · cases h
  · simp [restarted] at h
  · split at h <;> simp [restarted] at h
  · next w =>
    split at h
    · next x hw =>
      split at h
      · simp only [List.mem_singleton, Event.executed.injEq] at h
        exact ⟨w, by rw [hw, h]; rfl⟩
      · cases h
    · cases h
  · cases h

theorem of_redone_mem {b : Bool} (h : .redone r b ∈ emit s a) : ∃ w now, a = .restart w now ∧
    s.workers w = .restarting r .failing ∧ b = honoured s w r now := by
  unfold emit at h
  split at h
  · split at h
    · split at h <;> simp at h
    · cases h
  · simp [restarted] at h
  · next w now =>
    split at h
    · next x hw =>
      simp only [restarted, List.mem_append, Option.mem_toList, Option.map_eq_some_iff,
        reduceCtorEq, and_false, exists_false, List.mem_singleton, Event.redone.injEq, false_or] at h
      obtain ⟨rfl, rfl⟩ := h
      exact ⟨w, now, rfl, hw, rfl⟩
    · simp [restarted] at h
    · cases h
  · split at h
    · split at h <;> simp at h
    · cases h
  · cases h

theorem of_aborted_mem (h : .aborted r ∈ emit s a) : ∃ w clk, a = .handle w clk ∧
    s.workers w = .activating r ∧ aborts (s.heap r) = true ∧ emit s a = [.aborted r] := by
  cases a with
  | handle w clk =>
    simp only [emit] at h ⊢
    split at h
    · next x hw =>
      split at h
      · next haborts =>
        obtain rfl : r = x := by simpa using h
        exact ⟨w, clk, rfl, hw, haborts, by simp [haborts]⟩
      · cases h
    · cases h
  | restartJob now id => simp [emit, restarted] at h
  | restart w now =>
    simp only [emit] at h
    split at h <;> simp [restarted] at h
  | start w =>
    simp only [emit] at h
    split at h
    · split at h <;> simp at h
    · cases h
  | _ => cases h

/-! ## The record -/

/-- Every job given up with `redo_on_error` is going to be executed again. -/
def Honoured (p : State × List Event) : Prop := ∀ r b, .redone r b ∈ p.2 → b = true

/-- Every other job that was given up is failed, and was not executed since, unless it was restarted. -/
def Settled (p : State × List Event) : Prop :=
  ∀ pre r post, p.2 = pre ++ .aborted r :: post → .restarted r ∉ post →
    (p.1.heap r).lastStatus = .failed ∧ .executed r ∉ post

/-- A job that was given up is quiet besides. -/
structure Recorded (p : State × List Event) : Prop where
  wf : Wf p.1
  honoured : Honoured p
  settled : ∀ pre r post, p.2 = pre ++ .aborted r :: post → .restarted r ∉ post →
    Quiet p.1 r ∧ .executed r ∉ post

theorem Recorded.step {p q : State × List Event} (h : Recorded p) (hmeets : Meets p.1 a)
    (hs : recording (step cfg) emit p a = some q) : Recorded q := by
  obtain ⟨hnext, hes⟩ := recording_some hs
  have hstep := step_some hnext
  refine ⟨h.wf.step hstep, ?_, ?_⟩
  · intro r b hmem
    rw [hes, List.mem_append] at hmem
    rcases hmem with hmem | hmem
    · exact h.honoured r b hmem
    · obtain ⟨w, now, rfl, hw, rfl⟩ := of_redone_mem hmem
      exact (honoured_iff h.wf w r now).mpr (hmeets r hw)
  · intro pre r post hsplit hnot
    rw [hes] at hsplit
    rcases append_eq_cons hsplit with ⟨mid, hmid, rfl⟩ | ⟨mid, hmid⟩
    · rw [List.mem_append, not_or] at hnot
      obtain ⟨hquiet, hexecuted⟩ := h.settled pre r mid hmid hnot.1
      refine ⟨hquiet.step hstep hnot.2, ?_⟩
      rw [List.mem_append, not_or]
      refine ⟨hexecuted, fun hmem => ?_⟩
      obtain ⟨w, hw⟩ := of_executed_mem hmem
      exact hquiet.idle w hw
    · -- The job is given up in this step.
      obtain ⟨w, clk, rfl, hw, haborts, hemit⟩ := of_aborted_mem (by rw [hmid]; simp : .aborted r ∈ emit p.1 a)
      rw [hemit] at hmid
      obtain ⟨_, _, rfl⟩ := singleton_eq_cons hmid
      have hquiet := Quiet.of_aborted h.wf cfg clk hw haborts (hmeets r hw haborts)
      have hq : q.1 = p.1.handle cfg w r clk := by simpa [Updater.step, hw] using hnext.symm
      rw [hq]
      exact ⟨hquiet, by simp⟩

theorem aborted_jobs_settled {s₀ : State} {l : List Action} {p : State × List Event} (h0 : Initial s₀)
    (hs : Run (recording (step cfg) emit) (fun p a => Meets p.1 a) (s₀, []) l p) : Honoured p ∧ Settled p := by
  have hrecorded : Recorded p := by
    refine Run.invariant hs ?_ fun _ _ _ h hmeets hs => h.step hmeets hs
    refine ⟨h0.loaded.wf, fun _ _ hmem => (List.not_mem_nil hmem).elim, ?_⟩
    intro pre r post hsplit
    simp at hsplit
  refine ⟨hrecorded.honoured, ?_⟩
  intro pre r post hsplit hnot
  obtain ⟨hquiet, hexecuted⟩ := hrecorded.settled pre r post hsplit hnot
  exact ⟨hquiet.failed, hexecuted⟩

theorem held_of_executing {p : Pc} (h : executing p = some r) : p.held = some r := by
  cases p with
  | processing x | starting x | running x _ => exact h
  | _ => cases h

/-- A job that is in one place at most is past the checks at no other task. -/
theorem alone_of_once (honce : s.work.AtMostOnce) (hw : s.workers w = .activating r) (v : Worker) :
    executing (s.workers v) ≠ some r := by
  intro hv
  have hheld : s.work.held w = some (s.id r) := by simp [State.work, hw, Pc.held]
  have hother : s.work.held v = some (s.id r) := by simp [State.work, held_of_executing hv]
  obtain rfl := honce.held hother hheld
  rw [hw] at hv
  cases hv

/-- One attempt at a job, which fails, and the end of the iteration. -/
def failedAttempt : List Action := [.getNowait 0, .reserve 0, .handle 0 (.at 10), .connect 0 true 10, .start 0,
  .finish 0 .failure, .deactivate 0]

/-- A job is added, fails four times and is given up. -/
def givenUp : List Action := .addJob "1" "dev" "reboot" none :: failedAttempt ++ failedAttempt ++ failedAttempt ++
  failedAttempt ++ [.getNowait 0, .reserve 0, .handle 0 (.at 10)]

/-- The state and the record after `givenUp`. -/
def settled : State × List Event := after (recording (step 0) emit)
  (fun p a => Unaided p.1 a ∧ restartless a = true) (blank.killOldJobs, []) givenUp

theorem settled_run : Run (recording (step 0) emit) (fun p a => Meets p.1 a) (blank.killOldJobs, []) givenUp
    settled := by
  have hrun : Run (recording (step 0) emit) (fun p a => Unaided p.1 a ∧ restartless a = true)
      (blank.killOldJobs, []) givenUp settled := .of_after (by decide +kernel)
  refine hrun.mono_of_invariant (I := fun p => Wf p.1 ∧ p.1.work.AtMostOnce)
    ⟨blank_initial.loaded.wf, blank_initial.loaded.atMostOnce⟩ ?_ ?_
  · intro p a q hinv hok hs
    exact (undoubled_of_restartless hok.1 hok.2).once hinv (step_some (recording_some hs).1)
  · intro p a hinv hok
    cases a with
    | handle w clk => exact fun r hw _ v => alone_of_once hinv.2 hw v
    | restart w now => cases hok.2
    | _ => trivial

theorem aborted_jobs_settled_given_up : Honoured settled ∧ Settled settled :=
  aborted_jobs_settled blank_initial settled_run

/-- The settings of a job to be redone when it fails. -/
def redoAfterError : Autocommand where
  redo := false
  algoValue := .int 0
  redoOnError := true

/-- The same job with `redo_on_error`, up to the end of `restart_job`. -/
def givenUpRedone : List Action :=
  let attempt := failedAttempt ++ [.release 0]
  .addJob "1" "dev" "reboot" (some redoAfterError) :: attempt ++ attempt ++ attempt ++ attempt ++
    [.getNowait 0, .reserve 0, .handle 0 (.at 10), .restart 0 10]

/-- It is back in the queue, and failed. -/
theorem redo_on_error_dropped : ¬ ∀ (cfg : Int) (s₀ : State) (l : List Action) (p : State × List Event),
    Initial s₀ → Run (recording (step cfg) emit) (fun p a => Unaided p.1 a) (s₀, []) l p →
    Honoured p ∧ Settled p := by
  intro h
  have hrun : Run (recording (step 0) emit) (fun p a => Unaided p.1 a) (blank.killOldJobs, []) givenUpRedone
      (after (recording (step 0) emit) (fun p a => Unaided p.1 a) (blank.killOldJobs, []) givenUpRedone) :=
    .of_after (by decide +kernel)
  have hhonoured := (h 0 _ _ _ blank_initial hrun).1
  exact absurd (hhonoured 0 false (by decide +kernel)) Bool.false_ne_true

end MapADroid.Updater.RedoOnError
