import MapADroid.Lib.Retries
import MapADroid.Updater.Entries

/- How often a job is tried.

   A job without auto command settings is put back into the queue to wait, with its counter
   one higher, or at its next sub job; `__handle_job` looks at the counter before it starts
   a sub job. So the attempts at a sub job are limited to four as long as the job is in one
   place at most: every restart finds it neither in the queue nor at a task
   (`retries_bounded`). Where a queued job is restarted, two tasks pass that look at once
   (`fifth_attempt`). -/
namespace MapADroid.Updater.Retries
open Lib Lib.Retries

/-- Where a job stands in its list of sub jobs. -/
def stand (e : GlobalJobLogEntry) : Stand := ⟨e.subJobIndex, e.counter⟩

/-- What an action in state `s` tells of the jobs, with `job_restart_notconnect` 0. A requeue is that of
`_process_update_queue` after `__handle_job`. -/
def emit (s : State) : Action → List (Ref × Occurrence)
  | .addJob _ _ jobName _ => if (s.availableJobs jobName).isSome then [(s.next, .entered)] else []
  | .restartJob _ id => ((s.log.get? id).map fun r => (r, Occurrence.entered)).toList
  | .handle w clk => match s.workers w with
    | .activating r =>
      let after := handleStart 0 clk (s.heap r)
      match after.2 with
      | .returned true => [(r, .processed)]
      | .returned false => [(r, .requeued (after.1.dueAfter clk.check) (stand after.1))]
      | _ => []
    | _ => []
  | .connect w connected now => match s.workers w with
    | .processing r =>
      if connected then [] else [(r, .requeued false (stand (handleConnect false now (s.heap r))))]
    | _ => []
  | .start w => match s.workers w with
    | .starting r => (r, .started (s.heap r).subJobIndex) ::
        if (s.heap r).subJobIndex < (s.heap r).subJobs.length then []
        else [(r, .requeued false (stand (handleOutcome (s.heap r) .exception)))]
    | _ => []
  | .finish w o => match s.workers w with
    | .running r _ =>
      if o = .success && (s.heap r).redo then []
      else [(r, .requeued false (stand (handleOutcome (s.heap r) o)))]
    | _ => []
  | .restart w now => match s.workers w with
    | .restarting r .redo => [(r, .requeued false (stand ((s.restart w r .redo now).heap r)))]
    | .restarting r _ => [(r, .processed)]
    | _ => []
  | _ => []

/-- No job without auto command settings is started more than four times at a sub job, or four times its
number of sub jobs, from `add_job` or a restart from the web interface until it is processed. -/
def RetriesBounded (p : State × List (Ref × Occurrence)) : Prop :=
  ∀ r < p.1.next, (p.1.heap r).autoCommandSettings = none →
    Retried 4 (p.1.heap r).subJobs.length (history r p.2)

/-- A restart finds a job without auto command settings neither in the queue nor at a task; one that
`__handle_job` awaits, for a job that has them, finds no other job under the id. -/
def Meets (s : State) : Action → Prop
  | .restartJob _ id => ∀ r, s.log.get? id = some r → (s.heap r).autoCommandSettings = none → s.places.Absent r
  | .restart w now => ∀ r, s.incoming (.restart w now) = some r → (s.heap r).autoCommandSettings ≠ none
  | _ => True

/-! ## The parts of `__handle_job` -/

variable {cfg : Int} {s s' : State} {a : Action} {r : Ref} {es : List Occurrence} {e : GlobalJobLogEntry}

theorem handleStart_stand (cfg : Int) (clk : Readings) (e : GlobalJobLogEntry) :
    stand (handleStart cfg clk e).1 = stand e := by
  unfold handleStart
  split
  · rfl
  split
  · rfl
  split
  · rfl
  split
  · split
    · split <;> rfl
    · split <;> rfl
  · split
    · rfl
    · rfl
    · next e' he =>
      obtain ⟨_, hindex, hcounter⟩ := schedule_same he
      have hstand : stand e' = stand e := by rw [stand, hindex, hcounter, stand]
      split <;> exact hstand

/-- A sub job is run only if there is one, and with a counter of three at most. -/
theorem handleStart_processing {clk : Readings} (h : (handleStart cfg clk e).2 = .processing) :
    e.subJobIndex < e.subJobs.length ∧ e.counter < 4 := by
  unfold handleStart at h
  split at h
  · cases h
  next hindex =>
  split at h
  · cases h
  split at h
  · cases h
  split at h
  · split at h
    · split at h <;> cases h
    · split at h <;> cases h
  · exact ⟨by omega, by omega⟩

/-- What becomes of a job without auto command settings in the first part of `__handle_job`. -/
theorem handleStart_plain (clk : Readings) (hauto : e.autoCommandSettings = none) :
    (handleStart 0 clk e).2 = .returned true ∨
      ((handleStart 0 clk e).2 = .returned false ∧ (handleStart 0 clk e).1.dueAfter clk.check = true) ∨
        (handleStart 0 clk e).2 = .processing := by
  have hredo : e.redoOnError = false := by simp [GlobalJobLogEntry.redoOnError, hauto]
  unfold handleStart
  split
  · exact .inl rfl
  split
  · exact .inl rfl
  split
  · exact .inl rfl
  split
  · left
    split
    · rw [if_neg (by simp [hredo])]
    · rw [if_neg (by simp)]
  · split
    · next err herr =>
      unfold schedule at herr
      split at herr
      · cases herr
      · simp [algoDate, hauto, Except.map] at herr
    · exact .inl rfl
    · next e' he =>
      split
      · next hdue => exact .inr (.inl ⟨rfl, hdue⟩)
      · exact .inr (.inr rfl)

/-! ## What a step does to one job -/

/-- A step that neither acts on a job nor brings it in tells nothing of it. -/
theorem step_other (hs : Step cfg s a s') (hr : r < s.next) (hacts : ¬ s.acts r a) (hincoming : s.incoming a ≠ some r) :
    history r (emit s a) = [] := by
  apply history_eq_nil
  have hne : ∀ {w x}, (s.workers w).held = some x → (s.acts r a ↔ (s.workers w).held = some r) → x ≠ r := by
    rintro w x hw hacting rfl
    exact hacts (hacting.mpr hw)
  cases hs with
  | addJob now origin jobName auto =>
    simp only [emit]
    split
    · simpa using (Nat.ne_of_lt hr).symm
    · simp
  | restartJob now id =>
    intro e he
    simp only [emit, Option.mem_toList, Option.map_eq_some_iff] at he
    obtain ⟨x, hx, rfl⟩ := he
    rintro rfl
    exact hincoming hx
  | @handle w x clk hw =>
    have hne := hne (w := w) (x := x) (by rw [hw]; rfl) Iff.rfl
    simp only [emit, hw]
    split <;> simp [hne]
  | @connect w x connected now hw =>
    have hne := hne (w := w) (x := x) (by rw [hw]; rfl) Iff.rfl
    simp only [emit, hw]
    split <;> simp [hne]
  | @start w x hw =>
    have hne := hne (w := w) (x := x) (by rw [hw]; rfl) Iff.rfl
    simp only [emit, hw]
    split <;> simp [hne]
  | @finish w x i o hw =>
    have hne := hne (w := w) (x := x) (by rw [hw]; rfl) Iff.rfl
    simp only [emit, hw]
    split <;> simp [hne]
  | @restart w x why now hw =>
    have hne := hne (w := w) (x := x) (by rw [hw]; rfl) Iff.rfl
    simp only [emit, hw]
    cases why <;> simp [hne]
  | _ => simp [emit]

/-- A task comes to run a sub job by starting it. -/
theorem step_running (hs : Step cfg s a s') {v : Worker} {i : Nat} (hv : s'.workers v = .running r i) :
    s.workers v = .running r i ∨ a = .start v ∧ s.workers v = .starting r := by
  rcases step_moves hs with hwork | ⟨w, p, q, hp, hwork, hmoves⟩
  · exact .inl (hwork ▸ hv)
  rw [hwork] at hv
  by_cases hvw : v = w
  · subst hvw
    rw [Function.update_self] at hv
    cases hmoves with
    | started x j =>
      obtain ⟨rfl, rfl⟩ := Pc.running.inj hv
      exact .inr ⟨rfl, hp⟩
    | _ => cases hv
  · rw [Function.update_of_ne hvw] at hv
    exact .inl hv

/-- A job without auto command settings is put back after its sub job. -/
theorem finish_plain (w : Worker) (o : Outcome) (hauto : (s.heap r).autoCommandSettings = none) :
    s.finish w r o = (s.setEntry r (handleOutcome (s.heap r) o)).leave w r true := by
  have hredo : ((s.setEntry r (handleOutcome (s.heap r) o)).heap r).redo = false := by
    rw [setEntry_heap_self, GlobalJobLogEntry.redo, (handleOutcome_same (s.heap r) o).auto, hauto]
    rfl
  simp only [State.finish, hredo, Bool.and_false, Bool.false_eq_true, if_false]

/-- `__handle_job` restarts jobs with auto command settings only. -/
theorem restarting_auto (hs : Step 0 s a s') {v : Worker} {why : Restarting} (hv : s'.workers v = .restarting r why) :
    s.workers v = .restarting r why ∨ (s.workers v).held = some r ∧ (s.heap r).autoCommandSettings ≠ none := by
  rcases step_restarting hs hv with hv | ⟨clk, hw, hnext⟩ | ⟨i, hw, hredo, _⟩
  · exact .inl hv
  · refine .inr ⟨by rw [hw]; rfl, fun hauto => ?_⟩
    rcases handleStart_plain clk hauto with h | ⟨h, _⟩ | h <;> rw [hnext] at h <;> cases h
  · refine .inr ⟨by rw [hw]; rfl, fun hauto => ?_⟩
    simp [GlobalJobLogEntry.redo, hauto] at hredo

/-! ## One job -/

/-- A sub job may be started. -/
def startable (e : GlobalJobLogEntry) : Prop := e.subJobIndex < e.subJobs.length ∧ e.counter < 4

/-- The events of a job without auto command settings agree with its entry and with what the tasks do. -/
structure Kept (s : State) (r : Ref) (es : List Occurrence) : Prop where
  once : s.places.Once r
  absent : es = [] → s.places.Absent r
  idle : es ≠ [] → (∀ w i, s.workers w ≠ .running r i) → Ledger 4 (s.heap r).subJobs.length (stand (s.heap r)) 0 es
  running : ∀ w i, s.workers w = .running r i → Ledger 4 (s.heap r).subJobs.length (stand (s.heap r)) 1 es
  executing : ∀ w, RedoOnError.executing (s.workers w) = some r → startable (s.heap r)

/-- What comes in is nowhere, and is restarted from the web interface. -/
theorem incoming_absent (hr : r < s.next) (hauto : (s.heap r).autoCommandSettings = none) (hmeets : Meets s a)
    (hincoming : s.incoming a = some r) :
    s.places.Absent r ∧ ∃ now id, a = .restartJob now id ∧ s.log.get? id = some r := by
  cases a with
  | addJob now origin jobName auto =>
    obtain ⟨_, _, rfl⟩ := Option.map_eq_some_iff.mp hincoming
    exact absurd hr (Nat.lt_irrefl _)
  | restartJob now id => exact ⟨hmeets r hincoming hauto, now, id, rfl, hincoming⟩
  | restart w now => exact absurd hauto (hmeets r hincoming)
  | _ => cases hincoming

theorem entered_once (h : s.places.Once r) (habsent : s.incoming a = some r → s.places.Absent r) :
    (s.entered a).Once r := by
  unfold State.entered
  cases hincoming : s.incoming a with
  | none => exact h
  | some x =>
    by_cases hx : x = r
    · subst hx
      exact (habsent hincoming).enqueue_once
    · exact h.enqueue_of_ne hx

/-- The task that had a job has put it back: no task runs it, or is past the checks with it. -/
theorem left_idle {w : Worker} {requeue : Bool} (honly : ∀ v, (s.workers v).held = some r → v = w)
    (hwork : s'.workers = Function.update s.workers w (.finishing r requeue)) (v : Worker) :
    RedoOnError.executing (s'.workers v) ≠ some r ∧ ∀ i, s'.workers v ≠ .running r i := by
  have hheld : (s'.workers v).held ≠ some r := by
    rw [hwork]
    by_cases hv : v = w
    · subst hv
      rw [Function.update_self]
      intro h
      cases h
    · rw [Function.update_of_ne hv]
      exact fun h => hv (honly v h)
  refine ⟨fun h => hheld (RedoOnError.held_of_executing h), fun i h => hheld ?_⟩
  rw [h]
  rfl

namespace Kept

/-- A step of others. -/
theorem other (h : Kept s r es) (hs : Step 0 s a s') (hr : r < s.next) (hacts : ¬ s.acts r a)
    (hincoming : s.incoming a ≠ some r) : Kept s' r (es ++ history r (emit s a)) := by
  have hhistory := step_other hs hr hacts hincoming
  have hheap := step_heap_other hs hr hacts hincoming
  have hrunning : ∀ v i, s'.workers v = .running r i ↔ s.workers v = .running r i := by
    intro v i
    constructor
    · intro hv
      rcases step_running hs hv with hv | ⟨rfl, hv⟩
      · exact hv
      · exact absurd (by simp [State.acts, hv, Pc.held]) hacts
    · intro hv
      rcases step_ran hs hv with hv' | ⟨o, rfl⟩
      · exact hv'
      · exact absurd (by simp [State.acts, hv, Pc.held]) hacts
  rw [hhistory, List.append_nil]
  refine ⟨(step_places hs).once (entered_once h.once fun h => absurd h hincoming), ?_, ?_, ?_, ?_⟩
  · intro hes
    exact step_absent hs (h.absent hes) hincoming
  · intro hes hidle
    rw [hheap]
    exact h.idle hes fun w i hw => hidle w i ((hrunning w i).mpr hw)
  · intro w i hw
    rw [hheap]
    exact h.running w i ((hrunning w i).mp hw)
  · intro w hw
    rw [hheap]
    rcases RedoOnError.step_executing hs hw with hw | ⟨clk, _, _, hprocessing⟩
    · exact h.executing w hw
    · exact handleStart_processing hprocessing

/-- A restart from the web interface. -/
theorem entered (h : Kept s r es) {now : ℚ} {id : String} (hlog : s.log.get? id = some r) (habsent : s.places.Absent r) :
    Kept (s.restartJob now id) r (es ++ history r (emit s (.restartJob now id))) := by
  have hs : Step 0 s (.restartJob now id) (s.restartJob now id) := .restartJob now id
  have hwork := (restartJob_frame s now id).2
  have hheap : (s.restartJob now id).heap r = (s.heap r).restart now := by rw [restartJob_heap, if_pos hlog]
  have hidle : ∀ w, (s.workers w).held ≠ some r := habsent.2
  have hhistory : history r (emit s (.restartJob now id)) = [.entered] := by
    simp only [emit, hlog, Option.map_some, Option.toList_some, history_single, if_true]
  rw [hhistory]
  refine ⟨(step_places hs).once (entered_once h.once fun _ => habsent), by simp, ?_, ?_, ?_⟩
  · intro _ _
    rw [hheap]
    show Ledger 4 (s.heap r).subJobs.length ⟨0, 0⟩ 0 _
    by_cases hes : es = []
    · subst hes
      exact .first 4 _
    · exact (h.idle hes fun w i hw => hidle w (by rw [hw]; rfl)).enter
  · intro w i hw
    rw [hwork] at hw
    exact absurd (by rw [hw]; rfl) (hidle w)
  · intro w hw
    rw [hwork] at hw
    exact absurd (RedoOnError.held_of_executing hw) (hidle w)

section
variable {w : Worker}

/-- The task is the only one that has the job, and the job has come in. -/
theorem alone (h : Kept s r es) (hw : (s.workers w).held = some r) :
    es ≠ [] ∧ ∀ v, (s.workers v).held = some r → v = w :=
  ⟨fun hes => (h.absent hes).2 w hw, fun _ hv => h.once.held hv hw⟩

/-- What a step of the task that has the job has to show, where it puts the job back. -/
theorem left (h : Kept s r es) (hs : Step 0 s a s') (hw : (s.workers w).held = some r) (requeue : Bool)
    (hincoming : s.incoming a ≠ some r)
    (hwork : s'.workers = Function.update s.workers w (.finishing r requeue)) {fs : List Occurrence}
    (hledger : Ledger 4 (s'.heap r).subJobs.length (stand (s'.heap r)) 0 (es ++ fs)) : Kept s' r (es ++ fs) := by
  have hleft := left_idle (h.alone hw).2 hwork
  refine ⟨(step_places hs).once (entered_once h.once fun h => absurd h hincoming), ?_, fun _ _ => hledger, ?_, ?_⟩
  · intro hes
    exact absurd (List.append_eq_nil_iff.mp hes).1 (h.alone hw).1
  · intro v i hv
    exact absurd hv ((hleft v).2 i)
  · intro v hv
    exact absurd hv (hleft v).1

theorem handle (h : Kept s r es) {clk : Readings} (hw : s.workers w = .activating r)
    (hauto : (s.heap r).autoCommandSettings = none) :
    Kept (s.handle 0 w r clk) r (es ++ history r (emit s (.handle w clk))) := by
  have hs : Step 0 s (.handle w clk) (s.handle 0 w r clk) := .handle clk hw
  have hheld : (s.workers w).held = some r := by rw [hw]; rfl
  have hheap : (s.handle 0 w r clk).heap r = (handleStart 0 clk (s.heap r)).1 := by
    rw [step_heap hs]
    exact if_pos hheld
  have hsubJobs : ((s.handle 0 w r clk).heap r).subJobs = (s.heap r).subJobs := by
    rw [hheap]
    exact (handleStart_same 0 clk (s.heap r)).1.subJobs
  have hstand : stand ((s.handle 0 w r clk).heap r) = stand (s.heap r) := by rw [hheap, handleStart_stand]
  have hidle : ∀ v i, s.workers v ≠ .running r i := by
    intro v i hv
    obtain rfl := (h.alone hheld).2 v (by rw [hv]; rfl)
    rw [hw] at hv
    cases hv
  have hledger := h.idle (h.alone hheld).1 hidle
  rw [← hsubJobs, ← hstand] at hledger
  rcases handleStart_plain clk hauto with hnext | ⟨hnext, hdue⟩ | hnext
  · have hhistory : history r (emit s (.handle w clk)) = [.processed] := by
      simp only [emit, hw, hnext, history_single, if_true]
    rw [hhistory]
    refine h.left hs hheld false (fun h => by cases h) ?_ (hledger.snoc rfl (hledger.spent.pass (.inr rfl)))
    simp only [State.handle, hnext]
    exact leave_workers _ _ _ _
  · have hhistory : history r (emit s (.handle w clk)) = [.requeued true (stand ((s.handle 0 w r clk).heap r))] := by
      simp only [emit, hw, hnext, hdue, history_single, if_true, hheap]
    rw [hhistory]
    refine h.left hs hheld true (fun h => by cases h) ?_ (hledger.snoc rfl (hledger.spent.pass (.inl rfl)))
    simp only [State.handle, hnext]
    exact leave_workers _ _ _ _
  · have hhistory : history r (emit s (.handle w clk)) = [] := by
      simp only [emit, hw, hnext]
      rfl
    rw [hhistory, List.append_nil]
    refine ⟨(step_places hs).once (entered_once h.once fun h => by cases h), fun hes => absurd hes (h.alone hheld).1,
      fun _ _ => hledger, ?_, ?_⟩
    · intro v i hv
      rcases step_running hs hv with hv | ⟨ha, _⟩
      · exact absurd hv (hidle v i)
      · cases ha
    · intro v _
      obtain ⟨hindex, hcounter⟩ := handleStart_processing hnext
      refine ⟨?_, ?_⟩
      · rw [hsubJobs]
        exact (congrArg Stand.stage hstand).trans_lt hindex
      · exact (congrArg Stand.counter hstand).trans_lt hcounter

theorem connect (h : Kept s r es) {connected : Bool} {now : ℚ} (hw : s.workers w = .processing r) :
    Kept (s.connect w r connected now) r (es ++ history r (emit s (.connect w connected now))) := by
  have hs : Step 0 s (.connect w connected now) (s.connect w r connected now) := .connect connected now hw
  have hheld : (s.workers w).held = some r := by rw [hw]; rfl
  have hstartable : startable (s.heap r) := h.executing w (by rw [hw]; rfl)
  have hheap : (s.connect w r connected now).heap r = handleConnect connected now (s.heap r) := by
    rw [step_heap hs]
    exact if_pos hheld
  have hidle : ∀ v i, s.workers v ≠ .running r i := by
    intro v i hv
    obtain rfl := (h.alone hheld).2 v (by rw [hv]; rfl)
    rw [hw] at hv
    cases hv
  have hledger := h.idle (h.alone hheld).1 hidle
  cases connected with
  | true =>
    have hhistory : history r (emit s (.connect w true now)) = [] := by
      simp only [emit, hw, if_true]
      rfl
    rw [hhistory, List.append_nil]
    refine ⟨(step_places hs).once (entered_once h.once fun h => by cases h),
      fun hes => absurd hes (h.alone hheld).1, ?_, ?_, ?_⟩
    · intro _ _
      rw [hheap]
      exact hledger
    · intro v i hv
      rcases step_running hs hv with hv | ⟨ha, _⟩
      · exact absurd hv (hidle v i)
      · cases ha
    · intro v _
      rw [hheap]
      exact hstartable
  | false =>
    have hhistory : history r (emit s (.connect w false now)) =
        [.requeued false (stand (handleConnect false now (s.heap r)))] := by
      simp only [emit, hw, Bool.false_eq_true, if_false, history_single, if_true]
    rw [hhistory]
    refine h.left hs hheld true (fun h => by cases h) ?_ ?_
    · simp only [State.connect, Bool.false_eq_true, if_false]
      exact leave_workers_of (updateLog_workers s r) w r true
    · rw [hheap]
      exact hledger.snoc rfl (hledger.spent.fail (Nat.zero_le 1) hstartable.1 hstartable.2)

theorem start (h : Kept s r es) (hw : s.workers w = .starting r) :
    Kept (s.start w r) r (es ++ history r (emit s (.start w))) := by
  have hs : Step 0 s (.start w) (s.start w r) := .start hw
  have hheld : (s.workers w).held = some r := by rw [hw]; rfl
  have hstartable : startable (s.heap r) := h.executing w (by rw [hw]; rfl)
  have hheap : (s.start w r).heap r = s.heap r := by
    rw [step_heap hs]
    exact if_neg fun h => absurd hstartable.1 (Nat.not_lt.mpr h.2)
  have hidle : ∀ v i, s.workers v ≠ .running r i := by
    intro v i hv
    obtain rfl := (h.alone hheld).2 v (by rw [hv]; rfl)
    rw [hw] at hv
    cases hv
  have hledger := h.idle (h.alone hheld).1 hidle
  have hhistory : history r (emit s (.start w)) = [.started (stand (s.heap r)).stage] := by
    simp only [emit, hw, hstartable.1, if_true, history_single]
    rfl
  have hrunning : (s.start w r).workers w = .running r (s.heap r).subJobIndex := by
    simp only [State.start, updateLog_heap, hstartable.1, if_true]
    exact Function.update_self _ _ _
  rw [hhistory]
  refine ⟨(step_places hs).once (entered_once h.once fun h => by cases h), by simp, ?_, ?_, ?_⟩
  · intro _ hnone
    exact absurd hrunning (hnone w _)
  · intro v i _
    rw [hheap]
    exact hledger.snoc rfl (hledger.spent.start hstartable.1 hstartable.2)
  · intro v _
    rw [hheap]
    exact hstartable

theorem finish (h : Kept s r es) {o : Outcome} {i : Nat} (hw : s.workers w = .running r i)
    (hauto : (s.heap r).autoCommandSettings = none) :
    Kept (s.finish w r o) r (es ++ history r (emit s (.finish w o))) := by
  have hs : Step 0 s (.finish w o) (s.finish w r o) := .finish o hw
  have hheld : (s.workers w).held = some r := by rw [hw]; rfl
  have hstartable : startable (s.heap r) := h.executing w (by rw [hw]; rfl)
  have hheap : (s.finish w r o).heap r = handleOutcome (s.heap r) o := by
    rw [step_heap hs]
    exact if_pos hheld
  have hledger := h.running w i hw
  have hredo : (s.heap r).redo = false := by simp [GlobalJobLogEntry.redo, hauto]
  have hhistory : history r (emit s (.finish w o)) = [.requeued false (stand (handleOutcome (s.heap r) o))] := by
    simp only [emit, hw, hredo, Bool.and_false, Bool.false_eq_true, if_false, history_single, if_true]
  rw [hhistory]
  refine h.left hs hheld true (fun h => by cases h) ?_ ?_
  · rw [finish_plain w o hauto, leave_workers]
    rfl
  · rw [hheap, (handleOutcome_same (s.heap r) o).subJobs]
    cases o with
    | success => exact hledger.snoc rfl (hledger.spent.advance hstartable.1 hstartable.2 (show 0 + 1 ≤ 4 by decide))
    | failure => exact hledger.snoc rfl (hledger.spent.fail (Nat.le_refl 1) hstartable.1 hstartable.2)
    | exception => exact hledger.snoc rfl (hledger.spent.fail (Nat.le_refl 1) hstartable.1 hstartable.2)

end

theorem retried (h : Kept s r es) : Retried 4 (s.heap r).subJobs.length es := by
  by_cases hes : es = []
  · subst hes
    intro pre seg post hsplit
    simp at hsplit
  by_cases hidle : ∀ w i, s.workers w ≠ .running r i
  · exact (h.idle hes hidle).retried
  · simp only [not_forall, not_not] at hidle
    obtain ⟨w, i, hw⟩ := hidle
    exact (h.running w i hw).retried

/-- Every step that meets the condition. -/
theorem step (h : Kept s r es) (hr : r < s.next) (hauto : (s.heap r).autoCommandSettings = none)
    (hrestarting : ∀ w why, s.workers w ≠ .restarting r why) (hmeets : Meets s a) (hs : Step 0 s a s') :
    Kept s' r (es ++ history r (emit s a)) := by
  by_cases hincoming : s.incoming a = some r
  · obtain ⟨habsent, now, id, rfl, hlog⟩ := incoming_absent hr hauto hmeets hincoming
    cases hs
    exact h.entered hlog habsent
  by_cases hacts : s.acts r a
  · cases hs with
    | @handle w x clk hw =>
      obtain rfl : x = r := by simpa [State.acts, hw, Pc.held] using hacts
      exact h.handle hw hauto
    | @connect w x connected now hw =>
      obtain rfl : x = r := by simpa [State.acts, hw, Pc.held] using hacts
      exact h.connect hw
    | @start w x hw =>
      obtain rfl : x = r := by simpa [State.acts, hw, Pc.held] using hacts
      exact h.start hw
    | @finish w x i o hw =>
      obtain rfl : x = r := by simpa [State.acts, hw, Pc.held] using hacts
      exact h.finish hw hauto
    | @restart w x why now hw =>
      obtain rfl : x = r := by simpa [State.acts, hw, Pc.held] using hacts
      exact absurd hw (hrestarting w why)
    | _ => exact hacts.elim
  · exact h.other hs hr hacts hincoming

end Kept

/-! ## The record -/

/-- The state and the record of what happened so far. -/
structure Recorded (p : State × List (Ref × Occurrence)) : Prop where
  wf : Wf p.1
  known : ∀ e ∈ p.2, e.1 < p.1.next
  restarting : ∀ w r why, p.1.workers w = .restarting r why → (p.1.heap r).autoCommandSettings ≠ none
  kept : ∀ r < p.1.next, (p.1.heap r).autoCommandSettings = none → Kept p.1 r (history r p.2)

/-- What a step tells is told of jobs that are in use after it. -/
theorem emit_lt (h : Wf s) (hs : Step cfg s a s') {e : Ref × Occurrence} (he : e ∈ emit s a) : e.1 < s'.next := by
  have hle := next_le hs
  have hentry : ∀ {w x p}, s.workers w = p → p.entry = some x → x < s'.next :=
    fun hw hp => Nat.lt_of_lt_of_le (h.workers (hw.symm ▸ hp)) hle
  cases hs with
  | addJob now origin jobName auto =>
    simp only [emit] at he
    cases hjobs : s.availableJobs jobName with
    | none => simp [hjobs] at he
    | some jobs =>
      have hnext : (s.addJob now origin jobName auto).next = s.next + 1 := by
        simp only [State.addJob, hjobs]
        exact updateLog_next _ _
      obtain rfl : e = (s.next, .entered) := by simpa [hjobs] using he
      rw [hnext]
      exact Nat.lt_succ_self _
  | restartJob now id =>
    simp only [emit, Option.mem_toList, Option.map_eq_some_iff] at he
    obtain ⟨x, hx, rfl⟩ := he
    exact Nat.lt_of_lt_of_le (h.log hx).1 hle
  | @handle w x clk hw =>
    obtain rfl : e.1 = x := by
      simp only [emit, hw] at he
      split at he <;> simp_all
    exact hentry hw rfl
  | @connect w x connected now hw =>
    obtain rfl : e.1 = x := by
      simp only [emit, hw] at he
      split at he <;> simp_all
    exact hentry hw rfl
  | @start w x hw =>
    obtain rfl : e.1 = x := by
      simp only [emit, hw, List.mem_cons] at he
      split at he <;> rcases he with rfl | he <;> simp_all
    exact hentry hw rfl
  | @finish w x i o hw =>
    obtain rfl : e.1 = x := by
      simp only [emit, hw] at he
      split at he <;> simp_all
    exact hentry hw rfl
  | @restart w x why now hw =>
    obtain rfl : e.1 = x := by
      simp only [emit, hw] at he
      cases why <;> simp_all
    exact hentry hw rfl
  | _ => cases he

/-- The entry that `add_job` makes. -/
theorem Kept.new (h : Wf s) {now origin jobName : String} {auto : Option Autocommand}
    (hnext : (s.addJob now origin jobName auto).next = s.next + 1) :
    Kept (s.addJob now origin jobName auto) s.next (history s.next (emit s (.addJob now origin jobName auto))) := by
  have hs : Step 0 s (.addJob now origin jobName auto) (s.addJob now origin jobName auto) := .addJob now origin jobName auto
  cases hjobs : s.availableJobs jobName with
  | none =>
    simp only [State.addJob, hjobs] at hnext
    exact absurd hnext (Nat.ne_of_lt (Nat.lt_succ_self _))
  | some jobs =>
    have habsent : s.places.Absent s.next :=
      ⟨fun hmem => Nat.lt_irrefl _ (h.queue hmem), fun w hw => Nat.lt_irrefl _ (h.workers (Pc.entry_of_held hw))⟩
    have hheap : (s.addJob now origin jobName auto).heap s.next = State.newEntry now origin jobName jobs auto := by
      rw [step_heap hs]
      simp only [State.changed, hjobs, if_true]
    have hwork : (s.addJob now origin jobName auto).workers = s.workers := by
      simp only [State.addJob, hjobs, updateLog_workers]
      rfl
    have hhistory : history s.next (emit s (.addJob now origin jobName auto)) = [.entered] := by
      simp only [emit, hjobs, Option.isSome_some, if_true, history_single]
    rw [hhistory]
    refine ⟨(step_places hs).once (entered_once habsent.once fun _ => habsent), by simp, ?_, ?_, ?_⟩
    · intro _ _
      rw [hheap]
      exact .first 4 _
    · intro w i hw
      rw [hwork] at hw
      exact absurd (show (s.workers w).held = some s.next by rw [hw]; rfl) (habsent.2 w)
    · intro w hw
      rw [hwork] at hw
      exact absurd (RedoOnError.held_of_executing hw) (habsent.2 w)

theorem Recorded.step {p q : State × List (Ref × Occurrence)} (h : Recorded p) (hmeets : Meets p.1 a)
    (hs : recording (step 0) emit p a = some q) : Recorded q := by
  obtain ⟨hnext, hes⟩ := recording_some hs
  have hstep := step_some hnext
  have hsame : ∀ {r}, r < p.1.next → (q.1.heap r).autoCommandSettings = (p.1.heap r).autoCommandSettings :=
    fun hr => (step_same hstep hr).auto
  refine ⟨h.wf.step hstep, ?_, ?_, ?_⟩
  · intro e he
    rw [hes, List.mem_append] at he
    rcases he with he | he
    · exact Nat.lt_of_lt_of_le (h.known e he) (next_le hstep)
    · exact emit_lt h.wf hstep he
  · intro w r why hw
    rcases restarting_auto hstep hw with hw | ⟨hw, hauto⟩
    · rw [hsame (h.wf.workers (by rw [hw]; rfl))]
      exact h.restarting w r why hw
    · rw [hsame (h.wf.workers (Pc.entry_of_held hw))]
      exact hauto
  · intro r hr hauto
    rw [hes, history_append]
    by_cases hold : r < p.1.next
    · rw [hsame hold] at hauto
      exact (h.kept r hold hauto).step hold hauto (fun w why hw => h.restarting w r why hw hauto) hmeets hstep
    · rcases RedoOnError.step_next hstep with hnext' | ⟨now, origin, jobName, auto, rfl, hnext', _⟩
      · rw [hnext'] at hr
        exact absurd hr hold
      · obtain rfl : r = p.1.next := by
          rw [hnext'] at hr
          exact Nat.le_antisymm (Nat.lt_succ_iff.mp hr) (Nat.not_lt.mp hold)
        have hnone : history p.1.next p.2 = [] := history_eq_nil fun e he => Nat.ne_of_lt (h.known e he)
        have hq : q.1 = p.1.addJob now origin jobName auto := by simpa [Updater.step] using hnext.symm
        rw [hq] at hnext'
        rw [hq, hnone, List.nil_append]
        exact .new h.wf hnext'

theorem retries_bounded {s₀ : State} {l : List Action} {p : State × List (Ref × Occurrence)} (h0 : Initial s₀)
    (hs : Run (recording (step 0) emit) (fun p a => Meets p.1 a) (s₀, []) l p) : RetriesBounded p := by
  have hidle : ∀ w, s₀.workers w = .idle := h0.loaded.workers
  have hrecorded : Recorded p := by
    refine Run.invariant hs ?_ fun _ _ _ h hmeets hs => h.step hmeets hs
    refine ⟨h0.loaded.wf, fun _ he => (List.not_mem_nil he).elim, fun w r why hw => ?_, fun r _ _ => ?_⟩
    · rw [hidle] at hw
      cases hw
    · have habsent := h0.loaded.absent r
      refine ⟨habsent.once, fun _ => habsent, fun hne => absurd rfl hne, fun w i hw => ?_, fun w hw => ?_⟩
      · rw [hidle] at hw
        cases hw
      · rw [hidle] at hw
        cases hw
  intro r hr hauto
  exact (hrecorded.kept r hr hauto).retried

/-- Nothing is restarted. -/
def restartless : Action → Bool
  | .restartJob _ _ | .restart _ _ => false
  | _ => true

theorem meets_of_restartless (ha : restartless a = true) : Meets s a := by
  cases a with
  | restartJob now id => cases ha
  | restart w now => cases ha
  | _ => trivial

/-- The state and the record after a job has failed four times and is done with. -/
def failed : State × List (Ref × Occurrence) :=
  after (recording (step 0) emit) (fun _ a => restartless a = true) (blank.killOldJobs, [])
    (RedoOnError.givenUp ++ [.deactivate 0, .release 0])

/-- It is restarted from the web interface. -/
def restarted : State × List (Ref × Occurrence) :=
  after (recording (step 0) emit) Any failed [.restartJob 20 "1_dev_reboot"]

/-- Its first attempt after that fails. -/
def failedAgain : State × List (Ref × Occurrence) :=
  after (recording (step 0) emit) (fun _ a => restartless a = true) restarted RedoOnError.failedAttempt

theorem failed_meets : Meets failed.1 (.restartJob 20 "1_dev_reboot") := by
  intro r hr _
  obtain rfl : 0 = r := by
    rw [show failed.1.log.get? "1_dev_reboot" = some 0 by decide +kernel] at hr
    exact Option.some.inj hr
  refine ⟨by decide +kernel, ?_⟩
  intro w hw
  match w with
  | 0 => exact absurd hw (by decide +kernel)
  | w + 1 => cases hw

theorem failedAgain_run : Run (recording (step 0) emit) (fun p a => Meets p.1 a) (blank.killOldJobs, [])
    (RedoOnError.givenUp ++ [.deactivate 0, .release 0] ++ [.restartJob 20 "1_dev_reboot"] ++ RedoOnError.failedAttempt)
    failedAgain := by
  have hmeets : ∀ p a, restartless a = true → Meets (Prod.fst (β := List (Ref × Occurrence)) p) a :=
    fun _ _ => meets_of_restartless
  have hfailed : Run (recording (step 0) emit) (fun _ a => restartless a = true) (blank.killOldJobs, [])
      (RedoOnError.givenUp ++ [.deactivate 0, .release 0]) failed := .of_after (by decide +kernel)
  have hagain : Run (recording (step 0) emit) (fun _ a => restartless a = true) restarted RedoOnError.failedAttempt
      failedAgain := .of_after (by decide +kernel)
  refine .append (.snoc (hfailed.mono hmeets) failed_meets ?_) (hagain.mono hmeets)
  exact step_after trivial (by decide +kernel)

theorem retries_bounded_failedAgain : RetriesBounded failedAgain := retries_bounded blank_initial failedAgain_run

/-- Two tasks take the job and start its sub job. -/
def startedByTwo : List Action := [.getNowait 0, .reserve 0, .getNowait 1, .reserve 1, .handle 0 (.at 10), .handle 1 (.at 10),
  .connect 0 true 10, .connect 1 true 10, .start 0, .start 1]

/-- A job that is in the queue twice, once by a restart, fails three times; then two tasks take it. -/
def takenTwice : List Action := .addJob "1" "dev" "reboot" none :: .restartJob 5 "1_dev_reboot" ::
  (RedoOnError.failedAttempt ++ RedoOnError.failedAttempt ++ RedoOnError.failedAttempt ++ startedByTwo)

/-- Its first sub job is started five times. -/
theorem fifth_attempt : ¬ ∀ (s₀ : State) (l : List Action) (p : State × List (Ref × Occurrence)), Initial s₀ →
    Run (recording (step 0) emit) Any (s₀, []) l p → RetriesBounded p := by
  intro h
  have hrun : Run (recording (step 0) emit) Any (blank.killOldJobs, []) takenTwice
      (after (recording (step 0) emit) Any (blank.killOldJobs, []) takenTwice) := .of_after (by decide +kernel)
  have hretried := h _ _ _ blank_initial hrun 0 (by decide +kernel) (by decide +kernel)
  have hbounded := hretried [.entered]
    ((history 0 (after (recording (step 0) emit) Any (blank.killOldJobs, []) takenTwice).2).drop 2) []
    (by decide +kernel) (by decide +kernel) (by decide +kernel)
  exact absurd (hbounded.each 0) (by decide +kernel)

end MapADroid.Updater.Retries
