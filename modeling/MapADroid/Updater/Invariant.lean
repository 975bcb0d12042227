import MapADroid.Lib.Workers
import MapADroid.Updater.Queue

/- What every step of the updater keeps: references stay allocated, a job keeps its
   name, the log has every entry under the entry's own id (`Wf`). With it the state is
   seen as a queue with workers (`State.work`, jobs by id) and as the reservations of
   devices (`State.table`, jobs by id and device). -/
namespace MapADroid.Updater
open Lib

/-! ## The entry a worker has -/

namespace Pc

/-- The entry the task has a reference to. -/
def entry : Pc → Option Ref
  | idle => none
  | locking r => some r
  | activating r => some r
  | processing r => some r
  | starting r => some r
  | running r _ => some r
  | restarting r _ => some r
  | finishing r _ => some r
  | releasing r => some r
  | dead _ => none

/-- The entry being processed: taken from the queue, and neither put back nor done with. -/
def held : Pc → Option Ref
  | locking r => some r
  | activating r => some r
  | processing r => some r
  | starting r => some r
  | running r _ => some r
  | restarting r _ => some r
  | _ => none

/-- The entry in `__handle_job`. -/
def handling : Pc → Option Ref
  | activating r => some r
  | processing r => some r
  | starting r => some r
  | running r _ => some r
  | restarting r _ => some r
  | _ => none

/-- The entry of an iteration that is past the look at the reservations. -/
def owner : Pc → Option Ref
  | finishing r _ => some r
  | releasing r => some r
  | p => p.handling

/-- No exception has left the task. -/
def alive : Pc → Bool
  | dead _ => false
  | _ => true

theorem owner_of_handling {p : Pc} {r : Ref} (h : p.handling = some r) : p.owner = some r := by
  cases p <;> first | exact h | cases h

theorem entry_of_owner {p : Pc} {r : Ref} (h : p.owner = some r) : p.entry = some r := by
  cases p <;> first | exact h | cases h

theorem entry_of_held {p : Pc} {r : Ref} (h : p.held = some r) : p.entry = some r := by
  cases p <;> first | exact h | cases h

end Pc

/-! ## Well-formed states -/

/-- References are allocated, and dictionaries have entries under their own names. -/
structure Wf (s : State) : Prop where
  queue : ∀ {r}, r ∈ s.jobQueue → r < s.next
  log : ∀ {i r}, s.log.get? i = some r → r < s.next ∧ s.id r = i
  running : ∀ {o r}, s.runningJobsPerOrigin.get? o = some r → r < s.next ∧ s.origin r = o
  workers : ∀ {w r}, (s.workers w).entry = some r → r < s.next

/-- The state `start_updater` begins in: a log, and nothing to do. -/
structure Loaded (s : State) : Prop where
  queue : s.jobQueue = []
  log : ∀ {i r}, s.log.get? i = some r → r < s.next ∧ s.id r = i
  running : s.runningJobsPerOrigin = .empty
  workers : ∀ w, s.workers w = .idle

/-- The state the tasks of `start_updater` and the first `add_job` find; every entry
there is was in the log. -/
def Initial (s : State) : Prop :=
  ∃ s₀, Loaded s₀ ∧ (∀ r, r < s₀.next → s₀.log.get? (s₀.id r) = some r) ∧ s = s₀.killOldJobs

theorem killOldJobs_same (s : State) (r : Ref) : SameJob (s.heap r) (s.killOldJobs.heap r) := by
  simp only [State.killOldJobs]
  split
  · exact ⟨rfl, rfl, rfl, rfl⟩
  · exact .refl _

theorem Initial.loaded {s : State} (h : Initial s) : Loaded s := by
  obtain ⟨s₀, h₀, _, rfl⟩ := h
  refine ⟨h₀.queue, ?_, h₀.running, h₀.workers⟩
  intro i r hr
  have hlog : s₀.log.get? i = some r := by
    simp only [State.killOldJobs, Dict.get?_filter, Option.filter_eq_some_iff] at hr
    exact hr.1
  obtain ⟨hlt, hid⟩ := h₀.log hlog
  exact ⟨hlt, (killOldJobs_same s₀ r).id.trans hid⟩

theorem Initial.ids {s : State} (h : Initial s) {x y : Ref} (hx : x < s.next) (hy : y < s.next)
    (hid : s.id x = s.id y) : x = y := by
  obtain ⟨s₀, _, hlog, rfl⟩ := h
  have hsame : ∀ r, s₀.killOldJobs.id r = s₀.id r := fun r => (killOldJobs_same s₀ r).id
  rw [hsame, hsame] at hid
  have hlogx := hlog x hx
  rw [hid, hlog y hy, Option.some.injEq] at hlogx
  exact hlogx.symm

theorem Loaded.wf {s : State} (h : Loaded s) : Wf s where
  queue := by rw [h.queue]; intro r hr; cases hr
  log := h.log
  running := by rw [h.running]; intro o r hr; cases hr
  workers := by intro w r hr; rw [h.workers] at hr; cases hr

namespace Wf

variable {s : State} {r : Ref} {w : Worker}

theorem setPc (h : Wf s) {p : Pc} (hp : ∀ r, p.entry = some r → r < s.next) :
    Wf (s.setPc w p) where
  queue := h.queue
  log := h.log
  running := h.running
  workers := by
    intro v x hx
    by_cases hv : v = w
    · subst hv
      simp only [State.setPc, Function.update_self] at hx
      exact hp x hx
    · simp only [State.setPc, Function.update_of_ne hv] at hx
      exact h.workers hx

theorem put (h : Wf s) (hr : r < s.next) : Wf (s.put r) where
  queue := by
    intro x hx
    rcases List.mem_append.mp hx with hx | hx
    · exact h.queue hx
    · rw [List.mem_singleton] at hx; exact hx ▸ hr
  log := h.log
  running := h.running
  workers := h.workers

end Wf

theorem setEntry_id {s : State} {r : Ref} {e : GlobalJobLogEntry} (he : SameJob (s.heap r) e) :
    (s.setEntry r e).id = s.id := by
  funext x
  by_cases hx : x = r
  · subst hx; simp [State.id, State.setEntry, he.id]
  · simp [State.id, State.setEntry, Function.update_of_ne hx]

theorem setEntry_origin {s : State} {r : Ref} {e : GlobalJobLogEntry}
    (he : SameJob (s.heap r) e) : (s.setEntry r e).origin = s.origin := by
  funext x
  by_cases hx : x = r
  · subst hx; simp [State.origin, State.setEntry, he.origin]
  · simp [State.origin, State.setEntry, Function.update_of_ne hx]

@[simp] theorem updateLog_heap (s : State) (r : Ref) : (s.updateLog r).heap = s.heap := by
  unfold State.updateLog; split <;> rfl

@[simp] theorem updateLog_next (s : State) (r : Ref) : (s.updateLog r).next = s.next := by
  unfold State.updateLog; split <;> rfl

@[simp] theorem updateLog_jobQueue (s : State) (r : Ref) :
    (s.updateLog r).jobQueue = s.jobQueue := by
  unfold State.updateLog; split <;> rfl

@[simp] theorem updateLog_running (s : State) (r : Ref) :
    (s.updateLog r).runningJobsPerOrigin = s.runningJobsPerOrigin := by
  unfold State.updateLog; split <;> rfl

@[simp] theorem updateLog_workers (s : State) (r : Ref) : (s.updateLog r).workers = s.workers := by
  unfold State.updateLog; split <;> rfl

@[simp] theorem updateLog_id (s : State) (r : Ref) : (s.updateLog r).id = s.id := by
  funext x; simp [State.id]

@[simp] theorem updateLog_origin (s : State) (r : Ref) : (s.updateLog r).origin = s.origin := by
  funext x; simp [State.origin]

namespace Wf

variable {s : State} {r : Ref} {w : Worker}

theorem setEntry (h : Wf s) {e : GlobalJobLogEntry} (he : SameJob (s.heap r) e) :
    Wf (s.setEntry r e) where
  queue := h.queue
  log := by rw [setEntry_id he]; exact h.log
  running := by rw [setEntry_origin he]; exact h.running
  workers := h.workers

theorem updateLog (h : Wf s) (hr : r < s.next) : Wf (s.updateLog r) := by
  refine ⟨?_, ?_, ?_, ?_⟩
  · intro x hx
    rw [updateLog_jobQueue] at hx
    exact (updateLog_next s r).symm ▸ h.queue hx
  · intro i x hx
    rw [updateLog_next, updateLog_id]
    unfold State.updateLog at hx
    split at hx
    · exact h.log hx
    · rw [Dict.get?_insert] at hx
      split at hx
      · next hi => cases hx; exact ⟨hr, hi.symm⟩
      · exact h.log hx
  · intro o x hx
    rw [updateLog_running] at hx
    rw [updateLog_next, updateLog_origin]
    exact h.running hx
  · intro v x hx
    rw [updateLog_workers] at hx
    exact (updateLog_next s r).symm ▸ h.workers hx

theorem restartJob (h : Wf s) (now : ℚ) (id : String) : Wf (s.restartJob now id) := by
  unfold State.restartJob
  split
  · exact h
  · next r hr =>
    have hlt := (h.log hr).1
    exact ((h.setEntry (restart_same _ now)).put hlt).updateLog hlt

theorem alloc (h : Wf s) (e : GlobalJobLogEntry) : Wf (s.alloc e) := by
  have hheap : ∀ {x}, x < s.next → (s.alloc e).heap x = s.heap x := by
    intro x hx
    exact Function.update_of_ne (Nat.ne_of_lt hx) _ _
  refine ⟨?_, ?_, ?_, ?_⟩
  · intro x hx
    exact Nat.lt_succ_of_lt (h.queue hx)
  · intro i x hx
    obtain ⟨hlt, hid⟩ := h.log hx
    exact ⟨Nat.lt_succ_of_lt hlt, by rw [State.id, hheap hlt]; exact hid⟩
  · intro o x hx
    obtain ⟨hlt, ho⟩ := h.running hx
    exact ⟨Nat.lt_succ_of_lt hlt, by rw [State.origin, hheap hlt]; exact ho⟩
  · intro v x hx
    exact Nat.lt_succ_of_lt (h.workers hx)

theorem addJob (h : Wf s) (now origin jobName : String) (auto : Option Autocommand) :
    Wf (s.addJob now origin jobName auto) := by
  unfold State.addJob
  split
  · exact h
  · exact ((h.alloc _).put (Nat.lt_succ_self _)).updateLog (Nat.lt_succ_self _)

theorem leave (h : Wf s) (hr : r < s.next) (requeue : Bool) : Wf (s.leave w r requeue) := by
  have hpc : ∀ x, (Pc.finishing r requeue).entry = some x → x < s.next := by
    intro x hx; cases hx; exact hr
  cases requeue
  · exact h.setPc hpc
  · exact (h.put hr).setPc hpc

theorem reserve (h : Wf s) (hr : r < s.next) : Wf (s.reserve w r) := by
  have hpc : ∀ x, (Pc.finishing r false).entry = some x → x < s.next := by
    intro x hx; cases hx; exact hr
  unfold State.reserve
  split
  · exact h.setPc hpc
  split
  · exact (h.put hr).setPc hpc
  · have h' : Wf (s.setRunning (s.runningJobsPerOrigin.insert (s.origin r) r)) := by
      refine ⟨h.queue, h.log, ?_, h.workers⟩
      intro o x hx
      rw [State.setRunning, Dict.get?_insert] at hx
      split at hx
      · next ho => cases hx; exact ⟨hr, ho.symm⟩
      · exact h.running hx
    exact h'.setPc (by intro x hx; cases hx; exact hr)

theorem handle (h : Wf s) (hr : r < s.next) (cfg : Int) (clk : Readings) :
    Wf (s.handle cfg w r clk) := by
  have he := h.setEntry (handleStart_same cfg clk (s.heap r)).1
  simp only [State.handle]
  split
  · exact he.leave hr _
  · exact he.leave hr _
  · exact he.setPc (by intro x hx; cases hx; exact hr)
  · exact he.setPc (by intro x hx; cases hx; exact hr)

theorem connect (h : Wf s) (hr : r < s.next) (connected : Bool) (now : ℚ) :
    Wf (s.connect w r connected now) := by
  have hl := h.updateLog hr
  have hlt : r < (s.updateLog r).next := (updateLog_next s r).symm ▸ hr
  have hsame : SameJob ((s.updateLog r).heap r) (handleConnect connected now (s.heap r)) := by
    rw [updateLog_heap]; exact (handleConnect_same connected now (s.heap r)).1
  simp only [State.connect]
  split
  · exact (hl.setEntry hsame).setPc (by intro x hx; cases hx; exact hlt)
  · exact (hl.setEntry hsame).leave hlt _

theorem start (h : Wf s) (hr : r < s.next) : Wf (s.start w r) := by
  have hl := h.updateLog hr
  have hlt : r < (s.updateLog r).next := (updateLog_next s r).symm ▸ hr
  simp only [State.start]
  split
  · exact hl.setPc (by intro x hx; cases hx; exact hlt)
  · exact (hl.setEntry (handleOutcome_same _ _)).leave hlt _

theorem finish (h : Wf s) (hr : r < s.next) (o : Outcome) : Wf (s.finish w r o) := by
  have he := h.setEntry (handleOutcome_same (s.heap r) o)
  simp only [State.finish]
  split
  · exact he.setPc (by intro x hx; cases hx; exact hr)
  · exact he.leave hr _

end Wf

theorem restartJob_next (s : State) (now : ℚ) (id : String) : (s.restartJob now id).next = s.next := by
  unfold State.restartJob
  split
  · rfl
  · exact updateLog_next _ _

namespace Wf

variable {s : State} {r : Ref} {w : Worker}

theorem restart (h : Wf s) (hr : r < s.next) (why : Restarting) (now : ℚ) :
    Wf (s.restart w r why now) := by
  have hj := h.restartJob now (s.id r)
  have hlt : r < (s.restartJob now (s.id r)).next := (restartJob_next s now _).symm ▸ hr
  cases why
  · have he : SameJob ((s.restartJob now (s.id r)).heap r)
        { (s.restartJob now (s.id r)).heap r with lastStatus := .failed } := ⟨rfl, rfl, rfl, rfl⟩
    exact (hj.setEntry he).leave hlt _
  · exact hj.leave hlt _
  · exact hj.leave hlt _

theorem deactivate (h : Wf s) (hr : r < s.next) (requeue : Bool) : Wf (s.deactivate w r requeue) := by
  have hl := h.updateLog hr
  have hlt : r < (s.updateLog r).next := (updateLog_next s r).symm ▸ hr
  simp only [State.deactivate]
  split
  · exact hl.setPc (by intro x hx; cases hx; exact hlt)
  · exact hl.setPc (by intro x hx; cases hx)

theorem release (h : Wf s) : Wf (s.release w r) := by
  unfold State.release
  split
  · exact h.setPc (by intro x hx; cases hx)
  · have h' : Wf (s.setRunning (s.runningJobsPerOrigin.erase (s.origin r))) := by
      refine ⟨h.queue, h.log, ?_, h.workers⟩
      intro o x hx
      rw [State.setRunning, Dict.get?_erase] at hx
      split at hx
      · cases hx
      · exact h.running hx
    exact h'.setPc (by intro x hx; cases hx)

/-- Every step keeps the state well formed. -/
theorem step (h : Wf s) {cfg : Int} {a : Action} {s' : State} (hs : Step cfg s a s') : Wf s' := by
  have hentry : ∀ {w p r}, s.workers w = p → p.entry = some r → r < s.next :=
    fun hw hp => h.workers (hw.symm ▸ hp)
  cases hs with
  | addJob now origin jobName auto => exact h.addJob now origin jobName auto
  | reloadJobs jobs => exact ⟨h.queue, h.log, h.running, h.workers⟩
  | restartJob now id => exact h.restartJob now id
  | deleteLogId id =>
    unfold State.deleteLogId
    split
    · exact h
    · refine ⟨h.queue, ?_, h.running, h.workers⟩
      intro i x hx
      rw [Dict.get?_erase] at hx
      split at hx
      · cases hx
      · exact h.log hx
  | deleteLogSuccess =>
    refine ⟨h.queue, ?_, h.running, h.workers⟩
    intro i x hx
    simp only [State.deleteLogSuccess, Dict.get?_filter, Option.filter_eq_some_iff] at hx
    exact h.log hx.1
  | @getNowait w r rest hw hq =>
    have h' : Wf { s with jobQueue := rest } :=
      ⟨fun hx => h.queue (hq ▸ List.mem_cons_of_mem _ hx), h.log, h.running, h.workers⟩
    have hlt : r < s.next := h.queue (hq ▸ List.mem_cons_self)
    exact h'.setPc (by intro x hx; cases hx; exact hlt)
  | reserve hw => exact h.reserve (hentry hw rfl)
  | handle clk hw => exact h.handle (hentry hw rfl) cfg clk
  | connect connected now hw => exact h.connect (hentry hw rfl) connected now
  | start hw => exact h.start (hentry hw rfl)
  | finish o hw => exact h.finish (hentry hw rfl) o
  | restart now hw => exact h.restart (hentry hw rfl) _ now
  | deactivate hw => exact h.deactivate (hentry hw rfl) _
  | release hw => exact h.release

end Wf

/-! ## What a job is called -/

@[simp] theorem leave_heap (s : State) (w : Worker) (r : Ref) (requeue : Bool) :
    (s.leave w r requeue).heap = s.heap := by
  cases requeue <;> rfl

@[simp] theorem leave_running (s : State) (w : Worker) (r : Ref) (requeue : Bool) :
    (s.leave w r requeue).runningJobsPerOrigin = s.runningJobsPerOrigin := by
  cases requeue <;> rfl

theorem setEntry_same {s : State} {r : Ref} {e : GlobalJobLogEntry} (he : SameJob (s.heap r) e)
    (x : Ref) : SameJob (s.heap x) ((s.setEntry r e).heap x) := by
  by_cases hx : x = r
  · subst hx; simpa [State.setEntry] using he
  · simp only [State.setEntry, Function.update_of_ne hx]; exact .refl _

theorem restartJob_same (s : State) (now : ℚ) (id : String) (x : Ref) :
    SameJob (s.heap x) ((s.restartJob now id).heap x) := by
  unfold State.restartJob
  split
  · exact .refl _
  · rw [updateLog_heap]
    exact setEntry_same (s := s) (restart_same _ now) x

/-- No step renames a job that is in use, or changes its sub jobs or settings. -/
theorem step_same {cfg : Int} {s s' : State} {a : Action} (hs : Step cfg s a s') {x : Ref}
    (hx : x < s.next) : SameJob (s.heap x) (s'.heap x) := by
  cases hs with
  | addJob now origin jobName auto =>
    unfold State.addJob
    split
    · exact .refl _
    · rw [updateLog_heap]
      simp only [State.put, State.alloc, Function.update_of_ne (Nat.ne_of_lt hx)]
      exact .refl _
  | reloadJobs jobs => exact .refl _
  | restartJob now id => exact restartJob_same s now id x
  | deleteLogId id => unfold State.deleteLogId; split <;> exact .refl _
  | deleteLogSuccess => exact .refl _
  | getNowait hw hq => exact .refl _
  | reserve hw =>
    unfold State.reserve
    split
    · exact .refl _
    split <;> exact .refl _
  | @handle w r clk hw =>
    have he := setEntry_same (s := s) (handleStart_same cfg clk (s.heap r)).1 x
    simp only [State.handle]
    split
    · rw [leave_heap]; exact he
    · rw [leave_heap]; exact he
    · exact he
    · exact he
  | @connect w r connected now hw =>
    have hsame : SameJob ((s.updateLog r).heap r) (handleConnect connected now (s.heap r)) := by
      rw [updateLog_heap]; exact (handleConnect_same connected now (s.heap r)).1
    have he := setEntry_same hsame x
    rw [updateLog_heap] at he
    simp only [State.connect]
    split
    · exact he
    · rw [leave_heap]; exact he
  | @start w r hw =>
    simp only [State.start]
    split
    · rw [show ((s.updateLog r).setPc w _).heap = (s.updateLog r).heap from rfl, updateLog_heap]
      exact .refl _
    · have he := setEntry_same (handleOutcome_same ((s.updateLog r).heap r) .exception) x
      rw [leave_heap]
      simpa only [updateLog_heap] using he
  | @finish w r i o hw =>
    have he := setEntry_same (s := s) (handleOutcome_same (s.heap r) o) x
    simp only [State.finish]
    split
    · exact he
    · rw [leave_heap]; exact he
  | @restart w r why now hw =>
    have hj := restartJob_same s now (s.id r) x
    cases why
    · have he : SameJob ((s.restartJob now (s.id r)).heap r)
          { (s.restartJob now (s.id r)).heap r with lastStatus := .failed } := ⟨rfl, rfl, rfl, rfl⟩
      have hf := setEntry_same he x
      simp only [State.restart]
      rw [leave_heap]
      exact hj.trans hf
    · simp only [State.restart]; rw [leave_heap]; exact hj
    · simp only [State.restart]; rw [leave_heap]; exact hj
  | deactivate hw =>
    simp only [State.deactivate]
    split
    · exact (updateLog_heap s _) ▸ .refl _
    · exact (updateLog_heap s _) ▸ .refl _
  | release hw => unfold State.release; split <;> exact .refl _

/-! ## The tasks -/

@[simp] theorem leave_workers (s : State) (w : Worker) (r : Ref) (requeue : Bool) :
    (s.leave w r requeue).workers = Function.update s.workers w (.finishing r requeue) := by
  cases requeue <;> rfl

theorem restartJob_frame (s : State) (now : ℚ) (id : String) :
    (s.restartJob now id).runningJobsPerOrigin = s.runningJobsPerOrigin ∧
      (s.restartJob now id).workers = s.workers := by
  unfold State.restartJob
  split
  · exact ⟨rfl, rfl⟩
  · exact ⟨updateLog_running _ _, updateLog_workers _ _⟩

theorem setPc_workers_of {s t : State} (h : t.workers = s.workers) (w : Worker) (p : Pc) :
    (t.setPc w p).workers = Function.update s.workers w p := by
  show Function.update t.workers w p = _
  rw [h]

theorem leave_workers_of {s t : State} (h : t.workers = s.workers) (w : Worker) (r : Ref) (requeue : Bool) :
    (t.leave w r requeue).workers = Function.update s.workers w (.finishing r requeue) := by
  rw [leave_workers, h]

/-- Where an action of a task takes it. -/
inductive Pc.Moves (jobRestartNotconnect : Int) (s : State) (w : Worker) : Action → Pc → Pc → Prop where
  | taken (r : Ref) : Moves jobRestartNotconnect s w (.getNowait w) .idle (.locking r)
  | dropped (r : Ref) : Moves jobRestartNotconnect s w (.reserve w) (.locking r) (.finishing r false)
  | reserved (r : Ref) : Moves jobRestartNotconnect s w (.reserve w) (.locking r) (.activating r)
  | left (r : Ref) (clk : Readings) (requeue : Bool) :
      Moves jobRestartNotconnect s w (.handle w clk) (.activating r) (.finishing r requeue)
  | restarting (r : Ref) (clk : Readings) (why : Restarting) :
      Moves jobRestartNotconnect s w (.handle w clk) (.activating r) (.restarting r why)
  | processing (r : Ref) (clk : Readings)
      (hchecked : (handleStart jobRestartNotconnect clk (s.heap r)).2 = .processing) :
      Moves jobRestartNotconnect s w (.handle w clk) (.activating r) (.processing r)
  | connected (r : Ref) (connected : Bool) (now : ℚ) :
      Moves jobRestartNotconnect s w (.connect w connected now) (.processing r) (.starting r)
  | unconnected (r : Ref) (connected : Bool) (now : ℚ) :
      Moves jobRestartNotconnect s w (.connect w connected now) (.processing r) (.finishing r true)
  | started (r : Ref) (i : Nat) : Moves jobRestartNotconnect s w (.start w) (.starting r) (.running r i)
  | unstarted (r : Ref) : Moves jobRestartNotconnect s w (.start w) (.starting r) (.finishing r true)
  | redone (r : Ref) (i : Nat) (o : Outcome) :
      Moves jobRestartNotconnect s w (.finish w o) (.running r i) (.restarting r .redo)
  | finished (r : Ref) (i : Nat) (o : Outcome) :
      Moves jobRestartNotconnect s w (.finish w o) (.running r i) (.finishing r true)
  | restarted (r : Ref) (why : Restarting) (now : ℚ) (requeue : Bool) :
      Moves jobRestartNotconnect s w (.restart w now) (.restarting r why) (.finishing r requeue)
  | deactivated (r : Ref) (requeue : Bool) :
      Moves jobRestartNotconnect s w (.deactivate w) (.finishing r requeue) (.releasing r)
  | kept (r : Ref) (requeue : Bool) :
      Moves jobRestartNotconnect s w (.deactivate w) (.finishing r requeue) .idle
  | released (r : Ref) : Moves jobRestartNotconnect s w (.release w) (.releasing r) .idle
  | died (r : Ref) (hgone : s.runningJobsPerOrigin.get? (s.origin r) = none) :
      Moves jobRestartNotconnect s w (.release w) (.releasing r) (.dead .keyError)

/-- An action moves one task at most. -/
theorem step_moves {cfg : Int} {s s' : State} {a : Action} (hs : Step cfg s a s') :
    s'.workers = s.workers ∨ ∃ w p q, s.workers w = p ∧ s'.workers = Function.update s.workers w q ∧
      Pc.Moves cfg s w a p q := by
  cases hs with
  | addJob now origin jobName auto =>
    left
    unfold State.addJob
    split
    · rfl
    · exact updateLog_workers _ _
  | reloadJobs jobs => exact .inl rfl
  | restartJob now id => exact .inl (restartJob_frame s now id).2
  | deleteLogId id => left; unfold State.deleteLogId; split <;> rfl
  | deleteLogSuccess => exact .inl rfl
  | @getNowait w r rest hw hq => exact .inr ⟨w, _, _, hw, rfl, .taken r⟩
  | @reserve w r hw =>
    unfold State.reserve
    split
    · exact .inr ⟨w, _, _, hw, rfl, .dropped r⟩
    split
    · exact .inr ⟨w, _, _, hw, rfl, .dropped r⟩
    · exact .inr ⟨w, _, _, hw, rfl, .reserved r⟩
  | @handle w r clk hw =>
    simp only [State.handle]
    split
    · exact .inr ⟨w, _, _, hw, leave_workers _ _ _ _, .left r clk _⟩
    · exact .inr ⟨w, _, _, hw, leave_workers _ _ _ _, .left r clk _⟩
    · exact .inr ⟨w, _, _, hw, rfl, .restarting r clk _⟩
    · next hchecked => exact .inr ⟨w, _, _, hw, rfl, .processing r clk hchecked⟩
  | @connect w r connected now hw =>
    have hlogged := updateLog_workers s r
    simp only [State.connect]
    split
    · exact .inr ⟨w, _, .starting r, hw, setPc_workers_of hlogged _ _, .connected r connected now⟩
    · exact .inr ⟨w, _, _, hw, leave_workers_of hlogged _ _ _, .unconnected r connected now⟩
  | @start w r hw =>
    have hlogged := updateLog_workers s r
    simp only [State.start]
    split
    · exact .inr ⟨w, _, .running r _, hw, setPc_workers_of hlogged _ _, .started r _⟩
    · exact .inr ⟨w, _, _, hw, leave_workers_of hlogged _ _ _, .unstarted r⟩
  | @finish w r i o hw =>
    simp only [State.finish]
    split
    · exact .inr ⟨w, _, _, hw, rfl, .redone r i o⟩
    · exact .inr ⟨w, _, _, hw, leave_workers _ _ _ _, .finished r i o⟩
  | @restart w r why now hw =>
    have hrestarted := (restartJob_frame s now (s.id r)).2
    cases why with
    | failing => exact .inr ⟨w, _, _, hw, leave_workers_of hrestarted _ _ _, .restarted r _ now _⟩
    | notConnected => exact .inr ⟨w, _, _, hw, leave_workers_of hrestarted _ _ _, .restarted r _ now _⟩
    | redo => exact .inr ⟨w, _, _, hw, leave_workers_of hrestarted _ _ _, .restarted r _ now _⟩
  | @deactivate w r requeue hw =>
    have hlogged := updateLog_workers s r
    simp only [State.deactivate]
    split
    · exact .inr ⟨w, _, .releasing r, hw, setPc_workers_of hlogged _ _, .deactivated r requeue⟩
    · exact .inr ⟨w, _, .idle, hw, setPc_workers_of hlogged _ _, .kept r requeue⟩
  | @release w r hw =>
    unfold State.release
    split
    · next hgone => exact .inr ⟨w, _, _, hw, rfl, .died r hgone⟩
    · exact .inr ⟨w, _, _, hw, rfl, .released r⟩

end MapADroid.Updater
