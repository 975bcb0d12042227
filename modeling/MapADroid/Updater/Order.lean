import MapADroid.Updater.Chain
import MapADroid.Updater.Places

/- The updater keeps to the lists of its jobs (`chain_order`), and where it does not
   (`redo_starts_over`).

   The invariant (`Ordered`) says of every entry where it stands in its list: a job that
   is in the queue or at a task has as its index the number of sub jobs that succeeded
   in the round, or 0 once the round may end. -/
namespace MapADroid.Updater
open Lib

/-- The step gives the job up: its sub job had more than three attempts. -/
def GlobalJobLogEntry.givenUp (e : GlobalJobLogEntry) : Bool :=
  e.subJobIndex < e.subJobs.length && e.lastStatus ≠ .cancelled && e.lastStatus ≠ .failed &&
    3 < e.counter

/-- What an action in state `s` tells. -/
def emit (s : State) : Action → List Event
  | .handle w _ => match s.workers w with
    | .activating r => if (s.heap r).givenUp then [.exhausted (s.id r)] else []
    | _ => []
  | .connect w connected _ => match s.workers w with
    | .processing r => if connected then [] else [.notConnected (s.id r)]
    | _ => []
  | .start w => match s.workers w with
    | .starting r =>
      if (s.heap r).subJobIndex < (s.heap r).subJobs.length then
        [.started (s.id r) (s.heap r).subJobIndex]
      else []
    | _ => []
  | .finish w o => match s.workers w with
    | .running r i => if o = .success then [.succeeded (s.id r) i] else []
    | _ => []
  | _ => []

/-- No two jobs get one id, none is restarted from outside, no task takes a job that another one has, and the
restart after a successful sub job of a redone job comes after its last one or finds no job in the log. -/
def SafeChain (s : State) : Action → Prop
  | .addJob now origin jobName _ => ∀ r, r < s.next → s.id r ≠ jobId now origin jobName
  | .restartJob _ _ => False
  | .getNowait _ => ∀ r ∈ s.jobQueue.head?, ∀ v, (s.workers v).held ≠ some r
  | .restart w _ => ∀ r, s.workers w = .restarting r .redo →
    s.log.get? (s.id r) = none ∨ (s.heap r).subJobs.length ≤ (s.heap r).subJobIndex
  | _ => True

/-- The state and the record of what happened so far. -/
structure Ordered (s : State) (es : List Event) : Prop where
  wf : Wf s
  apart : ∀ {v w r}, (s.workers v).held = some r → (s.workers w).held = some r → v = w
  ids : ∀ {x y}, x < s.next → y < s.next → s.id x = s.id y → x = y
  known : ∀ e ∈ es, ∃ x, x < s.next ∧ s.id x = e.job
  stands : ∀ {x}, x < s.next → Stands (s.id x) (s.heap x).subJobs.length (s.heap x).subJobIndex
    (¬ s.places.Absent x) es
  running : ∀ {w r i}, s.workers w = .running r i →
    (s.heap r).subJobIndex = i ∧ i < (s.heap r).subJobs.length ∧ done (s.id r) es = List.range i
  restarting : ∀ {w r why}, s.workers w = .restarting r why → why ≠ .redo →
    ¬ Undisturbed (s.id r) (since (isFirst (s.id r)) es)

/-- The task is neither at a sub job nor at a restart. -/
def Pc.passive : Pc → Bool
  | .running _ _ | .restarting _ _ => false
  | _ => true

theorem not_absent {s : State} {w : Worker} {r : Ref} (hw : (s.workers w).held = some r) :
    ¬ s.places.Absent r := fun habs => habs.2 w hw

/-- Two tasks do not come to have one job. -/
theorem step_apart {cfg : Int} {s s' : State} {a : Action} (hs : Step cfg s a s') (hsafe : SafeChain s a)
    (hapart : ∀ {v w r}, (s.workers v).held = some r → (s.workers w).held = some r → v = w)
    {v w : Worker} {r : Ref} (hv : (s'.workers v).held = some r) (hw : (s'.workers w).held = some r) : v = w := by
  rcases step_moves hs with hwork | ⟨u, p, q, hp, hwork, hmoves⟩
  · rw [hwork] at hv hw
    exact hapart hv hw
  -- The task that moves had its job before, or takes one that nobody has.
  have hmoved : q.held = some r → (s.workers u).held = some r ∨ ∀ x, (s.workers x).held ≠ some r := by
    intro hq
    rw [hp]
    cases hmoves with
    | taken y =>
      obtain rfl : y = r := Option.some.inj hq
      right
      cases hs with
      | @getNowait _ x rest hidle hqueue =>
        have hfirst : Function.update s.workers u (.locking x) u = Function.update s.workers u (.locking y) u :=
          congrFun hwork u
        rw [Function.update_self, Function.update_self] at hfirst
        obtain rfl : x = y := Pc.locking.inj hfirst
        exact hsafe x (by rw [hqueue]; rfl)
    | reserved | processing | connected | started | restarting | redone => exact .inl hq
    | _ => cases hq
  have hfrom : ∀ {x}, (s'.workers x).held = some r → x = u ∧ q.held = some r ∨ x ≠ u ∧ (s.workers x).held = some r := by
    intro x hx
    rw [hwork] at hx
    by_cases hxu : x = u
    · subst hxu
      rw [Function.update_self] at hx
      exact .inl ⟨rfl, hx⟩
    · rw [Function.update_of_ne hxu] at hx
      exact .inr ⟨hxu, hx⟩
  rcases hfrom hv with ⟨rfl, hq⟩ | ⟨hvu, hv⟩ <;> rcases hfrom hw with ⟨hwu, hq'⟩ | ⟨hwu, hw⟩
  · exact hwu.symm
  · rcases hmoved hq with hold | hfree
    · exact hapart hold hw
    · exact absurd hw (hfree w)
  · subst hwu
    rcases hmoved hq' with hold | hfree
    · exact hapart hv hold
    · exact absurd hv (hfree v)
  · exact hapart hv hw

namespace Ordered

variable {cfg : Int} {s s' : State} {a : Action} {es : List Event}

/-- What comes in by a step of the tasks is at the task that restarts it. -/
theorem incoming_present (h : Ordered s es) (hs : Step cfg s a s') (ha : a.enters = false) {x : Ref}
    (hx : s.incoming a = some x) : ¬ s.places.Absent x := by
  cases hs with
  | addJob now origin jobName auto => cases ha
  | restartJob now id => cases ha
  | @restart w r why now hw =>
    have hr : r < s.next := h.wf.workers (by rw [hw]; rfl)
    have hlog : s.log.get? (s.id r) = some x := by simpa only [State.incoming, hw] using hx
    obtain ⟨hlt, hid⟩ := h.wf.log hlog
    obtain rfl : x = r := h.ids hlt hr hid
    exact not_absent (by rw [hw]; rfl)
  | _ => cases hx

/-- What a step of the tasks has to show: where every entry stands after it, and that
the tasks' own views of their entries are right. -/
theorem of_step (h : Ordered s es) (hs : Step cfg s a s') (hsafe : SafeChain s a)
    (ha : a.enters = false) (hnext : s'.next = s.next) {fs : List Event}
    (hknown : ∀ e ∈ fs, ∃ x, x < s.next ∧ s.id x = e.job)
    (hstands : ∀ {x}, x < s.next → Stands (s.id x) (s.heap x).subJobs.length
      (s'.heap x).subJobIndex (¬ s.places.Absent x) (es ++ fs))
    (hrunning : ∀ {w r i}, s'.workers w = .running r i → (s'.heap r).subJobIndex = i ∧
      i < (s.heap r).subJobs.length ∧ done (s.id r) (es ++ fs) = List.range i)
    (hrestarting : ∀ {w r why}, s'.workers w = .restarting r why → why ≠ .redo →
      ¬ Undisturbed (s.id r) (since (isFirst (s.id r)) (es ++ fs))) :
    Ordered s' (es ++ fs) := by
  -- Ids and lists of sub jobs stay, and whoever is nowhere stays nowhere.
  have hsame : ∀ {x}, x < s.next → SameJob (s.heap x) (s'.heap x) := fun hx => step_same hs hx
  have hid : ∀ {x}, x < s.next → s'.id x = s.id x := fun hx => (hsame hx).id
  have hwf := h.wf.step hs
  have habsent : ∀ {x}, s.places.Absent x → s'.places.Absent x := fun habs =>
    step_absent hs habs fun hx => h.incoming_present hs ha hx habs
  have hentry : ∀ {w r}, (s'.workers w).entry = some r → r < s.next :=
    fun hw => hnext ▸ hwf.workers hw
  refine ⟨hwf, step_apart hs hsafe h.apart, ?_, ?_, ?_, ?_, ?_⟩
  · intro x y hx hy hxy
    rw [hnext] at hx hy
    rw [hid hx, hid hy] at hxy
    exact h.ids hx hy hxy
  · intro e he
    have hold : ∃ x, x < s.next ∧ s.id x = e.job := by
      rcases List.mem_append.mp he with he | he
      · exact h.known e he
      · exact hknown e he
    obtain ⟨x, hx, hjob⟩ := hold
    exact ⟨x, hnext.symm ▸ hx, (hid hx).trans hjob⟩
  · intro x hx
    rw [hnext] at hx
    rw [hid hx, (hsame hx).subJobs]
    apply (hstands hx).weaken
    intro hpresent habs
    exact hpresent (habsent habs)
  · intro w r i hw
    have hr : r < s.next := hentry (by rw [hw]; rfl)
    rw [hid hr, (hsame hr).subJobs]
    exact hrunning hw
  · intro w r why hw hwhy
    have hr : r < s.next := hentry (by rw [hw]; rfl)
    rw [hid hr]
    exact hrestarting hw hwhy

/-- A step that leaves the entries alone and tells nothing. -/
theorem quiet (h : Ordered s es) (hs : Step cfg s a s') (hsafe : SafeChain s a)
    (ha : a.enters = false) (hnext : s'.next = s.next) (hheap : s'.heap = s.heap)
    (hpc : ∀ v, s'.workers v = s.workers v ∨ (s'.workers v).passive = true) :
    Ordered s' (es ++ []) := by
  apply h.of_step hs hsafe ha hnext
  · intro e he
    cases he
  · intro x hx
    rw [hheap, List.append_nil]
    exact h.stands hx
  · intro v r i hv
    rw [hheap, List.append_nil]
    rcases hpc v with hold | hpassive
    · exact h.running (hold ▸ hv)
    · rw [hv] at hpassive; cases hpassive
  · intro v r why hv
    rw [List.append_nil]
    rcases hpc v with hold | hpassive
    · exact h.restarting (hold ▸ hv)
    · rw [hv] at hpassive; cases hpassive

/-- Such a step of a task that is neither at a sub job nor at a restart after it. -/
theorem pass (h : Ordered s es) (hs : Step cfg s a s') (hsafe : SafeChain s a)
    (ha : a.enters = false) (hnext : s'.next = s.next) (hheap : s'.heap = s.heap) {w : Worker} {p : Pc}
    (hpc : s'.workers = Function.update s.workers w p) (hp : p.passive = true) :
    Ordered s' (es ++ []) := by
  apply h.quiet hs hsafe ha hnext hheap
  intro v
  rw [hpc]
  by_cases hv : v = w
  · subst hv
    rw [Function.update_self]
    exact Or.inr hp
  · rw [Function.update_of_ne hv]
    exact Or.inl rfl

/-- A step of a task on the entry `r` it has: what is told is about `r`, and `r` alone
changes. -/
theorem act (h : Ordered s es) (hs : Step cfg s a s') (hsafe : SafeChain s a)
    (ha : a.enters = false) (hnext : s'.next = s.next) {w : Worker} {r : Ref}
    (hw : (s.workers w).held = some r) {p : Pc} (hpc : s'.workers = Function.update s.workers w p)
    (hp : ∀ x, p.held = some x → x = r) {fs : List Event} (hfs : ∀ e ∈ fs, e.job = s.id r)
    (hindex : ∀ {x}, x ≠ r → (s'.heap x).subJobIndex = (s.heap x).subJobIndex)
    (hr : Stands (s.id r) (s.heap r).subJobs.length (s'.heap r).subJobIndex
      (¬ s.places.Absent r) (es ++ fs))
    (hrunning : ∀ {i}, p = .running r i → (s'.heap r).subJobIndex = i ∧
      i < (s.heap r).subJobs.length ∧ done (s.id r) (es ++ fs) = List.range i)
    (hrestarting : ∀ {why}, p = .restarting r why → why ≠ .redo →
      ¬ Undisturbed (s.id r) (since (isFirst (s.id r)) (es ++ fs))) :
    Ordered s' (es ++ fs) := by
  have hlt : r < s.next := h.wf.workers (Pc.entry_of_held hw)
  have hjob : ∀ {x}, x < s.next → x ≠ r → ∀ e ∈ fs, e.job ≠ s.id x := by
    intro x hx hxr e he hid
    exact hxr (h.ids hx hlt (hid.symm.trans (hfs e he)))
  -- No other task has the entry.
  have hother : ∀ {v x}, v ≠ w → (s.workers v).held = some x → x ≠ r := by
    rintro v x hv hx rfl
    exact hv (h.apart hx hw)
  have hold : ∀ {v q}, v ≠ w → s'.workers v = q → s.workers v = q := by
    intro v q hv hq
    rw [hpc, Function.update_of_ne hv] at hq
    exact hq
  have hnew : ∀ {q}, s'.workers w = q → p = q := by
    intro q hq
    rw [hpc, Function.update_self] at hq
    exact hq
  apply h.of_step hs hsafe ha hnext
  · intro e he
    exact ⟨r, hlt, (hfs e he).symm⟩
  · intro x hx
    by_cases hxr : x = r
    · subst hxr; exact hr
    · rw [hindex hxr]
      exact (h.stands hx).others (hjob hx hxr)
  · intro v x i hv
    by_cases hvw : v = w
    · subst hvw
      have hpx := hnew hv
      obtain rfl : x = r := hp x (by rw [hpx]; rfl)
      exact hrunning hpx
    · have hv := hold hvw hv
      have hxr := hother hvw (by rw [hv]; rfl)
      obtain ⟨hi, hin, hdone⟩ := h.running hv
      rw [hindex hxr, done_others (hjob (h.wf.workers (by rw [hv]; rfl)) hxr)]
      exact ⟨hi, hin, hdone⟩
  · intro v x why hv hwhy
    by_cases hvw : v = w
    · subst hvw
      have hpx := hnew hv
      obtain rfl : x = r := hp x (by rw [hpx]; rfl)
      exact hrestarting hpx hwhy
    · have hv := hold hvw hv
      have hxr := hother hvw (by rw [hv]; rfl)
      rw [since_others (hjob (h.wf.workers (by rw [hv]; rfl)) hxr)]
      intro hclean
      exact h.restarting hv hwhy hclean.init

/-- A new job has not been told about. -/
theorem addJob (h : Ordered s es) {now origin jobName : String} {auto : Option Autocommand}
    (hfresh : ∀ r, r < s.next → s.id r ≠ jobId now origin jobName) :
    Ordered (s.addJob now origin jobName auto) (es ++ []) := by
  rw [List.append_nil]
  have hs : Step 0 s (.addJob now origin jobName auto) (s.addJob now origin jobName auto) :=
    .addJob now origin jobName auto
  have hwf := h.wf.step hs
  have hsafe : SafeChain s (.addJob now origin jobName auto) := hfresh
  have hapart := fun {v w : Worker} {r : Ref} => step_apart hs hsafe h.apart (v := v) (w := w) (r := r)
  have habsent : ∀ {x}, x < s.next → s.places.Absent x → (s.addJob now origin jobName auto).places.Absent x := by
    intro x hx habs
    refine step_absent hs habs fun hincoming => ?_
    obtain ⟨_, _, rfl⟩ := Option.map_eq_some_iff.mp hincoming
    exact Nat.lt_irrefl _ hx
  cases hjobs : s.availableJobs jobName with
  | none =>
    have heq : s.addJob now origin jobName auto = s := by simp [State.addJob, hjobs]
    rw [heq]
    exact h
  | some jobs =>
    generalize ht : s.addJob now origin jobName auto = t at hwf hapart habsent
    have heq : t = ((s.alloc (State.newEntry now origin jobName jobs auto)).put s.next).updateLog
        s.next := by rw [← ht]; simp [State.addJob, hjobs]
    have hnext : t.next = s.next + 1 := by rw [heq, updateLog_next]; rfl
    have hworkers : t.workers = s.workers := by rw [heq, updateLog_workers]; rfl
    have hold : ∀ {x}, x < s.next → t.heap x = s.heap x := by
      intro x hx
      rw [heq, updateLog_heap]
      exact Function.update_of_ne (Nat.ne_of_lt hx) _ _
    have hid : ∀ {x}, x < s.next → t.id x = s.id x := fun hx => congrArg _ (hold hx)
    have hnew : t.heap s.next = State.newEntry now origin jobName jobs auto := by
      rw [heq, updateLog_heap]
      exact Function.update_self _ _ _
    have hnewid : t.id s.next = jobId now origin jobName := by rw [State.id, hnew]; rfl
    -- The new entry has the next reference, all others are as they were.
    have hcases : ∀ {x}, x < t.next → x < s.next ∨ x = s.next := by
      intro x hx
      rw [hnext] at hx
      exact Nat.lt_succ_iff_lt_or_eq.mp hx
    refine ⟨hwf, hapart, ?_, ?_, ?_, ?_, ?_⟩
    · intro x y hx hy hxy
      rcases hcases hx with hx | rfl <;> rcases hcases hy with hy | rfl
      · rw [hid hx, hid hy] at hxy
        exact h.ids hx hy hxy
      · rw [hid hx, hnewid] at hxy
        exact absurd hxy (hfresh x hx)
      · rw [hid hy, hnewid] at hxy
        exact absurd hxy.symm (hfresh y hy)
      · rfl
    · intro e he
      obtain ⟨x, hx, hjob⟩ := h.known e he
      exact ⟨x, hnext.symm ▸ Nat.lt_succ_of_lt hx, (hid hx).trans hjob⟩
    · intro x hx
      rcases hcases hx with hx | rfl
      · rw [hid hx, hold hx]
        apply (h.stands hx).weaken
        exact fun hpresent habs => hpresent (habsent hx habs)
      · rw [hnewid, hnew]
        apply Stands.silent
        intro e he hjob
        obtain ⟨x, hx, hxjob⟩ := h.known e he
        exact hfresh x hx (hxjob.trans hjob)
    · intro w r i hw
      rw [hworkers] at hw
      have hr : r < s.next := h.wf.workers (by rw [hw]; rfl)
      rw [hid hr, hold hr]
      exact h.running hw
    · intro w r why hw
      rw [hworkers] at hw
      have hr : r < s.next := h.wf.workers (by rw [hw]; rfl)
      rw [hid hr]
      exact h.restarting hw

end Ordered

/-! ## The parts of `__handle_job` -/

/-- `__handle_job` only awaits `restart_job` first where it gives the job up. -/
theorem handleStart_restarting {cfg : Int} {clk : Readings} {e : GlobalJobLogEntry}
    {why : Restarting} (h : (handleStart cfg clk e).2 = .restarting why) : e.givenUp = true := by
  unfold handleStart at h
  split at h
  · cases h
  next hindex =>
  split at h
  · cases h
  next hcancelled =>
  split at h
  · cases h
  next hfailed =>
  split at h
  · next hcounter =>
    have hlt : e.subJobIndex < e.subJobs.length := by omega
    simp [GlobalJobLogEntry.givenUp, hlt, hcancelled, hfailed, hcounter]
  · split at h
    · cases h
    · cases h
    · split at h <;> cases h

/-- A record that ends in a disturbance. -/
theorem disturbed {id : String} {es : List Event} {e : Event}
    (he : e = .exhausted id ∨ e = .notConnected id) :
    ¬ Undisturbed id (since (isFirst id) (es ++ [e])) := by
  have hfirst : isFirst id e = false := by
    rcases he with rfl | rfl <;> simp [isFirst]
  rw [since_quiet hfirst]
  intro hclean
  rcases he with rfl | rfl
  · exact hclean.1 (by simp)
  · exact hclean.2 (by simp)

@[simp] theorem leave_next (s : State) (w : Worker) (r : Ref) (requeue : Bool) :
    (s.leave w r requeue).next = s.next := by
  cases requeue <;> rfl

theorem setEntry_index {s : State} {r x : Ref} {e : GlobalJobLogEntry} (hx : x ≠ r) :
    ((s.setEntry r e).heap x).subJobIndex = (s.heap x).subJobIndex := by
  simp only [State.setEntry, Function.update_of_ne hx]

theorem setEntry_heap_self (s : State) (r : Ref) (e : GlobalJobLogEntry) :
    (s.setEntry r e).heap r = e := Function.update_self _ _ _

/-- Where the worker is after the first part of `__handle_job`. -/
theorem handle_pc (s : State) (cfg : Int) (w : Worker) (r : Ref) (clk : Readings) :
    ∃ p, (s.handle cfg w r clk).workers = Function.update s.workers w p ∧
      (p = .processing r ∨ (∃ requeue, p = .finishing r requeue) ∨
        ∃ why, p = .restarting r why ∧ (handleStart cfg clk (s.heap r)).2 = .restarting why) := by
  simp only [State.handle]
  split
  · exact ⟨_, leave_workers _ _ _ _, Or.inr (Or.inl ⟨_, rfl⟩)⟩
  · exact ⟨_, leave_workers _ _ _ _, Or.inr (Or.inl ⟨_, rfl⟩)⟩
  · next why hwhy => exact ⟨_, rfl, Or.inr (Or.inr ⟨why, rfl, hwhy⟩)⟩
  · exact ⟨_, rfl, Or.inl rfl⟩

theorem handle_heap (s : State) (cfg : Int) (w : Worker) (r : Ref) (clk : Readings) :
    (s.handle cfg w r clk).next = s.next ∧ (s.handle cfg w r clk).heap =
      (s.setEntry r (handleStart cfg clk (s.heap r)).1).heap := by
  simp only [State.handle]
  split
  · exact ⟨leave_next _ _ _ _, leave_heap _ _ _ _⟩
  · exact ⟨leave_next _ _ _ _, leave_heap _ _ _ _⟩
  · exact ⟨rfl, rfl⟩
  · exact ⟨rfl, rfl⟩

namespace Ordered

variable {cfg : Int} {s s' : State} {a : Action} {es : List Event} {w : Worker} {r : Ref}

theorem handle (h : Ordered s es) {clk : Readings} (hw : s.workers w = .activating r) :
    Ordered (s.handle cfg w r clk) (es ++ emit s (.handle w clk)) := by
  obtain ⟨hnext, hheap⟩ := handle_heap s cfg w r clk
  obtain ⟨p, hpc, hp⟩ := handle_pc s cfg w r clk
  have hs : Step cfg s (.handle w clk) (s.handle cfg w r clk) := .handle clk hw
  have hlt : r < s.next := h.wf.workers (by rw [hw]; rfl)
  have hemit : emit s (.handle w clk) = if (s.heap r).givenUp then [.exhausted (s.id r)] else [] := by
    simp only [emit, hw]
  rw [hemit]
  apply h.act hs trivial rfl hnext (by rw [hw]; rfl) hpc
  · intro x hx
    rcases hp with rfl | ⟨requeue, rfl⟩ | ⟨why, rfl, _⟩ <;> cases hx <;> rfl
  · intro e he
    split at he
    · rw [List.mem_singleton] at he; rw [he]; rfl
    · cases he
  · intro x hx
    rw [hheap]
    exact setEntry_index hx
  -- The first part of `__handle_job` leaves the index alone.
  · rw [hheap, setEntry_heap_self, (handleStart_same cfg clk (s.heap r)).2]
    split
    · exact (h.stands hlt).note (by simp [isFirst]) rfl
    · rw [List.append_nil]; exact h.stands hlt
  · intro i hi
    rcases hp with rfl | ⟨requeue, rfl⟩ | ⟨why, rfl, _⟩ <;> cases hi
  · intro why hwhy _
    rcases hp with rfl | ⟨requeue, rfl⟩ | ⟨why', rfl, hstart⟩
    · cases hwhy
    · cases hwhy
    · rw [if_pos (handleStart_restarting hstart)]
      exact disturbed (Or.inl rfl)

theorem connect (h : Ordered s es) {connected : Bool} {now : ℚ} (hw : s.workers w = .processing r) :
    Ordered (s.connect w r connected now) (es ++ emit s (.connect w connected now)) := by
  have hs : Step 0 s (.connect w connected now) (s.connect w r connected now) := .connect _ _ hw
  have hlt : r < s.next := h.wf.workers (by rw [hw]; rfl)
  have hindex := (handleConnect_same connected now (s.heap r)).2
  have hheap : (s.connect w r connected now).heap =
      ((s.updateLog r).setEntry r (handleConnect connected now (s.heap r))).heap := by
    cases connected <;> rfl
  have hpc : ∃ p, (s.connect w r connected now).workers = Function.update s.workers w p ∧
      (p = .starting r ∨ p = .finishing r true) := by
    cases connected
    · refine ⟨_, ?_, Or.inr rfl⟩
      rw [← updateLog_workers s r]
      rfl
    · refine ⟨_, ?_, Or.inl rfl⟩
      rw [← updateLog_workers s r]
      rfl
  have hnext : (s.connect w r connected now).next = s.next := by
    rw [← updateLog_next s r]
    cases connected <;> rfl
  obtain ⟨p, hpc, hp⟩ := hpc
  have hemit : emit s (.connect w connected now) =
      if connected then [] else [.notConnected (s.id r)] := by simp only [emit, hw]
  rw [hemit]
  apply h.act hs trivial rfl hnext (by rw [hw]; rfl) hpc
  · intro x hx
    rcases hp with rfl | rfl
    · cases hx; rfl
    · cases hx
  · intro e he
    split at he
    · cases he
    · rw [List.mem_singleton] at he; rw [he]; rfl
  · intro x hx
    rw [hheap, setEntry_index hx, updateLog_heap]
  · rw [hheap, setEntry_heap_self, hindex]
    split
    · rw [List.append_nil]; exact h.stands hlt
    · exact (h.stands hlt).note (by simp [isFirst]) rfl
  · intro i hi
    rcases hp with rfl | rfl <;> cases hi
  · intro why hwhy
    rcases hp with rfl | rfl <;> cases hwhy

theorem start (h : Ordered s es) (hw : s.workers w = .starting r) :
    Ordered (s.start w r) (es ++ emit s (.start w)) := by
  have hs : Step 0 s (.start w) (s.start w r) := .start hw
  have hheld : (s.workers w).held = some r := by rw [hw]; rfl
  have hstands := h.stands (h.wf.workers (Pc.entry_of_held hheld))
  have hlog : (s.updateLog r).heap = s.heap := updateLog_heap s r
  by_cases hindex : (s.heap r).subJobIndex < (s.heap r).subJobs.length
  · have hstart : s.start w r = (s.updateLog r).setPc w (.running r (s.heap r).subJobIndex) := by
      simp only [State.start, hlog, hindex, if_true]
    have hemit : emit s (.start w) = [.started (s.id r) (s.heap r).subJobIndex] := by
      simp only [emit, hw, hindex, if_true]
    obtain ⟨hnext, hdone⟩ := hstands.start (not_absent hheld)
    have hheap : (s.start w r).heap = s.heap := by rw [hstart, ← hlog]; rfl
    rw [hemit]
    apply h.act hs trivial rfl (by rw [hstart, ← updateLog_next s r]; rfl) hheld
      (p := .running r (s.heap r).subJobIndex) (by rw [hstart, ← updateLog_workers s r]; rfl)
    · intro x hx; cases hx; rfl
    · intro e he; rw [List.mem_singleton] at he; rw [he]; rfl
    · intro x _; rw [hheap]
    · rw [hheap]; exact hnext
    · intro i hi
      cases hi
      exact ⟨by rw [hheap], hindex, hdone⟩
    · intro why hwhy; cases hwhy
  · -- The sub jobs are indexed outside of the `try`: the attempt counts as an exception.
    have hstart : s.start w r = ((s.updateLog r).setEntry r
        (handleOutcome (s.heap r) .exception)).leave w r true := by
      simp only [State.start, hlog, hindex, if_false]
    have hemit : emit s (.start w) = [] := by simp only [emit, hw, hindex, if_false]
    have hheap : (s.start w r).heap =
        ((s.updateLog r).setEntry r (handleOutcome (s.heap r) .exception)).heap := by
      rw [hstart, leave_heap]
    rw [hemit]
    apply h.act hs trivial rfl
      (by rw [hstart, leave_next]; exact updateLog_next s r) hheld (p := .finishing r true)
      (by rw [hstart, leave_workers, ← updateLog_workers s r]; rfl)
    · intro x hx; cases hx
    · intro e he; cases he
    · intro x hx; rw [hheap, setEntry_index hx, hlog]
    · rw [hheap, setEntry_heap_self, List.append_nil]; exact hstands
    · intro i hi; cases hi
    · intro why hwhy; cases hwhy

theorem finish (h : Ordered s es) {o : Outcome} {i : Nat} (hw : s.workers w = .running r i) :
    Ordered (s.finish w r o) (es ++ emit s (.finish w o)) := by
  have hs : Step 0 s (.finish w o) (s.finish w r o) := .finish o hw
  have hheld : (s.workers w).held = some r := by rw [hw]; rfl
  have hstands := h.stands (h.wf.workers (Pc.entry_of_held hheld))
  obtain ⟨hi, hlt, hdone⟩ := h.running hw
  have hnext : (s.finish w r o).next = s.next := by
    simp only [State.finish]
    split
    · rfl
    · exact leave_next _ _ _ _
  have hheap : (s.finish w r o).heap = (s.setEntry r (handleOutcome (s.heap r) o)).heap := by
    simp only [State.finish]
    split
    · rfl
    · exact leave_heap _ _ _ _
  have hpc : ∃ p, (s.finish w r o).workers = Function.update s.workers w p ∧
      (p = .restarting r .redo ∨ p = .finishing r true) := by
    simp only [State.finish]
    split
    · exact ⟨_, rfl, Or.inl rfl⟩
    · exact ⟨_, leave_workers _ _ _ _, Or.inr rfl⟩
  obtain ⟨p, hpc, hp⟩ := hpc
  have hemit : emit s (.finish w o) = if o = .success then [.succeeded (s.id r) i] else [] := by
    simp only [emit, hw]
  rw [hemit]
  apply h.act hs trivial rfl hnext hheld hpc
  · intro x hx
    rcases hp with rfl | rfl
    · cases hx; rfl
    · cases hx
  · intro e he
    split at he
    · rw [List.mem_singleton] at he; rw [he]; rfl
    · cases he
  · intro x hx
    rw [hheap, setEntry_index hx]
  · rw [hheap, setEntry_heap_self]
    cases o with
    -- Only a success moves the index on, and only a success is told.
    | success =>
      rw [if_pos rfl, ← hi]
      exact hstands.succeed (hi.symm ▸ hdone) (hi.symm ▸ hlt)
    | failure => rw [if_neg (by simp), List.append_nil]; exact hstands
    | exception => rw [if_neg (by simp), List.append_nil]; exact hstands
  · intro j hj
    rcases hp with rfl | rfl <;> cases hj
  · intro why hwhy hne
    rcases hp with rfl | rfl
    · cases hwhy; exact absurd rfl hne
    · cases hwhy

/-- A restart only sets the index back after a disturbance or after the last sub job. -/
theorem restart (h : Ordered s es) {why : Restarting} {now : ℚ}
    (hw : s.workers w = .restarting r why) (hsafe : SafeChain s (.restart w now)) :
    Ordered (s.restart w r why now) (es ++ emit s (.restart w now)) := by
  have hs : Step 0 s (.restart w now) (s.restart w r why now) := .restart now hw
  have hheld : (s.workers w).held = some r := by rw [hw]; rfl
  have hlt := h.wf.workers (Pc.entry_of_held hheld)
  have hstands := h.stands hlt
  obtain ⟨_, hframe⟩ := restartJob_frame s now (s.id r)
  have hnextJob := restartJob_next s now (s.id r)
  have hnext : (s.restart w r why now).next = s.next := by
    cases why
    · exact (leave_next _ _ _ _).trans hnextJob
    · exact (leave_next _ _ _ _).trans hnextJob
    · exact (leave_next _ _ _ _).trans hnextJob
  have hpc : ∃ requeue, (s.restart w r why now).workers =
      Function.update s.workers w (.finishing r requeue) := by
    cases why
    · exact ⟨_, (leave_workers _ _ _ _).trans (by rw [← hframe]; rfl)⟩
    · exact ⟨_, (leave_workers _ _ _ _).trans (by rw [hframe])⟩
    · exact ⟨_, (leave_workers _ _ _ _).trans (by rw [hframe])⟩
  have hindex : ∀ x, ((s.restart w r why now).heap x).subJobIndex =
      ((s.restartJob now (s.id r)).heap x).subJobIndex := by
    intro x
    cases why
    · simp only [State.restart, leave_heap]
      by_cases hx : x = r
      · subst hx; rw [setEntry_heap_self]
      · exact setEntry_index hx
    · simp only [State.restart, leave_heap]
    · simp only [State.restart, leave_heap]
  obtain ⟨requeue, hpc⟩ := hpc
  -- What `restart_job` does to the entries.
  have hjob : (∀ x, ((s.restartJob now (s.id r)).heap x).subJobIndex = (s.heap x).subJobIndex) ∨
      (why = .redo → (s.heap r).subJobs.length ≤ (s.heap r).subJobIndex) ∧
        ((s.restartJob now (s.id r)).heap r).subJobIndex = 0 ∧
        ∀ {x}, x ≠ r → ((s.restartJob now (s.id r)).heap x).subJobIndex = (s.heap x).subJobIndex := by
    cases hlog : s.log.get? (s.id r) with
    | none =>
      have hsame : s.restartJob now (s.id r) = s := by simp [State.restartJob, hlog]
      exact Or.inl fun x => by rw [hsame]
    | some y =>
      obtain ⟨hy, hid⟩ := h.wf.log hlog
      obtain rfl : y = r := h.ids hy hlt hid
      have hheap : (s.restartJob now (s.id y)).heap = (s.setEntry y ((s.heap y).restart now)).heap := by
        simp only [State.restartJob, hlog, updateLog_heap]
        rfl
      refine Or.inr ⟨?_, ?_, ?_⟩
      · rintro rfl
        rcases hsafe y hw with hnone | hlast
        · rw [hnone] at hlog
          cases hlog
        · exact hlast
      · rw [hheap, setEntry_heap_self]; rfl
      · intro x hx
        rw [hheap, setEntry_index hx]
  show Ordered _ (es ++ [])
  apply h.act hs hsafe rfl hnext hheld hpc
  · intro x hx; cases hx
  · intro e he; cases he
  · intro x hx
    rw [hindex]
    rcases hjob with hjob | ⟨_, _, hjob⟩
    · exact hjob x
    · exact hjob hx
  · rw [hindex, List.append_nil]
    rcases hjob with hjob | ⟨hlast, hzero, _⟩
    · rw [hjob]; exact hstands
    rw [hzero]
    by_cases hwhy : why = .redo
    · exact hstands.again (not_absent hheld) (hlast hwhy)
    · exact hstands.reset (h.restarting hw hwhy)
  · intro i hi; cases hi
  · intro why' hwhy; cases hwhy

/-- Every step keeps every job where it stands in its list. -/
theorem step (h : Ordered s es) (hs : Step cfg s a s') (hsafe : SafeChain s a) :
    Ordered s' (es ++ emit s a) := by
  have hs' := hs
  cases hs with
  | addJob now origin jobName auto => exact h.addJob hsafe
  | reloadJobs jobs => exact h.quiet hs' hsafe rfl rfl rfl fun _ => Or.inl rfl
  | restartJob now id => exact hsafe.elim
  | deleteLogId id =>
    have hsame : (s.deleteLogId id).next = s.next ∧ (s.deleteLogId id).heap = s.heap ∧
        (s.deleteLogId id).workers = s.workers := by
      unfold State.deleteLogId
      split <;> exact ⟨rfl, rfl, rfl⟩
    obtain ⟨hnext, hheap, hworkers⟩ := hsame
    exact h.quiet hs' hsafe rfl hnext hheap fun v => Or.inl (congrFun hworkers v)
  | deleteLogSuccess => exact h.quiet hs' hsafe rfl rfl rfl fun _ => Or.inl rfl
  | getNowait hw hq => exact h.pass hs' hsafe rfl rfl rfl rfl rfl
  | @reserve w r hw =>
    have hsame : (s.reserve w r).next = s.next ∧ (s.reserve w r).heap = s.heap ∧
        ∃ p, (s.reserve w r).workers = Function.update s.workers w p ∧ p.passive = true := by
      unfold State.reserve
      split
      · exact ⟨rfl, rfl, _, rfl, rfl⟩
      split
      · exact ⟨rfl, rfl, _, rfl, rfl⟩
      · exact ⟨rfl, rfl, _, rfl, rfl⟩
    obtain ⟨hnext, hheap, p, hpc, hp⟩ := hsame
    exact h.pass hs' hsafe rfl hnext hheap hpc hp
  | handle clk hw => exact h.handle hw
  | connect connected now hw => exact h.connect hw
  | start hw => exact h.start hw
  | finish o hw => exact h.finish hw
  | restart now hw => exact h.restart hw hsafe
  | @deactivate w r requeue hw =>
    have hsame : (s.deactivate w r requeue).next = s.next ∧
        (s.deactivate w r requeue).heap = s.heap ∧
        ∃ p, (s.deactivate w r requeue).workers = Function.update s.workers w p ∧
          p.passive = true := by
      rw [← updateLog_next s r, ← updateLog_heap s r, ← updateLog_workers s r]
      simp only [State.deactivate]
      split
      · exact ⟨rfl, rfl, _, rfl, rfl⟩
      · exact ⟨rfl, rfl, _, rfl, rfl⟩
    obtain ⟨hnext, hheap, p, hpc, hp⟩ := hsame
    exact h.pass hs' hsafe rfl hnext hheap hpc hp
  | @release w r hw =>
    have hsame : (s.release w r).next = s.next ∧ (s.release w r).heap = s.heap ∧
        ∃ p, (s.release w r).workers = Function.update s.workers w p ∧ p.passive = true := by
      unfold State.release
      split
      · exact ⟨rfl, rfl, _, rfl, rfl⟩
      · exact ⟨rfl, rfl, _, rfl, rfl⟩
    obtain ⟨hnext, hheap, p, hpc, hp⟩ := hsame
    exact h.pass hs' hsafe rfl hnext hheap hpc hp

end Ordered

/-! ## Runs -/

theorem Initial.ordered {s : State} (h0 : Initial s) : Ordered s [] := by
  have hidle := h0.loaded.workers
  have habs : ∀ x, s.places.Absent x := by
    refine fun x => ⟨by simp [State.places, h0.loaded.queue], fun w hw => ?_⟩
    simp [State.places, hidle w, Pc.held] at hw
  refine ⟨h0.loaded.wf, ?_, h0.ids, ?_, ?_, ?_, ?_⟩
  · intro v w r hv
    exact absurd hv ((habs r).2 v)
  · intro e he; cases he
  · intro x _
    refine ⟨⟨0, Nat.zero_le _, rfl⟩, ?_, .nil⟩
    intro hpresent
    exact absurd (habs _) hpresent
  · intro w r i hw; rw [hidle] at hw; cases hw
  · intro w r why hw; rw [hidle] at hw; cases hw

/-- In every round of every job its sub jobs succeed in the order of its list; where none
of them had its last attempt and the device stayed connected, the first sub job is
started again only after all of them succeeded. -/
theorem chain_order {cfg : Int} {s₀ s : State} {l : List Action} {es : List Event} {r : Ref}
    (h0 : Initial s₀)
    (hs : Run (recording (step cfg) emit) (fun p a => SafeChain p.1 a) (s₀, []) l (s, es))
    (hr : r < s.next) : Chained (s.id r) (s.heap r).subJobs.length es := by
  have hinv := Run.invariant (I := fun p => Ordered p.1 p.2) hs h0.ordered (by
    intro p a q h hsafe hpq
    obtain ⟨hstep, hes⟩ := recording_some hpq
    rw [hes]
    exact h.step (step_some hstep) hsafe)
  exact (hinv.stands hr).chained

/-- Both sub jobs of a job are done, one iteration each. -/
def bothDone : List Action := [.addJob "1" "dev" "reboot" none,
  .getNowait 0, .reserve 0, .handle 0 (.at 10), .connect 0 true 10, .start 0, .finish 0 .success,
  .deactivate 0, .getNowait 0, .reserve 0, .handle 0 (.at 20), .connect 0 true 20, .start 0,
  .finish 0 .success]

/-- Nothing puts a job into the queue a second time: no redone job is restarted while the log has it. -/
def Undoubled (s : State) : Action → Prop
  | .addJob now origin jobName _ => ∀ r, r < s.next → s.id r ≠ jobId now origin jobName
  | .restartJob _ _ => False
  | .restart w _ => ∀ r, s.workers w = .restarting r .redo → s.log.get? (s.id r) = none
  | _ => True

theorem Undoubled.requeue {s : State} {a : Action} (h : Wf s) (hone : Undoubled s a) : SafeRequeue s a := by
  cases a with
  | addJob now origin jobName auto =>
    refine ⟨?_, ?_⟩
    · intro hmem
      obtain ⟨x, hx, hid⟩ := List.mem_map.mp hmem
      exact hone x (h.queue hx) hid
    · intro w hw
      obtain ⟨x, hx, hid⟩ := Option.map_eq_some_iff.mp hw
      exact hone x (h.workers (Pc.entry_of_held hx)) hid
  | restartJob now id => exact hone.elim
  | restart w now => exact hone
  | _ => trivial

/-- Where a job is in one place at most, a task takes none that another one has. -/
theorem Undoubled.safeChain {s : State} {a : Action} (honce : s.work.AtMostOnce) (hone : Undoubled s a) :
    SafeChain s a := by
  cases a with
  | addJob now origin jobName auto => exact hone
  | restartJob now id => exact hone
  | restart w now => exact fun r hw => .inl (hone r hw)
  | getNowait w =>
    intro r hr v hv
    have hqueue : s.id r ∈ s.work.queue := List.mem_map_of_mem (List.mem_of_mem_head? hr)
    exact honce.apart (w := v) (by simp [State.work, hv]) hqueue
  | _ => trivial

theorem Undoubled.once {cfg : Int} {s s' : State} {a : Action} (h : Wf s ∧ s.work.AtMostOnce) (hone : Undoubled s a)
    (hs : Step cfg s a s') : Wf s' ∧ s'.work.AtMostOnce :=
  ⟨h.1.step hs, step_once h.1 (hone.requeue h.1) hs h.2⟩

theorem Undoubled.run {cfg : Int} {s₀ : State} {l : List Action} {p : State × List Event} (h0 : Initial s₀)
    (hs : Run (recording (step cfg) emit) (fun p a => Undoubled p.1 a) (s₀, []) l p) :
    Run (recording (step cfg) emit) (fun p a => SafeChain p.1 a) (s₀, []) l p := by
  exact hs.mono_of_invariant (I := fun p => Wf p.1 ∧ p.1.work.AtMostOnce) ⟨h0.loaded.wf, h0.loaded.atMostOnce⟩
    (fun _ _ _ h hone hpq => hone.once h (step_some (recording_some hpq).1)) fun _ _ h hone => hone.safeChain h.2

/-- No task awaits `restart_job`. -/
def restartless : Action → Bool
  | .restart _ _ => false
  | _ => true

theorem undoubled_of_restartless {s : State} {a : Action} (h : Unaided s a)
    (ha : restartless a = true) : Undoubled s a := by
  cases a with
  | restart w now => cases ha
  | addJob now origin jobName auto => exact h
  | restartJob now id => exact h
  | _ => trivial

/-- The state and the record after the actions of `l`. -/
def recorded (l : List Action) : State × List Event :=
  after (recording (step 0) emit) (fun p a => Unaided p.1 a ∧ restartless a = true)
    (blank.killOldJobs, []) l

theorem chain_order_both : Chained ((recorded bothDone).1.id 0)
    ((recorded bothDone).1.heap 0).subJobs.length (recorded bothDone).2 := by
  have hrun : Run (recording (step 0) emit) (fun p a => Unaided p.1 a ∧ restartless a = true)
      (blank.killOldJobs, []) bothDone (recorded bothDone) := .of_after (by decide)
  exact chain_order blank_initial
    (Undoubled.run blank_initial (hrun.mono fun _ _ h => undoubled_of_restartless h.1 h.2)) (by decide)

/-- The iteration after the first sub job of a redone job. -/
def redoneAgain : List Action := redone ++ [.deactivate 0, .release 0, .getNowait 0, .reserve 0,
  .handle 0 (.at 10), .connect 0 true 10, .start 0]

def startsOver : State × List Event :=
  after (recording (step 0) emit) (fun p a => Unaided p.1 a) (blank.killOldJobs, []) redoneAgain

/-- It starts the first of the two sub jobs again. -/
theorem redo_starts_over : ¬ ∀ (cfg : Int) (s₀ s : State) (l : List Action) (es : List Event)
    (r : Ref), Initial s₀ →
    Run (recording (step cfg) emit) (fun p a => Unaided p.1 a) (s₀, []) l (s, es) →
    r < s.next → Chained (s.id r) (s.heap r).subJobs.length es := by
  intro h
  have hrun : Run (recording (step 0) emit) (fun p a => Unaided p.1 a) (blank.killOldJobs, [])
      redoneAgain startsOver := .of_after (by decide)
  have hchained := h 0 _ startsOver.1 _ startsOver.2 0 blank_initial hrun (by decide)
  have hid : startsOver.1.id 0 = "1_dev_reboot" := by decide
  have hes : startsOver.2 = [.started "1_dev_reboot" 0, .succeeded "1_dev_reboot" 0,
      .started "1_dev_reboot" 0] := by decide
  have hlength : (startsOver.1.heap 0).subJobs.length = 2 := by decide
  rw [hid, hes, hlength] at hchained
  have hround := (hchained [] (.started "1_dev_reboot" 0) [.succeeded "1_dev_reboot" 0]
    [.started "1_dev_reboot" 0] rfl (by decide) (by decide)).2 _ _ rfl (by decide)
  exact absurd (hround ⟨by decide, by decide⟩ (by decide)) (by decide)

end MapADroid.Updater
