import MapADroid.Updater.RedoOnError

/- What a step makes of one entry.

   The fields of an entry change only where a task in `__handle_job` with it, or a
   restart, changes them (`step_heap`). -/
namespace MapADroid.Updater
open Lib

variable {cfg : Int} {s s' : State} {a : Action} {r : Ref}

/-! ## The tasks -/

theorem handle_eq {w : Worker} {clk : Readings} (hs : Step cfg s (.handle w clk) s') (hw : s.workers w = .activating r) :
    s' = s.handle cfg w r clk := by
  cases hs with
  | handle _ hw' =>
  rw [hw] at hw'
  cases hw'
  rfl

theorem finish_eq {w : Worker} {i : Nat} {o : Outcome} (hs : Step cfg s (.finish w o) s') (hw : s.workers w = .running r i) :
    s' = s.finish w r o := by
  cases hs with
  | finish _ hw' =>
  rw [hw] at hw'
  cases hw'
  rfl

/-- A task comes to restart a job by handling it, or to redo it after its sub job. -/
theorem step_restarting (hs : Step cfg s a s') {v : Worker} {why : Restarting} (hv : s'.workers v = .restarting r why) :
    s.workers v = .restarting r why ∨
      (∃ clk, s.workers v = .activating r ∧ (handleStart cfg clk (s.heap r)).2 = .restarting why) ∨
        ∃ i, s.workers v = .running r i ∧ (s.heap r).redo = true ∧ why = .redo := by
  rcases step_moves hs with hwork | ⟨w, p, q, hp, hwork, hmoves⟩
  · exact .inl (hwork ▸ hv)
  by_cases hvw : v = w
  · subst hvw
    have hq : q = .restarting r why := by rw [← hv, hwork, Function.update_self]
    subst hq
    right
    -- two moves lead there: handling the entry, and the end of its sub job
    cases hmoves with
    | restarting _ clk =>
      obtain ⟨p, hpc, hp'⟩ := handle_pc s cfg v r clk
      rw [handle_eq hs hp, hpc, Function.update_self] at hv
      rcases hp' with rfl | ⟨requeue, rfl⟩ | ⟨why', rfl, hnext⟩
      · cases hv
      · cases hv
      · cases hv
        exact .inl ⟨clk, hp, hnext⟩
    | redone _ i o =>
      rw [finish_eq hs hp, State.finish] at hv
      split at hv
      · next hredo =>
        rw [setEntry_heap_self, GlobalJobLogEntry.redo, (handleOutcome_same (s.heap r) o).auto, Bool.and_eq_true] at hredo
        exact .inr ⟨i, hp, hredo.2, rfl⟩
      · rw [leave_workers, Function.update_self] at hv
        cases hv
  · rw [hwork, Function.update_of_ne hvw] at hv
    exact .inl hv

/-- A task runs a sub job until the device answers. -/
theorem step_ran (hs : Step cfg s a s') {v : Worker} {i : Nat} (hv : s.workers v = .running r i) :
    s'.workers v = .running r i ∨ ∃ o, a = .finish v o := by
  rcases step_moves hs with hwork | ⟨w, p, q, hp, hwork, hmoves⟩
  · exact .inl (hwork ▸ hv)
  rw [hwork]
  by_cases hvw : v = w
  · subst hvw
    rw [hv] at hp
    subst hp
    cases hmoves with
    | redone x j o => exact .inr ⟨o, rfl⟩
    | finished x j o => exact .inr ⟨o, rfl⟩
  · rw [Function.update_of_ne hvw]
    exact .inl hv

/-! ## The entries -/

/-- What a step makes of an entry. -/
def State.changed (cfg : Int) (s : State) (r : Ref) : Action → GlobalJobLogEntry
  | .addJob now origin jobName auto =>
    match s.availableJobs jobName with
    | none => s.heap r
    | some jobs => if r = s.next then State.newEntry now origin jobName jobs auto else s.heap r
  | .restartJob now id => if s.log.get? id = some r then (s.heap r).restart now else s.heap r
  | .handle w clk => if (s.workers w).held = some r then (handleStart cfg clk (s.heap r)).1 else s.heap r
  | .connect w connected now =>
    if (s.workers w).held = some r then handleConnect connected now (s.heap r) else s.heap r
  | .start w =>
    if (s.workers w).held = some r ∧ (s.heap r).subJobs.length ≤ (s.heap r).subJobIndex then
      handleOutcome (s.heap r) .exception
    else s.heap r
  | .finish w o => if (s.workers w).held = some r then handleOutcome (s.heap r) o else s.heap r
  | .restart w now =>
    let e := if s.incoming (.restart w now) = some r then (s.heap r).restart now else s.heap r
    if s.workers w = .restarting r .failing then { e with lastStatus := .failed } else e
  | _ => s.heap r

theorem setEntry_heap (s : State) (x r : Ref) (e : GlobalJobLogEntry) :
    (s.setEntry x e).heap r = if r = x then e else s.heap r := by
  by_cases hx : r = x
  · subst hx
    rw [setEntry_heap_self, if_pos rfl]
  · rw [RedoOnError.setEntry_heap_of_ne hx, if_neg hx]

theorem restartJob_heap (s : State) (now : ℚ) (id : String) (r : Ref) :
    (s.restartJob now id).heap r = if s.log.get? id = some r then (s.heap r).restart now else s.heap r := by
  unfold State.restartJob
  cases s.log.get? id with
  | none => simp
  | some x =>
    rw [updateLog_heap]
    show (s.setEntry x ((s.heap x).restart now)).heap r = _
    rw [setEntry_heap]
    by_cases hx : r = x
    · subst hx
      simp
    · simp [hx, Ne.symm hx]

theorem step_heap (hs : Step cfg s a s') (r : Ref) : s'.heap r = s.changed cfg r a := by
  cases hs with
  | addJob now origin jobName auto =>
    simp only [State.changed, State.addJob]
    cases s.availableJobs jobName with
    | none => rfl
    | some jobs =>
      rw [updateLog_heap]
      show Function.update s.heap s.next _ r = _
      rw [Function.update_apply]
  | restartJob now id => exact restartJob_heap s now id r
  | deleteLogId id => unfold State.deleteLogId; split <;> rfl
  | reserve hw =>
    unfold State.reserve
    split
    · rfl
    split <;> rfl
  | @handle w x clk hw =>
    rw [(handle_heap s cfg w x clk).2, setEntry_heap]
    simp only [State.changed, hw, Pc.held, Option.some.injEq, eq_comm (a := x)]
    split
    · next hx => rw [hx]
    · rfl
  | @connect w x connected now hw =>
    have hheap : ((s.updateLog x).setEntry x (handleConnect connected now (s.heap x))).heap r =
        s.changed cfg r (.connect w connected now) := by
      rw [setEntry_heap, updateLog_heap]
      simp only [State.changed, hw, Pc.held, Option.some.injEq, eq_comm (a := x)]
      split
      · next hx => rw [hx]
      · rfl
    simp only [State.connect]
    split
    · exact hheap
    · rw [leave_heap, hheap]
  | @start w x hw =>
    simp only [State.start, updateLog_heap]
    split
    · next hindex =>
      rw [show ((s.updateLog x).setPc w _).heap = (s.updateLog x).heap from rfl, updateLog_heap]
      simp only [State.changed, hw, Pc.held, Option.some.injEq]
      rw [if_neg]
      -- there is a sub job left, so it is not given up
      rintro ⟨rfl, hlength⟩
      omega
    · next hindex =>
      rw [leave_heap, setEntry_heap, updateLog_heap]
      simp only [State.changed, hw, Pc.held, Option.some.injEq, eq_comm (a := x)]
      by_cases hx : r = x
      · subst hx
        rw [if_pos rfl, if_pos ⟨rfl, Nat.not_lt.mp hindex⟩]
      · rw [if_neg hx, if_neg fun h => hx h.1]
  | @finish w x i o hw =>
    have hheap : (s.setEntry x (handleOutcome (s.heap x) o)).heap r = s.changed cfg r (.finish w o) := by
      rw [setEntry_heap]
      simp only [State.changed, hw, Pc.held, Option.some.injEq, eq_comm (a := x)]
      split
      · next hx => rw [hx]
      · rfl
    simp only [State.finish]
    split
    · exact hheap
    · rw [leave_heap, hheap]
  | @restart w x why now hw =>
    have hheap := restartJob_heap s now (s.id x)
    have hincoming : s.incoming (.restart w now) = s.log.get? (s.id x) := by simp only [State.incoming, hw]
    simp only [State.changed, hincoming, hw, Pc.restarting.injEq]
    -- the entry restarted is that of the log; `failing` also marks the task's own, which need not be the same
    cases why with
    | failing =>
      simp only [State.restart]
      rw [leave_heap, setEntry_heap, hheap, hheap]
      by_cases hx : r = x
      · subst hx
        simp
      · simp [hx, Ne.symm hx]
    | notConnected =>
      simp only [State.restart]
      rw [leave_heap, hheap]
      simp
    | redo =>
      simp only [State.restart]
      rw [leave_heap, hheap]
      simp
  | deactivate hw =>
    simp only [State.deactivate]
    split <;> exact congrFun (updateLog_heap s _) r
  | release hw => unfold State.release; split <;> rfl
  | _ => rfl

/-- A task in `__handle_job` with the entry takes the step. -/
def State.acts (s : State) (r : Ref) : Action → Prop
  | .handle w _ | .connect w _ _ | .start w | .finish w _ | .restart w _ => (s.workers w).held = some r
  | _ => False

/-- A step that neither acts on an entry nor brings it in leaves it alone. -/
theorem step_heap_other (hs : Step cfg s a s') (hr : r < s.next) (hacts : ¬ s.acts r a)
    (hincoming : s.incoming a ≠ some r) : s'.heap r = s.heap r := by
  rw [step_heap hs]
  cases a with
  | addJob now origin jobName auto =>
    simp only [State.changed]
    split
    · rfl
    · rw [if_neg (Nat.ne_of_lt hr)]
  | restartJob now id => exact if_neg hincoming
  | handle w clk => exact if_neg hacts
  | connect w connected now => exact if_neg hacts
  | start w => exact if_neg fun h => hacts h.1
  | finish w o => exact if_neg hacts
  | restart w now =>
    simp only [State.changed, if_neg hincoming]
    rw [if_neg]
    intro hw
    exact hacts (by simp [State.acts, hw, Pc.held])
  | _ => rfl

theorem next_le (hs : Step cfg s a s') : s.next ≤ s'.next := by
  rcases RedoOnError.step_next hs with hnext | ⟨_, _, _, _, _, hnext, _⟩
  · exact hnext.ge
  · exact hnext ▸ Nat.le_succ _

/-- What comes in is in use after the step. -/
theorem incoming_lt (h : Wf s) (hs : Step cfg s a s') (hincoming : s.incoming a = some r) : r < s'.next := by
  have hle := next_le hs
  cases hs with
  | addJob now origin jobName auto =>
    obtain ⟨jobs, hjobs, rfl⟩ := Option.map_eq_some_iff.mp hincoming
    have hnext : (s.addJob now origin jobName auto).next = s.next + 1 := by
      simp only [State.addJob, hjobs]
      exact updateLog_next _ _
    rw [hnext]
    exact Nat.lt_succ_self _
  | restartJob now id => exact Nat.lt_of_lt_of_le (h.log hincoming).1 hle
  | restart now hw =>
    simp only [State.incoming, hw] at hincoming
    exact Nat.lt_of_lt_of_le (h.log hincoming).1 hle
  | _ => cases hincoming

/-- An entry that is in use after a step and was not before comes in by it. -/
theorem incoming_of_new (hs : Step cfg s a s') (hr : r < s'.next) (hnew : ¬ r < s.next) :
    r = s.next ∧ s.incoming a = some r := by
  rcases RedoOnError.step_next hs with hnext | ⟨now, origin, jobName, auto, rfl, hnext, _⟩
  · rw [hnext] at hr
    exact absurd hr hnew
  · rw [hnext] at hr
    obtain rfl : r = s.next := Nat.le_antisymm (Nat.lt_succ_iff.mp hr) (Nat.not_lt.mp hnew)
    refine ⟨rfl, ?_⟩
    cases hs
    cases hjobs : s.availableJobs jobName with
    | none =>
      simp only [State.addJob, hjobs] at hnext
      exact absurd hnext (Nat.ne_of_lt (Nat.lt_succ_self _))
    | some jobs => simp [State.incoming, hjobs]

end MapADroid.Updater
