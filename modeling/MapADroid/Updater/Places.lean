import MapADroid.Updater.Invariant

/- Where one entry is.

   The queue and the tasks are a `WorkQueue` of references (`State.places`): at a step at
   most one entry comes in from outside, and the tasks move the others about
   (`step_places`). -/
namespace MapADroid.Updater
open Lib

/-- The queue and what the tasks process, by reference. -/
def State.places (s : State) : WorkQueue Worker Ref where
  queue := s.jobQueue
  held w := (s.workers w).held

/-- The entry that a step puts into the queue from outside: the new one of `add_job`, or that of
`restart_job`. -/
def State.incoming (s : State) : Action → Option Ref
  | .addJob _ _ jobName _ => (s.availableJobs jobName).map fun _ => s.next
  | .restartJob _ id => s.log.get? id
  | .restart w _ => match s.workers w with
    | .restarting r _ => s.log.get? (s.id r)
    | _ => none
  | _ => none

/-- The queue and the tasks once that entry is in the queue. -/
def State.entered (s : State) (a : Action) : WorkQueue Worker Ref :=
  (s.incoming a).elim s.places s.places.enqueue

variable {cfg : Int} {s s' : State} {a : Action} {r : Ref}

theorem setPc_places (s : State) (w : Worker) (p : Pc) :
    (s.setPc w p).places = ⟨s.jobQueue, Function.update s.places.held w p.held⟩ := by
  have hheld : (s.setPc w p).places.held = Function.update s.places.held w p.held := by
    funext v
    by_cases hv : v = w
    · subst hv
      simp [State.places, State.setPc]
    · simp only [State.places, State.setPc, Function.update_of_ne hv]
  rw [← hheld]
  rfl

theorem updateLog_places (s : State) (r : Ref) : (s.updateLog r).places = s.places := by
  unfold State.places
  rw [updateLog_jobQueue, updateLog_workers]

/-- A task goes on with its entry, or without one. -/
theorem stay_places {t : State} {q : WorkQueue Worker Ref} (ht : t.places = q) {w : Worker} {p : Pc}
    (hp : p.held = (t.workers w).held) : q.Move (t.setPc w p).places := by
  have hsame : Function.update t.places.held w (t.workers w).held = t.places.held :=
    Function.update_eq_self w t.places.held
  rw [setPc_places, hp, hsame, ← ht]
  exact .stay _

/-- A task puts its entry back or drops it. -/
theorem leave_places {t : State} {q : WorkQueue Worker Ref} (ht : t.places = q) {w : Worker} {r : Ref}
    (hw : (t.workers w).held = some r) (requeue : Bool) : q.Move (t.leave w r requeue).places := by
  rw [← ht]
  cases requeue
  · rw [show t.leave w r false = t.setPc w (.finishing r false) from rfl, setPc_places]
    exact .drop w
  · rw [show t.leave w r true = (t.put r).setPc w (.finishing r true) from rfl, setPc_places]
    exact .handBack (q := t.places) hw

theorem restartJob_places (s : State) (now : ℚ) (id : String) :
    (s.restartJob now id).places = (s.log.get? id).elim s.places s.places.enqueue := by
  unfold State.restartJob
  cases s.log.get? id with
  | none => rfl
  | some x => exact updateLog_places _ x

/-- Once what comes in is in the queue, a step is a move of the tasks. -/
theorem step_places (hs : Step cfg s a s') : (s.entered a).Move s'.places := by
  cases hs with
  | addJob now origin jobName auto =>
    simp only [State.entered, State.incoming, State.addJob]
    cases s.availableJobs jobName with
    | none => exact .stay s.places
    | some jobs =>
      show (s.places.enqueue s.next).Move (State.updateLog _ s.next).places
      rw [updateLog_places]
      exact .stay (s.places.enqueue s.next)
  | reloadJobs jobs => exact .stay _
  | restartJob now id =>
    rw [restartJob_places]
    exact .stay _
  | deleteLogId id => unfold State.deleteLogId; split <;> exact .stay _
  | deleteLogSuccess => exact .stay _
  | @getNowait w r rest hw hq =>
    rw [setPc_places]
    exact .take (q := s.places) hq
  | @reserve w r hw =>
    have hheld : (s.workers w).held = some r := by rw [hw]; rfl
    unfold State.reserve
    split
    · exact leave_places (t := s) rfl hheld false
    split
    · rw [setPc_places]
      exact .handBack (q := s.places) hheld
    · exact stay_places (t := s.setRunning _) rfl hheld.symm
  | @handle w r clk hw =>
    have hheld : (s.workers w).held = some r := by rw [hw]; rfl
    simp only [State.handle]
    split
    · exact leave_places (t := s.setEntry r _) rfl hheld _
    · exact leave_places (t := s.setEntry r _) rfl hheld _
    · exact stay_places (t := s.setEntry r _) rfl hheld.symm
    · exact stay_places (t := s.setEntry r _) rfl hheld.symm
  | @connect w r connected now hw =>
    have hheld : ((s.updateLog r).workers w).held = some r := by rw [updateLog_workers, hw]; rfl
    simp only [State.connect]
    split
    · exact stay_places (t := (s.updateLog r).setEntry r _) (updateLog_places s r) hheld.symm
    · exact leave_places (t := (s.updateLog r).setEntry r _) (updateLog_places s r) hheld true
  | @start w r hw =>
    have hheld : ((s.updateLog r).workers w).held = some r := by rw [updateLog_workers, hw]; rfl
    simp only [State.start]
    split
    · exact stay_places (updateLog_places s r) hheld.symm
    · exact leave_places (t := (s.updateLog r).setEntry r _) (updateLog_places s r) hheld true
  | @finish w r i o hw =>
    have hheld : (s.workers w).held = some r := by rw [hw]; rfl
    simp only [State.finish]
    split
    · exact stay_places (t := s.setEntry r _) rfl hheld.symm
    · exact leave_places (t := s.setEntry r _) rfl hheld true
  | @restart w r why now hw =>
    have hheld : ((s.restartJob now (s.id r)).workers w).held = some r := by
      rw [(restartJob_frame s now (s.id r)).2, hw]
      rfl
    have hplaces : (s.restartJob now (s.id r)).places = s.entered (.restart w now) := by
      rw [restartJob_places]
      simp only [State.entered, State.incoming, hw]
    cases why with
    | failing => exact leave_places (t := (s.restartJob now (s.id r)).setEntry r _) hplaces hheld false
    | notConnected => exact leave_places hplaces hheld false
    | redo => exact leave_places hplaces hheld true
  | @deactivate w r requeue hw =>
    have hheld : ((s.updateLog r).workers w).held = none := by rw [updateLog_workers, hw]; rfl
    simp only [State.deactivate]
    split
    · exact stay_places (updateLog_places s r) hheld.symm
    · exact stay_places (updateLog_places s r) hheld.symm
  | @release w r hw =>
    have hheld : (s.workers w).held = none := by rw [hw]; rfl
    unfold State.release
    split
    · exact stay_places (t := s) rfl hheld.symm
    · exact stay_places (t := s.setRunning _) rfl hheld.symm

/-- An entry that is nowhere stays so until it comes in. -/
theorem step_absent (hs : Step cfg s a s') (h : s.places.Absent r) (hincoming : s.incoming a ≠ some r) :
    s'.places.Absent r := by
  apply (step_places hs).absent
  unfold State.entered
  cases hx : s.incoming a with
  | none => exact h
  | some x => exact h.enqueue_of_ne fun hxr => hincoming (hxr ▸ hx)

theorem Loaded.absent (h : Loaded s) (r : Ref) : s.places.Absent r := by
  refine ⟨by simp [State.places, h.queue], fun w hw => ?_⟩
  simp [State.places, h.workers w, Pc.held] at hw

end MapADroid.Updater
