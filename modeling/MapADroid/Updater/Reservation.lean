import MapADroid.Updater.Invariant

/- The reservation of a device for one job (`_running_jobs_per_origin`).

   The `finally` block of an iteration pops the reservation of the item's origin
   whenever it does not requeue the item, also after the two early exits that reserved
   nothing: a job that finds its device busy, or that is no longer in the log, releases
   the device of the job that runs on it, or fails with a `KeyError` and takes the task
   down (`busy_exit_releases`, `deleted_job_kills_worker`).

   While no iteration leaves early and no two iterations are at one job
   (`CleanDequeue`), a device stays reserved for its job until that job's own iteration
   releases it, no other job is handled on it (`device_reserved`), and no task dies
   (`workers_survive`). -/
namespace MapADroid.Updater
open Lib

/-- The name of a job that no step changes. -/
structure JobName where
  id : String
  origin : String
  deriving DecidableEq, Repr

namespace State

def name (s : State) (r : Ref) : JobName := ⟨s.id r, s.origin r⟩

/-- The devices, what each is reserved for, and the iterations past the look at that. -/
def table (s : State) : Reservations Worker JobName String where
  reserved o := (s.runningJobsPerOrigin.get? o).map s.name
  owner w := (s.workers w).owner.map s.name

end State

/-- A dequeued job is in the log, its device is not reserved for another job, and no
other iteration is at the job. -/
def CleanDequeue (s : State) : Action → Prop
  | .reserve w => ∀ r, s.workers w = .locking r →
      (s.log.get? (s.id r)).isSome ∧ s.busy r = false ∧
        ∀ v x, (s.workers v).owner = some x → s.id x ≠ s.id r
  | _ => True

/-- An iteration of the job with this id releases its device. -/
def Finishes (s : State) (id : String) : Action → Prop
  | .release w => (s.workers w).owner.map s.id = some id
  | _ => False

instance (s : State) (id : String) : (a : Action) → Decidable (Finishes s id a)
  | .release w => inferInstanceAs (Decidable ((s.workers w).owner.map s.id = some id))
  | .addJob _ _ _ _ | .reloadJobs _ | .restartJob _ _ | .deleteLogId _ | .deleteLogSuccess
  | .getNowait _ | .reserve _ | .handle _ _ | .connect _ _ _ | .start _ | .finish _ _
  | .restart _ _ | .deactivate _ => isFalse False.elim

/-! ## Steps on the reservations -/

theorem step_name {cfg : Int} {s s' : State} {a : Action} (hs : Step cfg s a s') {x : Ref}
    (hx : x < s.next) : s'.name x = s.name x := by
  obtain ⟨hid, horigin, _, _⟩ := step_same hs hx
  simp only [State.name, State.id, State.origin, hid, horigin]

/-- Only the end of an iteration and the look at the reservations touch them. -/
theorem step_running {cfg : Int} {s s' : State} {a : Action} (hs : Step cfg s a s')
    (hreserve : ∀ w, a ≠ .reserve w) (hrelease : ∀ w, a ≠ .release w) :
    s'.runningJobsPerOrigin = s.runningJobsPerOrigin := by
  cases hs with
  | addJob now origin jobName auto =>
    unfold State.addJob
    split
    · rfl
    · exact updateLog_running _ _
  | restartJob now id => exact (restartJob_frame s now id).1
  | deleteLogId id => unfold State.deleteLogId; split <;> rfl
  | reserve hw => exact absurd rfl (hreserve _)
  | handle clk hw =>
    simp only [State.handle]
    split
    · exact leave_running _ _ _ _
    · exact leave_running _ _ _ _
    · rfl
    · rfl
  | connect connected now hw =>
    simp only [State.connect]
    split
    · exact updateLog_running _ _
    · exact (leave_running _ _ _ _).trans (updateLog_running _ _)
  | start hw =>
    simp only [State.start]
    split
    · exact updateLog_running _ _
    · exact (leave_running _ _ _ _).trans (updateLog_running _ _)
  | finish o hw =>
    simp only [State.finish]
    split
    · rfl
    · exact leave_running _ _ _ _
  | @restart w r why now hw =>
    have hrestarted := (restartJob_frame s now (s.id r)).1
    cases why with
    | failing => exact (leave_running _ _ _ _).trans hrestarted
    | notConnected => exact (leave_running _ _ _ _).trans hrestarted
    | redo => exact (leave_running _ _ _ _).trans hrestarted
  | deactivate hw =>
    simp only [State.deactivate]
    split <;> exact updateLog_running _ _
  | release hw => exact absurd rfl (hrelease _)
  | _ => rfl

/-- A step that neither reserves nor releases: at most one worker moves, it stays with
its entry or lets go of it, and does not die. -/
theorem step_frame {cfg : Int} {s s' : State} {a : Action} (hs : Step cfg s a s')
    (hreserve : ∀ w, a ≠ .reserve w) (hrelease : ∀ w, a ≠ .release w) :
    s'.runningJobsPerOrigin = s.runningJobsPerOrigin ∧
      (s'.workers = s.workers ∨ ∃ w p, s'.workers = Function.update s.workers w p ∧
        (p.owner = (s.workers w).owner ∨ p.owner = none) ∧ p.alive) := by
  refine ⟨step_running hs hreserve hrelease, ?_⟩
  rcases step_moves hs with hwork | ⟨w, p, q, hp, hwork, hmoves⟩
  · exact Or.inl hwork
  refine Or.inr ⟨w, q, hwork, ?_⟩
  rw [hp]
  cases hmoves with
  | taken r => exact ⟨Or.inr rfl, rfl⟩
  | kept r requeue => exact ⟨Or.inr rfl, rfl⟩
  | dropped r => exact absurd rfl (hreserve w)
  | reserved r => exact absurd rfl (hreserve w)
  | released r => exact absurd rfl (hrelease w)
  | died r hgone => exact absurd rfl (hrelease w)
  | _ => exact ⟨Or.inl rfl, rfl⟩

/-- With the running jobs unchanged, moving one worker moves its owner. -/
theorem table_of_frame {s s' : State} (h : Wf s)
    (hname : ∀ x, x < s.next → s'.name x = s.name x)
    (hrun : s'.runningJobsPerOrigin = s.runningJobsPerOrigin) {w : Worker} {p : Pc}
    (hwork : s'.workers = Function.update s.workers w p)
    (hp : ∀ x, p.owner = some x → x < s.next) :
    s'.table = ⟨s.table.reserved, Function.update s.table.owner w (p.owner.map s.name)⟩ := by
  have hmap : ∀ {q : Option Ref}, (∀ x, q = some x → x < s.next) → q.map s'.name = q.map s.name := by
    intro q hq
    cases q with
    | none => rfl
    | some x => simp [hname x (hq x rfl)]
  unfold State.table
  congr 1
  · funext o
    rw [hrun]
    exact hmap fun x hx => (h.running hx).1
  · funext v
    rw [hwork]
    by_cases hv : v = w
    · subst hv
      simp only [Function.update_self]
      exact hmap hp
    · simp only [Function.update_of_ne hv]
      exact hmap fun x hx => h.workers (Pc.entry_of_owner hx)

theorem reserve_table {s : State} {w : Worker} {r : Ref} (hlog : (s.log.get? (s.id r)).isSome)
    (hbusy : s.busy r = false) : (s.reserve w r).table =
      ⟨Function.update s.table.reserved (s.origin r) (some (s.name r)),
        Function.update s.table.owner w (some (s.name r))⟩ := by
  have hnone : (s.log.get? (s.id r)).isNone = false := by
    rw [Option.isNone_eq_false_iff]; exact hlog
  have hres : s.reserve w r =
      (s.setRunning (s.runningJobsPerOrigin.insert (s.origin r) r)).setPc w (.activating r) := by
    simp [State.reserve, hnone, hbusy]
  rw [hres]
  unfold State.table
  congr 1
  · funext o
    by_cases ho : o = s.origin r
    · subst ho; simp [State.setPc, State.setRunning, State.name, State.id, State.origin]
    · simp only [State.setPc, State.setRunning, Dict.get?_insert_of_ne ho, Function.update_of_ne ho]
      rfl
  · funext v
    by_cases hv : v = w
    · subst hv; simp [State.setPc, Pc.owner, Pc.handling]; rfl
    · simp only [State.setPc, Function.update_of_ne hv]; rfl

theorem release_table {s : State} {w : Worker} {r : Ref} :
    ((s.setRunning (s.runningJobsPerOrigin.erase (s.origin r))).setPc w .idle).table =
      ⟨Function.update s.table.reserved (s.origin r) none, Function.update s.table.owner w none⟩ := by
  unfold State.table
  congr 1
  · funext o
    by_cases ho : o = s.origin r
    · subst ho; simp [State.setPc, State.setRunning]
    · simp only [State.setPc, State.setRunning, Dict.get?_erase, if_neg ho, Function.update_of_ne ho]
      rfl
  · funext v
    by_cases hv : v = w
    · subst hv; simp [State.setPc, Pc.owner, Pc.handling]
    · simp only [State.setPc, Function.update_of_ne hv]; rfl

/-- Every clean step is a move of the reservations. -/
theorem step_table {cfg : Int} {s s' : State} {a : Action} (h : Wf s) (hc : CleanDequeue s a)
    (hs : Step cfg s a s') : s.table.Move JobName.origin s'.table := by
  have hname : ∀ x, x < s.next → s'.name x = s.name x := fun x hx => step_name hs hx
  by_cases hreserve : ∃ w, a = .reserve w
  · obtain ⟨w, rfl⟩ := hreserve
    cases hs with
    | @reserve _ r hw =>
    obtain ⟨hlog, hbusy, hother⟩ := hc r hw
    have hfree : ∀ y, s.table.reserved (s.name r).origin = some y → ∀ v, s.table.owner v ≠ some y := by
      intro y hy v hv
      obtain ⟨b, hb, rfl⟩ := Option.map_eq_some_iff.mp hy
      obtain ⟨x, hx, hxb⟩ := Option.map_eq_some_iff.mp hv
      have hbid : s.id b = s.id r := by
        change s.runningJobsPerOrigin.get? (s.origin r) = some b at hb
        simpa [State.busy, hb] using hbusy
      have hxid : s.id x = s.id b := congrArg JobName.id hxb
      exact hother v x hx (hxid.trans hbid)
    -- The device is free, or reserved for this very job, which no worker is at.
    rw [reserve_table hlog hbusy]
    exact .acquire w hfree
  by_cases hrelease : ∃ w, a = .release w
  · obtain ⟨w, rfl⟩ := hrelease
    cases hs with
    | @release _ r hw =>
    have hown : s.table.owner w = some (s.name r) := by simp [State.table, hw, Pc.owner]
    unfold State.release
    split
    · have hdead : (s.setPc w (.dead .keyError)).table =
          ⟨s.table.reserved, Function.update s.table.owner w ((Pc.dead .keyError).owner.map s.name)⟩ :=
        table_of_frame h (by intro x _; rfl) (by rfl) (by rfl) (by intro x hx; cases hx)
      rw [hdead]
      exact .leave w
    · rw [release_table]
      exact .release hown
  -- Any other step: at most one worker stays with its entry or lets go of it.
  obtain ⟨hrun, hwork | ⟨w, p, hwork, hp, _⟩⟩ := step_frame hs
    (fun w hw => hreserve ⟨w, hw⟩) (fun w hw => hrelease ⟨w, hw⟩)
  · have hstay : s'.workers = Function.update s.workers 0 (s.workers 0) := by
      rw [hwork, Function.update_eq_self]
    have hsame : Function.update s.table.owner 0 (((s.workers 0).owner).map s.name) = s.table.owner :=
      Function.update_eq_self 0 s.table.owner
    rw [table_of_frame h hname hrun hstay fun x hx => h.workers (Pc.entry_of_owner hx), hsame]
    exact .stay _
  · rcases hp with hp | hp
    · have hsame : Function.update s.table.owner w (((s.workers w).owner).map s.name) = s.table.owner :=
        Function.update_eq_self w s.table.owner
      rw [table_of_frame h hname hrun hwork fun x hx => h.workers (Pc.entry_of_owner (hp ▸ hx)), hp,
        hsame]
      exact .stay _
    · have hlt : ∀ x, p.owner = some x → x < s.next := by
        intro x hx; rw [hp] at hx; cases hx
      rw [table_of_frame h hname hrun hwork hlt, hp]
      exact .leave w

/-- Whoever is at a job has the job's device reserved, and no other worker is at a job
of that device. -/
theorem clean_exclusive {cfg : Int} {s₀ s : State} {l : List Action} (h0 : Initial s₀)
    (h : Run (step cfg) CleanDequeue s₀ l s) : Wf s ∧ s.table.Exclusive JobName.origin := by
  refine Run.invariant (I := fun s => Wf s ∧ s.table.Exclusive JobName.origin) h ⟨h0.loaded.wf, ?_⟩ ?_
  · have hnone : ∀ w, s₀.table.owner w = none := by
      intro w; simp [State.table, h0.loaded.workers w, Pc.owner, Pc.handling]
    refine ⟨?_, ?_⟩
    · intro w x hx; rw [hnone] at hx; cases hx
    · intro v w x y hx; rw [hnone] at hx; cases hx
  · intro t a u hinv hc hs
    obtain ⟨hwf, hex⟩ := hinv
    have hstep := step_some hs
    exact ⟨hwf.step hstep, (step_table hwf hc hstep).exclusive hex⟩

/-! ## Devices stay reserved -/

theorem reserved_of_owner {s : State} (hex : s.table.Exclusive JobName.origin) {w : Worker} {r : Ref}
    (hw : (s.workers w).owner = some r) :
    ∃ b, s.runningJobsPerOrigin.get? (s.origin r) = some b ∧ s.id b = s.id r := by
  have hown : s.table.owner w = some (s.name r) := by simp [State.table, hw]
  obtain ⟨b, hb, hname⟩ := Option.map_eq_some_iff.mp (hex.reserved hown)
  exact ⟨b, hb, congrArg JobName.id hname⟩

/-- A clean step that is not the end of the reserving job's own iteration leaves the
device reserved for that job. -/
theorem step_reserved {cfg : Int} {s s' : State} {x : Action} (h : Wf s)
    (hex : s.table.Exclusive JobName.origin) (hc : CleanDequeue s x) (hs : Step cfg s x s')
    {o : String} {a : Ref} (ha : s.runningJobsPerOrigin.get? o = some a)
    (hfin : ¬ Finishes s (s.id a) x) :
    ∃ b, s'.runningJobsPerOrigin.get? o = some b ∧ s'.id b = s.id a := by
  have hkeep : ∀ {b}, b < s.next → s'.id b = s.id b := fun hb => congrArg JobName.id (step_name hs hb)
  have halloc := (h.running ha).1
  by_cases hreserve : ∃ w, x = .reserve w
  · obtain ⟨w, rfl⟩ := hreserve
    cases hs with
    | @reserve _ r hw =>
    obtain ⟨hlog, hbusy, _⟩ := hc r hw
    have hnone : (s.log.get? (s.id r)).isNone = false := by
      rw [Option.isNone_eq_false_iff]; exact hlog
    have hrun : (s.reserve w r).runningJobsPerOrigin =
        s.runningJobsPerOrigin.insert (s.origin r) r := by
      simp [State.reserve, hnone, hbusy, State.setPc, State.setRunning]
    rw [hrun, Dict.get?_insert]
    by_cases ho : o = s.origin r
    · subst ho
      have haid : s.id a = s.id r := by simpa [State.busy, ha] using hbusy
      refine ⟨r, by simp, ?_⟩
      rw [hkeep (h.workers (by rw [hw]; rfl)), haid]
    · exact ⟨a, by rw [if_neg ho, ha], hkeep halloc⟩
  by_cases hrelease : ∃ w, x = .release w
  · obtain ⟨w, rfl⟩ := hrelease
    cases hs with
    | @release _ r hw =>
    have hown : (s.workers w).owner = some r := by rw [hw]; rfl
    obtain ⟨b, hb, hid⟩ := reserved_of_owner hex hown
    -- The device that is released is reserved for the worker's own job, so it is not `o`.
    have ho : o ≠ s.origin r := by
      intro ho
      subst ho
      rw [ha, Option.some.injEq] at hb
      exact hfin (by simp [Finishes, hown, ← hid, hb])
    refine ⟨a, ?_, hkeep halloc⟩
    unfold State.release
    rw [hb]
    simp only [State.setPc, State.setRunning, Dict.get?_erase, if_neg ho, ha]
  · obtain ⟨hrun, _⟩ := step_frame hs
      (fun w hw => hreserve ⟨w, hw⟩) (fun w hw => hrelease ⟨w, hw⟩)
    exact ⟨a, by rw [hrun, ha], hkeep halloc⟩

/-- Once a device is reserved for a job it stays so until an iteration of that job
releases it, whatever the tasks do in between, and the tasks handle no other job of the
device. -/
theorem device_reserved {cfg : Int} {s₀ s t : State} {l m : List Action} {o : String} {a : Ref}
    (h0 : Initial s₀) (hs : Run (step cfg) CleanDequeue s₀ l s)
    (ha : s.runningJobsPerOrigin.get? o = some a)
    (ht : Run (step cfg) (fun u x => CleanDequeue u x ∧ ¬ Finishes u (s.id a) x) s m t) :
    (∃ b, t.runningJobsPerOrigin.get? o = some b ∧ t.id b = s.id a) ∧
      ∀ w r, (t.workers w).handling = some r → t.origin r = o → t.id r = s.id a := by
  have hinv := Run.invariant (I := fun u => (Wf u ∧ u.table.Exclusive JobName.origin) ∧
      ∃ b, u.runningJobsPerOrigin.get? o = some b ∧ u.id b = s.id a) ht
    ⟨clean_exclusive h0 hs, a, ha, rfl⟩ (by
      intro u x v hu hx hstep
      obtain ⟨⟨hwf, hex⟩, b, hb, hid⟩ := hu
      obtain ⟨hc, hfin⟩ := hx
      have hstep := step_some hstep
      rw [← hid] at hfin
      obtain ⟨b', hb', hid'⟩ := step_reserved hwf hex hc hstep hb hfin
      exact ⟨⟨hwf.step hstep, (step_table hwf hc hstep).exclusive hex⟩, b', hb', hid'.trans hid⟩)
  obtain ⟨⟨_, hex⟩, b, hb, hid⟩ := hinv
  refine ⟨⟨b, hb, hid⟩, ?_⟩
  intro w r hw ho
  obtain ⟨b', hb', hid'⟩ := reserved_of_owner hex (Pc.owner_of_handling hw)
  rw [ho, hb, Option.some.injEq] at hb'
  rw [← hid', ← hb', hid]

/-! ## Tasks survive -/

/-- A task only dies at the end of its iteration, of a reservation that is gone. -/
theorem step_alive {cfg : Int} {s s' : State} {a : Action} (hs : Step cfg s a s')
    (hrel : ∀ w r, a = .release w → s.workers w = .releasing r →
      (s.runningJobsPerOrigin.get? (s.origin r)).isSome)
    (hal : ∀ w, (s.workers w).alive) : ∀ w, (s'.workers w).alive := by
  intro v
  rcases step_moves hs with hwork | ⟨w, p, q, hp, hwork, hmoves⟩
  · rw [hwork]
    exact hal v
  rw [hwork]
  by_cases hv : v = w
  · subst hv
    rw [Function.update_self]
    cases hmoves with
    | died r hgone =>
      have hsome := hrel v r rfl hp
      rw [hgone] at hsome
      cases hsome
    | _ => rfl
  · rw [Function.update_of_ne hv]
    exact hal v

theorem releasing_reserved {s : State} (hex : s.table.Exclusive JobName.origin) {w : Worker} {r : Ref}
    (hw : s.workers w = .releasing r) : (s.runningJobsPerOrigin.get? (s.origin r)).isSome := by
  obtain ⟨b, hb, _⟩ := reserved_of_owner hex (w := w) (r := r) (by rw [hw]; rfl)
  rw [hb]; rfl

/-- No exception leaves a task, and the release step finds the reservation it pops. -/
theorem workers_survive {cfg : Int} {s₀ s : State} {l : List Action} (h0 : Initial s₀)
    (hs : Run (step cfg) CleanDequeue s₀ l s) :
    (∀ w e, s.workers w ≠ .dead e) ∧
      ∀ w r, s.workers w = .releasing r → (s.runningJobsPerOrigin.get? (s.origin r)).isSome := by
  have hnil : Run (step cfg) CleanDequeue s₀ [] s₀ := .nil _
  have hinv := Run.invariant (I := fun s => (Wf s ∧ s.table.Exclusive JobName.origin) ∧
      ∀ w, (s.workers w).alive) hs
    ⟨clean_exclusive h0 hnil, fun w => by rw [h0.loaded.workers w]; rfl⟩ (by
      intro t a u ht hc hstep
      obtain ⟨⟨hwf, hex⟩, hal⟩ := ht
      have hstep := step_some hstep
      exact ⟨⟨hwf.step hstep, (step_table hwf hc hstep).exclusive hex⟩,
        step_alive hstep (fun w r _ hw => releasing_reserved hex hw) hal⟩)
  obtain ⟨⟨_, hex⟩, hal⟩ := hinv
  refine ⟨?_, fun w r hw => releasing_reserved hex hw⟩
  intro w e hw
  have := hal w
  rw [hw] at this
  cases this

/-! ## A device with two jobs -/

/-- An updater that knows one job, of two sub jobs, and has no log. -/
def blank : State where
  heap _ := default
  next := 0
  jobQueue := []
  log := .empty
  availableJobs name := if name = "reboot" then some [{}, {}] else none
  runningJobsPerOrigin := .empty
  workers _ := .idle

theorem blank_initial : Initial blank.killOldJobs := by
  refine ⟨blank, ⟨rfl, ?_, rfl, fun _ => rfl⟩, ?_, rfl⟩
  · intro i r hr
    cases hr
  · intro r hr
    exact absurd hr (Nat.not_lt_zero r)

/-- A job is added and a task takes it. -/
def taken : State := after (step 0) Any blank.killOldJobs
  [.addJob "1" "dev" "reboot" none, .getNowait 0]

theorem taken_idle (w : Worker) : (taken.workers w).owner = none := by
  show (Function.update (fun _ => Pc.idle) 0 (.locking 0) w).owner = none
  by_cases hw : w = 0
  · subst hw; rfl
  · rw [Function.update_of_ne hw]; rfl

/-- The task reserves the device. -/
theorem taken_clean : CleanDequeue taken (.reserve 0) := by
  intro r hr
  obtain rfl : 0 = r := by
    have h0 : taken.workers 0 = .locking 0 := by decide
    rw [h0] at hr
    exact Pc.locking.inj hr
  refine ⟨by decide, by decide, ?_⟩
  intro v x hx
  rw [taken_idle] at hx
  cases hx

def reserved : State := after (step 0) Any taken [.reserve 0]

def handled : State :=
  after (step 0) Any reserved [.handle 0 (.at 10), .connect 0 true 10, .start 0]

theorem reserved_run : Run (step 0) CleanDequeue blank.killOldJobs
    [.addJob "1" "dev" "reboot" none, .getNowait 0, .reserve 0] reserved :=
  (((Run.nil _).snoc trivial rfl).snoc trivial rfl).snoc taken_clean rfl

theorem handled_run : Run (step 0) (fun u x => CleanDequeue u x ∧ ¬ Finishes u (reserved.id 0) x)
    reserved [.handle 0 (.at 10), .connect 0 true 10, .start 0] handled := by
  have hquiet : ∀ u x, CleanDequeue u x → ¬ Finishes u (reserved.id 0) x →
      CleanDequeue u x ∧ ¬ Finishes u (reserved.id 0) x := fun _ _ => And.intro
  refine .cons (hquiet _ (.handle 0 (.at 10)) trivial id) rfl ?_
  refine .cons (hquiet _ (.connect 0 true 10) trivial id) rfl ?_
  exact .cons (hquiet _ (.start 0) trivial id) rfl (.nil _)

theorem device_reserved_handled :
    (∃ b, handled.runningJobsPerOrigin.get? "dev" = some b ∧ handled.id b = reserved.id 0) ∧
      ∀ w r, (handled.workers w).handling = some r → handled.origin r = "dev" →
        handled.id r = reserved.id 0 :=
  device_reserved blank_initial reserved_run (by decide) handled_run

theorem workers_survive_reserved :
    (∀ w e, reserved.workers w ≠ .dead e) ∧
      ∀ w r, reserved.workers w = .releasing r →
        (reserved.runningJobsPerOrigin.get? (reserved.origin r)).isSome :=
  workers_survive blank_initial reserved_run

/-- A job is added, reserves its device and is started. -/
def firstRuns : State := after (step 0) Any blank.killOldJobs
  [.addJob "1" "dev" "reboot" none, .addJob "2" "dev" "reboot" none, .getNowait 0, .reserve 0,
    .handle 0 (.at 10), .connect 0 true 10, .start 0]

/-- Another task finds the device busy, and tries again. -/
def secondTries : State := after (step 0) (fun u x => ¬ Finishes u (firstRuns.id 0) x) firstRuns
  [.getNowait 1, .reserve 1, .deactivate 1, .release 1, .getNowait 1, .reserve 1]

/-- The `finally` block of the early exit pops the reservation of the job that runs: the
next try reserves the device for the second job while the first is still on it. -/
theorem busy_exit_releases : ¬ ∀ (cfg : Int) (s₀ s t : State) (l m : List Action) (o : String)
    (a : Ref), Initial s₀ → Run (step cfg) Any s₀ l s → s.runningJobsPerOrigin.get? o = some a →
    Run (step cfg) (fun u x => ¬ Finishes u (s.id a) x) s m t →
    (∃ b, t.runningJobsPerOrigin.get? o = some b ∧ t.id b = s.id a) ∧
      ∀ w r, (t.workers w).handling = some r → t.origin r = o → t.id r = s.id a := by
  intro h
  have hsecond := (h 0 _ firstRuns secondTries _ _ "dev" 0 blank_initial (Run.of_after (by decide))
    (by decide) (Run.of_after (by decide))).2 1 1 (by decide) (by decide)
  exact absurd hsecond (by decide)

/-- A job was deleted from the log while it was queued, and then dequeued. -/
def deletedQueued : State := after (step 0) Any blank.killOldJobs
  [.addJob "1" "dev" "reboot" none, .deleteLogId "1_dev_reboot", .getNowait 0, .reserve 0,
    .deactivate 0, .release 0]

/-- A job deleted from the log while it is queued takes the task that dequeues it down. -/
theorem deleted_job_kills_worker : ¬ ∀ (cfg : Int) (s₀ s : State) (l : List Action), Initial s₀ →
    Run (step cfg) Any s₀ l s →
    (∀ w e, s.workers w ≠ .dead e) ∧
      ∀ w r, s.workers w = .releasing r → (s.runningJobsPerOrigin.get? (s.origin r)).isSome := by
  intro h
  exact (h 0 _ deletedQueued _ blank_initial (Run.of_after (by decide))).1 0 .keyError (by decide)

end MapADroid.Updater
