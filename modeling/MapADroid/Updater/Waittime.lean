import MapADroid.Updater.Clock

/- The waits before the sub jobs.

   `processing_date` is the moment a job is not to be run before, and it is the moment of
   its last run. `__handle_job` adds the `WAITTIME` of the next sub job only where there is
   no date, so only before the first sub job: after that the date is that of the run
   (`second_wait_skipped`).

   The wait before the first sub job is counted from a whole second, or from the next
   execution of an auto command, and a restart keeps a date that is not past. Where what it
   is counted from is not before the job is first handled, and no later wait is asked for,
   every wait is over when a sub job is started (`waits_honoured`). -/
namespace MapADroid.Updater.Waittime
open Lib

/-- What happens to a job. -/
inductive Event where
  /-- It is added or restarted. -/
  | reset
  | handled (t : ℚ)
  | started (i : Nat) (t : ℚ)
  | succeeded (i : Nat) (t : ℚ)
  deriving DecidableEq

def isReset : Event → Bool
  | .reset => true
  | _ => false

/-- What an action in state `s` that ends at `t` tells of the jobs that do not come in by it. -/
def told (s : State) (t : ℚ) : Action → List (Ref × Event)
  | .handle w clk => match s.workers w with
    | .activating r => [(r, .handled clk.now)]
    | _ => []
  | .start w => match s.workers w with
    | .starting r =>
      if (s.heap r).subJobIndex < (s.heap r).subJobs.length then [(r, .started (s.heap r).subJobIndex t)] else []
    | _ => []
  | .finish w o => match s.workers w with
    | .running r i => if o = .success then [(r, .succeeded i t)] else []
    | _ => []
  | _ => []

/-- What an action tells. -/
def emit (p : State × ℚ) (a : Action × ℚ) : List (Ref × Event) :=
  ((p.1.incoming a.1).map fun r => (r, Event.reset)).toList ++ told p.1 a.2 a.1

/-- `WAITTIME` of a sub job. -/
def waittime (e : GlobalJobLogEntry) (i : Nat) : Option Int := (e.subJobs[i]?).bind (·.waittime)

/-- When the job was first handled since it was added or restarted. -/
def firstHandled (es : List Event) : Option ℚ :=
  (since isReset es).findSome? fun
    | .handled t => some t
    | _ => none

/-- Every sub job is started after its wait. -/
def Waited (p : (State × ℚ) × List (Ref × Event)) : Prop :=
  ∀ r < p.1.1.next, ∀ pre i t post, history r p.2 = pre ++ .started i t :: post →
    ∀ m ∈ waittime (p.1.1.heap r) i,
      if i = 0 then ∃ t₀, firstHandled pre = some t₀ ∧ t₀ + 60 * m ≤ t
      else ∀ t₁, .succeeded (i - 1) t₁ ∈ pre → t₁ + 60 * m ≤ t

/-- The job has not been handled since it was added or restarted. -/
def untouched (e : GlobalJobLogEntry) : Bool := e.lastStatus = .init || e.lastStatus = .pending

/-- No sub job but the first has a positive `WAITTIME` when it is started. The first one's is counted from a moment
that is not before the job is handled; a date that a restart has kept is late enough for it. No task is past the checks
with a job that is restarted. -/
def Meets (s : State) : Action → Prop
  | .start w => ∀ r, s.workers w = .starting r → 0 < (s.heap r).subJobIndex →
      ∀ m ∈ waittime (s.heap r) (s.heap r).subJobIndex, m ≤ 0
  | .handle w clk => ∀ r, s.workers w = .activating r → (s.heap r).subJobIndex = 0 →
      ∀ m ∈ waittime (s.heap r) 0, 0 < m →
        ((s.heap r).processingDate = none →
          ∀ date, algoDate clk (s.heap r) = .ok (some date) → clk.now ≤ date.getD ⌊clk.wait⌋) ∧
        (untouched (s.heap r) = true → ∀ d ∈ (s.heap r).processingDate, clk.now + 60 * m ≤ d)
  | a@(.restartJob _ _) | a@(.restart _ _) =>
    ∀ r, s.incoming a = some r → ∀ v, RedoOnError.executing (s.workers v) ≠ some r
  | _ => True

/-! ## One job -/

/-- A job that was first handled at `t₀`, at `c`: its first sub job is not run before `t₀` plus `m` minutes. -/
structure Waiting (s : State) (c : ℚ) (r : Ref) (m : Int) (t₀ : ℚ) : Prop where
  past : t₀ ≤ c
  due : (s.heap r).subJobIndex = 0 → ∀ d ∈ (s.heap r).processingDate, t₀ + 60 * m ≤ d ∨ t₀ + 60 * m ≤ c
  attempted : (s.heap r).subJobIndex = 0 → (s.heap r).lastStatus = .notConnected → t₀ + 60 * m ≤ c
  passed : (s.heap r).subJobIndex = 0 → ∀ v, RedoOnError.executing (s.workers v) = some r → t₀ + 60 * m ≤ c

/-- A job that has not been handled yet. -/
structure Fresh (s : State) (r : Ref) : Prop where
  untouched : untouched (s.heap r) = true
  idle : ∀ v, RedoOnError.executing (s.workers v) ≠ some r

/-- What is known at `c` of a job that was first handled then, if at all. -/
def Live (s : State) (c : ℚ) (r : Ref) (m : Int) : Option ℚ → Prop
  | none => Fresh s r
  | some t₀ => Waiting s c r m t₀

/-- The job is nowhere, or failed, or is in the queue or at a task. -/
def Phase (s : State) (c : ℚ) (r : Ref) (m : Int) (first : Option ℚ) : Prop :=
  s.places.Absent r ∨ RedoOnError.Quiet s r ∨ Live s c r m first

variable {cfg : Int} {s s' : State} {a : Action} {r : Ref} {clk : Readings} {e : GlobalJobLogEntry} {c c' t₀ : ℚ} {m : Int}

theorem firstHandled_snoc (es : List Event) (e : Event) :
    firstHandled (es ++ [e]) = match e with
      | .reset => none
      | .handled t => some ((firstHandled es).getD t)
      | _ => firstHandled es := by
  unfold firstHandled
  cases e with
  | reset => rw [since_mark rfl]; rfl
  | handled t =>
    rw [since_quiet rfl, List.findSome?_append]
    cases (since isReset es).findSome? _ <;> rfl
  | started i t =>
    rw [since_quiet rfl, List.findSome?_append]
    exact Option.or_none
  | succeeded i t =>
    rw [since_quiet rfl, List.findSome?_append]
    exact Option.or_none

/-- The date that is set for the first sub job, where its wait is counted from no earlier a moment than `t₀`. -/
theorem schedule_first {scheduled : GlobalJobLogEntry} (hscheduled : schedule clk e = .ok (some scheduled))
    (hindex : e.subJobIndex = 0) (hm : m ∈ waittime e 0)
    (hkept : ∀ d ∈ e.processingDate, t₀ + 60 * m ≤ d ∨ t₀ + 60 * m ≤ c)
    (hset : e.processingDate = none → ∀ date, algoDate clk e = .ok (some date) →
      t₀ + 60 * m ≤ date.getD ⌊clk.wait⌋ + 60 * m ∨ t₀ + 60 * m ≤ c) :
    ∃ d, scheduled.processingDate = some d ∧ (t₀ + 60 * m ≤ d ∨ t₀ + 60 * m ≤ c) := by
  unfold schedule at hscheduled
  split at hscheduled
  · next hsome =>
    obtain ⟨d, hd⟩ := Option.isSome_iff_exists.mp hsome
    obtain rfl : e = scheduled := by simpa using hscheduled
    exact ⟨d, hd, hkept d hd⟩
  · next hnone =>
    have hnone : e.processingDate = none := by simpa using hnone
    cases halgo : algoDate clk e with
    | error err => rw [halgo] at hscheduled; cases hscheduled
    | ok date =>
      cases date with
      | none => rw [halgo] at hscheduled; cases hscheduled
      | some date =>
        rw [halgo] at hscheduled
        cases hscheduled
        have hwait : (e.subJobs[e.subJobIndex]?).bind (·.waittime) = some m := by rw [hindex]; exact hm
        refine ⟨date.getD ⌊clk.wait⌋ + 60 * m, ?_, hset hnone date halgo⟩
        simp only [addWaittime, hwait]

theorem Waiting.mono (h : Waiting s c r m t₀) (hc : c ≤ c') : Waiting s c' r m t₀ where
  past := h.past.trans hc
  due hindex d hd := (h.due hindex d hd).imp_right fun h => h.trans hc
  attempted hindex hstatus := (h.attempted hindex hstatus).trans hc
  passed hindex v hv := (h.passed hindex v hv).trans hc

/-- A job that is handled for the first time. -/
theorem Fresh.waiting {w : Worker} (h : Fresh s r) (hw : s.workers w = .activating r) (hm : m ∈ waittime (s.heap r) 0)
    (hmeets : Meets s (.handle w clk)) (hc : clk.now ≤ c) : Waiting s c r m clk.now where
  past := hc
  due hindex d hd := by
    rcases Int.lt_or_le 0 m with hpos | hneg
    · exact .inl ((hmeets r hw hindex m hm hpos).2 h.untouched d hd)
    · have hm' : (m : ℚ) ≤ 0 := by exact_mod_cast hneg
      exact .inr (by linarith)
  attempted _ hstatus := by
    have huntouched := h.untouched
    simp [Waittime.untouched, hstatus] at huntouched
  passed _ v hv := absurd hv (h.idle v)

/-- The first part of `__handle_job`. -/
theorem Waiting.handle {w : Worker} (h : Waiting s c r m t₀) (hw : s.workers w = .activating r)
    (hm : m ∈ waittime (s.heap r) 0) (hmeets : Meets s (.handle w clk)) (hnow : t₀ ≤ clk.now) (hcheck : clk.check ≤ c) :
    Waiting (s.handle cfg w r clk) c r m t₀ := by
  have hs : Step cfg s (.handle w clk) (s.handle cfg w r clk) := .handle clk hw
  have hheap : (s.handle cfg w r clk).heap r = (handleStart cfg clk (s.heap r)).1 := by
    rw [(handle_heap s cfg w r clk).2, setEntry_heap_self]
  have hindex : (handleStart cfg clk (s.heap r)).1.subJobIndex = (s.heap r).subJobIndex :=
    (handleStart_same cfg clk (s.heap r)).2
  have hexecuting : ∀ v, RedoOnError.executing ((s.handle cfg w r clk).workers v) = some r →
      RedoOnError.executing (s.workers v) = some r ∨ (handleStart cfg clk (s.heap r)).2 = .processing := by
    intro v hv
    rcases RedoOnError.step_executing hs hv with hv | ⟨clk', ha, _, hnext⟩
    · exact .inl hv
    · cases ha
      exact .inr hnext
  -- The date that is set, and the one there is, are late enough.
  have hscheduled : (s.heap r).subJobIndex = 0 → ∀ scheduled, schedule clk (s.heap r) = .ok (some scheduled) →
      ∃ d, scheduled.processingDate = some d ∧ (t₀ + 60 * m ≤ d ∨ t₀ + 60 * m ≤ c) := by
    intro hzero scheduled hscheduled
    refine schedule_first hscheduled hzero hm (h.due hzero) fun hnone date hdate => ?_
    rcases Int.lt_or_le 0 m with hpos | hneg
    · have hcounted := (hmeets r hw hzero m hm hpos).1 hnone date hdate
      exact .inl (by linarith)
    · have hm' : (m : ℚ) ≤ 0 := by exact_mod_cast hneg
      have hpast := h.past
      exact .inr (by linarith)
  have hhandled := handleStart_handled cfg clk (s.heap r)
  rw [← hheap] at hhandled hindex
  generalize he : (s.handle cfg w r clk).heap r = e' at hhandled hindex
  generalize (handleStart cfg clk (s.heap r)).2 = next at hhandled hexecuting
  cases hhandled with
  | given _ _ hnot =>
    refine ⟨h.past, ?_, ?_, ?_⟩ <;> rw [he]
    · exact h.due
    · exact h.attempted
    · intro hzero v hv
      exact h.passed hzero v ((hexecuting v hv).resolve_right hnot)
  | redone =>
    refine ⟨h.past, ?_, ?_, ?_⟩ <;> rw [he]
    · exact h.due
    · exact h.attempted
    · intro hzero v hv
      exact h.passed hzero v ((hexecuting v hv).resolve_right (by simp))
  | aborted =>
    refine ⟨h.past, ?_, ?_, ?_⟩ <;> rw [he]
    · exact h.due
    · intro _ hstatus
      cases hstatus
    · intro hzero v hv
      exact h.passed hzero v ((hexecuting v hv).resolve_right (by simp))
  | postponed hstatus =>
    have hover : (s.heap r).subJobIndex = 0 → t₀ + 60 * m ≤ c := fun hzero => h.attempted hzero hstatus
    refine ⟨h.past, ?_, ?_, ?_⟩ <;> rw [he]
    · exact fun hzero _ _ => .inr (hover hzero)
    · exact fun hzero _ => hover hzero
    · exact fun hzero _ _ => hover hzero
  | @future scheduled hsched hdue =>
    refine ⟨h.past, ?_, ?_, ?_⟩ <;> rw [he]
    · intro hzero d hd
      obtain ⟨d', hd', hle⟩ := hscheduled (hindex ▸ hzero) scheduled hsched
      obtain rfl : d' = d := Option.some.inj (hd'.symm.trans hd)
      exact hle
    · intro _ hstatus
      cases hstatus
    · intro hzero v hv
      rcases hexecuting v hv with hv | hv
      · exact h.passed (hindex ▸ hzero) v hv
      · cases hv
  | @processing scheduled hsched hdue =>
    have hover : (s.heap r).subJobIndex = 0 → t₀ + 60 * m ≤ c := by
      intro hzero
      obtain ⟨d, hd, hle⟩ := hscheduled hzero scheduled hsched
      have hd' : d ≤ clk.check := by simpa [GlobalJobLogEntry.dueAfter, hd] using hdue
      rcases hle with hle | hle
      · linarith
      · exact hle
    refine ⟨h.past, ?_, ?_, ?_⟩ <;> rw [he]
    · exact fun hzero _ _ => .inr (hover (hindex ▸ hzero))
    · exact fun hzero _ => hover (hindex ▸ hzero)
    · exact fun hzero _ _ => hover (hindex ▸ hzero)

/-- A step that does not handle the job or bring it in. -/
theorem Waiting.other (h : Waiting s c r m t₀) (hs : Step cfg s a s') (hr : r < s.next) (hincoming : s.incoming a ≠ some r)
    (hhandle : ∀ w clk, a = .handle w clk → (s.workers w).held ≠ some r) : Waiting s' c r m t₀ := by
  by_cases hidle : ∀ v, RedoOnError.executing (s.workers v) ≠ some r
  · have hnone := idle_step hs hhandle hidle
    rcases step_idle hs hr hincoming hhandle hidle with hheap | ⟨_, hheap⟩
    · refine ⟨h.past, ?_, ?_, fun _ v hv => absurd hv (hnone v)⟩ <;> rw [hheap]
      · exact h.due
      · exact h.attempted
    · refine ⟨h.past, ?_, ?_, fun _ v hv => absurd hv (hnone v)⟩ <;> rw [hheap]
      · exact h.due
      · intro _ hstatus
        cases hstatus
  · -- The wait is over since a task has passed the checks.
    simp only [not_forall, not_not] at hidle
    obtain ⟨v, hv⟩ := hidle
    have hover : (s'.heap r).subJobIndex = 0 → t₀ + 60 * m ≤ c :=
      fun hzero => h.passed (step_index hs hr hincoming hzero) v hv
    exact ⟨h.past, fun hzero _ _ => .inr (hover hzero), fun hzero _ => hover hzero, fun hzero _ _ => hover hzero⟩

theorem Fresh.other (h : Fresh s r) (hs : Step cfg s a s') (hr : r < s.next) (hincoming : s.incoming a ≠ some r)
    (hhandle : ∀ w clk, a = .handle w clk → (s.workers w).held ≠ some r) :
    RedoOnError.Quiet s' r ∨ Fresh s' r := by
  have hidle := idle_step hs hhandle h.idle
  rcases step_idle hs hr hincoming hhandle h.idle with hheap | ⟨_, hheap⟩
  · exact .inr ⟨by rw [hheap]; exact h.untouched, hidle⟩
  · exact .inl ⟨Nat.lt_of_lt_of_le hr (next_le hs), by rw [hheap], hidle⟩

/-- A job that is added or restarted. -/
theorem Fresh.of_incoming (h : Wf s) (hs : Step cfg s a s') (hincoming : s.incoming a = some r)
    (hidle : ∀ v, RedoOnError.executing (s.workers v) ≠ some r) : RedoOnError.Quiet s' r ∨ Fresh s' r := by
  have hnone : ∀ v, RedoOnError.executing (s'.workers v) ≠ some r := by
    refine idle_step hs ?_ hidle
    rintro w clk rfl
    cases hincoming
  have hheap := step_heap hs r
  cases a with
  | addJob now origin jobName auto =>
    obtain ⟨jobs, hjobs, rfl⟩ := Option.map_eq_some_iff.mp hincoming
    simp only [State.changed, hjobs, if_true] at hheap
    exact .inr ⟨by rw [hheap]; rfl, hnone⟩
  | restartJob now id =>
    rw [State.changed, if_pos (show s.log.get? id = some r from hincoming)] at hheap
    exact .inr ⟨by rw [hheap]; rfl, hnone⟩
  | restart w now =>
    simp only [State.changed, if_pos hincoming] at hheap
    split at hheap
    · next hw =>
      have hr : r < s.next := h.workers (by rw [hw]; rfl)
      exact .inl ⟨Nat.lt_of_lt_of_le hr (next_le hs), by rw [hheap], hnone⟩
    · exact .inr ⟨by rw [hheap]; rfl, hnone⟩
  | _ => cases hincoming

/-! ## The record -/

theorem told_of_incoming (t : ℚ) (hincoming : s.incoming a = some r) : told s t a = [] := by
  cases a with
  | handle w clk => cases hincoming
  | start w => cases hincoming
  | finish w o => cases hincoming
  | _ => rfl

/-- What a step tells of a job that it does not bring in. -/
theorem history_told (hs : Step cfg s a s') (r : Ref) (t : ℚ) :
    (∃ w clk, a = .handle w clk ∧ s.workers w = .activating r ∧ history r (told s t a) = [.handled clk.now]) ∨
      (∀ w clk, a = .handle w clk → (s.workers w).held ≠ some r) ∧
        (history r (told s t a) = [] ∨ (∃ i, history r (told s t a) = [.succeeded i t]) ∨
          ∃ w, a = .start w ∧ s.workers w = .starting r ∧
            history r (told s t a) = [.started (s.heap r).subJobIndex t]) := by
  cases hs with
  | @handle w x clk hw =>
    simp only [told, hw, history_single]
    by_cases hx : x = r
    · subst hx
      exact .inl ⟨w, clk, rfl, hw, if_pos rfl⟩
    · refine .inr ⟨?_, .inl (if_neg hx)⟩
      rintro w' clk' ⟨⟩ hheld
      exact hx (by simpa [hw, Pc.held] using hheld)
  | @start w x hw =>
    refine .inr ⟨(by rintro w' clk' ⟨⟩), ?_⟩
    simp only [told, hw]
    split
    · rw [history_single]
      by_cases hx : x = r
      · subst hx
        exact .inr (.inr ⟨w, rfl, hw, if_pos rfl⟩)
      · exact .inl (if_neg hx)
    · exact .inl rfl
  | @finish w x i o hw =>
    refine .inr ⟨(by rintro w' clk' ⟨⟩), ?_⟩
    simp only [told, hw]
    split
    · rw [history_single]
      by_cases hx : x = r
      · exact .inr (.inl ⟨i, if_pos hx⟩)
      · exact .inl (if_neg hx)
    · exact .inl rfl
  | _ => exact .inr ⟨(by rintro w' clk' ⟨⟩), .inl rfl⟩

theorem history_emit (p : State × ℚ) (a : Action × ℚ) (r : Ref) :
    history r (emit p a) = if p.1.incoming a.1 = some r then [.reset] else history r (told p.1 a.2 a.1) := by
  unfold emit
  rw [history_append]
  cases hincoming : p.1.incoming a.1 with
  | none => simp [history]
  | some x =>
    rw [told_of_incoming a.2 hincoming, Option.map_some, Option.toList_some, history_single]
    simp [history]

/-- No task is past the checks with what comes in. -/
theorem incoming_idle (h : Wf s) (hmeets : Meets s a) (hincoming : s.incoming a = some r) (v : Worker) :
    RedoOnError.executing (s.workers v) ≠ some r := by
  cases a with
  | addJob now origin jobName auto =>
    obtain ⟨_, _, rfl⟩ := Option.map_eq_some_iff.mp hincoming
    intro hv
    exact Nat.lt_irrefl _ (h.workers (Pc.entry_of_held (RedoOnError.held_of_executing hv)))
  | restartJob now id => exact hmeets r hincoming v
  | restart w now => exact hmeets r hincoming v
  | _ => cases hincoming

/-- The state, its clock and the record of what happened so far. -/
structure Recorded (p : (State × ℚ) × List (Ref × Event)) : Prop where
  wf : Wf p.1.1
  known : ∀ e ∈ p.2, e.1 < p.1.1.next
  past : ∀ r i t, .succeeded i t ∈ history r p.2 → t ≤ p.1.2
  phase : ∀ r < p.1.1.next, ∀ m ∈ waittime (p.1.1.heap r) 0,
    Phase p.1.1 p.1.2 r m (firstHandled (history r p.2))
  waited : Waited p

variable {p q : State × ℚ} {b : Action × ℚ} {es : List Event}

/-- A job in use. -/
theorem Phase.step (h : Phase p.1 p.2 r m (firstHandled es)) (hwf : Wf p.1) (hr : r < p.1.next)
    (hm : m ∈ waittime (p.1.heap r) 0) (hmeets : Meets p.1 b.1) (hs : clocked cfg p b = some q) :
    Phase q.1 q.2 r m (firstHandled (es ++ history r (emit p b))) := by
  have hstep := step_some (timed_some hs).1
  have hclock := timed_le hs
  rw [history_emit]
  by_cases hincoming : p.1.incoming b.1 = some r
  · rw [if_pos hincoming, firstHandled_snoc]
    exact .inr (Fresh.of_incoming hwf hstep hincoming (incoming_idle hwf hmeets hincoming))
  rw [if_neg hincoming]
  rcases h with habsent | hquiet | hlive
  · exact .inl (step_absent hstep habsent hincoming)
  · exact .inr (.inl (quiet_step hquiet hstep hincoming))
  rcases history_told hstep r b.2 with ⟨w, clk, hb, hw, htold⟩ | ⟨hhandle, htold⟩
  · -- The job is handled.
    rw [htold, firstHandled_snoc]
    have hq : q.1 = p.1.handle cfg w r clk := handle_eq (hb ▸ hstep) hw
    have hnow : clk.now ∈ readings b.1 := by simp [hb, readings]
    have hcheck : clk.check ∈ readings b.1 := by simp [hb, readings]
    rw [hb] at hmeets
    refine .inr (.inr ?_)
    rw [hq]
    cases hfirst : firstHandled es with
    | none =>
      rw [hfirst] at hlive
      have hwaiting := Fresh.waiting hlive hw hm hmeets (timed_reading hs hnow).2
      exact hwaiting.handle hw hm hmeets le_rfl (timed_reading hs hcheck).2
    | some t₀ =>
      rw [hfirst] at hlive
      have hwaiting := Waiting.mono hlive hclock
      exact hwaiting.handle hw hm hmeets ((Waiting.past hlive).trans (timed_reading hs hnow).1) (timed_reading hs hcheck).2
  · have hsame : firstHandled (es ++ history r (told p.1 b.2 b.1)) = firstHandled es := by
      rcases htold with htold | ⟨i, htold⟩ | ⟨w, _, _, htold⟩
      · rw [htold, List.append_nil]
      · rw [htold, firstHandled_snoc]
      · rw [htold, firstHandled_snoc]
    rw [hsame]
    cases hfirst : firstHandled es with
    | none =>
      rw [hfirst] at hlive
      exact .inr (Fresh.other hlive hstep hr hincoming hhandle)
    | some t₀ =>
      rw [hfirst] at hlive
      exact .inr (.inr ((Waiting.other hlive hstep hr hincoming hhandle).mono hclock))

/-- A started sub job has waited. -/
theorem started_waited {w : Worker} (hmeets : Meets s (.start w))
    (hw : s.workers w = .starting r) {t : ℚ} (ht : c ≤ t) (hpast : ∀ i t, .succeeded i t ∈ es → t ≤ c)
    (hphase : ∀ m ∈ waittime (s.heap r) 0, Phase s c r m (firstHandled es))
    (hm : m ∈ waittime (s.heap r) (s.heap r).subJobIndex) :
    if (s.heap r).subJobIndex = 0 then ∃ t₀, firstHandled es = some t₀ ∧ t₀ + 60 * m ≤ t
    else ∀ t₁, .succeeded ((s.heap r).subJobIndex - 1) t₁ ∈ es → t₁ + 60 * m ≤ t := by
  have hexecuting : RedoOnError.executing (s.workers w) = some r := by rw [hw]; rfl
  split
  · next hzero =>
    rw [hzero] at hm
    rcases hphase m hm with habsent | hquiet | hlive
    · exact absurd (RedoOnError.held_of_executing hexecuting) (habsent.2 w)
    · exact absurd hexecuting (hquiet.idle w)
    cases hfirst : firstHandled es with
    | none =>
      rw [hfirst] at hlive
      exact absurd hexecuting (Fresh.idle hlive w)
    | some t₀ =>
      rw [hfirst] at hlive
      exact ⟨t₀, rfl, (Waiting.passed hlive hzero w hexecuting).trans ht⟩
  · next hpos =>
    intro t₁ ht₁
    have hneg : (m : ℚ) ≤ 0 := by exact_mod_cast hmeets r hw (Nat.pos_of_ne_zero hpos) m hm
    have hle := hpast _ t₁ ht₁
    linarith

theorem emit_lt (h : Wf p.1) (hs : Step cfg p.1 b.1 q.1) {e : Ref × Event} (he : e ∈ emit p b) : e.1 < q.1.next := by
  rcases List.mem_append.mp he with he | he
  · simp only [Option.mem_toList, Option.map_eq_some_iff] at he
    obtain ⟨x, hx, rfl⟩ := he
    exact incoming_lt h hs hx
  · refine Nat.lt_of_lt_of_le ?_ (next_le hs)
    unfold told at he
    split at he
    · split at he
      · next hw =>
        rw [List.mem_singleton.mp he]
        exact h.workers (by rw [hw]; rfl)
      · cases he
    · split at he
      · next hw =>
        split at he
        · rw [List.mem_singleton.mp he]
          exact h.workers (by rw [hw]; rfl)
        · cases he
      · cases he
    · split at he
      · next hw =>
        split at he
        · rw [List.mem_singleton.mp he]
          exact h.workers (by rw [hw]; rfl)
        · cases he
      · cases he
    · cases he

theorem Recorded.step {p q : (State × ℚ) × List (Ref × Event)} (h : Recorded p) (hmeets : Meets p.1.1 b.1)
    (hs : recording (clocked cfg) emit p b = some q) : Recorded q := by
  obtain ⟨htimed, hes⟩ := recording_some hs
  have hstep := step_some (timed_some htimed).1
  have hclock := timed_le htimed
  have hsame : ∀ {r}, r < p.1.1.next → ∀ i, waittime (q.1.1.heap r) i = waittime (p.1.1.heap r) i := by
    intro r hr i
    rw [waittime, (step_same hstep hr).subJobs, waittime]
  have hnone : ∀ {r}, ¬ r < p.1.1.next → history r p.2 = [] := by
    intro r hr
    refine history_eq_nil fun e he => ?_
    rintro rfl
    exact hr (h.known e he)
  refine ⟨h.wf.step hstep, ?_, ?_, ?_, ?_⟩
  · intro e he
    rw [hes, List.mem_append] at he
    rcases he with he | he
    · exact Nat.lt_of_lt_of_le (h.known e he) (next_le hstep)
    · exact emit_lt h.wf hstep he
  · intro r i t ht
    rw [hes, history_append, List.mem_append] at ht
    rcases ht with ht | ht
    · exact (h.past r i t ht).trans hclock
    · rw [(timed_some htimed).2.1]
      rw [history_emit] at ht
      split at ht
      · simp at ht
      rcases history_told hstep r b.2 with ⟨w, clk, _, _, htold⟩ | ⟨_, htold | ⟨j, htold⟩ | ⟨w, _, _, htold⟩⟩ <;>
        rw [htold] at ht <;> simp at ht
      exact ht.2.le
  · intro r hr m hm
    rw [hes, history_append]
    by_cases hold : r < p.1.1.next
    · rw [hsame hold] at hm
      exact (h.phase r hold m hm).step h.wf hold hm hmeets htimed
    · obtain ⟨_, hincoming⟩ := incoming_of_new hstep hr hold
      rw [hnone hold, history_emit, if_pos hincoming, firstHandled_snoc]
      exact .inr (Fresh.of_incoming h.wf hstep hincoming (incoming_idle h.wf hmeets hincoming))
  · intro r hr pre i t post hsplit m hm
    rw [hes, history_append] at hsplit
    by_cases hold : r < p.1.1.next
    · rw [hsame hold] at hm
      have hbefore : ∀ mid, history r p.2 = pre ++ .started i t :: mid → _ :=
        fun mid hmid => h.waited r hold pre i t mid hmid m hm
      rw [history_emit] at hsplit
      split at hsplit
      · rcases snoc_eq_cons hsplit with ⟨mid, hmid, _⟩ | ⟨_, he, _⟩
        · exact hbefore mid hmid
        · cases he
      rcases history_told hstep r b.2 with ⟨w, clk, _, _, htold⟩ | ⟨_, htold | ⟨j, htold⟩ | ⟨w, hb, hw, htold⟩⟩ <;>
        rw [htold] at hsplit
      · rcases snoc_eq_cons hsplit with ⟨mid, hmid, _⟩ | ⟨_, he, _⟩
        · exact hbefore mid hmid
        · cases he
      · exact hbefore post (by simpa using hsplit)
      · rcases snoc_eq_cons hsplit with ⟨mid, hmid, _⟩ | ⟨_, he, _⟩
        · exact hbefore mid hmid
        · cases he
      · rcases snoc_eq_cons hsplit with ⟨mid, hmid, _⟩ | ⟨rfl, he, _⟩
        · exact hbefore mid hmid
        · cases he
          rw [hb] at hmeets
          have hle : p.1.2 ≤ b.2 := (timed_some htimed).2.1 ▸ hclock
          exact started_waited hmeets hw hle (h.past r) (h.phase r hold) hm
    · have hmem : .started i t ∈ history r (emit p.1 b) := by
        rw [hnone hold, List.nil_append] at hsplit
        rw [hsplit]
        simp
      obtain ⟨_, hincoming⟩ := incoming_of_new hstep hr hold
      rw [history_emit, if_pos hincoming] at hmem
      simp at hmem

theorem waits_honoured {s₀ : State} {l : List (Action × ℚ)} {p : (State × ℚ) × List (Ref × Event)} (h0 : Initial s₀)
    (hs : Run (recording (clocked cfg) emit) (fun p a => Meets p.1.1 a.1) ((s₀, c), []) l p) : Waited p := by
  have hrecorded : Recorded p := by
    refine Run.invariant hs ?_ fun _ _ _ h hmeets hs => h.step hmeets hs
    refine ⟨h0.loaded.wf, fun _ he => (List.not_mem_nil he).elim, fun r i t ht => ?_, fun r _ m _ => ?_, ?_⟩
    · simp [history] at ht
    · exact .inl (h0.loaded.absent r)
    · intro r _ pre i t post hsplit
      simp [history] at hsplit
  exact hrecorded.waited

/-- The first sub job, of a job without auto command settings that is handled at a whole second; nothing is restarted. -/
def plain (s : State) : Action → Bool
  | .start w => match s.workers w with
    | .starting r => (s.heap r).subJobIndex = 0
    | _ => true
  | .handle w clk => match s.workers w with
    | .activating r =>
      if (s.heap r).processingDate.isSome then !untouched (s.heap r)
      else (s.heap r).autoCommandSettings.isNone && clk.now ≤ ⌊clk.wait⌋
    | _ => true
  | .restartJob _ _ | .restart _ _ => false
  | _ => true

theorem meets_of_plain (ha : plain s a = true) : Meets s a := by
  cases a with
  | start w =>
    intro r hw hpos
    have hzero : (s.heap r).subJobIndex = 0 := by simpa [plain, hw] using ha
    exact absurd hzero (Nat.ne_of_gt hpos)
  | handle w clk =>
    intro r hw _ m _ _
    simp only [plain, hw] at ha
    split at ha
    · next hsome =>
      refine ⟨fun hnone => ?_, fun huntouched => ?_⟩
      · simp [hnone] at hsome
      · simp [huntouched] at ha
    · next hnone =>
      simp only [Bool.and_eq_true, Option.isNone_iff_eq_none, decide_eq_true_eq] at ha
      refine ⟨fun _ date hdate => ?_, fun _ d hd => ?_⟩
      · simp only [algoDate, ha.1] at hdate
        cases hdate
        exact ha.2
      · rw [Option.mem_def] at hd
        simp [hd] at hnone
  | restartJob now id => cases ha
  | restart w now => cases ha
  | _ => trivial

/-- An iteration of task 0 up to the start of a sub job, at a moment. -/
def startedAt (t : ℚ) : List (Action × ℚ) := [(.getNowait 0, t), (.reserve 0, t), (.handle 0 (.at t), t),
  (.connect 0 true t, t), (.start 0, t)]

/-- A job that waits five minutes before its first sub job. -/
def waitsFirst : List (Action × ℚ) := [(.reloadJobs fun _ => some [{ waittime := some 5 }, {}], 0),
  (.addJob "1" "dev" "update" none, 1), (.getNowait 0, 2), (.reserve 0, 2), (.handle 0 (.at 10), 11), (.deactivate 0, 11)] ++
  startedAt 310

/-- The state and the record after `waitsFirst`. -/
def waited : (State × ℚ) × List (Ref × Event) :=
  after (recording (clocked 0) emit) (fun p a => plain p.1.1 a.1 = true) ((blank.killOldJobs, 0), []) waitsFirst

theorem waited_run : Run (recording (clocked 0) emit) (fun p a => Meets p.1.1 a.1) ((blank.killOldJobs, 0), []) waitsFirst
    waited := by
  have hrun : Run (recording (clocked 0) emit) (fun p a => plain p.1.1 a.1 = true) ((blank.killOldJobs, 0), []) waitsFirst
      waited := .of_after (by decide +kernel)
  exact hrun.mono fun _ _ => meets_of_plain

theorem waits_honoured_first : Waited waited := waits_honoured blank_initial waited_run

/-- A job that waits five minutes before its second sub job. -/
def waitsSecond : List (Action × ℚ) := [(.reloadJobs fun _ => some [{}, { waittime := some 5 }], 0),
  (.addJob "1" "dev" "update" none, 1)] ++ startedAt 10 ++ [(.finish 0 .success, 12), (.deactivate 0, 12)] ++ startedAt 15

/-- The second sub job is started three seconds after the first one succeeded. -/
theorem second_wait_skipped : ¬ ∀ (cfg : Int) (s₀ : State) (c : ℚ) (l : List (Action × ℚ))
    (p : (State × ℚ) × List (Ref × Event)), Initial s₀ →
    Run (recording (clocked cfg) emit) Any ((s₀, c), []) l p → Waited p := by
  intro h
  have hrun : Run (recording (clocked 0) emit) Any ((blank.killOldJobs, 0), []) waitsSecond
      (after (recording (clocked 0) emit) Any ((blank.killOldJobs, 0), []) waitsSecond) := .of_after (by decide +kernel)
  have hwaited := h 0 _ 0 _ _ blank_initial hrun 0 (by decide +kernel)
    [.reset, .handled 10, .started 0 10, .succeeded 0 12, .handled 15] 1 15 [] (by decide +kernel) 5 (by decide +kernel)
  rw [if_neg (by decide)] at hwaited
  have hle := hwaited 12 (by simp)
  norm_num at hle

end MapADroid.Updater.Waittime
