import Mathlib.Tactic.Linarith
import MapADroid.Updater.Waittime

/- Auto commands that are run once a day.

   `get_job_algo_value` cuts the seconds to the next hh:mm down to whole minutes, and
   `restart_job` drops the date of a run only in a later second. So a job is run up to a
   minute too early, and again until hh:mm has come (`run_twice`).

   Where a whole minute begins between the readings of the clock that the date is made
   from, every restart after a success is in a later second than the date of the run, and a
   job is handled while no other task is at it, there is an hh:mm between any two starts of
   it (`runs_once_per_day`). -/
namespace MapADroid.Updater.Daily
open Lib
open Waittime (startedAt)

/-- The seconds of a day before hour `h`, minute `m`. -/
def hhmm (h m : Int) : Int := 3600 * h + 60 * m

/-- Hour `h`, minute `m` of a day. -/
def instant (h m day : Int) : Int := 86400 * day + hhmm h m

/-- An auto command that is redone every day at hour `h`, minute `m`, of one sub job. -/
structure IsDaily (e : GlobalJobLogEntry) (h m : Int) : Prop where
  auto : ∃ auto ∈ e.autoCommandSettings, auto.algoType = .daily ∧ auto.redo = true ∧
    ∃ hh mm value, auto.algoValue = .str value ∧ value.toList.splitOn ':' = [hh, mm] ∧ pyInt hh = some h ∧ pyInt mm = some m
  fields : 0 ≤ h ∧ h < 24 ∧ 0 ≤ m ∧ m < 60
  subJobs : e.subJobs.length = 1

/-- The starts of the sub jobs, and when they are. -/
def emit (p : State × ℚ) (a : Action × ℚ) : List (Ref × ℚ) :=
  match a.1 with
  | .start w => match p.1.workers w with
    | .starting r => if (p.1.heap r).subJobIndex < (p.1.heap r).subJobs.length then [(r, a.2)] else []
    | _ => []
  | _ => []

/-- Each start is at or after an hh:mm that lies after every start before it. -/
def OncePerDay (p : (State × ℚ) × List (Ref × ℚ)) : Prop :=
  ∀ r < p.1.1.next, ∀ h m, IsDaily (p.1.1.heap r) h m →
    ∀ (pre : List ℚ) (t : ℚ) (post : List ℚ), history r p.2 = pre ++ t :: post →
      ∀ t₁ ∈ pre, ∃ day, t₁ < instant h m day ∧ instant h m day ≤ t

/-- The sub job of a daily auto command succeeds. -/
def Succeeds (s : State) : Action → Prop
  | .finish w o => ∀ r i, s.workers w = .running r i → ∀ h m, IsDaily (s.heap r) h m → o = .success
  | _ => True

/-- A restart of a daily auto command after it has succeeded is in a later second than its date, and later than its
starts. -/
def Later (starts : List ℚ) (now : ℚ) (e : GlobalJobLogEntry) : Prop :=
  e.lastStatus = .success → (∀ d ∈ e.processingDate, d < ⌊now⌋) ∧ ∀ t₁ ∈ starts, t₁ < now

/-- A daily auto command is handled while no task is past the checks with it. After a restart, a whole minute begins
between the reading of the clock in `get_job_algo_value` and the second that is read after it, `WAITTIME` added. -/
def Meets (s : State) (starts : List (Ref × ℚ)) : Action → Prop
  | .handle w clk => ∀ r, s.workers w = .activating r → ∀ h m, IsDaily (s.heap r) h m →
      (∀ v, RedoOnError.executing (s.workers v) ≠ some r) ∧
        ((s.heap r).lastStatus = .pending → (s.heap r).processingDate = none →
          60 * ⌈clk.sub / 60⌉ ≤ ⌊clk.algo⌋ + 60 * (((s.heap r).subJobs[(s.heap r).subJobIndex]?).bind (·.waittime)).getD 0)
  | a@(.restartJob now _) | a@(.restart _ now) =>
    ∀ r, s.incoming a = some r → ∀ h m, IsDaily (s.heap r) h m → Later (history r starts) now (s.heap r)
  | _ => True

/-! ## The date of the next run -/

/-- The date from the minutes to the next hh:mm is no earlier than that, if a whole minute begins between the
reading `sub` and the second it is counted from. -/
theorem instant_le_date (h m : Int) (now : ℚ) {sub : ℚ} {base : Int} (hminute : 60 * ⌈sub / 60⌉ ≤ base) :
    ∃ day, sub ≤ instant h m day ∧ instant h m day ≤ base + 60 * (secondsUntil h m now sub / 60) := by
  have hseconds : secondsUntil h m now sub = ⌊(instant h m (⌊now⌋ / 86400) : ℚ) - sub⌋ % 86400 := by
    simp only [secondsUntil, instant, hhmm, add_assoc, mul_comm]
  generalize ⌊now⌋ / 86400 = day at hseconds
  generalize hx : ⌊(instant h m day : ℚ) - sub⌋ = x at hseconds
  obtain ⟨hfloor, hlt⟩ := Int.floor_eq_iff.mp hx
  have hmod := Int.emod_add_mul_ediv x 86400
  have hnonneg := Int.emod_nonneg x (show (86400 : Int) ≠ 0 by decide)
  rw [hseconds]
  generalize x % 86400 = d at hmod hnonneg
  generalize x / 86400 = q at hmod
  have hx' : (x : ℚ) = d + 86400 * q := by exact_mod_cast hmod.symm
  have hday : instant h m (day - q) = instant h m day - 86400 * q := by
    unfold instant
    ring
  have hminutes : instant h m day = 60 * (1440 * day + 60 * h + m) := by
    unfold instant hhmm
    ring
  refine ⟨day - q, ?_, ?_⟩
  · -- The seconds left to the instant are not negative.
    have hd : (0 : ℚ) ≤ d := by exact_mod_cast hnonneg
    rw [hday]
    push_cast
    linarith
  · -- They are less than one minute more than the whole minutes.
    have hceil : 1440 * day + 60 * h + m - 1440 * q - d / 60 - 1 < ⌈sub / 60⌉ := by
      rw [Int.lt_ceil, lt_div_iff₀ (by norm_num)]
      have hdiv : (d : ℚ) + 1 ≤ 60 * ((d / 60 : Int) : ℚ) + 60 := by
        exact_mod_cast (by omega : d + 1 ≤ 60 * (d / 60) + 60)
      rw [hminutes] at hlt
      push_cast at hlt ⊢
      linarith
    omega

variable {cfg : Int} {s s' : State} {a : Action} {r : Ref} {clk : Readings} {e : GlobalJobLogEntry} {c c' t₁ : ℚ} {h m : Int}
  {o : Outcome} {starts : List (Ref × ℚ)}

/-- The date that is set after a restart. -/
theorem IsDaily.schedule (hdaily : IsDaily e h m) (hnone : e.processingDate = none)
    (hminute : 60 * ⌈clk.sub / 60⌉ ≤ ⌊clk.algo⌋ + 60 * ((e.subJobs[e.subJobIndex]?).bind (·.waittime)).getD 0)
    {scheduled : GlobalJobLogEntry} (hscheduled : schedule clk e = .ok (some scheduled)) :
    ∃ d, scheduled.processingDate = some d ∧ ∃ day, clk.sub ≤ instant h m day ∧ instant h m day ≤ d := by
  obtain ⟨auto, hauto, htype, _, hh, mm, value, hvalue, hsplit, hhour, hminutes⟩ := hdaily.auto
  obtain ⟨h₁, h₂, h₃, h₄⟩ := hdaily.fields
  have halgo : getJobAlgoValue auto.algoType auto.algoValue clk.now clk.sub =
      .ok (some (secondsUntil h m clk.now clk.sub / 60)) := by
    rw [htype, hvalue]
    simp only [getJobAlgoValue, hsplit, hhour, hminutes]
    rw [if_pos ⟨h₁, h₂, h₃, h₄⟩]
  have hdate : algoDate clk e = .ok (some (some ((⌊clk.algo⌋ + 60 * (secondsUntil h m clk.now clk.sub / 60) : Int) : ℚ))) := by
    simp only [algoDate, Option.mem_def.mp hauto, halgo]
    rfl
  have hset : scheduled.processingDate = addWaittime clk e
      (some ((⌊clk.algo⌋ + 60 * (secondsUntil h m clk.now clk.sub / 60) : Int) : ℚ)) := by
    unfold Updater.schedule at hscheduled
    rw [if_neg (by simp [hnone]), hdate] at hscheduled
    cases hscheduled
    rfl
  obtain ⟨day, hsub, hday⟩ := instant_le_date h m clk.now hminute
  unfold addWaittime at hset
  cases hwait : (e.subJobs[e.subJobIndex]?).bind (·.waittime) with
  | none =>
    rw [hwait] at hset hday
    refine ⟨_, hset, day, hsub, ?_⟩
    rw [Option.getD_none] at hday
    exact_mod_cast (by omega : instant h m day ≤ ⌊clk.algo⌋ + 60 * (secondsUntil h m clk.now clk.sub / 60))
  | some w =>
    rw [hwait] at hset hday
    refine ⟨_, hset, day, hsub, ?_⟩
    rw [Option.getD_some] at hday ⊢
    exact_mod_cast (by omega : instant h m day ≤ ⌊clk.algo⌋ + 60 * (secondsUntil h m clk.now clk.sub / 60) + 60 * w)

theorem IsDaily.of_same {e' : GlobalJobLogEntry} (hdaily : IsDaily e' h m) (hsame : SameJob e e') : IsDaily e h m where
  auto := hsame.auto ▸ hdaily.auto
  fields := hdaily.fields
  subJobs := hsame.subJobs ▸ hdaily.subJobs

/-! ## One auto command -/

/-- Its sub job does not fail, and one task at a time is past the checks with it. -/
structure Regular (s : State) (r : Ref) : Prop where
  alone : ∀ v w, RedoOnError.executing (s.workers v) = some r → RedoOnError.executing (s.workers w) = some r → v = w
  unfailing : (s.heap r).lastStatus ≠ .failing
  unaborted : ∀ v, s.workers v ≠ .restarting r .failing

/-- Where it is at `c`, after a start at `t₁`. -/
inductive Phase (s : State) (c : ℚ) (r : Ref) (h m : Int) (t₁ : ℚ) : Prop where
  | running {w : Worker} {i : Nat} (hw : s.workers w = .running r i)
  /-- The sub job has succeeded. -/
  | done (hidle : ∀ v, RedoOnError.executing (s.workers v) ≠ some r) (hindex : 1 ≤ (s.heap r).subJobIndex)
      (hstatus : (s.heap r).lastStatus = .success)
  | restarted (hidle : ∀ v, RedoOnError.executing (s.workers v) ≠ some r) (hdate : (s.heap r).processingDate = none)
      (hstatus : (s.heap r).lastStatus = .pending) (hlater : t₁ < c)
  /-- It has the date of its next run. -/
  | waiting {day : Int} {d : ℚ} (hidle : ∀ v, RedoOnError.executing (s.workers v) ≠ some r)
      (hdate : (s.heap r).processingDate = some d) (hstatus : (s.heap r).lastStatus ≠ .notConnected)
      (hlater : t₁ < instant h m day) (hdue : instant h m day ≤ d)
  /-- There has been an hh:mm. -/
  | passed {day : Int} (hlater : t₁ < instant h m day) (hpassed : instant h m day ≤ c)

/-- A task gets to a restart after failures by the status only. -/
theorem step_unaborted (hs : Step cfg s a s') {v : Worker} (hv : s'.workers v = .restarting r .failing) :
    s.workers v = .restarting r .failing ∨ s.workers v = .activating r ∧ (s.heap r).lastStatus = .failing := by
  rcases step_restarting hs hv with hv | ⟨clk, hw, hnext⟩ | ⟨_, _, _, hwhy⟩
  · exact .inl hv
  · have hhandled := handleStart_handled cfg clk (s.heap r)
    rw [hnext] at hhandled
    generalize (handleStart cfg clk (s.heap r)).1 = e' at hhandled
    cases hhandled with
    | given _ hwhy _ => exact absurd rfl (hwhy .failing)
    | redone hstatus => exact .inr ⟨hw, hstatus⟩
  · cases hwhy

/-- An entry gets the status `FAILING` by a sub job that fails. -/
theorem step_unfailing (hs : Step cfg s a s') (hr : r < s.next) (hdaily : IsDaily (s.heap r) h m)
    (hsucceeds : Succeeds s a) (hstatus : (s.heap r).lastStatus ≠ .failing) : (s'.heap r).lastStatus ≠ .failing := by
  rw [step_heap hs]
  cases hs with
  | addJob now origin jobName auto =>
    simp only [State.changed]
    split
    · exact hstatus
    · rw [if_neg (Nat.ne_of_lt hr)]
      exact hstatus
  | restartJob now id =>
    simp only [State.changed]
    split
    · simp [GlobalJobLogEntry.restart]
    · exact hstatus
  | @handle w x clk hw =>
    simp only [State.changed]
    split
    · have hhandled := handleStart_handled cfg clk (s.heap r)
      generalize (handleStart cfg clk (s.heap r)).1 = e' at hhandled ⊢
      generalize (handleStart cfg clk (s.heap r)).2 = next at hhandled
      cases hhandled with
      | given _ _ _ => exact hstatus
      | redone => exact hstatus
      | aborted hfailing => exact absurd hfailing hstatus
      | postponed _ => exact hstatus
      | future _ _ => simp
      | processing _ _ => simp
    · exact hstatus
  | connect connected now hw =>
    simp only [State.changed]
    split
    · cases connected <;> simp [handleConnect]
    · exact hstatus
  | start hw =>
    simp only [State.changed]
    split
    · simp [handleOutcome]
    · exact hstatus
  | @finish w x i o hw =>
    simp only [State.changed]
    split
    · next hheld =>
      obtain rfl : x = r := by simpa [hw, Pc.held] using hheld
      rw [hsucceeds x i hw h m hdaily]
      simp [handleOutcome]
    · exact hstatus
  | restart now hw =>
    simp only [State.changed]
    split
    · simp
    · split
      · simp [GlobalJobLogEntry.restart]
      · exact hstatus
  | _ => exact hstatus

theorem Regular.step (hregular : Regular s r) (hr : r < s.next) (hdaily : IsDaily (s.heap r) h m) (hmeets : Meets s starts a)
    (hsucceeds : Succeeds s a) (hs : Step cfg s a s') : Regular s' r where
  alone v w hv hw := by
    rcases RedoOnError.step_executing hs hv with hv | ⟨clk, rfl, hact, _⟩
    · rcases RedoOnError.step_executing hs hw with hw | ⟨clk, rfl, hact, _⟩
      · exact hregular.alone v w hv hw
      · exact absurd hv ((hmeets r hact h m hdaily).1 v)
    · rcases RedoOnError.step_executing hs hw with hw | ⟨clk', ha, _, _⟩
      · exact absurd hw ((hmeets r hact h m hdaily).1 w)
      · cases ha
        rfl
  unfailing := step_unfailing hs hr hdaily hsucceeds hregular.unfailing
  unaborted v hv := (step_unaborted hs hv).elim (hregular.unaborted v) fun ⟨_, hstatus⟩ => hregular.unfailing hstatus

/-- A new job is `INIT`, and at no task. -/
theorem Regular.new (hwf : Wf s) (hs : Step cfg s a s') (hr : r < s'.next) (hnew : ¬ r < s.next) : Regular s' r := by
  have hbefore : ∀ v, (s.workers v).entry ≠ some r := fun v hv => hnew (hwf.workers hv)
  have hidle : ∀ v, RedoOnError.executing (s'.workers v) ≠ some r := by
    intro v hv
    rcases RedoOnError.step_executing hs hv with hv | ⟨_, _, hw, _⟩
    · exact hbefore v (Pc.entry_of_held (RedoOnError.held_of_executing hv))
    · exact hbefore v (by rw [hw]; rfl)
  refine ⟨fun v _ hv _ => absurd hv (hidle v), ?_, fun v hv => ?_⟩
  · obtain ⟨rfl, hincoming⟩ := incoming_of_new hs hr hnew
    rw [step_heap hs]
    cases a with
    | addJob now origin jobName auto =>
      obtain ⟨jobs, hjobs, _⟩ := Option.map_eq_some_iff.mp hincoming
      simp [State.changed, hjobs, State.newEntry]
    | restartJob now id => exact absurd (hwf.log hincoming).1 hnew
    | restart w now =>
      simp only [State.incoming] at hincoming
      split at hincoming
      · exact absurd (hwf.log hincoming).1 hnew
      · cases hincoming
    | _ => cases hincoming
  · rcases step_unaborted hs hv with hw | ⟨hw, _⟩
    · exact hbefore v (by rw [hw]; rfl)
    · exact hbefore v (by rw [hw]; rfl)

/-- `_kill_old_jobs` leaves no job that is failing. -/
theorem Regular.initial (h0 : Initial s) (hr : r < s.next) : Regular s r := by
  have hworkers : ∀ v, s.workers v = .idle := h0.loaded.workers
  refine ⟨fun v _ hv => ?_, ?_, fun v hv => ?_⟩
  · rw [hworkers v] at hv
    cases hv
  · obtain ⟨s₀, _, hlog, rfl⟩ := h0
    have hlogged : s₀.log.items.any (·.2 = r) = true :=
      List.any_eq_true.mpr ⟨_, Dict.get?_eq_some_iff.mp (hlog r hr), by simp⟩
    simp only [State.killOldJobs, hlogged, Bool.true_and]
    split
    · simp
    · next hkept =>
      intro hstatus
      exact hkept (by rw [hstatus]; decide)
  · rw [hworkers v] at hv
    cases hv

/-- What comes in is restarted, as `Meets` asks. -/
theorem incoming_restart (hs : Step cfg s a s') (hr : r < s.next) (hdaily : IsDaily (s.heap r) h m)
    (hmeets : Meets s starts a) (hregular : Regular s r) (hincoming : s.incoming a = some r) :
    ∃ now ∈ readings a, s'.heap r = (s.heap r).restart now ∧ Later (history r starts) now (s.heap r) := by
  have hheap := step_heap hs r
  cases a with
  | addJob now origin jobName auto =>
    obtain ⟨_, _, rfl⟩ := Option.map_eq_some_iff.mp hincoming
    exact absurd hr (Nat.lt_irrefl _)
  | restartJob now id =>
    rw [State.changed, if_pos (show s.log.get? id = some r from hincoming)] at hheap
    exact ⟨now, by simp [readings], hheap, hmeets r hincoming h m hdaily⟩
  | restart w now =>
    rw [State.changed, if_pos hincoming, if_neg (hregular.unaborted w)] at hheap
    exact ⟨now, by simp [readings], hheap, hmeets r hincoming h m hdaily⟩
  | _ => cases hincoming

theorem handle_activating {w : Worker} (hs : Step cfg s (.handle w clk) s') (hheld : (s.workers w).held = some r) :
    s.workers w = .activating r := by
  cases hs with
  | handle _ hw =>
  rw [hw] at hheld ⊢
  rw [Option.some.inj hheld]

/-- A task that has finished a sub job is past the call. -/
theorem finish_executing (s : State) (w : Worker) (r : Ref) (o : Outcome) :
    RedoOnError.executing ((s.finish w r o).workers w) = none := by
  simp only [State.finish]
  split
  · simp [State.setPc, RedoOnError.executing]
  · simp [RedoOnError.executing]

namespace Phase

/-- The sub job succeeds. -/
theorem finish {w : Worker} {i : Nat} (hregular : Regular s r) (hdaily : IsDaily (s.heap r) h m)
    (hsucceeds : Succeeds s (.finish w o)) (hw : s.workers w = .running r i) (hs : Step cfg s (.finish w o) s') :
    Phase s' c r h m t₁ := by
  have hheap : s'.heap r = handleOutcome (s.heap r) o := by
    rw [step_heap hs]
    simp [State.changed, hw, Pc.held]
  rw [hsucceeds r i hw h m hdaily] at hheap
  refine .done (fun v hv => ?_) (by rw [hheap]; exact Nat.le_add_left 1 _) (by rw [hheap]; rfl)
  rcases RedoOnError.step_executing hs hv with hexecuting | ⟨clk, ha, _⟩
  · obtain rfl : v = w := hregular.alone v w hexecuting (by rw [hw]; rfl)
    rw [finish_eq hs hw, finish_executing] at hv
    cases hv
  · cases ha

/-- The auto command is restarted. -/
theorem restart (hphase : Phase s c r h m t₁) (hs : Step cfg s a s') (hincoming : s.incoming a = some r) {now : ℚ}
    (hnow : c ≤ now) (hc : now ≤ c') (hheap : s'.heap r = (s.heap r).restart now) {starts : List ℚ} (ht₁ : t₁ ∈ starts)
    (hlater : Later starts now (s.heap r)) : Phase s' c' r h m t₁ := by
  have hnone : (∀ v, RedoOnError.executing (s.workers v) ≠ some r) → ∀ v, RedoOnError.executing (s'.workers v) ≠ some r := by
    refine idle_step hs ?_
    rintro w clk rfl
    cases hincoming
  have hstatus : (s'.heap r).lastStatus = .pending := by rw [hheap]; rfl
  have hdate : (s'.heap r).processingDate = (s.heap r).processingDate.filter fun d => ¬ d < (⌊now⌋ : ℚ) := by rw [hheap]; rfl
  cases hphase with
  | running hw =>
    rcases step_ran hs hw with hw' | ⟨o, rfl⟩
    · exact .running hw'
    · cases hincoming
  | done hidle _ hsuccess =>
    obtain ⟨hpast, hlt⟩ := hlater hsuccess
    refine .restarted (hnone hidle) ?_ hstatus (lt_of_lt_of_le (hlt t₁ ht₁) hc)
    rw [hdate, Option.filter_eq_none_iff]
    intro d hd
    simpa using hpast d hd
  | restarted hidle hunset _ hlt =>
    refine .restarted (hnone hidle) ?_ hstatus (lt_of_lt_of_le hlt (hnow.trans hc))
    rw [hdate, hunset]
    rfl
  | @waiting day d hidle hsome _ hlt hdue =>
    rw [hsome] at hdate
    by_cases hpast : d < ⌊now⌋
    · have hfloor : (⌊now⌋ : ℚ) ≤ now := Int.floor_le now
      exact .passed hlt (by linarith)
    · refine .waiting (hnone hidle) ?_ (by rw [hstatus]; decide) hlt hdue
      rw [hdate, Option.filter_some, if_pos (by simpa using hpast)]
  | passed hlt hpassed => exact .passed hlt (hpassed.trans (hnow.trans hc))

/-- The entry keeps its fields. -/
theorem unchanged (hphase : Phase s c r h m t₁) (hc : c ≤ c') (hbefore : ∀ v, RedoOnError.executing (s.workers v) ≠ some r)
    (hidle : ∀ v, RedoOnError.executing (s'.workers v) ≠ some r) (hheap : s'.heap r = s.heap r) :
    Phase s' c' r h m t₁ := by
  cases hphase with
  | running hw => exact absurd (by rw [hw]; rfl) (hbefore _)
  | done _ hindex hstatus => exact .done hidle (by rw [hheap]; exact hindex) (by rw [hheap]; exact hstatus)
  | restarted _ hdate hstatus hlt =>
    exact .restarted hidle (by rw [hheap]; exact hdate) (by rw [hheap]; exact hstatus) (lt_of_lt_of_le hlt hc)
  | waiting _ hdate hstatus hlt hdue =>
    exact .waiting hidle (by rw [hheap]; exact hdate) (by rw [hheap]; exact hstatus) hlt hdue
  | passed hlt hpassed => exact .passed hlt (hpassed.trans hc)

/-- The auto command is handled. -/
theorem handle (hphase : Phase s c r h m t₁) {w : Worker} (hw : s.workers w = .activating r) (hregular : Regular s r)
    (hdaily : IsDaily (s.heap r) h m) (hmeets : Meets s starts (.handle w clk)) (hs : Step cfg s (.handle w clk) s')
    (hsub : c ≤ clk.sub) (hcheck : clk.check ≤ c') (hc : c ≤ c') : Phase s' c' r h m t₁ := by
  obtain ⟨hbefore, hminute⟩ := hmeets r hw h m hdaily
  have hheap : s'.heap r = (handleStart cfg clk (s.heap r)).1 := by
    rw [step_heap hs]
    simp [State.changed, hw, Pc.held]
  have hidle : (handleStart cfg clk (s.heap r)).2 ≠ .processing → ∀ v, RedoOnError.executing (s'.workers v) ≠ some r := by
    intro hnext v hv
    rcases RedoOnError.step_executing hs hv with hv | ⟨clk', ha, _, hprocessing⟩
    · exact hbefore v hv
    · cases ha
      exact hnext hprocessing
  by_cases hindex : 1 ≤ (s.heap r).subJobIndex
  · -- There is no other sub job.
    have hreturned : handleStart cfg clk (s.heap r) = (s.heap r, .returned true) := by
      unfold handleStart
      rw [if_pos (by rw [hdaily.subJobs]; exact hindex)]
    rw [hreturned] at hheap hidle
    exact hphase.unchanged hc hbefore (hidle (by simp)) hheap
  have hscheduled : ∀ scheduled, schedule clk (s.heap r) = .ok (some scheduled) →
      ∃ day, t₁ < instant h m day ∧ (instant h m day ≤ c ∨ ∃ d, scheduled.processingDate = some d ∧ instant h m day ≤ d) := by
    intro scheduled hscheduled
    cases hphase with
    | running hw => exact absurd (by rw [hw]; rfl) (hbefore _)
    | done _ hdone _ => exact absurd hdone hindex
    | restarted _ hdate hstatus hlt =>
      obtain ⟨d, hd, day, hday, hdue⟩ := hdaily.schedule hdate (hminute hstatus hdate) hscheduled
      exact ⟨day, by linarith, .inr ⟨d, hd, hdue⟩⟩
    | @waiting day d _ hdate _ hlt hdue =>
      obtain rfl : s.heap r = scheduled := by simpa [schedule, hdate] using hscheduled
      exact ⟨day, hlt, .inr ⟨d, hdate, hdue⟩⟩
    | @passed day hlt hpassed => exact ⟨day, hlt, .inl hpassed⟩
  have hhandled := handleStart_handled cfg clk (s.heap r)
  rw [← hheap] at hhandled
  generalize he : s'.heap r = e' at hhandled
  generalize (handleStart cfg clk (s.heap r)).2 = next at hhandled hidle
  cases hhandled with
  | given _ _ hnot => exact hphase.unchanged hc hbefore (hidle hnot) he
  | redone hstatus => exact absurd hstatus hregular.unfailing
  | aborted hstatus => exact absurd hstatus hregular.unfailing
  | postponed hstatus =>
    cases hphase with
    | running hw => exact absurd (by rw [hw]; rfl) (hbefore _)
    | done _ _ hsuccess => rw [hsuccess] at hstatus; cases hstatus
    | restarted _ _ hpending _ => rw [hpending] at hstatus; cases hstatus
    | waiting _ _ hconnected _ _ => exact absurd hstatus hconnected
    | passed hlt hpassed => exact .passed hlt (hpassed.trans hc)
  | future hsched _ =>
    obtain ⟨day, hlt, hpassed | ⟨d, hd, hdue⟩⟩ := hscheduled _ hsched
    · exact .passed hlt (hpassed.trans hc)
    · exact .waiting (hidle (by simp)) (by rw [he]; exact hd) (by rw [he]; simp) hlt hdue
  | processing hsched hnotdue =>
    obtain ⟨day, hlt, hpassed | ⟨d, hd, hdue⟩⟩ := hscheduled _ hsched
    · exact .passed hlt (hpassed.trans hc)
    · have hcome : d ≤ clk.check := by simpa [GlobalJobLogEntry.dueAfter, hd] using hnotdue
      exact .passed hlt (by linarith)

/-- A step that neither handles the auto command nor brings it in. -/
theorem other (hphase : Phase s c r h m t₁) (hr : r < s.next) (hregular : Regular s r) (hdaily : IsDaily (s.heap r) h m)
    (hsucceeds : Succeeds s a) (hs : Step cfg s a s') (hincoming : s.incoming a ≠ some r)
    (hhandle : ∀ w clk, a = .handle w clk → (s.workers w).held ≠ some r) (hc : c ≤ c') : Phase s' c' r h m t₁ := by
  have hunchanged : (∀ v, RedoOnError.executing (s.workers v) ≠ some r) → Phase s' c' r h m t₁ := by
    intro hbefore
    rcases step_idle hs hr hincoming hhandle hbefore with hheap | ⟨⟨w, hw⟩, _⟩
    · exact hphase.unchanged hc hbefore (idle_step hs hhandle hbefore) hheap
    · exact absurd hw (hregular.unaborted w)
  cases hphase with
  | running hw =>
    rcases step_ran hs hw with hw' | ⟨o, rfl⟩
    · exact .running hw'
    · exact finish hregular hdaily hsucceeds hw hs
  | done hidle _ _ => exact hunchanged hidle
  | restarted hidle _ _ _ => exact hunchanged hidle
  | waiting hidle _ _ _ _ => exact hunchanged hidle
  | passed hlt hpassed => exact .passed hlt (hpassed.trans hc)

/-- A start finds that there has been an hh:mm. -/
theorem passed_of_starting (hphase : Phase s c r h m t₁) (hregular : Regular s r) {w : Worker}
    (hw : s.workers w = .starting r) : ∃ day, t₁ < instant h m day ∧ instant h m day ≤ c := by
  have hstarting : RedoOnError.executing (s.workers w) = some r := by rw [hw]; rfl
  cases hphase with
  | @running v i hv =>
    obtain rfl : v = w := hregular.alone v w (by rw [hv]; rfl) hstarting
    rw [hw] at hv
    cases hv
  | done hidle _ _ => exact absurd hstarting (hidle w)
  | restarted hidle _ _ _ => exact absurd hstarting (hidle w)
  | waiting hidle _ _ _ _ => exact absurd hstarting (hidle w)
  | @passed day hlt hpassed => exact ⟨day, hlt, hpassed⟩

variable {p q : State × ℚ} {b : Action × ℚ}

theorem step (hphase : Phase p.1 p.2 r h m t₁) (hr : r < p.1.next) (hregular : Regular p.1 r)
    (hdaily : IsDaily (p.1.heap r) h m) (ht₁ : t₁ ∈ history r starts) (hmeets : Meets p.1 starts b.1)
    (hsucceeds : Succeeds p.1 b.1) (hs : clocked cfg p b = some q) : Phase q.1 q.2 r h m t₁ := by
  have hstep := step_some (timed_some hs).1
  have hc := timed_le hs
  by_cases hincoming : p.1.incoming b.1 = some r
  · obtain ⟨now, hnow, hheap, hlater⟩ := incoming_restart hstep hr hdaily hmeets hregular hincoming
    obtain ⟨hle, hle'⟩ := timed_reading hs hnow
    exact hphase.restart hstep hincoming hle hle' hheap ht₁ hlater
  by_cases hhandle : ∃ w clk, b.1 = .handle w clk ∧ (p.1.workers w).held = some r
  · obtain ⟨w, clk, hb, hheld⟩ := hhandle
    have hsub : clk.sub ∈ readings b.1 := by simp [hb, readings]
    have hcheck : clk.check ∈ readings b.1 := by simp [hb, readings]
    rw [hb] at hstep hmeets
    exact hphase.handle (handle_activating hstep hheld) hregular hdaily hmeets hstep (timed_reading hs hsub).1
      (timed_reading hs hcheck).2 hc
  · exact hphase.other hr hregular hdaily hsucceeds hstep hincoming (fun w clk hb hheld => hhandle ⟨w, clk, hb, hheld⟩) hc

end Phase

/-! ## The record -/

variable {p q : (State × ℚ) × List (Ref × ℚ)} {b : Action × ℚ}

/-- A step starts a sub job of the job, or none. -/
theorem history_emit (hs : Step cfg p.1.1 b.1 s') (r : Ref) :
    history r (emit p.1 b) = [] ∨ ∃ w i, p.1.1.workers w = .starting r ∧ s'.workers w = .running r i ∧
      history r (emit p.1 b) = [b.2] := by
  obtain ⟨a, t⟩ := b
  cases hs with
  | @start w x hw =>
    simp only [emit, hw]
    split
    · next hindex =>
      rw [history_single]
      by_cases hx : x = r
      · subst hx
        refine .inr ⟨w, (p.1.1.heap x).subJobIndex, hw, ?_, if_pos rfl⟩
        simp [State.start, hindex, State.setPc]
      · exact .inl (if_neg hx)
    · exact .inl rfl
  | _ => exact .inl rfl

theorem emit_lt (h : Wf p.1.1) {e : Ref × ℚ} (he : e ∈ emit p.1 b) : e.1 < p.1.1.next := by
  unfold emit at he
  split at he
  · split at he
    · next hw =>
      split at he
      · rw [List.mem_singleton.mp he]
        exact h.workers (by rw [hw]; rfl)
      · cases he
    · cases he
  · cases he

/-- The state, its clock and the starts so far. -/
structure Recorded (p : (State × ℚ) × List (Ref × ℚ)) : Prop where
  wf : Wf p.1.1
  known : ∀ e ∈ p.2, e.1 < p.1.1.next
  regular : ∀ r < p.1.1.next, ∀ h m, IsDaily (p.1.1.heap r) h m → Regular p.1.1 r
  phase : ∀ r < p.1.1.next, ∀ h m, IsDaily (p.1.1.heap r) h m → ∀ t₁ ∈ history r p.2, Phase p.1.1 p.1.2 r h m t₁
  once : OncePerDay p

theorem Recorded.step (h : Recorded p) (hmeets : Meets p.1.1 p.2 b.1) (hsucceeds : Succeeds p.1.1 b.1)
    (hs : recording (clocked cfg) emit p b = some q) : Recorded q := by
  obtain ⟨htimed, hes⟩ := recording_some hs
  have hstep := step_some (timed_some htimed).1
  have hclock := timed_le htimed
  have hend : q.1.2 = b.2 := (timed_some htimed).2.1
  have hdaily' : ∀ {r}, r < p.1.1.next → ∀ {h m}, IsDaily (q.1.1.heap r) h m → IsDaily (p.1.1.heap r) h m :=
    fun hr _ _ hdaily => hdaily.of_same (step_same hstep hr)
  -- A job that was not in use has not been started.
  have hnone : ∀ {r}, ¬ r < p.1.1.next → history r q.2 = [] := by
    intro r hr
    rw [hes]
    refine history_eq_nil fun e he => ?_
    rintro rfl
    rcases List.mem_append.mp he with he | he
    · exact hr (h.known e he)
    · exact hr (emit_lt h.wf he)
  refine ⟨h.wf.step hstep, ?_, ?_, ?_, ?_⟩
  · intro e he
    rw [hes, List.mem_append] at he
    rcases he with he | he
    · exact Nat.lt_of_lt_of_le (h.known e he) (next_le hstep)
    · exact Nat.lt_of_lt_of_le (emit_lt h.wf he) (next_le hstep)
  · intro r hr h' m hdaily
    by_cases hold : r < p.1.1.next
    · have hdaily := hdaily' hold hdaily
      exact (h.regular r hold h' m hdaily).step hold hdaily hmeets hsucceeds hstep
    · exact .new h.wf hstep hr hold
  · intro r hr h' m hdaily t₁ ht₁
    by_cases hold : r < p.1.1.next
    · have hdaily := hdaily' hold hdaily
      have hregular := h.regular r hold h' m hdaily
      rcases history_emit hstep r with hemit | ⟨w, i, hw, hw', hemit⟩
      · rw [hes, history_append, hemit, List.append_nil] at ht₁
        exact (h.phase r hold h' m hdaily t₁ ht₁).step hold hregular hdaily ht₁ hmeets hsucceeds htimed
      · exact .running hw'
    · rw [hnone hold] at ht₁
      cases ht₁
  · intro r hr h' m hdaily pre t post hsplit t₁ ht₁
    by_cases hold : r < p.1.1.next
    · have hdaily := hdaily' hold hdaily
      rw [hes, history_append] at hsplit
      rcases history_emit hstep r with hemit | ⟨w, i, hw, _, hemit⟩
      · rw [hemit, List.append_nil] at hsplit
        exact h.once r hold h' m hdaily pre t post hsplit t₁ ht₁
      · rw [hemit] at hsplit
        rcases snoc_eq_cons hsplit with ⟨mid, hmid, _⟩ | ⟨hpre, rfl, _⟩
        · exact h.once r hold h' m hdaily pre t mid hmid t₁ ht₁
        · have hphase := h.phase r hold h' m hdaily t₁ (hpre ▸ ht₁)
          obtain ⟨day, hlt, hpassed⟩ := hphase.passed_of_starting (h.regular r hold h' m hdaily) hw
          exact ⟨day, hlt, hpassed.trans (hend ▸ hclock)⟩
    · rw [hnone hold] at hsplit
      simp at hsplit

theorem runs_once_per_day {s₀ : State} {l : List (Action × ℚ)} {p : (State × ℚ) × List (Ref × ℚ)} (h0 : Initial s₀)
    (hs : Run (recording (clocked cfg) emit) (fun p a => Succeeds p.1.1 a.1 ∧ Meets p.1.1 p.2 a.1) ((s₀, c), []) l p) :
    OncePerDay p := by
  have hrecorded : Recorded p := by
    refine Run.invariant hs ?_ fun _ _ _ h hok hs => h.step hok.2 hok.1 hs
    refine ⟨h0.loaded.wf, fun _ he => (List.not_mem_nil he).elim, fun r hr _ _ _ => .initial h0 hr, ?_, ?_⟩
    · intro r _ _ _ _ t₁ ht₁
      simp [history] at ht₁
    · intro r _ _ _ _ pre t post hsplit
      simp [history] at hsplit
  exact hrecorded.once

/-! ## Two runs of task 0 -/

/-- Steps of task 0, and of no other. -/
def solo : Action → Bool
  | .getNowait w | .reserve w | .handle w _ | .connect w _ _ | .start w | .finish w _ | .restart w _ | .deactivate w
  | .release w => w = 0
  | _ => true

/-- No sub job fails. -/
def succeeds : Action → Bool
  | .finish _ o => o = .success
  | _ => true

/-- The other tasks have nothing. -/
def Alone (p : (State × ℚ) × List (Ref × ℚ)) : Prop := ∀ v ≠ 0, p.1.1.workers v = .idle

/-- The condition of `Meets`, of a run of task 0. -/
def plain (p : (State × ℚ) × List (Ref × ℚ)) : Action → Bool
  | .handle w clk => match p.1.1.workers w with
    | .activating r => (p.1.1.heap r).lastStatus ≠ .pending || 60 * ⌈clk.sub / 60⌉ ≤
        ⌊clk.algo⌋ + 60 * (((p.1.1.heap r).subJobs[(p.1.1.heap r).subJobIndex]?).bind (·.waittime)).getD 0
    | _ => true
  | .restartJob _ _ => false
  | a@(.restart _ now) => match p.1.1.incoming a with
    | some r => ((p.1.1.heap r).processingDate.all fun d => d < (⌊now⌋ : ℚ)) && (history r p.2).all (· < now)
    | none => true
  | _ => true

theorem solo_step (hs : Step cfg s a s') (ha : solo a = true) {v : Worker} (hv : v ≠ 0) : s'.workers v = s.workers v := by
  rcases step_moves hs with hwork | ⟨w, _, _, _, hwork, hmoves⟩
  · rw [hwork]
  · obtain rfl : w = 0 := by cases hmoves <;> simpa [solo] using ha
    rw [hwork, Function.update_of_ne hv]

theorem succeeds_of (ha : succeeds a = true) : Succeeds s a := by
  cases a with
  | finish w o => exact fun _ _ _ _ _ _ => by simpa [succeeds] using ha
  | _ => trivial

theorem Alone.step (h : Alone p) (ha : solo b.1 = true) (hs : recording (clocked cfg) emit p b = some q) : Alone q := by
  intro v hv
  rw [solo_step (step_some (timed_some (recording_some hs).1).1) ha hv]
  exact h v hv

theorem meets_of_plain (halone : Alone p) (hsolo : solo a = true)
    (hplain : plain p a = true) : Meets p.1.1 p.2 a := by
  cases a with
  | handle w clk =>
    obtain rfl : w = 0 := by simpa [solo] using hsolo
    intro r hw _ _ _
    refine ⟨fun v => ?_, fun hpending _ => by simpa [plain, hw, hpending] using hplain⟩
    by_cases hv : v = 0
    · simp [hv, hw, RedoOnError.executing]
    · simp [halone v hv, RedoOnError.executing]
  | restartJob now id => cases hplain
  | restart w now =>
    intro r hr _ _ _ _
    simp only [plain, hr, Bool.and_eq_true, List.all_eq_true, decide_eq_true_eq] at hplain
    refine ⟨fun d hd => ?_, hplain.2⟩
    rw [Option.mem_def] at hd
    simpa [hd] using hplain.1
  | _ => trivial

/-- Every day at 00:10. -/
def daily : Autocommand where
  redo := true
  algoValue := .str "00:10"
  redoOnError := false
  algoType := .daily

theorem isDaily_of_daily (hauto : e.autoCommandSettings = some daily) (hsubJobs : e.subJobs.length = 1) : IsDaily e 0 10 where
  auto := ⟨daily, hauto, rfl, rfl, ['0', '0'], ['1', '0'], "00:10", rfl, by decide +kernel, by decide +kernel, by decide +kernel⟩
  fields := by decide
  subJobs := hsubJobs

/-- The sub job succeeds, and the job is restarted in the next second. -/
def redone : List (Action × ℚ) := [(.finish 0 .success, 545), (.restart 0 546, 546), (.deactivate 0, 546), (.release 0, 546)]

/-- A job that is run in the last minute before 00:10, and started again. -/
def startedAgain (t : ℚ) : List (Action × ℚ) := (.reloadJobs fun _ => some [{}], 0) ::
  (.addJob "1" "dev" "update" (some daily), 540) :: (startedAt 545 ++ redone ++ startedAt t)

/-- The state and the record after it, when it is started at 00:10. -/
def startedNext : (State × ℚ) × List (Ref × ℚ) := after (recording (clocked 0) emit)
  (fun p a => solo a.1 = true ∧ succeeds a.1 = true ∧ plain p a.1 = true) ((blank.killOldJobs, 0), []) (startedAgain 600)

theorem startedNext_run : Run (recording (clocked 0) emit) (fun p a => Succeeds p.1.1 a.1 ∧ Meets p.1.1 p.2 a.1)
    ((blank.killOldJobs, 0), []) (startedAgain 600) startedNext := by
  have hrun : Run (recording (clocked 0) emit) (fun p a => solo a.1 = true ∧ succeeds a.1 = true ∧ plain p a.1 = true)
      ((blank.killOldJobs, 0), []) (startedAgain 600) startedNext := .of_after (by decide +kernel)
  have halone : Alone ((blank.killOldJobs, 0), []) := fun _ _ => rfl
  refine hrun.mono_of_invariant halone (fun _ _ _ h ha hs => h.step ha.1 hs) fun p a h ha => ?_
  exact ⟨succeeds_of ha.2.1, meets_of_plain h ha.1 ha.2.2⟩

theorem runs_once_per_day_next : OncePerDay startedNext := runs_once_per_day blank_initial startedNext_run

/-- It is started before 00:10 once more. -/
theorem run_twice : ¬ ∀ (cfg : Int) (s₀ : State) (c : ℚ) (l : List (Action × ℚ)) (p : (State × ℚ) × List (Ref × ℚ)),
    Initial s₀ → Run (recording (clocked cfg) emit) (fun p a => Succeeds p.1.1 a.1) ((s₀, c), []) l p → OncePerDay p := by
  intro h
  have hrun : Run (recording (clocked 0) emit) (fun _ a => succeeds a.1 = true) ((blank.killOldJobs, 0), []) (startedAgain 547)
      (after (recording (clocked 0) emit) (fun _ a => succeeds a.1 = true) ((blank.killOldJobs, 0), []) (startedAgain 547)) :=
    .of_after (by decide +kernel)
  have honce := h 0 _ 0 _ _ blank_initial (hrun.mono fun _ _ => succeeds_of) 0 (by decide +kernel) 0 10
    (isDaily_of_daily (by decide +kernel) (by decide +kernel)) [545] 547 [] (by decide +kernel) 545 (by simp)
  obtain ⟨day, hlt, hle⟩ := honce
  have hlt' : 545 < instant 0 10 day := by exact_mod_cast hlt
  have hle' : instant 0 10 day ≤ 547 := by exact_mod_cast hle
  unfold instant hhmm at hlt' hle'
  omega

end MapADroid.Updater.Daily
