import MapADroid.Lib.Run
import MapADroid.Lib.Trace
import MapADroid.Worker.WaitForData

/- From timeouts to restarts of the game, and from restarts to reboots of the device.

   A worker waits for data again and again, with the settings of the device as they are at
   the time; between two waits it may start or restart the game, or reboot the device. Every
   restart after a timeout has been earned by as many timeouts as the threshold says, and
   every reboot by as many restarts, whatever fails in between (`reboot_earned`); while the
   device may be rebooted and nothing fails, both are due by then (`reboot_due`). -/
namespace MapADroid.Worker.WaitForData
open Lib

variable {P D : Type}

/-- A wait, or what a strategy does about the game between two. -/
inductive Label (P D : Type) where
  | wait (settings : DeviceSettings) (c : Course P D) (fuel : Nat)
  | startPogo (p : Nested)
  | restartPogo (r : Restart)
  | reboot (p : Nested)

def step (s : WorkerState) : Label P D → Option WorkerState
  | .wait settings c fuel => some (call (waitForData settings c fuel) s).2
  | .startPogo p => some (call (startPogo p) s).2
  | .restartPogo r => some (call (restartPogo r) s).2
  | .reboot p => some (call (reboot p) s).2

/-- The timeouts above which the game is restarted. -/
def DeviceSettings.restartAfter (settings : DeviceSettings) : Nat := (settings.restartThresh.getD 5).toNat

/-- The restarts above which the device is rebooted. -/
def DeviceSettings.rebootAfter (settings : DeviceSettings) : Nat := (settings.rebootThresh.getD 3).toNat

/-! ## What happens in a step -/

/-- The state after some events. -/
def WorkerState.happened (s : WorkerState) (es : List Event) : WorkerState := es.foldl WorkerState.note s

theorem WorkerState.happened_append (s : WorkerState) (es fs : List Event) :
    s.happened (es ++ fs) = (s.happened es).happened fs := List.foldl_append

theorem call_happen (e : Event) (s : WorkerState) : call (happen e) s = (.ok (), s.note e) := rfl

/-- Restarts of the game and reboots of the device. -/
def Recovering (es : List Event) : Prop := ∀ e ∈ es, e = .restarted ∨ e = .rebooted

theorem call_startPogo (p : Nested) (s : WorkerState) :
    ∃ es, Recovering es ∧ (p.reboots = [] → es = []) ∧
      call (startPogo p) s = (if p.comesBack then .ok () else .error .awaited, s.happened es) := by
  refine ⟨p.reboots.map fun reboots => if reboots then .rebooted else .restarted, ?_, List.map_eq_nil_iff.mpr, ?_⟩
  · intro e he
    obtain ⟨reboots, _, rfl⟩ := List.mem_map.mp he
    cases reboots
    · exact .inl rfl
    · exact .inr rfl
  · rw [startPogo, call_bind, call_modify, andThen_ok, call_await, WorkerState.happened, List.foldl_map]
    cases p.comesBack <;> rfl

theorem call_reboot (p : Nested) (s : WorkerState) :
    ∃ es, Recovering es ∧ (call (reboot p) s).2 = s.happened es ∧
      (p.comesBack = true → ∃ fs, es = fs ++ [.rebooted]) := by
  obtain ⟨es, hes, _, hstart⟩ := call_startPogo p s
  rw [reboot, call_bind, hstart]
  cases p.comesBack with
  | false => exact ⟨es, hes, rfl, nofun⟩
  | true =>
    refine ⟨es ++ [.rebooted], ?_, ?_, fun _ => ⟨es, rfl⟩⟩
    · intro e he
      rcases List.mem_append.mp he with hin | hlast
      · exact hes e hin
      · exact .inr (List.mem_singleton.mp hlast)
    · rw [WorkerState.happened_append]
      rfl

theorem call_restartPogo (r : Restart) (s : WorkerState) :
    ∃ es, Recovering es ∧ (call (restartPogo r) s).2 = s.happened es := by
  rw [restartPogo, call_bind, call_await]
  cases r.stopComesBack with
  | false => exact ⟨[], nofun, rfl⟩
  | true =>
    obtain ⟨es, hes, hrest⟩ : ∃ es, Recovering es ∧
        (call (if r.successfulStop then startPogo r.startPogo else reboot r.reboot) (s.note .restarted)).2 =
          (s.note .restarted).happened es := by
      cases r.successfulStop with
      | true =>
        obtain ⟨es, hes, _, hcall⟩ := call_startPogo r.startPogo (s.note .restarted)
        exact ⟨es, hes, congrArg Prod.snd hcall⟩
      | false =>
        obtain ⟨es, hes, hcall, _⟩ := call_reboot r.reboot (s.note .restarted)
        exact ⟨es, hes, hcall⟩
    exact ⟨.restarted :: es, List.forall_mem_cons.mpr ⟨.inl rfl, hes⟩, hrest⟩

/-- **What a timeout leads to.** -/
inductive TimeoutMove (settings : DeviceSettings) (h : Handling) (s : WorkerState) : WorkerState → Prop where
  | uncounted : TimeoutMove settings h s s
  | counted (hbelow : h.threshRead = true → s.restartCount < settings.restartAfter) :
    TimeoutMove settings h s (s.happened [.timedOut])
  | unread (habove : settings.restartAfter ≤ s.restartCount) (hreboot : settings.rebootAfter ≤ s.rebootCount)
    (hread : h.rebootRead = false) : TimeoutMove settings h s (s.happened [.timedOut, .escalated])
  | reboots (habove : settings.restartAfter ≤ s.restartCount) (hreboot : settings.rebootAfter ≤ s.rebootCount)
    {es : List Event} (hes : Recovering es) (hback : h.reboot.comesBack = true → ∃ fs, es = fs ++ [.rebooted]) :
    TimeoutMove settings h s ((s.happened [.timedOut, .escalated, .rebootOrdered]).happened es)
  | restarts (habove : settings.restartAfter ≤ s.restartCount)
    (hreboot : s.rebootCount < settings.rebootAfter ∨ settings.reboot.getD true = false) {es : List Event}
    (hes : Recovering es) :
    TimeoutMove settings h s ((s.happened [.timedOut, .escalated, .restartOrdered]).happened es)

theorem call_toBeRebooted (settings : DeviceSettings) (h : Handling) (s : WorkerState) :
    call (toBeRebooted settings h) s =
      if (settings.rebootThresh.getD 3 : Int) < s.rebootCount then
        if h.rebootRead then (.ok (settings.reboot.getD true), s) else (.error .awaited, s)
      else (.ok false, s) := by
  rw [toBeRebooted, call_bind, call_get, andThen_ok, call_ite]
  split
  · rw [call_bind, call_await]
    cases h.rebootRead <;> rfl
  · rfl

/-- A method that raises in the end leaves what it changed. -/
theorem call_bind_throw {α β : Type} (m : Working α) (e : Raised) (s : WorkerState) :
    (call (m >>= fun _ => (throw e : Working β)) s).2 = (call m s).2 := by
  rw [call_bind]
  cases call m s with
  | mk result t => cases result <;> rfl

theorem handleProtoTimeout_move (settings : DeviceSettings) (h : Handling) (s : WorkerState) :
    TimeoutMove settings h s (call (handleProtoTimeout settings h) s).2 := by
  rw [handleProtoTimeout, call_bind, call_await]
  cases hcollected : h.collected with
  | false => exact .uncounted
  | true =>
    rw [if_pos rfl, andThen_ok, call_bind, call_happen, andThen_ok, call_bind, call_await]
    cases hthresh : h.threshRead with
    | false => exact .counted fun hread => by rw [hthresh] at hread; cases hread
    | true =>
      rw [if_pos rfl, andThen_ok, call_bind, call_get, andThen_ok, call_ite]
      by_cases habove : (settings.restartThresh.getD 5 : Int) < (s.note .timedOut).restartCount
      · have habove' : settings.restartAfter ≤ s.restartCount := by
          have hcount : (s.note .timedOut).restartCount = s.restartCount + 1 := rfl
          rw [DeviceSettings.restartAfter]
          omega
        rw [if_pos habove, call_bind, call_happen, andThen_ok, call_bind, call_toBeRebooted]
        have hreboots : ((s.note .timedOut).note .escalated).rebootCount = s.rebootCount + 1 := rfl
        by_cases hreboot : (settings.rebootThresh.getD 3 : Int) < ((s.note .timedOut).note .escalated).rebootCount
        · have hreboot' : settings.rebootAfter ≤ s.rebootCount := by
            rw [DeviceSettings.rebootAfter]
            omega
          rw [if_pos hreboot]
          cases hread : h.rebootRead with
          | false => exact .unread habove' hreboot' hread
          | true =>
            rw [if_pos rfl, andThen_ok, call_ite]
            cases hallowed : settings.reboot.getD true with
            | true =>
              obtain ⟨es, hes, hcall, hback⟩ :=
                call_reboot h.reboot (s.happened [.timedOut, .escalated, .rebootOrdered])
              rw [if_pos rfl, call_bind, call_happen, andThen_ok, call_bind_throw]
              exact hcall ▸ .reboots habove' hreboot' hes hback
            | false =>
              obtain ⟨es, hes, hcall⟩ :=
                call_restartPogo h.restart (s.happened [.timedOut, .escalated, .restartOrdered])
              rw [if_neg Bool.false_ne_true, call_bind, call_happen, andThen_ok]
              exact hcall ▸ .restarts habove' (.inr hallowed) hes
        · have hreboot' : s.rebootCount < settings.rebootAfter := by
            rw [DeviceSettings.rebootAfter]
            omega
          obtain ⟨es, hes, hcall⟩ := call_restartPogo h.restart (s.happened [.timedOut, .escalated, .restartOrdered])
          rw [if_neg hreboot, andThen_ok, call_ite, if_neg Bool.false_ne_true, call_bind, call_happen, andThen_ok]
          exact hcall ▸ .restarts habove' (.inl hreboot') hes
      · rw [if_neg habove]
        refine .counted fun _ => ?_
        have hcount : (s.note .timedOut).restartCount = s.restartCount + 1 := rfl
        rw [DeviceSettings.restartAfter]
        omega

/-- A wait leaves the worker as it was, or data has come, or a timeout. -/
theorem waitForData_move (settings : DeviceSettings) (c : Course P D) (fuel : Nat) (s : WorkerState) :
    (call (waitForData settings c fuel) s).2 = s.note .received ∨
      TimeoutMove settings c.handling s (call (waitForData settings c fuel) s).2 := by
  rw [waitForData, call_bind, call_await]
  cases c.raises with
  | true => exact .inr .uncounted
  | false =>
    rw [Bool.not_false, if_pos rfl, andThen_ok, call_bind]
    have hloop := waitLoop_state c c.after (c.timeoutUsed settings) fuel 0 (firstFound c) s
    generalize call (waitLoop c c.after (c.timeoutUsed settings) fuel 0 (firstFound c)) s = result at hloop
    obtain ⟨outcome, t⟩ := result
    obtain rfl : t = s := hloop
    cases outcome with
    | error e => exact .inr .uncounted
    | ok f =>
      have hcounted : (call (countOutcome settings c f >>= fun _ => pure f) t).2 = (call (countOutcome settings c f) t).2 := by
        rw [call_bind]
        cases call (countOutcome settings c f) t with
        | mk result u => cases result <;> rfl
      rw [andThen_ok, hcounted, countOutcome]
      split
      · split
        · left
          rw [resetRestartCountAndCollectStats, call_bind, call_happen, andThen_ok, call_await]
          cases c.collected <;> rfl
        · exact .inr (handleProtoTimeout_move settings c.handling t)
      · exact .inr .uncounted

/-! ## Counting timeouts -/

/-- No timeout before it counts towards a reboot. -/
def Event.settles : Event → Bool
  | .received | .rebooted => true
  | _ => false

/-- No timeout before it counts towards a restart. -/
def Event.calms : Event → Bool
  | .received | .rebooted | .restarted | .restartOrdered => true
  | _ => false

/-- The timeouts after the last mark. -/
def timeouts (mark : Event → Bool) (es : List Event) : Nat := (Lib.since mark es).count .timedOut

theorem timeouts_mark {mark : Event → Bool} {e : Event} (he : mark e = true) (es : List Event) :
    timeouts mark (es ++ [e]) = 0 := by
  rw [timeouts, since_mark he]
  rfl

theorem timeouts_timedOut {mark : Event → Bool} (he : mark .timedOut = false) (es : List Event) :
    timeouts mark (es ++ [.timedOut]) = timeouts mark es + 1 := by
  rw [timeouts, since_quiet he, List.count_append]
  rfl

theorem timeouts_other {mark : Event → Bool} {e : Event} (he : mark e = false) (hne : e ≠ .timedOut) (es : List Event) :
    timeouts mark (es ++ [e]) = timeouts mark es := by
  rw [timeouts, since_quiet he, List.count_append, List.count_singleton, if_neg (by simpa using hne)]
  rfl

/-- The restart counter is the number of timeouts that count towards a restart. -/
def Counted (s : WorkerState) : Prop := s.restartCount = timeouts Event.calms s.record

theorem Counted.note {s : WorkerState} (h : Counted s) (e : Event) : Counted (s.note e) := by
  show (s.set e).restartCount = timeouts Event.calms (s.record ++ [e])
  cases e with
  | timedOut =>
    rw [timeouts_timedOut rfl]
    exact congrArg (· + 1) h
  | escalated => exact h.trans (timeouts_other rfl (by decide) _).symm
  | rebootOrdered => exact h.trans (timeouts_other rfl (by decide) _).symm
  | received => exact (timeouts_mark rfl _).symm
  | rebooted => exact (timeouts_mark rfl _).symm
  | restarted => exact (timeouts_mark rfl _).symm
  | restartOrdered => exact (timeouts_mark rfl _).symm

theorem Counted.happened {s : WorkerState} (h : Counted s) (es : List Event) : Counted (s.happened es) := by
  induction es generalizing s with
  | nil => exact h
  | cons e es ih => exact ih (h.note e)

/-! ## What is ordered has been earned -/

/-- What the counters say of the timeouts so far, with `R` timeouts to a restart and `B` restarts to a reboot. -/
structure Earned (R B : Nat) (s : WorkerState) : Prop where
  counted : Counted s
  within : s.rebootCount ≤ B → s.restartCount + s.rebootCount * (R + 1) ≤ timeouts Event.settles s.record
  beyond : B < s.rebootCount → (R + 1) * (B + 1) ≤ timeouts Event.settles s.record
  restarts : Preceded .restartOrdered (fun es => R + 1 ≤ timeouts Event.calms es) s.record
  reboots : Preceded .rebootOrdered (fun es => (R + 1) * (B + 1) ≤ timeouts Event.settles es) s.record

section
variable {R B : Nat} {s : WorkerState}

theorem Earned.init : Earned R B .init where
  counted := rfl
  within _ := by simp [WorkerState.init]
  beyond h := absurd h (Nat.not_lt_zero B)
  restarts := .nil
  reboots := .nil

/-- Data and reboots begin the count anew. -/
theorem Earned.settled (h : Earned R B s) {e : Event} (he : e = .received ∨ e = .rebooted) : Earned R B (s.note e) := by
  have hcounters : (s.note e).restartCount = 0 ∧ (s.note e).rebootCount = 0 := by
    rcases he with rfl | rfl
    · exact ⟨rfl, rfl⟩
    · exact ⟨rfl, rfl⟩
  constructor
  · exact h.counted.note e
  · intro _
    rw [hcounters.1, hcounters.2, Nat.zero_mul]
    exact Nat.zero_le _
  · intro hbeyond
    rw [hcounters.2] at hbeyond
    exact absurd hbeyond (Nat.not_lt_zero B)
  · exact h.restarts.snoc fun hordered => by rcases he with rfl | rfl <;> cases hordered
  · exact h.reboots.snoc fun hordered => by rcases he with rfl | rfl <;> cases hordered

theorem Earned.restarted (h : Earned R B s) : Earned R B (s.note .restarted) := by
  have htimeouts : timeouts Event.settles (s.note .restarted).record = timeouts Event.settles s.record :=
    timeouts_other rfl (by decide) _
  constructor
  · exact h.counted.note .restarted
  · intro hwithin
    have hold := h.within hwithin
    rw [htimeouts]
    show 0 + s.rebootCount * (R + 1) ≤ _
    omega
  · intro hbeyond
    rw [htimeouts]
    exact h.beyond hbeyond
  · exact h.restarts.snoc nofun
  · exact h.reboots.snoc nofun

theorem Earned.timedOut (h : Earned R B s) : Earned R B (s.note .timedOut) := by
  have htimeouts : timeouts Event.settles (s.note .timedOut).record = timeouts Event.settles s.record + 1 :=
    timeouts_timedOut rfl _
  constructor
  · exact h.counted.note .timedOut
  · intro hwithin
    have hold := h.within hwithin
    rw [htimeouts]
    show s.restartCount + 1 + s.rebootCount * (R + 1) ≤ _
    omega
  · intro hbeyond
    rw [htimeouts]
    exact Nat.le_succ_of_le (h.beyond hbeyond)
  · exact h.restarts.snoc nofun
  · exact h.reboots.snoc nofun

theorem Earned.recovered (h : Earned R B s) {es : List Event} (hes : Recovering es) : Earned R B (s.happened es) := by
  induction es generalizing s with
  | nil => exact h
  | cons e es ih =>
    obtain ⟨he, hrest⟩ := List.forall_mem_cons.mp hes
    rcases he with rfl | rfl
    · exact ih h.restarted hrest
    · exact ih (h.settled (.inr rfl)) hrest

/-- The timeout that escalates. -/
theorem Earned.reaches (h : Earned R B s) (habove : R < s.restartCount) (hreboot : B ≤ s.rebootCount) :
    (R + 1) * (B + 1) ≤ timeouts Event.settles s.record := by
  rcases Nat.lt_or_eq_of_le hreboot with hbeyond | hlast
  · exact h.beyond hbeyond
  · have hwithin := h.within hlast.symm.le
    rw [← hlast] at hwithin
    calc (R + 1) * (B + 1) = (R + 1) + B * (R + 1) := by ring
      _ ≤ s.restartCount + B * (R + 1) := Nat.add_le_add_right habove _
      _ ≤ timeouts Event.settles s.record := hwithin

/-- Beyond the threshold the counters need not say more. -/
theorem Earned.escalated (h : Earned R B s) (habove : R < s.restartCount) (hreboot : B ≤ s.rebootCount) :
    Earned R B (s.note .escalated) := by
  have htimeouts : timeouts Event.settles (s.note .escalated).record = timeouts Event.settles s.record :=
    timeouts_other rfl (by decide) _
  constructor
  · exact h.counted.note .escalated
  · intro hwithin
    exact absurd (show s.rebootCount + 1 ≤ B from hwithin) (by omega)
  · intro _
    rw [htimeouts]
    exact h.reaches habove hreboot
  · exact h.restarts.snoc nofun
  · exact h.reboots.snoc nofun

theorem Earned.rebootOrdered (h : Earned R B s) (hbeyond : B < s.rebootCount) : Earned R B (s.note .rebootOrdered) := by
  have htimeouts : timeouts Event.settles (s.note .rebootOrdered).record = timeouts Event.settles s.record :=
    timeouts_other rfl (by decide) _
  constructor
  · exact h.counted.note .rebootOrdered
  · exact fun hwithin => absurd hbeyond (Nat.not_lt.mpr hwithin)
  · intro _
    rw [htimeouts]
    exact h.beyond hbeyond
  · exact h.restarts.snoc nofun
  · exact h.reboots.snoc fun _ => h.beyond hbeyond

/-- A restart stands for the timeouts that have led to it. -/
theorem Earned.restartOrdered (h : Earned R B s) (habove : R < s.restartCount) :
    Earned R B ((s.note .escalated).note .restartOrdered) := by
  have htimeouts : timeouts Event.settles ((s.note .escalated).note .restartOrdered).record =
      timeouts Event.settles s.record :=
    (timeouts_other rfl (by decide) _).trans (timeouts_other rfl (by decide) _)
  constructor
  · exact (h.counted.note .escalated).note .restartOrdered
  · intro hwithin
    have hold := h.within (Nat.le_of_succ_le (show s.rebootCount + 1 ≤ B from hwithin))
    rw [htimeouts]
    show 0 + (s.rebootCount + 1) * (R + 1) ≤ _
    rw [Nat.succ_mul]
    omega
  · intro hbeyond
    rw [htimeouts]
    exact h.reaches habove (Nat.le_of_lt_succ hbeyond)
  · have hcounted : s.restartCount = timeouts Event.calms (s.note .escalated).record := h.counted.note .escalated
    have hearned : R + 1 ≤ timeouts Event.calms (s.note .escalated).record := hcounted ▸ habove
    have hold : Preceded .restartOrdered (fun es => R + 1 ≤ timeouts Event.calms es) (s.note .escalated).record :=
      h.restarts.snoc nofun
    exact hold.snoc fun _ => hearned
  · have hold : Preceded .rebootOrdered (fun es => (R + 1) * (B + 1) ≤ timeouts Event.settles es)
        (s.note .escalated).record := h.reboots.snoc nofun
    exact hold.snoc nofun

end

/-! ## Runs -/

/-- The thresholds are not below `R` and `B`. -/
def AtLeast (R B : Nat) (_ : WorkerState) : Label P D → Prop
  | .wait settings _ _ => R ≤ settings.restartAfter ∧ B ≤ settings.rebootAfter
  | _ => True

instance (R B : Nat) (s : WorkerState) (a : Label P D) : Decidable (AtLeast R B s a) := by
  cases a <;> unfold AtLeast <;> infer_instance

theorem TimeoutMove.earned {R B : Nat} {settings : DeviceSettings} {h : Handling} {s t : WorkerState}
    (hmove : TimeoutMove settings h s t) (hR : R ≤ settings.restartAfter) (hB : B ≤ settings.rebootAfter)
    (hs : Earned R B s) : Earned R B t := by
  have htimedOut := hs.timedOut
  cases hmove with
  | uncounted => exact hs
  | counted => exact htimedOut
  | unread habove hreboot =>
    exact htimedOut.escalated (Nat.lt_succ_of_le (hR.trans habove)) (hB.trans hreboot)
  | reboots habove hreboot hes =>
    have hescalated := htimedOut.escalated (Nat.lt_succ_of_le (hR.trans habove)) (hB.trans hreboot)
    exact (hescalated.rebootOrdered (Nat.lt_succ_of_le (hB.trans hreboot))).recovered hes
  | restarts habove _ hes =>
    exact (htimedOut.restartOrdered (Nat.lt_succ_of_le (hR.trans habove))).recovered hes

/-- **The steps**, as far as events go. -/
inductive StepMove (s : WorkerState) : Label P D → WorkerState → Prop where
  | received {settings : DeviceSettings} {c : Course P D} {fuel : Nat} :
    StepMove s (.wait settings c fuel) (s.note .received)
  | timeout {settings : DeviceSettings} {c : Course P D} {fuel : Nat} {t : WorkerState}
    (hmove : TimeoutMove settings c.handling s t) : StepMove s (.wait settings c fuel) t
  | starts {p : Nested} {es : List Event} (hes : Recovering es) (hquiet : p.reboots = [] → es = []) :
    StepMove s (.startPogo p) (s.happened es)
  | restarts {r : Restart} {es : List Event} (hes : Recovering es) : StepMove s (.restartPogo r) (s.happened es)
  | reboots {p : Nested} {es : List Event} (hes : Recovering es)
    (hback : p.comesBack = true → ∃ fs, es = fs ++ [.rebooted]) : StepMove s (.reboot p) (s.happened es)

theorem step_move {s t : WorkerState} {a : Label P D} (h : step s a = some t) : StepMove s a t := by
  cases a with
  | wait settings c fuel =>
    obtain rfl := Option.some.inj h
    rcases waitForData_move settings c fuel s with hreceived | hmove
    · rw [hreceived]
      exact .received
    · exact .timeout hmove
  | startPogo p =>
    obtain rfl := Option.some.inj h
    obtain ⟨es, hes, hquiet, hcall⟩ := call_startPogo p s
    exact hcall ▸ .starts hes hquiet
  | restartPogo r =>
    obtain rfl := Option.some.inj h
    obtain ⟨es, hes, hcall⟩ := call_restartPogo r s
    exact hcall ▸ .restarts hes
  | reboot p =>
    obtain rfl := Option.some.inj h
    obtain ⟨es, hes, hcall, hback⟩ := call_reboot p s
    exact hcall ▸ .reboots hes hback

/-- **Restarts and reboots are earned**: the game is restarted after a timeout only where at least `R + 1` timeouts were
    counted since data was received, the game restarted or the device rebooted; and the device is rebooted after one only
    where `(R + 1) * (B + 1)` were since data was received or the device rebooted, with restarts between them or not. -/
theorem reboot_earned {R B : Nat} {s : WorkerState} {l : List (Label P D)} (h : Run step (AtLeast R B) .init l s) :
    Preceded .restartOrdered (fun es => R + 1 ≤ timeouts Event.calms es) s.record ∧
      Preceded .rebootOrdered (fun es => (R + 1) * (B + 1) ≤ timeouts Event.settles es) s.record := by
  have hearned : Earned R B s := by
    refine h.invariant Earned.init fun s a t hs hok hstep => ?_
    cases step_move hstep with
    | received => exact hs.settled (.inl rfl)
    | timeout hmove => exact hmove.earned hok.1 hok.2 hs
    | starts hes => exact hs.recovered hes
    | restarts hes => exact hs.recovered hes
    | reboots hes => exact hs.recovered hes
  exact ⟨hearned.restarts, hearned.reboots⟩

/-- A wait for a GMO of a device that sends nothing. -/
def silentWait : Course Nat Nat where
  timestamp := some 1000
  proto := .gmo
  timeout := some 10
  startedAt := 1000
  raises := false
  first := ⟨none, none, 50, fun data => (.gmo, some data)⟩
  rounds n := ⟨false, 1005 + 6 * n, ⟨none, none, 50, fun data => (.gmo, some data)⟩, false, true, false, true⟩
  currentLocation := ⟨10, 20⟩
  distance _ _ := 0
  maximumValidDistance := 100
  quest := false
  collected := true
  handling := ⟨true, true, true, ⟨[], true⟩, ⟨true, true, ⟨[], true⟩, ⟨[], true⟩⟩⟩

/-- Four such waits, where one timeout and one restart are still let pass, and the screen is handled after the first. -/
def silentRun : List (Label Nat Nat) :=
  [.wait ⟨none, some 1, some 1, none⟩ silentWait 3, .startPogo ⟨[], true⟩, .wait ⟨none, some 1, some 1, none⟩ silentWait 3,
    .wait ⟨none, some 1, some 1, none⟩ silentWait 3, .wait ⟨none, some 1, some 1, some true⟩ silentWait 3]

theorem reboot_earned_silentRun :
    .rebootOrdered ∈ (after step (AtLeast 1 1) .init silentRun).record ∧
      Preceded .rebootOrdered (fun es => 4 ≤ timeouts Event.settles es)
        (after step (AtLeast 1 1) .init silentRun).record :=
  ⟨by decide +kernel, (reboot_earned (Run.of_after (by decide +kernel))).2⟩

/-! ## What is due is ordered -/

/-- The counters of a worker that nothing has disturbed. -/
structure Due (R B : Nat) (s : WorkerState) : Prop where
  counted : Counted s
  restart : s.restartCount ≤ R
  reboot : s.rebootCount ≤ B
  behind : timeouts Event.settles s.record ≤ s.restartCount + s.rebootCount * (R + 1)

/-- The device may be rebooted, which comes back, the thresholds are read and not above `R` and `B`, and the game is not
    restarted but after a timeout. -/
def Undisturbed (R B : Nat) (_ : WorkerState) : Label P D → Prop
  | .wait settings c _ => settings.restartAfter ≤ R ∧ settings.rebootAfter ≤ B ∧ settings.reboot.getD true = true ∧
      c.handling.threshRead = true ∧ c.handling.rebootRead = true ∧ c.handling.reboot.comesBack = true
  | .reboot p => p.comesBack = true
  | .startPogo p => p.reboots = []
  | .restartPogo _ => False

instance (R B : Nat) (s : WorkerState) (a : Label P D) : Decidable (Undisturbed R B s a) := by
  cases a <;> unfold Undisturbed <;> infer_instance

section
variable {R B : Nat} {s : WorkerState}

theorem Due.init : Due R B .init where
  counted := rfl
  restart := Nat.zero_le R
  reboot := Nat.zero_le B
  behind := Nat.zero_le _

/-- Data and reboots leave nothing due. -/
theorem Due.settled (hcounted : Counted s) {e : Event} (he : e = .received ∨ e = .rebooted) : Due R B (s.note e) := by
  rcases he with rfl | rfl
  · exact ⟨hcounted.note .received, Nat.zero_le R, Nat.zero_le B, (timeouts_mark rfl _).le.trans (Nat.zero_le _)⟩
  · exact ⟨hcounted.note .rebooted, Nat.zero_le R, Nat.zero_le B, (timeouts_mark rfl _).le.trans (Nat.zero_le _)⟩

theorem Due.timedOut (h : Due R B s) (hbelow : s.restartCount < R) : Due R B (s.note .timedOut) where
  counted := h.counted.note .timedOut
  restart := hbelow
  reboot := h.reboot
  behind := by
    have htimeouts : timeouts Event.settles (s.note .timedOut).record = timeouts Event.settles s.record + 1 :=
      timeouts_timedOut rfl _
    have hold := h.behind
    rw [htimeouts]
    show _ ≤ s.restartCount + 1 + s.rebootCount * (R + 1)
    omega

theorem Due.restartOrdered (h : Due R B s) (hreboot : s.rebootCount < B) :
    Due R B (s.happened [.timedOut, .escalated, .restartOrdered]) where
  counted := h.counted.happened _
  restart := Nat.zero_le R
  reboot := hreboot
  behind := by
    have htimeouts : timeouts Event.settles (s.happened [.timedOut, .escalated, .restartOrdered]).record =
        timeouts Event.settles s.record + 1 :=
      ((timeouts_other rfl (by decide) _).trans (timeouts_other rfl (by decide) _)).trans (timeouts_timedOut rfl _)
    rw [htimeouts]
    calc timeouts Event.settles s.record + 1
        ≤ s.restartCount + s.rebootCount * (R + 1) + 1 := Nat.succ_le_succ h.behind
      _ ≤ R + s.rebootCount * (R + 1) + 1 := Nat.succ_le_succ (Nat.add_le_add_right h.restart _)
      _ = 0 + (s.rebootCount + 1) * (R + 1) := by ring

/-- A restart when no timeout counts towards one changes nothing. -/
theorem Due.recovered (h : Due R B s) (hzero : s.restartCount = 0) {es : List Event} (hes : Recovering es) :
    Due R B (s.happened es) := by
  induction es generalizing s with
  | nil => exact h
  | cons e es ih =>
    obtain ⟨he, hrest⟩ := List.forall_mem_cons.mp hes
    rcases he with rfl | rfl
    · refine ih ⟨h.counted.note .restarted, Nat.zero_le R, h.reboot, ?_⟩ rfl hrest
      have htimeouts : timeouts Event.settles (s.note .restarted).record = timeouts Event.settles s.record :=
        timeouts_other rfl (by decide) _
      rw [htimeouts]
      exact h.behind.trans (Nat.add_le_add_right hzero.le _)
    · exact ih (.settled h.counted (.inr rfl)) rfl hrest

theorem Due.step {t : WorkerState} {a : Label P D} (h : Due R B s) (hok : Undisturbed R B s a)
    (hmove : StepMove s a t) : Due R B t := by
  cases hmove with
  | received => exact .settled h.counted (.inl rfl)
  | @timeout settings c fuel t hmove =>
    obtain ⟨hR, hB, hallowed, hthresh, hread, hback⟩ := hok
    cases hmove with
    | uncounted => exact h
    | counted hbelow => exact h.timedOut ((hbelow hthresh).trans_le hR)
    | unread _ _ hunread =>
      rw [hread] at hunread
      cases hunread
    | @reboots habove hreboot es hes hlast =>
      obtain ⟨fs, rfl⟩ := hlast hback
      rw [WorkerState.happened_append]
      exact .settled ((h.counted.happened _).happened fs) (.inr rfl)
    | restarts habove hreboot hes =>
      rcases hreboot with hreboot | hforbidden
      · exact (h.restartOrdered (hreboot.trans_le hB)).recovered rfl hes
      · rw [hallowed] at hforbidden
        cases hforbidden
  | starts hes hquiet =>
    rw [hquiet hok]
    exact h
  | restarts => exact hok.elim
  | reboots hes hlast =>
    obtain ⟨fs, rfl⟩ := hlast hok
    rw [WorkerState.happened_append]
    exact .settled (h.counted.happened fs) (.inr rfl)

/-- **Restarts and reboots are due**: in runs that nothing disturbs, not more than `R` timeouts are counted before the
    game is restarted, and less than `(R + 1) * (B + 1)` before the device is rebooted, unless data is received. -/
theorem reboot_due {l : List (Label P D)} (h : Run Worker.WaitForData.step (Undisturbed R B) .init l s) :
    timeouts Event.calms s.record ≤ R ∧ timeouts Event.settles s.record < (R + 1) * (B + 1) := by
  have hdue : Due R B s := by
    refine h.invariant Due.init fun s a t hs hok hstep => ?_
    exact hs.step hok (step_move hstep)
  refine ⟨hdue.counted ▸ hdue.restart, ?_⟩
  calc timeouts Event.settles s.record
      ≤ s.restartCount + s.rebootCount * (R + 1) := hdue.behind
    _ ≤ R + B * (R + 1) := Nat.add_le_add hdue.restart (Nat.mul_le_mul_right _ hdue.reboot)
    _ < (R + 1) * (B + 1) := by
      have hexpand : (R + 1) * (B + 1) = B * (R + 1) + (R + 1) := by ring
      omega

end

theorem reboot_due_silentRun :
    .rebooted ∈ (after step (Undisturbed 1 1) .init silentRun).record ∧
      timeouts Event.settles (after step (Undisturbed 1 1) .init silentRun).record < 4 :=
  ⟨by decide +kernel, (reboot_due (Run.of_after (by decide +kernel))).2⟩

end MapADroid.Worker.WaitForData
