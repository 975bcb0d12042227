import MapADroid.Websocket.Moves

/- What holds in every state the server reaches, whatever the order of the steps and
   whichever of them fail.

   A connection that was registered is that of the entry of its origin or closed, as an
   entry only gets another connection in the section of the mutex that found its own
   closed; and an entry gets at most one worker, and that at most one task at a time
   (`Current`). -/
namespace MapADroid.Websocket
open Lib

variable {cfg : Settings} {s t : Server} {c d : Conn} {o : String} {a : ConnectionAction}

namespace Server

/-! ## The mutex -/

theorem locked_init : Locked init where
  handler c := by simp [init, HandlerPc.holds]
  server := by simp [init, StopPc.holds]

/-- A handler that takes the mutex, keeps it, or lets go of it. -/
theorem Locked.move (h : Locked s) (pc : HandlerPc) (hfree : s.FreeFor c)
    (hmutex : t.currentUsersMutex = if pc.holds then some (.handler c) else none)
    (hpc : ∀ d, t.pc d = if d = c then pc else s.pc d) (hstop : t.stopPc = s.stopPc) : Locked t := by
  have hserver : s.currentUsersMutex ≠ some .server := by
    rcases hfree with hfree | hfree <;> simp [hfree]
  have hother : ∀ d, d ≠ c → (s.pc d).holds = false := by
    intro d hd
    rw [Bool.eq_false_iff, Ne, h.handler d]
    rcases hfree with hfree | hfree
    · simp [hfree]
    · simp [hfree, Ne.symm hd]
  constructor
  · intro d
    rw [hpc, hmutex]
    by_cases hd : d = c
    · subst hd
      cases hholds : pc.holds <;> simp [hholds]
    · rw [if_neg hd, hother d hd]
      cases hholds : pc.holds
      · simp
      · simp [Ne.symm hd]
  · rw [hstop, hmutex, h.server]
    refine ⟨fun hs => absurd hs hserver, fun hs => ?_⟩
    cases hholds : pc.holds <;> simp [hholds] at hs

/-- A handler outside the sections goes on outside of them. -/
theorem Locked.outside (h : Locked s) (pc : HandlerPc) (hc : (s.pc c).holds = false) (hholds : pc.holds = false)
    (hmutex : t.currentUsersMutex = s.currentUsersMutex)
    (hpc : ∀ d, t.pc d = if d = c then pc else s.pc d) (hstop : t.stopPc = s.stopPc) : Locked t := by
  refine ⟨fun d => ?_, by rw [hstop, hmutex, h.server]⟩
  rw [hpc, hmutex, ← h.handler d]
  split
  · next hd => rw [hd, hc, hholds]
  · rfl

/-- `stop_server` moves, with the mutex if it was free or its own. -/
theorem Locked.stop (h : Locked s) (hfree : s.currentUsersMutex = none ∨ s.currentUsersMutex = some .server)
    (hmutex : t.currentUsersMutex = if t.stopPc.holds then some .server else none) (hpc : t.pc = s.pc) :
    Locked t := by
  constructor
  · intro c
    have hnot : ¬ (s.pc c).holds = true := by
      rw [h.handler c]
      rcases hfree with hfree | hfree <;> simp [hfree]
    rw [hpc, hmutex]
    cases t.stopPc.holds <;> simp [hnot]
  · rw [hmutex]
    cases t.stopPc.holds <;> simp

theorem Locked.same (h : Locked s) (hmutex : t.currentUsersMutex = s.currentUsersMutex) (hpc : t.pc = s.pc)
    (hstop : t.stopPc.holds = s.stopPc.holds) : Locked t :=
  ⟨fun c => by rw [hpc, hmutex]; exact h.handler c, by rw [hstop, hmutex]; exact h.server⟩

theorem release_mutex (s : Server) (c : Conn) :
    (s.release c).currentUsersMutex =
      if s.currentUsersMutex = some (.handler c) then none else s.currentUsersMutex := by
  unfold release
  split
  · rfl
  · rfl

/-- The end of a setup, with the mutex or without. -/
theorem Locked.leaveSetup (h : Locked s) {pc : HandlerPc} (hholds : pc.holds = false) :
    Locked (s.leaveSetup cfg c pc) := by
  have hpc := leaveSetup_pc cfg s c pc
  have hstop : (s.leaveSetup cfg c pc).stopPc = s.stopPc := (leaveSetup_same cfg s c pc).2.2.2.2.2.1
  have hmutex : (s.leaveSetup cfg c pc).currentUsersMutex = (s.release c).currentUsersMutex := rfl
  rw [release_mutex] at hmutex
  cases hc : (s.pc c).holds with
  | true =>
    have hown := (h.handler c).mp hc
    rw [if_pos hown] at hmutex
    exact h.move pc (.inr hown) (by rw [hmutex, if_neg (by simp [hholds])]) hpc hstop
  | false =>
    have hnot : s.currentUsersMutex ≠ some (.handler c) := by
      rw [Ne, ← h.handler c, hc]
      exact Bool.false_ne_true
    rw [if_neg hnot] at hmutex
    exact h.outside pc hc hholds hmutex hpc hstop

theorem receiver_holds (s : Server) (entry : UserEntry) : (s.receiver entry).holds = false := by
  rcases receiver_cases s entry with hreceiver | hreceiver
  · rw [hreceiver]; rfl
  · rw [hreceiver]; rfl

theorem Locked.step (h : Locked s) (hs : connectionStep cfg s a = some t) : Locked t := by
  cases connectionStep_move h hs with
  | @connects c hpc =>
    refine h.outside (c := c) (if s.stopServer then .done else .authenticating) (by rw [hpc]; rfl) ?_ rfl
      (fun d => setPc_pc _ _ _ d) rfl
    split
    · rfl
    · rfl
  | @enters c now hpc hfree =>
    refine h.outside (c := c) (if cfg.enableConfigmode then .waitingForUsers else .fetchingDevice) (by rw [hpc]; rfl)
      ?_ rfl (fun d => setPc_pc _ _ _ d) rfl
    split
    · rfl
    · rfl
  | goes hgoes => exact h.outside _ hgoes.holdsBefore hgoes.holdsAfter rfl (fun d => setPc_pc _ _ _ d) rfl
  | @holds _ c pc hfree hin hpc =>
    have hholds : pc.holds = true := by
      rcases hpc with rfl | ⟨rfl, _⟩ | ⟨rfl, _⟩
      · rfl
      · rfl
      · rfl
    exact h.move pc hfree (by rw [hholds]; rfl) (fun d => setPc_pc _ _ _ d) rfl
  | aborts hfree hin => exact h.move .aborting hfree rfl (fun d => setPc_pc _ _ _ d) rfl
  | registers hfree hin hold => exact h.move .choosingStrategy hfree rfl (fun d => setPc_pc _ _ _ d) rfl
  | @makesWorker _ c entry hpc hentry hnone =>
    have hadd : s.addWorker cfg c entry = { s with
        currentUsers := s.currentUsers.insert (cfg.origin c) { entry with workerInstance := some none }
        workersMade := Function.update s.workersMade (cfg.origin c) (s.workersMade (cfg.origin c) + 1) }.setPc c
          .waitingForStart := by
      unfold addWorker
      rw [hnone]
    rw [hadd]
    exact h.outside (c := c) .waitingForStart (by rw [hpc]; rfl) rfl rfl (fun d => setPc_pc _ _ _ d) rfl
  | @starts _ c entry hpc hentry hworker =>
    obtain ⟨hpcs, hmutex, hstop, _⟩ := startWorker_same s (cfg.origin c) entry
    have hsame : Locked (s.startWorker (cfg.origin c) entry) := h.same hmutex hpcs (by rw [hstop])
    exact hsame.leaveSetup (receiver_holds s entry)
  | leaves hin => exact h.leaveSetup rfl
  | changes | taskEnds => exact h.same rfl rfl rfl
  | nobodyConnecting hpc => exact h.same rfl rfl (by rw [hpc]; rfl)
  | stops hstop =>
    cases hstop with
    | called hpc => exact h.same rfl rfl (by rw [hpc]; rfl)
    | enters hpc hfree => exact h.stop (.inl hfree) rfl rfl
    | tells hpc | closes hpc => exact h.same rfl rfl (by rw [hpc]; rfl)
    | ends hpc => exact h.stop (.inr (h.server.mp (by rw [hpc]; rfl))) rfl rfl
    | fails hpc => exact h.stop (.inr (h.server.mp hpc)) rfl rfl

end Server

open Server

/-! ## The entries -/

/-- The workers of an entry: one at most. -/
def made (entry : Option UserEntry) : Nat := if (entry.bind (·.workerInstance)).isSome then 1 else 0

/-- Their tasks that are not done. -/
def running (entry : Option UserEntry) : Nat := if entry.bind (·.workerInstance) = some (some .running) then 1 else 0

structure Current (cfg : Settings) (s : Server) : Prop where
  /-- The connection of an entry is one of its origin. -/
  entry : ∀ o entry, s.currentUsers.get? o = some entry →
    cfg.origin entry.websocketClientConnection = o ∧ entry.websocketClientConnection ∈ s.registered
  /-- A connection that was registered is that of its entry, or closed. -/
  registered : ∀ c ∈ s.registered, s.pc c ≠ .absent ∧ (s.connection c = .closed ∨
    ∃ entry, s.currentUsers.get? (cfg.origin c) = some entry ∧ entry.websocketClientConnection = c)
  fetching : ∀ c, s.pc c = .fetchingAuth → s.currentUsers.get? (cfg.origin c) = none
  settingUp : ∀ c, (s.pc c).settingUpWorker = true → c ∈ s.registered
  workers : ∀ o, s.workersMade o = made (s.currentUsers.get? o)
  tasks : ∀ o, s.tasksRunning o = running (s.currentUsers.get? o)

theorem current_init : Current cfg init where
  entry _ _ h := by cases h
  registered _ h := by cases h
  fetching _ h := by cases h
  settingUp _ h := by cases h
  workers _ := rfl
  tasks _ := rfl

namespace Current

/-- Steps that leave the entries as they are: a handler moves, connections close. -/
theorem frame (h : Current cfg s) (husers : t.currentUsers = s.currentUsers) (hregistered : t.registered = s.registered)
    (hworkers : t.workersMade = s.workersMade) (htasks : t.tasksRunning = s.tasksRunning)
    (hconnection : ∀ c ∈ s.registered, s.connection c = .closed → t.connection c = .closed)
    (hpc : ∀ c, t.pc c = s.pc c ∨ t.pc c ≠ .absent ∧
      (t.pc c = .fetchingAuth → s.currentUsers.get? (cfg.origin c) = none) ∧
      ((t.pc c).settingUpWorker = true → (s.pc c).settingUpWorker = true)) : Current cfg t where
  entry o entry ho := by rw [husers] at ho; rw [hregistered]; exact h.entry o entry ho
  registered c hc := by
    rw [hregistered] at hc
    obtain ⟨hpresent, hstate⟩ := h.registered c hc
    refine ⟨?_, ?_⟩
    · rcases hpc c with hsame | ⟨hnew, _, _⟩
      · rw [hsame]; exact hpresent
      · exact hnew
    · rw [husers]
      rcases hstate with hclosed | hentry
      · exact .inl (hconnection c hc hclosed)
      · exact .inr hentry
  fetching c hc := by
    rw [husers]
    rcases hpc c with hsame | ⟨_, hfetching, _⟩
    · exact h.fetching c (hsame ▸ hc)
    · exact hfetching hc
  settingUp c hc := by
    rw [hregistered]
    rcases hpc c with hsame | ⟨_, _, hsetting⟩
    · exact h.settingUp c (hsame ▸ hc)
    · exact h.settingUp c (hsetting hc)
  workers o := by rw [hworkers, husers]; exact h.workers o
  tasks o := by rw [htasks, husers]; exact h.tasks o

/-- A handler moves and nothing else changes. -/
theorem move (h : Current cfg s) (pc : HandlerPc) (husers : t.currentUsers = s.currentUsers)
    (hregistered : t.registered = s.registered) (hworkers : t.workersMade = s.workersMade)
    (htasks : t.tasksRunning = s.tasksRunning) (hconnection : t.connection = s.connection)
    (hpc : ∀ d, t.pc d = if d = c then pc else s.pc d) (hpresent : pc ≠ .absent)
    (hfetching : pc = .fetchingAuth → s.currentUsers.get? (cfg.origin c) = none)
    (hsetting : pc.settingUpWorker = true → (s.pc c).settingUpWorker = true) : Current cfg t := by
  refine h.frame husers hregistered hworkers htasks (fun d _ hd => hconnection ▸ hd) fun d => ?_
  rw [hpc]
  split
  · next hd => subst hd; exact .inr ⟨hpresent, hfetching, hsetting⟩
  · exact .inl rfl

theorem setPc (h : Current cfg s) {pc : HandlerPc} (hpresent : pc ≠ .absent)
    (hfetching : pc = .fetchingAuth → s.currentUsers.get? (cfg.origin c) = none)
    (hsetting : pc.settingUpWorker = true → (s.pc c).settingUpWorker = true) : Current cfg (s.setPc c pc) :=
  h.move pc rfl rfl rfl rfl rfl (fun d => setPc_pc _ _ _ d) hpresent hfetching hsetting

theorem leaveSetup (h : Current cfg s) {pc : HandlerPc} (hpresent : pc ≠ .absent) (hfetching : pc ≠ .fetchingAuth)
    (hsetting : pc.settingUpWorker = false) : Current cfg (s.leaveSetup cfg c pc) := by
  obtain ⟨husers, hregistered, hworkers, htasks, hconnection, _⟩ := leaveSetup_same cfg s c pc
  exact h.move pc husers hregistered hworkers htasks hconnection (leaveSetup_pc cfg s c pc) hpresent
    (fun hpc => absurd hpc hfetching) (fun hpc => by rw [hsetting] at hpc; cases hpc)

/-- An entry whose old connection is closed, or none, gets the connection. -/
theorem register (h : Current cfg s) (hlocked : Locked s) (hmutex : s.FreeFor c) {workerInstance : Option (Option WorkerTask)}
    (hold : s.currentUsers.get? (cfg.origin c) = none ∧ workerInstance = none ∨
      ∃ entry, s.currentUsers.get? (cfg.origin c) = some entry ∧ entry.workerInstance = workerInstance ∧
        s.connection entry.websocketClientConnection = .closed) :
    Current cfg (s.register cfg c workerInstance) := by
  have husers : ∀ o, (s.register cfg c workerInstance).currentUsers.get? o =
      if o = cfg.origin c then some ⟨c, workerInstance⟩ else s.currentUsers.get? o :=
    fun o => Dict.get?_insert _ _ _ _
  have hpc : ∀ d, (s.register cfg c workerInstance).pc d = if d = c then .choosingStrategy else s.pc d :=
    fun d => setPc_pc _ _ _ d
  have hworker : (s.currentUsers.get? (cfg.origin c)).bind (·.workerInstance) = workerInstance := by
    rcases hold with ⟨hnone, hw⟩ | ⟨entry, hentry, hw, _⟩
    · rw [hnone, hw]; rfl
    · rw [hentry]; exact hw
  have hfetching : ∀ d, s.pc d = .fetchingAuth → d = c := by
    intro d hd
    have hholder := (hlocked.handler d).mp (by rw [hd]; rfl)
    rcases hmutex with hfree | hown
    · rw [hfree] at hholder; cases hholder
    · rw [hown] at hholder; cases hholder; rfl
  refine ⟨fun o entry ho => ?_, fun d hd => ?_, fun d hd => ?_, fun d hd => ?_, fun o => ?_, fun o => ?_⟩
  · rw [husers] at ho
    show _ ∧ _ ∈ c :: s.registered
    split at ho
    · next heq => cases ho; exact ⟨heq.symm, List.mem_cons_self⟩
    · obtain ⟨horigin, hmem⟩ := h.entry o entry ho
      exact ⟨horigin, List.mem_cons_of_mem _ hmem⟩
  · rw [hpc, husers]
    by_cases hdc : d = c
    · subst hdc
      rw [if_pos rfl, if_pos rfl]
      exact ⟨by simp, .inr ⟨_, rfl, rfl⟩⟩
    · rw [if_neg hdc]
      obtain ⟨hpresent, hstate⟩ := h.registered d ((List.mem_cons.mp hd).resolve_left hdc)
      refine ⟨hpresent, ?_⟩
      show s.connection d = .closed ∨ _
      split
      · next horigin =>
        -- the connection that is replaced
        rcases hstate with hclosed | ⟨entry, hentry, hconn⟩
        · exact .inl hclosed
        · rw [horigin] at hentry
          rcases hold with ⟨hnone, _⟩ | ⟨entry', hentry', _, hclosed⟩
          · rw [hnone] at hentry; cases hentry
          · rw [hentry] at hentry'
            cases hentry'
            exact .inl (hconn ▸ hclosed)
      · exact hstate
  · rw [hpc] at hd
    split at hd
    · cases hd
    · next hdc => exact absurd (hfetching d hd) hdc
  · show d ∈ c :: s.registered
    rw [hpc] at hd
    split at hd
    · next hdc => rw [hdc]; exact List.mem_cons_self
    · exact List.mem_cons_of_mem _ (h.settingUp d hd)
  · show s.workersMade o = _
    rw [h.workers o, husers]
    split
    · next ho => subst ho; unfold made; rw [hworker]; rfl
    · rfl
  · show s.tasksRunning o = _
    rw [h.tasks o, husers]
    split
    · next ho => subst ho; unfold running; rw [hworker]; rfl
    · rfl

/-- The worker of an entry changes, and with it the counts. -/
theorem setWorker (h : Current cfg s) {entry : UserEntry} (hentry : s.currentUsers.get? o = some entry)
    {workerInstance : Option (Option WorkerTask)}
    (husers : t.currentUsers = s.currentUsers.insert o { entry with workerInstance := workerInstance })
    (hregistered : t.registered = s.registered) (hpc : t.pc = s.pc) (hconnection : t.connection = s.connection)
    (hworkers : t.workersMade =
      Function.update s.workersMade o (made (some { entry with workerInstance := workerInstance })))
    (htasks : t.tasksRunning =
      Function.update s.tasksRunning o (running (some { entry with workerInstance := workerInstance }))) :
    Current cfg t := by
  have hget : ∀ o', t.currentUsers.get? o' =
      if o' = o then some { entry with workerInstance := workerInstance } else s.currentUsers.get? o' := by
    intro o'
    rw [husers, Dict.get?_insert]
  refine ⟨fun o' entry' ho' => ?_, fun d hd => ?_, fun d hd => ?_, fun d hd => ?_, fun o' => ?_, fun o' => ?_⟩
  · rw [hget] at ho'
    rw [hregistered]
    split at ho'
    · next heq => cases ho'; subst heq; exact h.entry o' entry hentry
    · exact h.entry o' entry' ho'
  · rw [hregistered] at hd
    rw [hpc, hconnection, hget]
    obtain ⟨hpresent, hstate⟩ := h.registered d hd
    refine ⟨hpresent, ?_⟩
    rcases hstate with hclosed | ⟨entry', hentry', hconn⟩
    · exact .inl hclosed
    · refine .inr ?_
      split
      · next heq =>
        rw [heq, hentry] at hentry'
        cases hentry'
        exact ⟨_, rfl, hconn⟩
      · exact ⟨entry', hentry', hconn⟩
  · rw [hpc] at hd
    rw [hget]
    have hnone := h.fetching d hd
    split
    · next heq => rw [heq, hentry] at hnone; cases hnone
    · exact hnone
  · rw [hregistered]
    exact h.settingUp d (hpc ▸ hd)
  · rw [hworkers, hget, Function.update_apply]
    split
    · rfl
    · exact h.workers o'
  · rw [htasks, hget, Function.update_apply]
    split
    · rfl
    · exact h.tasks o'

theorem makesWorker (h : Current cfg s) (hpc : s.pc c = .choosingStrategy) {entry : UserEntry}
    (hentry : s.currentUsers.get? (cfg.origin c) = some entry) (hnone : entry.workerInstance = none) :
    Current cfg (s.addWorker cfg c entry) := by
  unfold Server.addWorker
  rw [hnone]
  dsimp only
  have hworkers : s.workersMade (cfg.origin c) = 0 := by
    rw [h.workers, hentry]
    simp [made, hnone]
  have htasks : s.tasksRunning (cfg.origin c) = 0 := by
    rw [h.tasks, hentry]
    simp [running, hnone]
  have hadded : Current cfg { s with
      currentUsers := s.currentUsers.insert (cfg.origin c) { entry with workerInstance := some none }
      workersMade := Function.update s.workersMade (cfg.origin c) (s.workersMade (cfg.origin c) + 1) } := by
    refine h.setWorker hentry rfl rfl rfl rfl ?_ ?_
    · rw [hworkers]; rfl
    · show s.tasksRunning = _
      rw [eq_comm, Function.update_eq_self_iff, htasks]
      rfl
  exact hadded.setPc (by simp) (by simp) fun _ => by
    show (s.pc c).settingUpWorker = true
    rw [hpc]; rfl

theorem startWorker (h : Current cfg s) {entry : UserEntry} (hentry : s.currentUsers.get? o = some entry)
    (hworker : entry.workerInstance.isSome) : Current cfg (s.startWorker o entry) := by
  unfold Server.startWorker
  split
  · exact h
  · next hnot =>
    have hworkers : s.workersMade o = 1 := by
      rw [h.workers, hentry]
      simp [made, hworker]
    have htasks : s.tasksRunning o = 0 := by
      rw [h.tasks, hentry]
      simp [running, hnot]
    refine h.setWorker hentry rfl rfl rfl rfl ?_ ?_
    · show s.workersMade = _
      rw [eq_comm, Function.update_eq_self_iff, hworkers]
      rfl
    · rw [htasks]; rfl

theorem taskEnds (h : Current cfg s) {entry : UserEntry} (hentry : s.currentUsers.get? o = some entry)
    (hrunning : entry.workerInstance = some (some .running)) : Current cfg (s.taskEnds o entry) := by
  have hworkers : s.workersMade o = 1 := by
    rw [h.workers, hentry]
    simp [made, hrunning]
  have htasks : s.tasksRunning o = 1 := by
    rw [h.tasks, hentry]
    simp [running, hrunning]
  refine h.setWorker hentry rfl rfl rfl rfl ?_ ?_
  · show s.workersMade = _
    rw [eq_comm, Function.update_eq_self_iff, hworkers]
    rfl
  · show Function.update s.tasksRunning o (s.tasksRunning o - 1) = _
    rw [htasks]
    rfl

end Current

/-- A connection that is closed stays so. -/
theorem rank_closed {state : ConnectionState} (h : ConnectionState.closed.rank ≤ state.rank) : state = .closed := by
  cases state with
  | isOpen => exact absurd h (by decide)
  | inBetween => exact absurd h (by decide)
  | closed => rfl

theorem Current.step (h : Current cfg s) (hlocked : Locked s) (hs : connectionStep cfg s a = some t) :
    Current cfg t := by
  cases connectionStep_move hlocked hs with
  | @connects c hpc =>
    have hopened : Current cfg (s.setConnection c .isOpen) := by
      refine h.frame rfl rfl rfl rfl (fun d hd hclosed => ?_) fun _ => .inl rfl
      rw [setConnection_connection]
      split
      · next hdc => subst hdc; exact absurd hpc (h.registered d hd).1
      · exact hclosed
    refine hopened.setPc ?_ ?_ ?_ <;> split <;> simp [HandlerPc.settingUpWorker]
  | @enters c now hpc hfree =>
    refine h.move _ rfl rfl rfl rfl rfl (fun d => setPc_pc _ _ _ d) ?_ ?_ ?_ <;> split <;>
      simp [HandlerPc.settingUpWorker]
  | goes hgoes =>
    refine h.setPc hgoes.present.1 (fun hpc => ?_) hgoes.settingUp
    have hholds := hgoes.holdsAfter
    rw [hpc] at hholds
    cases hholds
  | @holds _ c pc hfree hin hpc =>
    refine h.move pc rfl rfl rfl rfl rfl (fun d => setPc_pc _ _ _ d) ?_ ?_ ?_
    · rcases hpc with rfl | ⟨rfl, _⟩ | ⟨rfl, _⟩ <;> simp
    · rcases hpc with rfl | ⟨rfl, hnone⟩ | ⟨rfl, _⟩
      · simp
      · exact fun _ => hnone
      · simp
    · rcases hpc with rfl | ⟨rfl, _⟩ | ⟨rfl, hwaiting⟩
      · simp [HandlerPc.settingUpWorker]
      · simp [HandlerPc.settingUpWorker]
      · exact fun _ => by rw [hwaiting]; rfl
  | aborts hfree hin =>
    exact h.move .aborting rfl rfl rfl rfl rfl (fun d => setPc_pc _ _ _ d) (by simp) (by simp)
      (by simp [HandlerPc.settingUpWorker])
  | @registers _ c workerInstance hfree hin hold =>
    refine h.register hlocked hfree ?_
    rcases hold with ⟨hpc, hnone⟩ | hold
    · exact .inl ⟨h.fetching c hpc, hnone⟩
    · exact .inr hold
  | makesWorker hpc hentry hnone => exact h.makesWorker hpc hentry hnone
  | @starts _ c entry hpc hentry hworker =>
    have hstarted : Current cfg (s.startWorker (cfg.origin c) entry) := h.startWorker hentry hworker
    rcases receiver_cases s entry with hreceiver | hreceiver
    · rw [hreceiver]; exact hstarted.leaveSetup (by simp) (by simp) rfl
    · rw [hreceiver]; exact hstarted.leaveSetup (by simp) (by simp) rfl
  | leaves hin => exact h.leaveSetup (by simp) (by simp) rfl
  | changes hrank =>
    refine h.frame rfl rfl rfl rfl (fun d _ hclosed => ?_) fun _ => .inl rfl
    rw [setConnection_connection]
    split
    · next hdc => subst hdc; exact rank_closed (hclosed ▸ hrank)
    · exact hclosed
  | taskEnds hentry hrunning => exact h.taskEnds hentry hrunning
  | nobodyConnecting => exact h.frame rfl rfl rfl rfl (fun _ _ hd => hd) fun _ => .inl rfl
  | stops hstop =>
    obtain ⟨hpc, husers, hregistered, hworkers, htasks, _, hclosed⟩ := hstop.same
    exact h.frame husers hregistered hworkers htasks (fun d _ => hclosed d) fun d => .inl (by rw [hpc])

theorem locked_and_current {ok : Server → ConnectionAction → Prop} {l : List ConnectionAction}
    (hrun : Run (connectionStep cfg) ok init l s) : Locked s ∧ Current cfg s := by
  refine hrun.invariant (I := fun s => Locked s ∧ Current cfg s) ⟨locked_init, current_init⟩ ?_
  intro t a u h _ hs
  exact ⟨h.1.step hs, h.2.step h.1 hs⟩

/-- In every state the server reaches, no two connections that were registered for an origin are not
closed, the entry of an origin has a connection of it, and there is at most one worker for it, with at
most one task that is not done. -/
theorem registered_connections {l : List ConnectionAction} (hrun : Run (connectionStep cfg) Any init l s) :
    (∀ c ∈ s.registered, ∀ d ∈ s.registered, cfg.origin c = cfg.origin d →
      s.connection c ≠ .closed → s.connection d ≠ .closed → c = d) ∧
    (∀ o entry, s.currentUsers.get? o = some entry → cfg.origin entry.websocketClientConnection = o) ∧
    ∀ o, s.workersMade o ≤ 1 ∧ s.tasksRunning o ≤ 1 := by
  obtain ⟨_, h⟩ := locked_and_current hrun
  refine ⟨fun c hc d hd horigin hopen hopen' => ?_, fun o entry ho => (h.entry o entry ho).1, fun o => ?_⟩
  · obtain ⟨entry, hentry, hconn⟩ := (h.registered c hc).2.resolve_left hopen
    obtain ⟨entry', hentry', hconn'⟩ := (h.registered d hd).2.resolve_left hopen'
    rw [horigin, hentry', Option.some.injEq] at hentry
    rw [← hconn, ← hconn', hentry]
  · rw [h.workers, h.tasks]
    constructor
    · unfold made
      split
      · exact Nat.le_refl 1
      · exact Nat.zero_le 1
    · unfold running
      split
      · exact Nat.le_refl 1
      · exact Nat.zero_le 1

/-- Every connection is of the one device. -/
def oneDevice : Settings := ⟨fun _ => "device", false⟩

/-- A device connects and gets a worker, its connection closes, and it connects again. -/
def reconnects : List ConnectionAction :=
  [.connect 0, .authenticated 0 true 0, .deviceFetched 0 true, .enterUsers 0, .authFetched 0, .strategyChosen 0 true,
    .enterStart 0, .started 0, .connectionChanges 0 .closed, .receiverEnds 0, .connect 1, .authenticated 1 true 60,
    .deviceFetched 1 true, .enterUsers 1, .strategyChosen 1 true, .strategySet 1, .enterStart 1, .started 1]

theorem registered_connections_reconnects :
    (after (connectionStep oneDevice) Any init reconnects).registered = [1, 0] ∧
    (after (connectionStep oneDevice) Any init reconnects).pc 1 = .receiving 1 ∧
    (after (connectionStep oneDevice) Any init reconnects).workersMade "device" ≤ 1 :=
  ⟨by decide, by decide, ((registered_connections (.of_after (by decide))).2.2 "device").1⟩

end MapADroid.Websocket
