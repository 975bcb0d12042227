import MapADroid.Websocket.Connections

/- What a step of the server can do, said once for the invariants.

   The mutex of the current users is with the one handler that is in a section of it, or
   with `stop_server` (`Locked`). Given that, a step is one of a few kinds of moves
   (`Move`), each with what is known of the state it is made in. -/
namespace MapADroid.Websocket
open Lib

variable {cfg : Settings} {s t : Server} {c d : Conn} {a : ConnectionAction}

namespace Server

theorem setPc_pc (s : Server) (c : Conn) (pc : HandlerPc) (d : Conn) :
    (s.setPc c pc).pc d = if d = c then pc else s.pc d := Function.update_apply _ _ _ _

theorem setConnection_connection (s : Server) (c : Conn) (state : ConnectionState) (d : Conn) :
    (s.setConnection c state).connection d = if d = c then state else s.connection d := Function.update_apply _ _ _ _

/-- Letting go of the mutex changes nothing else. -/
theorem release_eq (s : Server) (c : Conn) : ∃ holder, s.release c = s.setMutex holder := by
  unfold release
  split
  · exact ⟨none, rfl⟩
  · exact ⟨s.currentUsersMutex, rfl⟩

theorem leaveSetup_pc (cfg : Settings) (s : Server) (c : Conn) (pc : HandlerPc) (d : Conn) :
    (s.leaveSetup cfg c pc).pc d = if d = c then pc else s.pc d := by
  obtain ⟨holder, hrelease⟩ := s.release_eq c
  unfold leaveSetup
  rw [setPc_pc, hrelease]
  rfl

/-- The end of a setup leaves all but the handler, its origin and the mutex as it was. -/
theorem leaveSetup_same (cfg : Settings) (s : Server) (c : Conn) (pc : HandlerPc) :
    (s.leaveSetup cfg c pc).currentUsers = s.currentUsers ∧ (s.leaveSetup cfg c pc).registered = s.registered ∧
      (s.leaveSetup cfg c pc).workersMade = s.workersMade ∧
      (s.leaveSetup cfg c pc).tasksRunning = s.tasksRunning ∧
      (s.leaveSetup cfg c pc).connection = s.connection ∧ (s.leaveSetup cfg c pc).stopPc = s.stopPc ∧
      (s.leaveSetup cfg c pc).stopServer = s.stopServer ∧
      (s.leaveSetup cfg c pc).usersConnecting = s.usersConnecting.erase (cfg.origin c) := by
  obtain ⟨holder, hrelease⟩ := s.release_eq c
  unfold leaveSetup
  rw [hrelease]
  exact ⟨rfl, rfl, rfl, rfl, rfl, rfl, rfl, rfl⟩

theorem startWorker_same (s : Server) (o : String) (entry : UserEntry) :
    (s.startWorker o entry).pc = s.pc ∧ (s.startWorker o entry).currentUsersMutex = s.currentUsersMutex ∧
      (s.startWorker o entry).stopPc = s.stopPc ∧ (s.startWorker o entry).stopServer = s.stopServer ∧
      (s.startWorker o entry).usersConnecting = s.usersConnecting := by
  unfold startWorker
  split
  · exact ⟨rfl, rfl, rfl, rfl, rfl⟩
  · exact ⟨rfl, rfl, rfl, rfl, rfl⟩

theorem receiver_cases (s : Server) (entry : UserEntry) :
    s.receiver entry = .receiving entry.websocketClientConnection ∨ s.receiver entry = .done := by
  unfold receiver
  split
  · exact .inl rfl
  · exact .inr rfl

/-- The mutex of the current users is with whoever is in a section of it. -/
structure Locked (s : Server) : Prop where
  handler : ∀ c, (s.pc c).holds = true ↔ s.currentUsersMutex = some (.handler c)
  server : s.stopPc.holds = true ↔ s.currentUsersMutex = some .server

/-- The mutex is free for a handler, or its own. -/
def FreeFor (s : Server) (c : Conn) : Prop := s.currentUsersMutex = none ∨ s.currentUsersMutex = some (.handler c)

theorem Locked.freeFor (h : Locked s) (hc : (s.pc c).holds = true) : s.FreeFor c := .inr ((h.handler c).mp hc)

end Server

open Server

/-- A handler goes on without the mutex, in its setup or outside of it. -/
structure Goes (before after : HandlerPc) : Prop where
  holdsBefore : before.holds = false
  holdsAfter : after.holds = false
  inSetup : after.inSetup = before.inSetup
  settingUp : after.settingUpWorker = true → before.settingUpWorker = true
  present : after ≠ .absent ∧ after ≠ .authenticating
  receiving : ∀ d, after ≠ .receiving d

/-- What `stop_server` does. -/
inductive StopMove (s : Server) : Server → Prop where
  | called (hpc : s.stopPc = .notCalled) : StopMove s { s with stopServer := true, stopPc := .waitingForConnecting }
  | enters (hpc : s.stopPc = .waitingForUsers) (hfree : s.currentUsersMutex = none) :
      StopMove s { s.setMutex (some .server) with stopPc := .closing s.currentUsers.keys }
  | tells {o : String} {rest : List String} {entry : UserEntry} (hpc : s.stopPc = .closing (o :: rest))
      (hentry : s.currentUsers.get? o = some entry) : StopMove s (s.closeNext o rest entry)
  | closes {o : String} {rest : List String} {entry : UserEntry} (hpc : s.stopPc = .closingConnection o rest)
      (hentry : s.currentUsers.get? o = some entry) :
      StopMove s { s.setConnection entry.websocketClientConnection .closed with stopPc := .closing rest }
  | ends (hpc : s.stopPc = .closing []) : StopMove s { s.setMutex none with stopPc := .stopped }
  | fails (hpc : s.stopPc.holds = true) : StopMove s { s.setMutex none with stopPc := .failed }

/-- What a step does, of a server whose mutex is with whoever is in a section of it. -/
inductive Move (cfg : Settings) (s : Server) : ConnectionAction → Server → Prop where
  | connects {c : Conn} (hpc : s.pc c = .absent) : Move cfg s (.connect c)
      ((s.setConnection c .isOpen).setPc c (if s.stopServer then .done else .authenticating))
  | enters {c : Conn} {now : Int} (hpc : s.pc c = .authenticating)
      (hfree : ∀ since, s.usersConnecting.get? (cfg.origin c) = some since → since + connectingTimeout ≤ now) :
      Move cfg s (.authenticated c true now)
        ({ s with usersConnecting := s.usersConnecting.insert (cfg.origin c) now }.setPc c
          (if cfg.enableConfigmode then .waitingForUsers else .fetchingDevice))
  | goes {a : ConnectionAction} {c : Conn} {pc : HandlerPc} (hgoes : Goes (s.pc c) pc) : Move cfg s a (s.setPc c pc)
  /-- The handler has the mutex, and keeps it over what it waits for. -/
  | holds {a : ConnectionAction} {c : Conn} {pc : HandlerPc} (hfree : s.FreeFor c) (hin : (s.pc c).inSetup = true)
      (hpc : pc = .waitingForOld ∨ pc = .fetchingAuth ∧ s.currentUsers.get? (cfg.origin c) = none ∨
        pc = .starting ∧ s.pc c = .waitingForStart) :
      Move cfg s a ((s.setMutex (some (.handler c))).setPc c pc)
  | aborts {a : ConnectionAction} {c : Conn} (hfree : s.FreeFor c) (hin : (s.pc c).inSetup = true) :
      Move cfg s a ((s.setMutex none).setPc c .aborting)
  | registers {a : ConnectionAction} {c : Conn} {workerInstance : Option (Option WorkerTask)} (hfree : s.FreeFor c)
      (hin : (s.pc c).inSetup = true)
      (hold : s.pc c = .fetchingAuth ∧ workerInstance = none ∨
        ∃ entry, s.currentUsers.get? (cfg.origin c) = some entry ∧ entry.workerInstance = workerInstance ∧
          s.connection entry.websocketClientConnection = .closed) :
      Move cfg s a (s.register cfg c workerInstance)
  | makesWorker {a : ConnectionAction} {c : Conn} {entry : UserEntry} (hpc : s.pc c = .choosingStrategy)
      (hentry : s.currentUsers.get? (cfg.origin c) = some entry) (hnone : entry.workerInstance = none) :
      Move cfg s a (s.addWorker cfg c entry)
  | starts {a : ConnectionAction} {c : Conn} {entry : UserEntry} (hpc : s.pc c = .starting)
      (hentry : s.currentUsers.get? (cfg.origin c) = some entry) (hworker : entry.workerInstance.isSome = true) :
      Move cfg s a ((s.startWorker (cfg.origin c) entry).leaveSetup cfg c (s.receiver entry))
  | leaves {a : ConnectionAction} {c : Conn} (hin : (s.pc c).inSetup = true) : Move cfg s a (s.leaveSetup cfg c .done)
  | changes {a : ConnectionAction} {c : Conn} {state : ConnectionState} (hrank : (s.connection c).rank ≤ state.rank) :
      Move cfg s a (s.setConnection c state)
  | taskEnds {a : ConnectionAction} {o : String} {entry : UserEntry} (hentry : s.currentUsers.get? o = some entry)
      (hrunning : entry.workerInstance = some (some .running)) : Move cfg s a (s.taskEnds o entry)
  | nobodyConnecting (hpc : s.stopPc = .waitingForConnecting) (hnobody : s.usersConnecting.keys = []) :
      Move cfg s .nobodyConnecting { s with stopPc := .waitingForUsers }
  | stops {a : ConnectionAction} {t : Server} (h : StopMove s t) : Move cfg s a t

theorem handleExistingConnection_move (hfree : s.FreeFor c) (hin : (s.pc c).inSetup = true) {entry : UserEntry}
    (hentry : s.currentUsers.get? (cfg.origin c) = some entry) :
    Move cfg s a (s.handleExistingConnection cfg c entry) := by
  unfold handleExistingConnection
  split
  · exact .holds hfree hin (.inl rfl)
  · exact .aborts hfree hin
  · next hclosed => exact .registers hfree hin (.inr ⟨entry, hentry, rfl, hclosed⟩)

/-- Outside of its setup a handler goes on to its end. -/
theorem goes_done {before : HandlerPc} (hin : before.inSetup = false) : Goes before .done where
  holdsBefore := by
    rw [Bool.eq_false_iff]
    intro hholds
    rw [HandlerPc.inSetup_of_holds hholds] at hin
    cases hin
  holdsAfter := rfl
  inSetup := hin.symm
  settingUp h := by cases h
  present := ⟨by simp, by simp⟩
  receiving _ := by simp

theorem enterConnecting_move {now : Int} (hpc : s.pc c = .authenticating) :
    Move cfg s (.authenticated c true now) (s.enterConnecting cfg c now) := by
  unfold enterConnecting
  split
  · next since hsince =>
    split
    · exact .goes (goes_done (by rw [hpc]; rfl))
    · next hexpired =>
      refine .enters hpc fun since' hsince' => ?_
      rw [hsince, Option.some.injEq] at hsince'
      omega
  · next hnone => exact .enters hpc fun since hsince => by rw [hnone] at hsince; cases hsince

/-- A handler in its setup goes on to where it does not hold the mutex. -/
theorem Goes.inSetup_of {before after : HandlerPc} (hbefore : before.holds = false) (hin : before.inSetup = true)
    (hafter : after.holds = false) (hin' : after.inSetup = true)
    (hsetting : after.settingUpWorker = true → before.settingUpWorker = true) : Goes before after where
  holdsBefore := hbefore
  holdsAfter := hafter
  inSetup := by rw [hin, hin']
  settingUp := hsetting
  present := by
    refine ⟨?_, ?_⟩
    · rintro rfl; cases hin'
    · rintro rfl; cases hin'
  receiving d := by rintro rfl; cases hin'

theorem connectionStep_move (hlocked : Locked s) (hs : connectionStep cfg s a = some t) : Move cfg s a t := by
  cases a with
  | connect c =>
    simp only [connectionStep, ite_not] at hs
    split at hs
    · next hpc => cases hs; exact .connects hpc
    · cases hs
  | authenticated c success now =>
    simp only [connectionStep, ite_not] at hs
    split at hs
    · next hpc =>
      cases hs
      cases success with
      | true => exact enterConnecting_move hpc
      | false => exact .goes (goes_done (by rw [hpc]; rfl))
    · cases hs
  | deviceFetched c found =>
    simp only [connectionStep, ite_not] at hs
    split at hs
    · next hpc =>
      cases hs
      split
      · exact .goes (by rw [hpc]; exact .inSetup_of rfl rfl rfl rfl (by simp [HandlerPc.settingUpWorker]))
      · exact .leaves (by rw [hpc]; rfl)
    · cases hs
  | enterUsers c =>
    simp only [connectionStep] at hs
    split at hs
    · next hfree =>
      have hin : (s.pc c).inSetup = true := by rw [hfree.1]; rfl
      cases hs
      unfold Server.enterUsers
      split
      · next hentry => exact handleExistingConnection_move (.inl hfree.2) hin hentry
      · next hnone => exact .holds (.inl hfree.2) hin (.inr (.inl ⟨rfl, hnone⟩))
    · cases hs
  | checkOld c =>
    simp only [connectionStep, ite_not] at hs
    split at hs
    · next hpc =>
      obtain ⟨entry, hentry, rfl⟩ := Option.map_eq_some_iff.mp hs
      exact handleExistingConnection_move (hlocked.freeFor (by rw [hpc]; rfl)) (by rw [hpc]; rfl) hentry
    · cases hs
  | authFetched c =>
    simp only [connectionStep, ite_not] at hs
    split at hs
    · next hpc =>
      cases hs
      exact .registers (hlocked.freeFor (by rw [hpc]; rfl)) (by rw [hpc]; rfl) (.inl ⟨hpc, rfl⟩)
    · cases hs
  | strategyChosen c found =>
    simp only [connectionStep, ite_not] at hs
    split at hs
    · next hpc =>
      split at hs
      · obtain ⟨entry, hentry, rfl⟩ := Option.map_eq_some_iff.mp hs
        cases hworker : entry.workerInstance with
        | none => exact .makesWorker hpc hentry hworker
        | some task =>
          have hadd : s.addWorker cfg c entry = s.setPc c .settingStrategy := by
            unfold addWorker
            rw [hworker]
          rw [hadd]
          exact .goes (by rw [hpc]; exact .inSetup_of rfl rfl rfl rfl fun _ => rfl)
      · cases hs
        exact .goes (by rw [hpc]; exact .inSetup_of rfl rfl rfl rfl fun _ => rfl)
    · cases hs
  | strategySet c =>
    simp only [connectionStep, ite_not] at hs
    split at hs
    · next hpc =>
      cases hs
      exact .goes (by rw [hpc]; exact .inSetup_of rfl rfl rfl rfl fun _ => rfl)
    · cases hs
  | enterStart c =>
    simp only [connectionStep] at hs
    split at hs
    · next hfree =>
      cases hs
      exact .holds (.inl hfree.2) (by rw [hfree.1]; rfl) (.inr (.inr ⟨rfl, hfree.1⟩))
    · cases hs
  | started c =>
    simp only [connectionStep, ite_not] at hs
    split at hs
    · next hpc =>
      split at hs
      · next hentry =>
        split at hs
        · next hworker => cases hs; exact .starts hpc hentry hworker
        · cases hs
      · cases hs
    · cases hs
  | abortEnds c =>
    simp only [connectionStep, ite_not] at hs
    split at hs
    · next hpc => cases hs; exact .leaves (by rw [hpc]; rfl)
    · cases hs
  | fail c =>
    simp only [connectionStep] at hs
    split at hs
    · next hin => cases hs; exact .leaves hin
    · cases hs
  | receiverEnds c =>
    simp only [connectionStep] at hs
    split at hs
    · next hpc => cases hs; exact .goes (goes_done (by rw [hpc]; rfl))
    · cases hs
  | connectionChanges c state =>
    simp only [connectionStep] at hs
    split at hs
    · next hrank => cases hs; exact .changes hrank.2
    · cases hs
  | taskEnds o =>
    simp only [connectionStep] at hs
    split at hs
    · next hentry =>
      split at hs
      · next hrunning => cases hs; exact .taskEnds hentry hrunning
      · cases hs
    · cases hs
  | stopServer =>
    simp only [connectionStep, ite_not] at hs
    split at hs
    · next hpc => cases hs; exact .stops (.called hpc)
    · cases hs
  | nobodyConnecting =>
    simp only [connectionStep] at hs
    split at hs
    · next h => cases hs; exact .nobodyConnecting h.1 h.2
    · cases hs
  | enterClosing =>
    simp only [connectionStep] at hs
    split at hs
    · next h => cases hs; exact .stops (.enters h.1 h.2)
    · cases hs
  | closeNext =>
    simp only [connectionStep] at hs
    split at hs
    · next hpc =>
      obtain ⟨entry, hentry, rfl⟩ := Option.map_eq_some_iff.mp hs
      exact .stops (.tells hpc hentry)
    · cases hs
  | connectionClosed =>
    simp only [connectionStep] at hs
    split at hs
    · next hpc =>
      obtain ⟨entry, hentry, rfl⟩ := Option.map_eq_some_iff.mp hs
      exact .stops (.closes hpc hentry)
    · cases hs
  | closingEnds =>
    simp only [connectionStep] at hs
    split at hs
    · next hpc => cases hs; exact .stops (.ends hpc)
    · cases hs
  | closingFails =>
    simp only [connectionStep] at hs
    split at hs
    · next hpc => cases hs; exact .stops (.fails hpc)
    · cases hs

/-- `stop_server` leaves the handlers and the entries as they are, and reopens no connection. -/
theorem StopMove.same (h : StopMove s t) : t.pc = s.pc ∧ t.currentUsers = s.currentUsers ∧ t.registered = s.registered ∧
    t.workersMade = s.workersMade ∧ t.tasksRunning = s.tasksRunning ∧ t.usersConnecting = s.usersConnecting ∧
    ∀ d, s.connection d = .closed → t.connection d = .closed := by
  cases h with
  | called | enters | tells | ends | fails => exact ⟨rfl, rfl, rfl, rfl, rfl, rfl, fun _ hd => hd⟩
  | @closes o rest entry hpc hentry =>
    refine ⟨rfl, rfl, rfl, rfl, rfl, rfl, fun d hd => ?_⟩
    show (s.setConnection _ _).connection d = _
    rw [setConnection_connection]
    split
    · rfl
    · exact hd

end MapADroid.Websocket
