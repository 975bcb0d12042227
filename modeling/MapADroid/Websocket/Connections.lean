import MapADroid.Lib.Dict
import MapADroid.Lib.Run
import Mathlib.Logic.Function.Basic

/- `WebsocketServer`: which connection of a device is registered, and its worker.

   Every connection has a call of `__connection_handler` of its own. All of them run in
   one event loop, so what is between two suspension points is one step. The mutex of the
   connecting users is never held over an `await`, and its sections are part of the steps;
   the mutex of the current users is, so who holds it is part of the state. An entry of
   the current users is never removed, and stands for itself by its origin.

   `fail` is an exception at whatever the setup of a connection waits for, or its
   cancellation. -/
namespace MapADroid.Websocket
open Lib

/-- A connection, and the handler called for it. -/
abbrev Conn := Nat

/-- What the websocket library says of a connection: `open`, `closed`, or neither. -/
inductive ConnectionState where
  | isOpen
  | inBetween
  | closed
  deriving DecidableEq, Repr

/-- A connection that has been open goes this way only. -/
def ConnectionState.rank : ConnectionState → Nat
  | .isOpen => 0
  | .inBetween => 1
  | .closed => 2

/-- The origins the headers name, and whether every device is to be idle. -/
structure Settings where
  origin : Conn → String
  enableConfigmode : Bool

/-- Where a handler is. -/
inductive HandlerPc where
  | absent
  | authenticating
  | fetchingDevice
  /-- Waits for the mutex of the current users. -/
  | waitingForUsers
  /-- Holds it while the old connection is neither open nor closed. -/
  | waitingForOld
  /-- Holds it while the account of the device is read. -/
  | fetchingAuth
  /-- Registered, in `get_strategy_using_settings`. -/
  | choosingStrategy
  /-- In `set_scan_strategy` of the worker. -/
  | settingStrategy
  /-- Waits for the mutex to start the worker. -/
  | waitingForStart
  /-- Holds it while `start_worker` waits for the mutex of the worker. -/
  | starting
  /-- Sleeps before the connection is dropped. -/
  | aborting
  | receiving (source : Conn)
  | done
  deriving DecidableEq, Repr

namespace HandlerPc

/-- Between the two sections of the connecting users. -/
def inSetup : HandlerPc → Bool
  | .absent | .authenticating | .receiving _ | .done => false
  | _ => true

/-- With the mutex of the current users. -/
def holds : HandlerPc → Bool
  | .waitingForOld | .fetchingAuth | .starting => true
  | _ => false

/-- Registered, and not yet at the end of the setup. -/
def settingUpWorker : HandlerPc → Bool
  | .choosingStrategy | .settingStrategy | .waitingForStart | .starting => true
  | _ => false

theorem inSetup_of_holds {pc : HandlerPc} (h : pc.holds = true) : pc.inSetup = true := by
  cases pc <;> first | rfl | cases h

theorem inSetup_of_settingUpWorker {pc : HandlerPc} (h : pc.settingUpWorker = true) : pc.inSetup = true := by
  cases pc <;> first | rfl | cases h

end HandlerPc

/-- Where `stop_server` is. -/
inductive StopPc where
  | notCalled
  /-- Waits for the connecting users to finish. -/
  | waitingForConnecting
  | waitingForUsers
  /-- With the mutex, the entries that are left to be closed. -/
  | closing (rest : List String)
  /-- In `close` of the connection of the first. -/
  | closingConnection (origin : String) (rest : List String)
  | stopped
  | failed
  deriving DecidableEq, Repr

def StopPc.holds : StopPc → Bool
  | .closing _ | .closingConnection _ _ => true
  | _ => false

/-- Who holds the mutex of the current users. -/
inductive Holder where
  | handler (c : Conn)
  | server
  deriving DecidableEq, Repr

/-- The task of a worker, once it is started. -/
inductive WorkerTask where
  | running
  | done
  deriving DecidableEq, Repr

/-- `WebsocketConnectedClientEntry`: its connection, and its worker with the task of the worker. -/
structure UserEntry where
  websocketClientConnection : Conn
  workerInstance : Option (Option WorkerTask)
  deriving DecidableEq, Repr

structure Server where
  stopServer : Bool
  currentUsers : Dict String UserEntry
  currentUsersMutex : Option Holder
  /-- Since when an origin is connecting. -/
  usersConnecting : Dict String Int
  connection : Conn → ConnectionState
  pc : Conn → HandlerPc
  stopPc : StopPc
  /-- The connections that have been registered, a history variable as are the next. -/
  registered : List Conn
  /-- How many workers of an origin have been made. -/
  workersMade : String → Nat
  /-- How many tasks of workers of an origin have been started and are not done. -/
  tasksRunning : String → Nat
  /-- The origins whose worker was told to stop. -/
  toldToStop : List String

/-- `CONNECTING_TIMEOUT`. -/
def connectingTimeout : Int := 300

inductive ConnectionAction where
  /-- A device connects. -/
  | connect (c : Conn)
  /-- `__authenticate_connection` is through; then the clock is read. -/
  | authenticated (c : Conn) (success : Bool) (now : Int)
  /-- The settings of the device are read, if there are any. -/
  | deviceFetched (c : Conn) (found : Bool)
  | enterUsers (c : Conn)
  /-- A second later the old connection is looked at again. -/
  | checkOld (c : Conn)
  | authFetched (c : Conn)
  | strategyChosen (c : Conn) (found : Bool)
  | strategySet (c : Conn)
  | enterStart (c : Conn)
  | started (c : Conn)
  | abortEnds (c : Conn)
  | fail (c : Conn)
  | receiverEnds (c : Conn)
  | connectionChanges (c : Conn) (state : ConnectionState)
  | taskEnds (o : String)
  | stopServer
  /-- `stop_server` finds nobody connecting. -/
  | nobodyConnecting
  | enterClosing
  /-- The worker of the next entry is told to stop, and its connection to close. -/
  | closeNext
  | connectionClosed
  | closingEnds
  | closingFails
  deriving DecidableEq

namespace Server

def init : Server where
  stopServer := false
  currentUsers := .empty
  currentUsersMutex := none
  usersConnecting := .empty
  connection _ := .inBetween
  pc _ := .absent
  stopPc := .notCalled
  registered := []
  workersMade _ := 0
  tasksRunning _ := 0
  toldToStop := []

def setPc (s : Server) (c : Conn) (pc : HandlerPc) : Server := { s with pc := Function.update s.pc c pc }

def setConnection (s : Server) (c : Conn) (state : ConnectionState) : Server :=
  { s with connection := Function.update s.connection c state }

def setMutex (s : Server) (holder : Option Holder) : Server := { s with currentUsersMutex := holder }

/-- The mutex is let go of if the handler holds it. -/
def release (s : Server) (c : Conn) : Server :=
  if s.currentUsersMutex = some (.handler c) then s.setMutex none else s

/-- The check of the connecting users: refused if the origin has been connecting for less than the timeout. -/
def enterConnecting (cfg : Settings) (s : Server) (c : Conn) (now : Int) : Server :=
  match s.usersConnecting.get? (cfg.origin c) with
  | some since =>
    if since + connectingTimeout > now then s.setPc c .done
    else { s with usersConnecting := s.usersConnecting.insert (cfg.origin c) now }.setPc c
      (if cfg.enableConfigmode then .waitingForUsers else .fetchingDevice)
  | none =>
    { s with usersConnecting := s.usersConnecting.insert (cfg.origin c) now }.setPc c
      (if cfg.enableConfigmode then .waitingForUsers else .fetchingDevice)

/-- The end of the setup: the mutex is let go of, and `__remove_from_users_connecting`. -/
def leaveSetup (cfg : Settings) (s : Server) (c : Conn) (pc : HandlerPc) : Server :=
  { s.release c with usersConnecting := s.usersConnecting.erase (cfg.origin c) }.setPc c pc

/-- The connection becomes that of the entry, and the mutex is let go of. -/
def register (cfg : Settings) (s : Server) (c : Conn) (workerInstance : Option (Option WorkerTask)) : Server :=
  { s with
    currentUsers := s.currentUsers.insert (cfg.origin c) ⟨c, workerInstance⟩
    currentUsersMutex := none
    registered := c :: s.registered }.setPc c .choosingStrategy

/-- `__handle_existing_connection`, from a look at the connection of the entry to the next or to its end. -/
def handleExistingConnection (cfg : Settings) (s : Server) (c : Conn) (entry : UserEntry) : Server :=
  match s.connection entry.websocketClientConnection with
  | .inBetween => (s.setMutex (some (.handler c))).setPc c .waitingForOld
  | .isOpen => (s.setMutex none).setPc c .aborting
  | .closed => s.register cfg c entry.workerInstance

/-- The section of the current users in `__setup_client_entry`, up to its first suspension. -/
def enterUsers (cfg : Settings) (s : Server) (c : Conn) : Server :=
  match s.currentUsers.get? (cfg.origin c) with
  | some entry => s.handleExistingConnection cfg c entry
  | none => (s.setMutex (some (.handler c))).setPc c .fetchingAuth

/-- What `__add_worker_and_thread_to_entry` does with a strategy: the entry gets its worker, or the worker
the strategy. -/
def addWorker (cfg : Settings) (s : Server) (c : Conn) (entry : UserEntry) : Server :=
  match entry.workerInstance with
  | none =>
    { s with
      currentUsers := s.currentUsers.insert (cfg.origin c) { entry with workerInstance := some none }
      workersMade := Function.update s.workersMade (cfg.origin c) (s.workersMade (cfg.origin c) + 1) }.setPc c
        .waitingForStart
  | some _ => s.setPc c .settingStrategy

/-- `start_worker`: a new task unless there is one that is not done. -/
def startWorker (s : Server) (o : String) (entry : UserEntry) : Server :=
  if entry.workerInstance = some (some .running) then s
  else
    { s with
      currentUsers := s.currentUsers.insert o { entry with workerInstance := some (some .running) }
      tasksRunning := Function.update s.tasksRunning o (s.tasksRunning o + 1) }

/-- `__client_message_receiver` of the entry: it reads the connection of the entry as it begins. -/
def receiver (s : Server) (entry : UserEntry) : HandlerPc :=
  if s.connection entry.websocketClientConnection = .isOpen then .receiving entry.websocketClientConnection else .done

def taskEnds (s : Server) (o : String) (entry : UserEntry) : Server :=
  { s with
    currentUsers := s.currentUsers.insert o { entry with workerInstance := some (some .done) }
    tasksRunning := Function.update s.tasksRunning o (s.tasksRunning o - 1) }

/-- The next entry of `__close_all_connections_and_signal_stop`. -/
def closeNext (s : Server) (o : String) (rest : List String) (entry : UserEntry) : Server :=
  { s with
    toldToStop := if entry.workerInstance.isSome then o :: s.toldToStop else s.toldToStop
    stopPc := .closingConnection o rest }

end Server

/-- One step of the server or of its environment. -/
def connectionStep (cfg : Settings) (s : Server) : ConnectionAction → Option Server
  | .connect c =>
    if s.pc c ≠ .absent then none
    else some ((s.setConnection c .isOpen).setPc c (if s.stopServer then .done else .authenticating))
  | .authenticated c success now =>
    if s.pc c ≠ .authenticating then none
    else some (if success then s.enterConnecting cfg c now else s.setPc c .done)
  | .deviceFetched c found =>
    if s.pc c ≠ .fetchingDevice then none
    else some (if found then s.setPc c .waitingForUsers else s.leaveSetup cfg c .done)
  | .enterUsers c =>
    if s.pc c = .waitingForUsers ∧ s.currentUsersMutex = none then some (s.enterUsers cfg c) else none
  | .checkOld c =>
    if s.pc c ≠ .waitingForOld then none
    else (s.currentUsers.get? (cfg.origin c)).map fun entry => s.handleExistingConnection cfg c entry
  | .authFetched c => if s.pc c ≠ .fetchingAuth then none else some (s.register cfg c none)
  | .strategyChosen c found =>
    if s.pc c ≠ .choosingStrategy then none
    else if found then (s.currentUsers.get? (cfg.origin c)).map fun entry => s.addWorker cfg c entry
    else some (s.setPc c .aborting)
  | .strategySet c => if s.pc c ≠ .settingStrategy then none else some (s.setPc c .waitingForStart)
  | .enterStart c =>
    if s.pc c = .waitingForStart ∧ s.currentUsersMutex = none then
      some ((s.setMutex (some (.handler c))).setPc c .starting)
    else none
  | .started c =>
    if s.pc c ≠ .starting then none
    else
      match s.currentUsers.get? (cfg.origin c) with
      | some entry =>
        if entry.workerInstance.isSome then
          some ((s.startWorker (cfg.origin c) entry).leaveSetup cfg c (s.receiver entry))
        else none
      | none => none
  | .abortEnds c => if s.pc c ≠ .aborting then none else some (s.leaveSetup cfg c .done)
  | .fail c => if (s.pc c).inSetup then some (s.leaveSetup cfg c .done) else none
  | .receiverEnds c =>
    match s.pc c with
    | .receiving _ => some (s.setPc c .done)
    | _ => none
  | .connectionChanges c state =>
    if s.pc c ≠ .absent ∧ (s.connection c).rank ≤ state.rank then some (s.setConnection c state) else none
  | .taskEnds o =>
    match s.currentUsers.get? o with
    | some entry => if entry.workerInstance = some (some .running) then some (s.taskEnds o entry) else none
    | none => none
  | .stopServer =>
    if s.stopPc ≠ .notCalled then none else some { s with stopServer := true, stopPc := .waitingForConnecting }
  | .nobodyConnecting =>
    if s.stopPc = .waitingForConnecting ∧ s.usersConnecting.keys = [] then
      some { s with stopPc := .waitingForUsers }
    else none
  | .enterClosing =>
    if s.stopPc = .waitingForUsers ∧ s.currentUsersMutex = none then
      some { s.setMutex (some .server) with stopPc := .closing s.currentUsers.keys }
    else none
  | .closeNext =>
    match s.stopPc with
    | .closing (o :: rest) => (s.currentUsers.get? o).map fun entry => s.closeNext o rest entry
    | _ => none
  | .connectionClosed =>
    match s.stopPc with
    | .closingConnection o rest =>
      (s.currentUsers.get? o).map fun entry =>
        { s.setConnection entry.websocketClientConnection .closed with stopPc := .closing rest }
    | _ => none
  | .closingEnds => if s.stopPc = .closing [] then some { s.setMutex none with stopPc := .stopped } else none
  | .closingFails => if s.stopPc.holds then some { s.setMutex none with stopPc := .failed } else none

end MapADroid.Websocket
