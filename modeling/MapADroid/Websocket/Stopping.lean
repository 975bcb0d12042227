import MapADroid.Websocket.Setups

/- What stopping the server leaves.

   `stop_server` waits until nobody is connecting, but does not see a handler that is still
   being authenticated. Where there is none (`Orderly`) it leaves every connection closed,
   every worker told to stop, and nobody who could still register. -/
namespace MapADroid.Websocket
open Lib Server

variable {cfg : Settings} {s t : Server} {c d : Conn} {o : String} {a : ConnectionAction}

/-- Nobody takes over, and when `stop_server` finds nobody connecting, nobody is being authenticated. -/
def Orderly (cfg : Settings) (s : Server) (a : ConnectionAction) : Prop :=
  NoTakeover cfg s a ∧ (a = .nobodyConnecting → ∀ c, s.pc c ≠ .authenticating)

/-- The entries that `stop_server` has not closed yet, once it has started to. -/
def StopPc.remaining : StopPc → Option (List String)
  | .closing rest => some rest
  | .closingConnection origin rest => some (origin :: rest)
  | .stopped => some []
  | _ => none

/-- `stop_server` has seen nobody connecting. -/
def StopPc.pastConnecting : StopPc → Bool
  | .notCalled | .waitingForConnecting => false
  | _ => true

def Told (s : Server) (o : String) (entry : UserEntry) : Prop := entry.workerInstance.isSome = true → o ∈ s.toldToStop

structure Stopping (s : Server) : Prop where
  flag : s.stopPc ≠ .notCalled → s.stopServer = true
  quiet : s.stopPc.pastConnecting = true → ∀ c, (s.pc c).inSetup = false ∧ s.pc c ≠ .authenticating
  closed : ∀ rest ∈ s.stopPc.remaining, ∀ o ∉ rest, ∀ entry, s.currentUsers.get? o = some entry →
    s.connection entry.websocketClientConnection = .closed ∧ Told s o entry
  told : ∀ origin rest, s.stopPc = .closingConnection origin rest → ∀ entry,
    s.currentUsers.get? origin = some entry → Told s origin entry

theorem stopping_init : Stopping init where
  flag h := absurd rfl h
  quiet h := by cases h
  closed _ h := by cases h
  told _ _ h := by cases h

namespace Stopping

/-- Before `stop_server` has seen nobody connecting there is nothing to keep. -/
theorem before (hflag : t.stopPc ≠ .notCalled → t.stopServer = true) (hpast : t.stopPc.pastConnecting = false) :
    Stopping t where
  flag := hflag
  quiet h := by rw [hpast] at h; cases h
  closed rest h := by
    cases hpc : t.stopPc with
    | notCalled => rw [hpc] at h; cases h
    | waitingForConnecting => rw [hpc] at h; cases h
    | waitingForUsers => rw [hpc] at hpast; cases hpast
    | closing rest => rw [hpc] at hpast; cases hpast
    | closingConnection origin rest => rw [hpc] at hpast; cases hpast
    | stopped => rw [hpc] at hpast; cases hpast
    | failed => rw [hpc] at hpast; cases hpast
  told _ _ h := by rw [h] at hpast; cases hpast

/-- What the environment does while `stop_server` stays where it is. -/
theorem frame (h : Stopping s) (hstop : t.stopPc = s.stopPc) (hflag : t.stopServer = s.stopServer)
    (htold : t.toldToStop = s.toldToStop)
    (hpc : s.stopPc.pastConnecting = true → ∀ c, (t.pc c).inSetup = false ∧ t.pc c ≠ .authenticating)
    (hconnection : s.stopPc.pastConnecting = true → ∀ o entry, s.currentUsers.get? o = some entry →
      s.connection entry.websocketClientConnection = .closed →
      t.connection entry.websocketClientConnection = .closed)
    (husers : s.stopPc.pastConnecting = true → ∀ o entry, t.currentUsers.get? o = some entry →
      ∃ entry', s.currentUsers.get? o = some entry' ∧
        entry'.websocketClientConnection = entry.websocketClientConnection ∧
        (entry.workerInstance.isSome = true → entry'.workerInstance.isSome = true)) : Stopping t := by
  have hpast : ∀ rest ∈ s.stopPc.remaining, s.stopPc.pastConnecting = true := by
    intro rest hrest
    cases hpc : s.stopPc with
    | notCalled => rw [hpc] at hrest; cases hrest
    | waitingForConnecting => rw [hpc] at hrest; cases hrest
    | waitingForUsers => rfl
    | closing rest => rfl
    | closingConnection origin rest => rfl
    | stopped => rfl
    | failed => rfl
  refine ⟨fun hcalled => ?_, fun hquiet => ?_, fun rest hrest o ho entry hentry => ?_, fun origin rest hclosing entry
    hentry => ?_⟩
  · rw [hstop] at hcalled
    rw [hflag]
    exact h.flag hcalled
  · rw [hstop] at hquiet
    exact hpc hquiet
  · rw [hstop] at hrest
    have hquiet := hpast rest hrest
    obtain ⟨entry', hentry', hconn, hworker⟩ := husers hquiet o entry hentry
    obtain ⟨hclosed, htold'⟩ := h.closed rest hrest o ho entry' hentry'
    refine ⟨?_, fun hw => ?_⟩
    · rw [← hconn]
      exact hconnection hquiet o entry' hentry' hclosed
    · rw [htold]
      exact htold' (hworker hw)
  · rw [hstop] at hclosing
    have hquiet : s.stopPc.pastConnecting = true := by rw [hclosing]; rfl
    obtain ⟨entry', hentry', _, hworker⟩ := husers hquiet origin entry hentry
    intro hw
    rw [htold]
    exact h.told origin rest hclosing entry' hentry' (hworker hw)

/-- A handler in its setup or being authenticated: `stop_server` has not seen nobody connecting. -/
theorem notPast (h : Stopping s) (hc : (s.pc c).inSetup = true ∨ s.pc c = .authenticating) :
    s.stopPc.pastConnecting = false := by
  rw [Bool.eq_false_iff]
  intro hpast
  obtain ⟨hin, hauth⟩ := h.quiet hpast c
  rcases hc with hc | hc
  · rw [hc] at hin; cases hin
  · exact hauth hc

theorem handlerStep (h : Stopping s) (hc : (s.pc c).inSetup = true ∨ s.pc c = .authenticating)
    (hstop : t.stopPc = s.stopPc) (hflag : t.stopServer = s.stopServer) : Stopping t :=
  .before (by rw [hstop, hflag]; exact h.flag) (by rw [hstop]; exact h.notPast hc)

end Stopping

theorem Stopping.stopMove (h : Stopping s) (hs : StopMove s t) : Stopping t := by
  cases hs with
  | called hpc => exact .before (fun _ => rfl) rfl
  | enters hpc hfree =>
    refine ⟨fun _ => h.flag (by rw [hpc]; simp), fun _ => h.quiet (by rw [hpc]; rfl),
      fun rest hrest o ho entry hentry => ?_, fun _ _ hclosing => (by cases hclosing)⟩
    cases hrest
    exact absurd (Dict.mem_keys_iff.mpr ⟨entry, hentry⟩) ho
  | @tells origin rest entry hpc hentry =>
    have htold : ∀ o ∈ s.toldToStop, o ∈ (s.closeNext origin rest entry).toldToStop := by
      intro o ho
      unfold Server.closeNext
      dsimp only
      split
      · exact List.mem_cons_of_mem _ ho
      · exact ho
    refine ⟨fun _ => h.flag (by rw [hpc]; simp), fun _ => h.quiet (by rw [hpc]; rfl),
      fun rest' hrest o ho entry' hentry' => ?_, fun origin' rest' hclosing entry' hentry' hw => ?_⟩
    · cases hrest
      obtain ⟨hclosed, htold'⟩ := h.closed (origin :: rest) (by rw [hpc]; rfl) o ho entry' hentry'
      exact ⟨hclosed, fun hw => htold o (htold' hw)⟩
    · cases hclosing
      have hsame : entry' = entry := Option.some.inj (hentry'.symm.trans hentry)
      show origin ∈ if entry.workerInstance.isSome then _ else _
      rw [if_pos (hsame ▸ hw)]
      exact List.mem_cons_self
  | @closes origin rest entry hpc hentry =>
    refine ⟨fun _ => h.flag (by rw [hpc]; simp), fun _ => h.quiet (by rw [hpc]; rfl),
      fun rest' hrest o ho entry' hentry' => ?_, fun _ _ hclosing => (by cases hclosing)⟩
    cases hrest
    show (s.setConnection _ _).connection _ = _ ∧ _
    rw [setConnection_connection]
    by_cases horigin : o = origin
    · subst horigin
      have hsame : entry' = entry := Option.some.inj (hentry'.symm.trans hentry)
      rw [hsame]
      exact ⟨if_pos rfl, h.told o rest hpc entry hentry⟩
    · obtain ⟨hclosed, htold⟩ := h.closed (origin :: rest) (by rw [hpc]; rfl) o (by simp [horigin, ho]) entry' hentry'
      refine ⟨?_, htold⟩
      split
      · rfl
      · exact hclosed
  | ends hpc =>
    exact ⟨fun _ => h.flag (by rw [hpc]; simp), fun _ => h.quiet (by rw [hpc]; rfl),
      fun rest hrest => h.closed rest (by rw [hpc]; exact hrest), fun _ _ hclosing => (by cases hclosing)⟩
  | fails hpc =>
    have hpast : s.stopPc.pastConnecting = true := by
      cases hstop : s.stopPc <;> first | rfl | (rw [hstop] at hpc; cases hpc)
    refine ⟨fun _ => h.flag ?_, fun _ => h.quiet hpast, fun rest hrest => (by cases hrest),
      fun _ _ hclosing => (by cases hclosing)⟩
    intro hnot
    rw [hnot] at hpast
    cases hpast

theorem Stopping.step (h : Stopping s) (hlocked : Locked s) (hcurrent : Current cfg s) (hexclusive : Exclusive cfg s)
    (hok : Orderly cfg s a) (hs : connectionStep cfg s a = some t) : Stopping t := by
  have hcalled : s.stopPc.pastConnecting = true → s.stopPc ≠ .notCalled := by
    intro hpast hnot
    rw [hnot] at hpast
    cases hpast
  cases connectionStep_move hlocked hs with
  | @connects c hpc =>
    refine h.frame rfl rfl rfl (fun hpast d => ?_) (fun _ o entry hentry hclosed => ?_)
      fun _ o entry hentry => ⟨entry, hentry, rfl, fun hw => hw⟩
    · rw [setPc_pc, h.flag (hcalled hpast)]
      split
      · exact ⟨rfl, by simp⟩
      · exact h.quiet hpast d
    · -- the new connection is not that of an entry
      show (s.setConnection c .isOpen).connection _ = _
      rw [setConnection_connection, if_neg, hclosed]
      intro hconn
      exact (hcurrent.registered _ (hcurrent.entry o entry hentry).2).1 (hconn ▸ hpc)
  | @enters c now hpc hfree => exact h.handlerStep (c := c) (.inr hpc) rfl rfl
  | @goes _ c pc hgoes =>
    refine h.frame rfl rfl rfl (fun hpast d => ?_) (fun _ _ _ _ hclosed => hclosed)
      fun _ o entry hentry => ⟨entry, hentry, rfl, fun hw => hw⟩
    rw [setPc_pc]
    split
    · exact ⟨by rw [hgoes.inSetup, (h.quiet hpast c).1], hgoes.present.2⟩
    · exact h.quiet hpast d
  | holds hfree hin | aborts hfree hin | registers hfree hin => exact h.handlerStep (.inl hin) rfl rfl
  | @makesWorker _ c entry hpc hentry hnone =>
    unfold addWorker
    rw [hnone]
    exact h.handlerStep (c := c) (.inl (by rw [hpc]; rfl)) rfl rfl
  | @starts _ c entry hpc hentry hworker =>
    obtain ⟨_, _, _, _, _, hstop, hflag, _⟩ :=
      leaveSetup_same cfg (s.startWorker (cfg.origin c) entry) c (s.receiver entry)
    obtain ⟨_, _, hstop', hflag', _⟩ := startWorker_same s (cfg.origin c) entry
    exact h.handlerStep (c := c) (.inl (by rw [hpc]; rfl)) (by rw [hstop, hstop']) (by rw [hflag, hflag'])
  | @leaves _ c hin =>
    obtain ⟨_, _, _, _, _, hstop, hflag, _⟩ := leaveSetup_same cfg s c .done
    exact h.handlerStep (.inl hin) hstop hflag
  | changes hrank =>
    refine h.frame rfl rfl rfl h.quiet (fun _ o entry _ hclosed => ?_)
      fun _ o entry hentry => ⟨entry, hentry, rfl, fun hw => hw⟩
    rw [setConnection_connection]
    split
    · next hconn => exact rank_closed (by rw [← hclosed, hconn]; exact hrank)
    · exact hclosed
  | @taskEnds _ o entry hentry hrunning =>
    refine h.frame rfl rfl rfl h.quiet (fun _ _ _ _ hclosed => hclosed) fun _ o' entry' hentry' => ?_
    rcases Dict.get?_insert_eq_some_iff.mp hentry' with ⟨rfl, rfl⟩ | ⟨_, hold⟩
    · exact ⟨entry, hentry, rfl, fun _ => by rw [hrunning]; rfl⟩
    · exact ⟨entry', hold, rfl, fun hw => hw⟩
  | nobodyConnecting hpc hnobody =>
    refine ⟨fun _ => h.flag (by rw [hpc]; simp), fun _ c => ⟨?_, hok.2 rfl c⟩, fun rest hrest => (by cases hrest),
      fun _ _ hclosing => (by cases hclosing)⟩
    rw [Bool.eq_false_iff]
    intro hin
    have hmem := hexclusive.connecting c hin
    rw [hnobody] at hmem
    cases hmem
  | stops hstop => exact h.stopMove hstop

/-- In an orderly run, once `stop_server` is done every connection that was ever registered is closed and every
worker has been told to stop, and nobody is in the setup of a connection or on the way to it. -/
theorem stopped_server {l : List ConnectionAction} (hrun : Run (connectionStep cfg) (Orderly cfg) init l s)
    (hstopped : s.stopPc = .stopped) :
    (∀ c ∈ s.registered, s.connection c = .closed) ∧
    (∀ o entry, s.currentUsers.get? o = some entry → entry.workerInstance.isSome = true → o ∈ s.toldToStop) ∧
    ∀ c, (s.pc c).inSetup = false ∧ s.pc c ≠ .authenticating := by
  have hall : (Locked s ∧ Current cfg s) ∧ Exclusive cfg s ∧ Stopping s := by
    refine hrun.invariant (I := fun s => (Locked s ∧ Current cfg s) ∧ Exclusive cfg s ∧ Stopping s)
      ⟨⟨locked_init, current_init⟩, exclusive_init, stopping_init⟩ ?_
    rintro t a u ⟨⟨hlocked, hcurrent⟩, hexclusive, hstopping⟩ hok hs
    exact ⟨⟨hlocked.step hs, hcurrent.step hlocked hs⟩, hexclusive.step hlocked hok.1 hs,
      hstopping.step hlocked hcurrent hexclusive hok hs⟩
  obtain ⟨⟨_, hcurrent⟩, _, hstopping⟩ := hall
  have hclosed : ∀ o entry, s.currentUsers.get? o = some entry →
      s.connection entry.websocketClientConnection = .closed ∧ Told s o entry :=
    fun o entry hentry => hstopping.closed [] (by rw [hstopped]; rfl) o (by simp) entry hentry
  refine ⟨fun c hc => ?_, fun o entry hentry => (hclosed o entry hentry).2, hstopping.quiet (by rw [hstopped]; rfl)⟩
  rcases (hcurrent.registered c hc).2 with hdone | ⟨entry, hentry, hconn⟩
  · exact hdone
  · exact hconn ▸ (hclosed _ entry hentry).1

/-- The server is not asked whether anybody is connecting. -/
def Unasked (cfg : Settings) (s : Server) (a : ConnectionAction) : Prop := NoTakeover cfg s a ∧ a ≠ .nobodyConnecting

instance : Decidable (Unasked cfg s a) := inferInstanceAs (Decidable (_ ∧ _))

theorem Unasked.orderly (h : Unasked cfg s a) : Orderly cfg s a := ⟨h.1, fun ha => absurd ha h.2⟩

/-- The server is told to stop while a device is connected. -/
def toldWhileConnected : Server := after (connectionStep oneDevice) (Unasked oneDevice) init (reconnects ++ [.stopServer])

/-- Nobody is connecting then, and the connection of the device is closed. -/
def closing : Server := after (connectionStep oneDevice) Any toldWhileConnected [.nobodyConnecting]

def closedDown : Server :=
  after (connectionStep oneDevice) (Unasked oneDevice) closing
    [.enterClosing, .closeNext, .connectionClosed, .receiverEnds 1, .closingEnds]

theorem stopped_server_reconnects :
    closedDown.registered = [1, 0] ∧ ∀ c ∈ closedDown.registered, closedDown.connection c = .closed := by
  have hbefore : Run (connectionStep oneDevice) (Orderly oneDevice) init (reconnects ++ [.stopServer])
      toldWhileConnected := (Run.of_after (by decide)).mono fun _ _ h => h.orderly
  have hasked : Orderly oneDevice toldWhileConnected .nobodyConnecting := by
    refine ⟨trivial, fun _ c => ?_⟩
    match c with
    | 0 => decide
    | 1 => decide
    | c + 2 =>
      have habsent : toldWhileConnected.pc (c + 2) = .absent := rfl
      rw [habsent]
      decide
  have hstep : connectionStep oneDevice toldWhileConnected .nobodyConnecting = some closing :=
    step_after trivial (by decide)
  have hafter : Run (connectionStep oneDevice) (Unasked oneDevice) closing
      [.enterClosing, .closeNext, .connectionClosed, .receiverEnds 1, .closingEnds] closedDown :=
    .of_after (by decide)
  have hrun := (hbefore.snoc hasked hstep).append (hafter.mono fun _ _ h => h.orderly)
  exact ⟨by decide, (stopped_server hrun (by decide)).1⟩

end MapADroid.Websocket
