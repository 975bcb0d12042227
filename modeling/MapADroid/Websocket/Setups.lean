import MapADroid.Websocket.Registered

/- Who is setting up a connection.

   A handler adds its origin to the connecting users as its setup begins and removes it as
   the setup ends, whichever way it ends. After `CONNECTING_TIMEOUT` another handler of the
   origin may go ahead all the same; then the first of the two to end removes the origin
   for both. As long as none does (`NoTakeover`), the setups of an origin exclude each other,
   and the receiver of a connection reads from that connection. -/
namespace MapADroid.Websocket
open Lib Server

variable {cfg : Settings} {s t : Server} {c d : Conn} {o : String} {a : ConnectionAction}

/-! ## The connecting users -/

/-- What a step does to the connecting users and the handlers in their setup. -/
inductive SetupMove (cfg : Settings) (s t : Server) (a : ConnectionAction) : Prop where
  | stays (husers : t.usersConnecting = s.usersConnecting) (hpc : ∀ c, (t.pc c).inSetup = (s.pc c).inSetup)
  | enters (c : Conn) (now : Int) (ha : a = .authenticated c true now) (hbefore : (s.pc c).inSetup = false)
      (hfree : ∀ since, s.usersConnecting.get? (cfg.origin c) = some since → since + connectingTimeout ≤ now)
      (husers : t.usersConnecting = s.usersConnecting.insert (cfg.origin c) now)
      (hpc : ∀ d, (t.pc d).inSetup = if d = c then true else (s.pc d).inSetup)
  | leaves (c : Conn) (hbefore : (s.pc c).inSetup = true)
      (husers : t.usersConnecting = s.usersConnecting.erase (cfg.origin c))
      (hpc : ∀ d, (t.pc d).inSetup = if d = c then false else (s.pc d).inSetup)

/-- A handler that goes on where it was, in its setup or not. -/
theorem SetupMove.moved (pc : HandlerPc) (hin : pc.inSetup = (s.pc c).inSetup)
    (husers : t.usersConnecting = s.usersConnecting) (hpc : ∀ d, t.pc d = if d = c then pc else s.pc d) :
    SetupMove cfg s t a := by
  refine .stays husers fun d => ?_
  rw [hpc]
  split
  · next hd => rw [hd, hin]
  · rfl

theorem SetupMove.left {u : Server} {pc : HandlerPc} (hbefore : (s.pc c).inSetup = true) (hin : pc.inSetup = false)
    (hconnecting : u.usersConnecting = s.usersConnecting) (hpcs : u.pc = s.pc) :
    SetupMove cfg s (u.leaveSetup cfg c pc) a := by
  refine .leaves c hbefore ?_ fun d => ?_
  · rw [(leaveSetup_same cfg u c pc).2.2.2.2.2.2.2, hconnecting]
  · rw [leaveSetup_pc, hpcs]
    split
    · exact hin
    · rfl

theorem connectionStep_setup (hlocked : Locked s) (hs : connectionStep cfg s a = some t) : SetupMove cfg s t a := by
  cases connectionStep_move hlocked hs with
  | @connects c hpc =>
    refine .moved (c := c) _ ?_ rfl fun d => setPc_pc _ _ _ d
    rw [hpc]
    split
    · rfl
    · rfl
  | @enters c now hpc hfree =>
    refine .enters c now rfl (by rw [hpc]; rfl) hfree rfl fun d => ?_
    rw [setPc_pc]
    split
    · split
      · rfl
      · rfl
    · rfl
  | goes hgoes => exact .moved _ hgoes.inSetup rfl fun d => setPc_pc _ _ _ d
  | @holds _ c pc hfree hin hpc =>
    have hin' : pc.inSetup = true := by
      rcases hpc with rfl | ⟨rfl, _⟩ | ⟨rfl, _⟩
      · rfl
      · rfl
      · rfl
    exact .moved (c := c) pc (by rw [hin, hin']) rfl fun d => setPc_pc _ _ _ d
  | aborts hfree hin => exact .moved .aborting hin.symm rfl fun d => setPc_pc _ _ _ d
  | registers hfree hin hold => exact .moved .choosingStrategy hin.symm rfl fun d => setPc_pc _ _ _ d
  | @makesWorker _ c entry hpc hentry hnone =>
    unfold addWorker
    rw [hnone]
    exact .moved (c := c) .waitingForStart (by rw [hpc]; rfl) rfl fun d => setPc_pc _ _ _ d
  | @starts _ c entry hpc hentry hworker =>
    obtain ⟨hpcs, _, _, _, hconnecting⟩ := startWorker_same s (cfg.origin c) entry
    refine .left (by rw [hpc]; rfl) ?_ hconnecting hpcs
    rcases receiver_cases s entry with hreceiver | hreceiver
    · rw [hreceiver]; rfl
    · rw [hreceiver]; rfl
  | leaves hin => exact .left hin rfl rfl rfl
  | changes | taskEnds | nobodyConnecting => exact .stays rfl fun _ => rfl
  | stops hstop =>
    obtain ⟨hpc, _, _, _, _, hconnecting, _⟩ := hstop.same
    exact .stays hconnecting fun _ => by rw [hpc]

theorem connecting_step (hlocked : Locked s)
    (h : ∀ o ∈ s.usersConnecting.keys, ∃ c, cfg.origin c = o ∧ (s.pc c).inSetup = true)
    (hs : connectionStep cfg s a = some t) :
    ∀ o ∈ t.usersConnecting.keys, ∃ c, cfg.origin c = o ∧ (t.pc c).inSetup = true := by
  intro o ho
  cases connectionStep_setup hlocked hs with
  | stays husers hpc =>
    rw [husers] at ho
    obtain ⟨c, horigin, hin⟩ := h o ho
    exact ⟨c, horigin, by rw [hpc, hin]⟩
  | enters c now _ _ _ husers hpc =>
    rw [husers, Dict.mem_keys_insert] at ho
    rcases ho with rfl | ho
    · exact ⟨c, rfl, by rw [hpc, if_pos rfl]⟩
    · obtain ⟨d, horigin, hin⟩ := h o ho
      refine ⟨d, horigin, ?_⟩
      rw [hpc, hin, ite_self]
  | leaves c _ husers hpc =>
    rw [husers, Dict.mem_keys_iff] at ho
    obtain ⟨since, hsince⟩ := ho
    rw [Dict.get?_erase] at hsince
    split at hsince
    · cases hsince
    · next hne =>
      obtain ⟨d, horigin, hin⟩ := h o (Dict.mem_keys_iff.mpr ⟨since, hsince⟩)
      refine ⟨d, horigin, ?_⟩
      rw [hpc, if_neg, hin]
      intro hdc
      exact hne (hdc ▸ horigin.symm)

theorem connecting_inSetup {ok : Server → ConnectionAction → Prop} {l : List ConnectionAction}
    (hrun : Run (connectionStep cfg) ok init l s) :
    ∀ o ∈ s.usersConnecting.keys, ∃ c, cfg.origin c = o ∧ (s.pc c).inSetup = true := by
  have hall : Locked s ∧ ∀ o ∈ s.usersConnecting.keys, ∃ c, cfg.origin c = o ∧ (s.pc c).inSetup = true := by
    refine hrun.invariant
      (I := fun s => Locked s ∧ ∀ o ∈ s.usersConnecting.keys, ∃ c, cfg.origin c = o ∧ (s.pc c).inSetup = true)
      ⟨locked_init, fun o ho => by cases ho⟩ ?_
    rintro t a u ⟨hlocked, h⟩ _ hs
    exact ⟨hlocked.step hs, connecting_step hlocked h hs⟩
  exact hall.2

/-! ## Connections of the entries -/

namespace Server

/-- The connection of the entry of an origin. -/
def connectionOf (s : Server) (o : String) : Option Conn :=
  (s.currentUsers.get? o).map (·.websocketClientConnection)

end Server

/-- What a step does to the connections of the entries, and which connections the handlers that are past
their registration, or receive, have to do with. -/
structure EntryMove (cfg : Settings) (s t : Server) : Prop where
  /-- An entry keeps its connection, or gets that of a handler in its setup. -/
  connection : ∀ o, t.connectionOf o = s.connectionOf o ∨
    ∃ c, cfg.origin c = o ∧ (s.pc c).inSetup = true ∧ t.connectionOf o = some c
  settingUp : ∀ c, (t.pc c).settingUpWorker = true →
    (s.pc c).settingUpWorker = true ∨ t.connectionOf (cfg.origin c) = some c
  receiving : ∀ c d, t.pc c = .receiving d →
    s.pc c = .receiving d ∨ s.pc c = .starting ∧ s.connectionOf (cfg.origin c) = some d

namespace EntryMove

/-- A handler moves. -/
theorem moved (pc : HandlerPc) (husers : t.currentUsers = s.currentUsers)
    (hpc : ∀ d, t.pc d = if d = c then pc else s.pc d)
    (hsetting : pc.settingUpWorker = true → (s.pc c).settingUpWorker = true)
    (hreceiving : ∀ d, pc = .receiving d → s.pc c = .starting ∧ s.connectionOf (cfg.origin c) = some d) :
    EntryMove cfg s t where
  connection o := by unfold connectionOf; rw [husers]; exact .inl rfl
  settingUp d hd := by
    rw [hpc] at hd
    split at hd
    · next hdc => subst hdc; exact .inl (hsetting hd)
    · exact .inl hd
  receiving d e hd := by
    rw [hpc] at hd
    split at hd
    · next hdc => subst hdc; exact .inr (hreceiving e hd)
    · exact .inl hd

/-- Steps that move no handler. -/
theorem stays (hconnection : ∀ o, t.connectionOf o = s.connectionOf o) (hpc : t.pc = s.pc) : EntryMove cfg s t where
  connection o := .inl (hconnection o)
  settingUp _ hd := .inl (hpc ▸ hd)
  receiving _ _ hd := .inl (hpc ▸ hd)

theorem register (hin : (s.pc c).inSetup = true) (workerInstance : Option (Option WorkerTask)) :
    EntryMove cfg s (s.register cfg c workerInstance) := by
  have hconnection : ∀ o, (s.register cfg c workerInstance).connectionOf o =
      if o = cfg.origin c then some c else s.connectionOf o := by
    intro o
    show ((s.currentUsers.insert _ _).get? o).map _ = _
    rw [Dict.get?_insert]
    split
    · rfl
    · rfl
  have hpc : ∀ d, (s.register cfg c workerInstance).pc d = if d = c then .choosingStrategy else s.pc d :=
    fun d => setPc_pc _ _ _ d
  refine ⟨fun o => ?_, fun d hd => ?_, fun d e hd => ?_⟩
  · rw [hconnection]
    split
    · next ho => exact .inr ⟨c, ho.symm, hin, rfl⟩
    · exact .inl rfl
  · rw [hpc] at hd
    split at hd
    · next hdc => subst hdc; exact .inr (by rw [hconnection, if_pos rfl])
    · exact .inl hd
  · rw [hpc] at hd
    split at hd
    · cases hd
    · exact .inl hd

/-- A setup that ends, after a step that left the connections as they were. -/
theorem leaveSetup {u : Server} {pc : HandlerPc} (hconnection : ∀ o, u.connectionOf o = s.connectionOf o)
    (hpcs : u.pc = s.pc) (hsetting : pc.settingUpWorker = false)
    (hreceiving : ∀ d, pc = .receiving d → s.pc c = .starting ∧ s.connectionOf (cfg.origin c) = some d) :
    EntryMove cfg s (u.leaveSetup cfg c pc) := by
  have husers : ∀ o, (u.leaveSetup cfg c pc).connectionOf o = u.connectionOf o := by
    intro o
    unfold connectionOf
    rw [(leaveSetup_same cfg u c pc).1]
  refine ⟨fun o => .inl (by rw [husers, hconnection]), fun d hd => ?_, fun d e hd => ?_⟩
  · rw [leaveSetup_pc, hpcs] at hd
    split at hd
    · rw [hsetting] at hd; cases hd
    · exact .inl hd
  · rw [leaveSetup_pc, hpcs] at hd
    split at hd
    · next hdc => subst hdc; exact .inr (hreceiving e hd)
    · exact .inl hd

end EntryMove

/-- An entry whose worker changes keeps its connection. -/
theorem connectionOf_insert {entry : UserEntry} (hentry : s.currentUsers.get? o = some entry)
    {workerInstance : Option (Option WorkerTask)}
    (husers : t.currentUsers = s.currentUsers.insert o { entry with workerInstance := workerInstance }) (o' : String) :
    t.connectionOf o' = s.connectionOf o' := by
  unfold connectionOf
  rw [husers, Dict.get?_insert]
  split
  · next ho => rw [ho, hentry]; rfl
  · rfl

theorem connectionOf_startWorker {entry : UserEntry} (hentry : s.currentUsers.get? o = some entry) (o' : String) :
    (s.startWorker o entry).connectionOf o' = s.connectionOf o' := by
  unfold startWorker
  split
  · rfl
  · exact connectionOf_insert hentry rfl o'

theorem connectionStep_entries (hlocked : Locked s) (hs : connectionStep cfg s a = some t) : EntryMove cfg s t := by
  cases connectionStep_move hlocked hs with
  | @connects c hpc =>
    refine .moved (c := c) _ rfl (fun d => setPc_pc _ _ _ d) ?_ ?_
    · split <;> simp [HandlerPc.settingUpWorker]
    · split <;> simp
  | @enters c now hpc hfree =>
    refine .moved (c := c) _ rfl (fun d => setPc_pc _ _ _ d) ?_ ?_
    · split <;> simp [HandlerPc.settingUpWorker]
    · split <;> simp
  | goes hgoes =>
    exact .moved _ rfl (fun d => setPc_pc _ _ _ d) hgoes.settingUp fun d hd => absurd hd (hgoes.receiving d)
  | @holds _ c pc hfree hin hpc =>
    refine .moved (c := c) pc rfl (fun d => setPc_pc _ _ _ d) ?_ ?_
    · rcases hpc with rfl | ⟨rfl, _⟩ | ⟨rfl, hwaiting⟩
      · simp [HandlerPc.settingUpWorker]
      · simp [HandlerPc.settingUpWorker]
      · exact fun _ => by rw [hwaiting]; rfl
    · rcases hpc with rfl | ⟨rfl, _⟩ | ⟨rfl, _⟩ <;> simp
  | @aborts _ c hfree hin =>
    exact .moved (c := c) .aborting rfl (fun d => setPc_pc _ _ _ d) (by simp [HandlerPc.settingUpWorker]) (by simp)
  | @registers _ c workerInstance hfree hin hold => exact .register hin workerInstance
  | @makesWorker _ c entry hpc hentry hnone =>
    have hsetting : (s.pc c).settingUpWorker = true := by rw [hpc]; rfl
    unfold addWorker
    rw [hnone]
    refine ⟨fun o => .inl (connectionOf_insert hentry rfl o), fun d hd => ?_, fun d e hd => ?_⟩
    · rw [setPc_pc] at hd
      split at hd
      · next hdc => subst hdc; exact .inl hsetting
      · exact .inl hd
    · rw [setPc_pc] at hd
      split at hd
      · cases hd
      · exact .inl hd
  | @starts _ c entry hpc hentry hworker =>
    refine .leaveSetup (connectionOf_startWorker hentry) (startWorker_same s (cfg.origin c) entry).1 ?_ fun d hd => ?_
    · rcases receiver_cases s entry with hreceiver | hreceiver
      · rw [hreceiver]; rfl
      · rw [hreceiver]; rfl
    · refine ⟨hpc, ?_⟩
      rcases receiver_cases s entry with hreceiver | hreceiver
      · rw [hreceiver] at hd
        cases hd
        unfold connectionOf
        rw [hentry]
        rfl
      · rw [hreceiver] at hd; cases hd
  | leaves hin => exact .leaveSetup (fun _ => rfl) rfl rfl (by simp)
  | changes | nobodyConnecting => exact .stays (fun _ => rfl) rfl
  | taskEnds hentry hrunning => exact .stays (connectionOf_insert hentry rfl) rfl
  | stops hstop =>
    obtain ⟨hpc, husers, _⟩ := hstop.same
    exact .stays (fun _ => by unfold connectionOf; rw [husers]) hpc

/-! ## Setups that exclude each other -/

/-- No handler goes ahead because another of its origin has been connecting for too long. -/
def NoTakeover (cfg : Settings) (s : Server) : ConnectionAction → Prop
  | .authenticated c true now => ∀ since ∈ s.usersConnecting.get? (cfg.origin c), now < since + connectingTimeout
  | _ => True

instance : Decidable (NoTakeover cfg s a) := by
  unfold NoTakeover
  split
  · infer_instance
  · infer_instance

structure Exclusive (cfg : Settings) (s : Server) : Prop where
  connecting : ∀ c, (s.pc c).inSetup = true → cfg.origin c ∈ s.usersConnecting.keys
  unique : ∀ c d, (s.pc c).inSetup = true → (s.pc d).inSetup = true → cfg.origin c = cfg.origin d → c = d
  settingUp : ∀ c, (s.pc c).settingUpWorker = true → s.connectionOf (cfg.origin c) = some c
  receiving : ∀ c d, s.pc c = .receiving d → d = c

theorem exclusive_init : Exclusive cfg init where
  connecting _ h := by cases h
  unique _ _ h := by cases h
  settingUp _ h := by cases h
  receiving _ _ h := by cases h

theorem Exclusive.step (h : Exclusive cfg s) (hlocked : Locked s) (hok : NoTakeover cfg s a)
    (hs : connectionStep cfg s a = some t) :
    Exclusive cfg t := by
  obtain ⟨hconnection, hsetting, hreceiving⟩ := connectionStep_entries hlocked hs
  have hsetup : (∀ c, (t.pc c).inSetup = true → cfg.origin c ∈ t.usersConnecting.keys) ∧
      ∀ c d, (t.pc c).inSetup = true → (t.pc d).inSetup = true → cfg.origin c = cfg.origin d → c = d := by
    cases connectionStep_setup hlocked hs with
    | stays husers hpc =>
      simp only [husers, hpc]
      exact ⟨h.connecting, h.unique⟩
    | enters c now ha hbefore hfree husers hpc =>
      -- the origin of the new handler was not connecting
      have hnew : ∀ d, (s.pc d).inSetup = true → cfg.origin d ≠ cfg.origin c := by
        intro d hd horigin
        obtain ⟨since, hsince⟩ := Dict.mem_keys_iff.mp (horigin ▸ h.connecting d hd)
        rw [ha] at hok
        have hlt := hok since hsince
        have hge := hfree since hsince
        omega
      refine ⟨fun d hd => ?_, fun d e hd he horigin => ?_⟩
      · rw [husers, Dict.mem_keys_insert]
        rw [hpc] at hd
        split at hd
        · next hdc => exact .inl (hdc ▸ rfl)
        · exact .inr (h.connecting d hd)
      · rw [hpc] at hd he
        split at hd
        · next hdc =>
          split at he
          · next hec => rw [hdc, hec]
          · exact absurd (hdc ▸ horigin.symm) (hnew e he)
        · split at he
          · next hec => exact absurd (hec ▸ horigin) (hnew d hd)
          · exact h.unique d e hd he horigin
    | leaves c hbefore husers hpc =>
      have hold : ∀ d, (t.pc d).inSetup = true → d ≠ c ∧ (s.pc d).inSetup = true := by
        intro d hd
        rw [hpc] at hd
        split at hd
        · cases hd
        · next hne => exact ⟨hne, hd⟩
      refine ⟨fun d hd => ?_, fun d e hd he => h.unique d e (hold d hd).2 (hold e he).2⟩
      obtain ⟨hne, hd⟩ := hold d hd
      obtain ⟨since, hsince⟩ := Dict.mem_keys_iff.mp (h.connecting d hd)
      rw [husers, Dict.mem_keys_iff]
      refine ⟨since, ?_⟩
      rw [Dict.get?_erase, if_neg, hsince]
      intro horigin
      exact hne (h.unique d c hd hbefore horigin)
  refine ⟨hsetup.1, hsetup.2, fun c hc => ?_, fun c d hc => ?_⟩
  · rcases hsetting c hc with hc | hc
    · -- nobody else of the origin could have changed the connection of the entry
      have hown := h.settingUp c hc
      rcases hconnection (cfg.origin c) with hsame | ⟨d, horigin, hin, hd⟩
      · rw [hsame, hown]
      · rw [hd, h.unique d c hin (HandlerPc.inSetup_of_settingUpWorker hc) horigin]
    · exact hc
  · rcases hreceiving c d hc with hc | ⟨hstarting, hd⟩
    · exact h.receiving c d hc
    · rw [h.settingUp c (by rw [hstarting]; rfl), Option.some.injEq] at hd
      exact hd.symm

theorem exclusive {l : List ConnectionAction} (hrun : Run (connectionStep cfg) (NoTakeover cfg) init l s) :
    Exclusive cfg s := by
  have hall : Locked s ∧ Exclusive cfg s := by
    refine hrun.invariant (I := fun s => Locked s ∧ Exclusive cfg s) ⟨locked_init, exclusive_init⟩ ?_
    rintro t a u ⟨hlocked, h⟩ hok hs
    exact ⟨hlocked.step hs, h.step hlocked hok hs⟩
  exact hall.2

/-- As long as no handler takes over from one that has been connecting for too long, at most one handler of an
origin is in its setup, the connecting users are the origins of those that are, and a handler receives from
no connection but its own. -/
theorem exclusive_setups {l : List ConnectionAction} (hrun : Run (connectionStep cfg) (NoTakeover cfg) init l s) :
    (∀ o, o ∈ s.usersConnecting.keys ↔ ∃ c, cfg.origin c = o ∧ (s.pc c).inSetup = true) ∧
    (∀ c d, (s.pc c).inSetup = true → (s.pc d).inSetup = true → cfg.origin c = cfg.origin d → c = d) ∧
    ∀ c d, s.pc c = .receiving d → d = c := by
  have h := exclusive hrun
  refine ⟨fun o => ⟨?_, ?_⟩, h.unique, h.receiving⟩
  · exact connecting_inSetup hrun o
  · rintro ⟨c, rfl, hin⟩
    exact h.connecting c hin


theorem exclusive_setups_reconnects :
    (after (connectionStep oneDevice) (NoTakeover oneDevice) init reconnects).pc 1 = .receiving 1 ∧
    ∀ d, (after (connectionStep oneDevice) (NoTakeover oneDevice) init reconnects).pc 1 = .receiving d → d = 1 :=
  ⟨by decide, (exclusive_setups (.of_after (by decide))).2.2 1⟩

/-- After a takeover two handlers can receive from one connection: the first was still looking its strategy up
when its connection closed, and the second came five minutes after it. -/
example :
    let s := after (connectionStep oneDevice) Any init
      [.connect 0, .authenticated 0 true 0, .deviceFetched 0 true, .enterUsers 0, .authFetched 0,
        .connectionChanges 0 .closed, .connect 1, .authenticated 1 true 300, .deviceFetched 1 true, .enterUsers 1,
        .strategyChosen 0 true, .enterStart 0, .started 0, .strategyChosen 1 true, .strategySet 1, .enterStart 1,
        .started 1]
    s.pc 0 = .receiving 1 ∧ s.pc 1 = .receiving 1 := by decide

/-- A connection that was authenticated is refused only while another handler of its origin is in its setup,
however the setups before it ended. -/
theorem refused_while_connecting {l : List ConnectionAction} (hrun : Run (connectionStep cfg) Any init l s)
    {now : Int} (hs : connectionStep cfg s (.authenticated c true now) = some t) (hrefused : t.pc c = .done) :
    ∃ d, d ≠ c ∧ cfg.origin d = cfg.origin c ∧ (s.pc d).inSetup = true := by
  by_cases hconnecting : cfg.origin c ∈ s.usersConnecting.keys
  · obtain ⟨d, horigin, hin⟩ := connecting_inSetup hrun _ hconnecting
    refine ⟨d, ?_, horigin, hin⟩
    rintro rfl
    simp only [connectionStep, ite_not] at hs
    split at hs
    · next hpc => rw [hpc] at hin; cases hin
    · cases hs
  · -- an origin that is not connecting gets through
    exfalso
    simp only [connectionStep, ite_not, if_true] at hs
    split at hs
    · cases hs
      unfold enterConnecting at hrefused
      rw [Dict.get?_eq_none_iff.mpr hconnecting] at hrefused
      dsimp only at hrefused
      rw [setPc_pc, if_pos rfl] at hrefused
      split at hrefused
      · cases hrefused
      · cases hrefused
    · cases hs

/-- A device is connecting, and connects again. -/
def connectsTwice : Server :=
  after (connectionStep oneDevice) Any init [.connect 0, .authenticated 0 true 0, .connect 1]

theorem refused_while_connecting_twice :
    ∃ d, d ≠ 1 ∧ oneDevice.origin d = oneDevice.origin 1 ∧ (connectsTwice.pc d).inSetup = true := by
  have hs : connectionStep oneDevice connectsTwice (.authenticated 1 true 60) =
      some (after (connectionStep oneDevice) Any connectsTwice [.authenticated 1 true 60]) :=
    step_after trivial (by decide)
  exact refused_while_connecting (.of_after (by decide)) hs (by decide)

end MapADroid.Websocket
