import MapADroid.Mitm.Relayed

/- The newest of the latest data.

   An update that is older than the entry for its key is ignored, so the entry does not get
   older, whatever order the threads make updates in. But a thread compares its update
   first, then deletes the entry, and writes it last. What a client reads is as new as every
   update that was made before (`latest_newest`) as long as the threads do this one after the other
   for the key, no request for it is served in between, and no data of the worker are replaced. -/
namespace MapADroid.Mitm.Grpc
open Lib

variable {C P : Type} {rd : PayloadReader P} {pb : Protobuf P} {record record' : List (ℚ × Event C P)}
  {server server' : MitmMapperServer P} {w key : String}

/-! ## One after the other -/

/-- The thread has compared its update for the key, and has not written it yet. -/
def Thread.Writes (w key : String) (thread : Thread P) : Prop :=
  thread.update.worker = w ∧ thread.update.key = key ∧ thread.place.writing = true

/-- No thread is between comparing and writing. -/
def Calm (w key : String) (server : MitmMapperServer P) : Prop := ∀ thread ∈ server.threads, ¬thread.Writes w key

instance (w key : String) (thread : Thread P) : Decidable (thread.Writes w key) :=
  inferInstanceAs (Decidable (_ ∧ _))

instance (w key : String) (server : MitmMapperServer P) : Decidable (Calm w key server) :=
  inferInstanceAs (Decidable (∀ thread ∈ server.threads, _))

/-- The call asks for the key. -/
def Call.reads (w key : String) : Call P → Bool
  | .requestLatest worker key' _ => worker = w && key' = key
  | _ => false

/-- Updates for the key are compared and written one after the other, and no request for it is served in between. -/
def OneByOne (w key : String) (s : Mapper C P) : Action C P → Prop
  | .thread j => ∀ thread ∈ s.server.threads[j]?, thread.place.compares = true → thread.update.worker = w →
    thread.update.key = key → Calm w key s.server
  | .serve => ∀ taken ∈ s.loop, taken.missing = false → ∀ rpc ∈ s.rpcs[taken.rpc]?, rpc.call.reads w key = true →
    Calm w key s.server
  | _ => True

instance (w key : String) (s : Mapper C P) : (a : Action C P) → Decidable (OneByOne w key s a)
  | .thread j => inferInstanceAs (Decidable (∀ thread ∈ s.server.threads[j]?, _ → _ → _ → _))
  | .serve => inferInstanceAs (Decidable (∀ taken ∈ s.loop, _ → ∀ rpc ∈ s.rpcs[taken.rpc]?, _ → _))
  | .wait _ | .call _ _ | .take _ | .answer _ | .fail _ => isTrue trivial

/-- Updates for the key come with the time they were received at. -/
def Stamped (w key : String) (_ : Mapper C P) : Action C P → Prop
  | .call _ (.updateLatest worker key' _ raw _ _) => worker = w → key' = key → sentTimestamp raw ≠ 0
  | _ => True

instance (w key : String) (s : Mapper C P) : (a : Action C P) → Decidable (Stamped w key s a)
  | .call _ (.updateLatest worker key' _ raw _ _) =>
    inferInstanceAs (Decidable (worker = w → key' = key → sentTimestamp raw ≠ 0))
  | .call _ (.setLevel _ _) | .call _ (.setPokestopVisits _ _) | .call _ (.requestLatest _ _ _)
  | .call _ (.getPokeStopVisits _) | .call _ (.getLevel _) | .call _ (.getInjectionStatus _)
  | .call _ (.setInjectionStatus _ _) | .call _ (.getLastKnownLocation _) | .call _ (.setQuestsHeld _ _)
  | .call _ (.getQuestsHeld _) | .wait _ | .take _ | .serve | .thread _ | .answer _ | .fail _ => isTrue trivial

def Orderly (w key : String) (s : Mapper C P) (a : Action C P) : Prop :=
  Stamped w key s a ∧ Spares w s a ∧ OneByOne w key s a

instance (w key : String) (s : Mapper C P) (a : Action C P) : Decidable (Orderly w key s a) :=
  inferInstanceAs (Decidable (_ ∧ _ ∧ _))

/-! ## What the threads rely on -/

/-- A thread that has compared its update with an entry that is no newer finds the same one still, or has deleted
it. -/
def Relies (store : Store P) (thread : Thread P) : Prop :=
  match thread.place with
  | .contains _ latest | .delete _ latest =>
    store.latest? thread.update.worker thread.update.key = latest ∧
      ∀ e ∈ latest, e.timestampOfDataRetrieval.val ≤ (thread.update.receiver 0).val
  | .write _ latest => store.latest? thread.update.worker thread.update.key = none ∧
      ∀ e ∈ latest, e.timestampOfDataRetrieval.val ≤ (thread.update.receiver 0).val
  | _ => True

theorem Relies.of_not_writing {store : Store P} {u : Update P} {place : Place P} (h : place.writing = false) :
    Relies store ⟨u, place⟩ := by
  cases place with
  | contains r latest | delete r latest | write r latest => cases h
  | _ => trivial

theorem Relies.congr {store store' : Store P} {thread : Thread P} (h : Relies store thread)
    (hsame : store'.latest? thread.update.worker thread.update.key =
      store.latest? thread.update.worker thread.update.key) : Relies store' thread := by
  obtain ⟨u, place⟩ := thread
  cases place with
  | contains r latest | delete r latest | write r latest => exact ⟨hsame.trans h.1, h.2⟩
  | _ => trivial

theorem afterHolder_writing (u : Update P) (r : Ref) : (Place.afterHolder u r).writing = false := by
  unfold Place.afterHolder
  split <;> rfl

theorem afterMove_writing (u : Update P) (r : Ref) : (Place.afterMove u r : Place P).writing = false := by
  unfold Place.afterMove
  split <;> rfl

/-- A thread that has compared its update was about to compare it. -/
theorem goOn_writing {store : Store P} {u : Update P} {place : Place P}
    (h : (place.goOn rd store u).1.writing = true) : place.writing = true ∨ place.compares = true := by
  cases place with
  | contains r latest | delete r latest | write r latest => exact .inl rfl
  | compare r => exact .inr rfl
  | check =>
    simp only [Place.goOn] at h
    split at h <;> cases h
  | find =>
    simp only [Place.goOn] at h
    cases hdata : store.workerData.get? u.worker with
    | none => rw [hdata] at h; cases h
    | some r => rw [hdata] at h; cases h
  | parse r =>
    simp only [Place.goOn] at h
    split at h
    · cases h
    split at h
    · cases h
    split at h
    · cases h
    · rw [afterMove_writing] at h
      cases h
  | setMoved r =>
    simp only [Place.goOn] at h
    rw [afterMove_writing] at h
    cases h
  | _ => cases h

/-- What a thread relies on holds when it has gone on. -/
theorem relies_goOn {store : Store P} {u : Update P} {place : Place P} (h : Relies store ⟨u, place⟩)
    (hlive : ∀ r, place.ref? = some r → store.workerData.get? u.worker = some r)
    (hcompared : ∀ e, store.latest? u.worker u.key = some e → ignoresUpdate (some e) (u.receiver 0) = false →
      e.timestampOfDataRetrieval.val ≤ (u.receiver 0).val) :
    Relies (place.goOn rd store u).2 ⟨u, (place.goOn rd store u).1⟩ := by
  have hlatest : ∀ {r}, place.ref? = some r → store.latest? u.worker u.key = store.entryAt? r u.key :=
    fun hr => Store.latest?_of_get? (hlive _ hr) u.key
  by_cases hwriting : (place.goOn rd store u).1.writing = true
  swap
  · exact .of_not_writing (Bool.eq_false_iff.mpr hwriting)
  cases place with
  | compare r =>
    have hentry := hlatest (r := r) rfl
    simp only [Place.goOn] at hwriting ⊢
    split at hwriting
    · rw [afterHolder_writing] at hwriting
      cases hwriting
    · next hignores =>
      rw [if_neg hignores]
      refine ⟨hentry, fun e he => ?_⟩
      have he : store.entryAt? r u.key = some e := he
      rw [he, Bool.not_eq_true] at hignores
      exact hcompared e (hentry.trans he) hignores
  | contains r latest =>
    have hentry := hlatest (r := r) rfl
    simp only [Place.goOn]
    split
    · exact h
    · next hnone =>
      exact ⟨hentry.trans (Option.not_isSome_iff_eq_none.mp hnone), h.2⟩
  | delete r latest =>
    simp only [Place.goOn] at hwriting ⊢
    split at hwriting
    · next hsome =>
      rw [if_pos hsome]
      refine ⟨?_, h.2⟩
      rw [Store.latest?_modifyHolder (hlive r rfl)]
      exact Dict.get?_erase_self
    · cases hwriting
  | write r latest =>
    simp only [Place.goOn] at hwriting
    rw [afterHolder_writing] at hwriting
    cases hwriting
  | _ =>
    rcases goOn_writing hwriting with hbefore | hbefore
    · cases hbefore
    · cases hbefore

/-- What a thread writes is the entry. -/
theorem latest?_write {store : Store P} {u : Update P} {r : Ref} (hr : store.workerData.get? u.worker = some r)
    (latest : Option (LatestMitmDataEntry P)) :
    ((Place.write r latest).goOn rd store u).2.latest? u.worker u.key = some (u.entry 0) := by
  simp only [Place.goOn]
  rw [Store.latest?_modifyHolder hr]
  exact Dict.get?_insert_self

/-- The data of a worker are not replaced. -/
theorem workerData_goOn {store : Store P} {u : Update P} {place : Place P}
    (hspared : place.creates = true → u.worker = w → store.workerData.get? w = none) {r : Ref}
    (hr : store.workerData.get? w = some r) : (place.goOn rd store u).2.workerData.get? w = some r := by
  rcases Place.goOn_store rd store u place with heq | ⟨hcreates, heq⟩ | ⟨_, _, _, heq, _⟩
  · rw [heq]
    exact hr
  -- data are made for another worker, as this one has some
  · rw [heq, Store.create_get?_of_ne, hr]
    rintro rfl
    rw [hspared hcreates rfl] at hr
    cases hr
  · rw [heq]
    exact hr

/-- Only a thread that has compared an update for the key changes the entry. -/
theorem latest?_goOn {store : Store P} (hwf : store.WellFormed) {u : Update P} {place : Place P}
    (hown : ∀ r, place.ref? = some r → r.worker = u.worker)
    (hspared : place.creates = true → u.worker = w → store.workerData.get? w = none)
    (hnot : ¬Thread.Writes w key ⟨u, place⟩) :
    (place.goOn rd store u).2.latest? w key = store.latest? w key := by
  cases hr : store.workerData.get? w with
  | some r =>
    rw [Store.latest?, Store.latest?, workerData_goOn hspared hr, hr]
    obtain ⟨hworker, hmade⟩ := hwf w r hr
    refine Place.entryAt?_goOn_of_not hmade fun hwriting href hkey => hnot ⟨?_, hkey.symm, hwriting⟩
    exact (hown r href).symm.trans hworker
  | none =>
    -- if the thread makes the data, they have no entries
    have hafter : ∀ r, (place.goOn rd store u).2.workerData.get? w = some r →
        (place.goOn rd store u).2.entryAt? r key = none := by
      intro r hnew
      rcases Place.goOn_store rd store u place with heq | ⟨_, heq⟩ | ⟨_, _, _, heq, _⟩
      · rw [heq, hr] at hnew
        cases hnew
      · rw [heq] at hnew ⊢
        rw [Store.entryAt?_create, if_pos]
        by_cases hw : w = u.worker
        · rw [hw, Store.create_get?_self] at hnew
          exact (Option.some.inj hnew).symm
        · rw [Store.create_get?_of_ne _ hw, hr] at hnew
          cases hnew
      · rw [heq, Store.modify_workerData, hr] at hnew
        cases hnew
    rw [Store.latest?, Store.latest?, hr, Option.bind_none]
    cases hnew : (place.goOn rd store u).2.workerData.get? w with
    | none => rfl
    | some r => exact hafter r hnew

/-! ## The entry gets no older -/

/-- The entry for the key, or the one a thread has deleted to write another one. -/
def Newest (w key : String) (server : MitmMapperServer P) (e : LatestMitmDataEntry P) : Prop :=
  server.store.latest? w key = some e ∨ ∃ (j : Nat) (u : Update P) (r : Ref),
    server.threads[j]? = some ⟨u, .write r (some e)⟩ ∧ u.worker = w ∧ u.key = key

/-- It is no older than any update that was made for the key. -/
def AsNew (w key : String) (record : List (ℚ × Event C P)) (server : MitmMapperServer P) : Prop :=
  ∀ time u, (time, Event.updated u) ∈ record → u.worker = w → u.key = key →
    ∃ e, Newest w key server e ∧ (u.receiver 0).val ≤ e.timestampOfDataRetrieval.val

/-- The threads have the data of the worker there are, one at a time is between comparing and writing, and
the entry is the one it compared with. -/
structure Advancing (w key : String) (record : List (ℚ × Event C P)) (server : MitmMapperServer P) : Prop where
  live : ∀ (j : Nat) (thread : Thread P) (r : Ref), server.threads[j]? = some thread → thread.update.worker = w →
    thread.place.ref? = some r → server.store.workerData.get? w = some r
  alone : ∀ (i j : Nat) (a b : Thread P), server.threads[i]? = some a → server.threads[j]? = some b →
    a.Writes w key → b.Writes w key → i = j
  relies : ∀ (j : Nat) (thread : Thread P), server.threads[j]? = some thread → thread.update.worker = w →
    thread.update.key = key → Relies server.store thread
  asNew : AsNew w key record server

theorem Advancing.new (now : ℚ) :
    Advancing w key (Mapper.new now : Mapper C P).record (Mapper.new now : Mapper C P).server where
  live j thread r hj := by simp [Mapper.new, MitmMapperServer.new] at hj
  alone i j a b hi := by simp [Mapper.new, MitmMapperServer.new] at hi
  relies j thread hj := by simp [Mapper.new, MitmMapperServer.new] at hj
  asNew time u hmem := by cases hmem

/-- Where no thread is between comparing and writing, the entry itself is as new. -/
theorem Newest.of_calm {e : LatestMitmDataEntry P} (h : Newest w key server e) (hcalm : Calm w key server) :
    server.store.latest? w key = some e := by
  rcases h with hlatest | ⟨j, u, r, hj, hw, hkey⟩
  · exact hlatest
  · exact absurd ⟨hw, hkey, rfl⟩ (hcalm _ (List.mem_of_getElem? hj))

/-- A step of no thread, after which the entry is the same. -/
theorem Advancing.grow (h : Advancing w key record server)
    (hnone : ∀ time u, (time, Event.updated u) ∈ record' → (time, Event.updated u) ∈ record)
    (hdata : ∀ r, server.store.workerData.get? w = some r → server'.store.workerData.get? w = some r)
    (hlatest : server'.store.latest? w key = server.store.latest? w key)
    (hthreads : ∀ (j : Nat) (thread : Thread P), server'.threads[j]? = some thread →
      server.threads[j]? = some thread ∨ thread.place = .check)
    (hold : ∀ (j : Nat) (thread : Thread P), server.threads[j]? = some thread → server'.threads[j]? = some thread) :
    Advancing w key record' server' where
  live j thread r hj hw hr := by
    rcases hthreads j thread hj with hj | hcheck
    · exact hdata r (h.live j thread r hj hw hr)
    · rw [hcheck] at hr
      cases hr
  alone i j a b hi hj ha hb := by
    rcases hthreads i a hi with hi | hcheck
    · rcases hthreads j b hj with hj | hcheck
      · exact h.alone i j a b hi hj ha hb
      · have hwriting := hb.2.2
        rw [hcheck] at hwriting
        cases hwriting
    · have hwriting := ha.2.2
      rw [hcheck] at hwriting
      cases hwriting
  relies j thread hj hw hkey := by
    rcases hthreads j thread hj with hj | hcheck
    · refine (h.relies j thread hj hw hkey).congr ?_
      rw [hw, hkey]
      exact hlatest
    · exact .of_not_writing (by rw [hcheck]; rfl)
  asNew time u hu hw hkey := by
    obtain ⟨e, hnewest, hle⟩ := h.asNew time u (hnone time u hu) hw hkey
    refine ⟨e, ?_, hle⟩
    rcases hnewest with he | ⟨j, v, r, hj, hv⟩
    · exact .inl (hlatest.trans he)
    · exact .inr ⟨j, v, r, hold j _ hj, hv⟩

/-- An entry that is written with the time it was received at. -/
def Timed (e : LatestMitmDataEntry P) : Prop :=
  e.timestampReceived.truthy = true ∧ 0 ≤ e.timestampOfDataRetrieval.val

/-- An update that is ignored is no newer than the entry. -/
theorem le_of_ignoresUpdate {e : LatestMitmDataEntry P} {retrieval : Timestamp} (he : Timed e)
    (h : ignoresUpdate (some e) retrieval = true) : retrieval.val ≤ e.timestampOfDataRetrieval.val := by
  simp only [ignoresUpdate, Bool.and_eq_true, Bool.or_eq_true, Bool.not_eq_true', decide_eq_true_eq] at h
  rcases h.2 with hzero | hlt
  · have hval : retrieval.val = 0 := by
      by_contra hval
      rw [Timestamp.truthy_eq_true.mpr hval] at hzero
      cases hzero
    rw [hval]
    exact he.2
  · exact hlt.le

section GoOn
variable {j : Nat} {u : Update P} {place : Place P}

/-- What a thread does to the newest entry: it stays, or is no newer than the update that the thread writes. -/
theorem newest_goOn (h : Advancing w key record server) (hwf : server.store.WellFormed)
    (hown : ∀ r, place.ref? = some r → r.worker = u.worker)
    (hj : server.threads[j]? = some ⟨u, place⟩) (hstore : server'.store = (place.goOn rd server.store u).2)
    (hthreads : server'.threads = server.threads.set j ⟨u, (place.goOn rd server.store u).1⟩)
    (hspared : place.creates = true → u.worker = w → server.store.workerData.get? w = none)
    {e : LatestMitmDataEntry P} (he : Newest w key server e) :
    Newest w key server' e ∨ server'.store.latest? w key = some (u.entry 0) ∧
      e.timestampOfDataRetrieval.val ≤ (u.receiver 0).val := by
  have hother : ∀ {i : Nat} {thread : Thread P}, i ≠ j → server.threads[i]? = some thread →
      server'.threads[i]? = some thread := by
    intro i thread hij hi
    rw [hthreads, List.getElem?_set_ne (Ne.symm hij)]
    exact hi
  have hself : server'.threads[j]? = some ⟨u, (place.goOn rd server.store u).1⟩ := by
    rw [hthreads, List.getElem?_set_self (List.getElem?_eq_some_iff.mp hj).1]
  by_cases hwrites : Thread.Writes w key ⟨u, place⟩
  swap
  · -- the entry stays, and the thread that has deleted it is another one
    have hsame : (place.goOn rd server.store u).2.latest? w key = server.store.latest? w key :=
      latest?_goOn hwf hown hspared hwrites
    rw [← hstore] at hsame
    rcases he with he | ⟨i, v, r, hi, hw, hkey⟩
    · exact .inl (.inl (hsame.trans he))
    · refine .inl (.inr ⟨i, v, r, hother ?_ hi, hw, hkey⟩)
      rintro rfl
      cases hi.symm.trans hj
      exact hwrites ⟨hw, hkey, rfl⟩
  obtain ⟨rfl, rfl, hwriting⟩ := hwrites
  have hrelies := h.relies j _ hj rfl rfl
  have hlive : ∀ r, place.ref? = some r → server.store.workerData.get? u.worker = some r :=
    fun r hr => h.live j _ r hj rfl hr
  -- no other thread has deleted it
  have halone : ∀ {i v r}, server.threads[i]? = some ⟨v, .write r (some e)⟩ → v.worker = u.worker →
      v.key = u.key → i = j := fun hi hw hkey => h.alone _ j _ _ hi hj ⟨hw, hkey, rfl⟩ ⟨rfl, rfl, hwriting⟩
  cases place with
  | contains r latest =>
    have hsame : server'.store = server.store := hstore
    rcases he with he | ⟨i, v, r', hi, hw, hkey⟩
    · exact .inl (.inl (hsame ▸ he))
    · obtain rfl := halone hi hw hkey
      cases hi.symm.trans hj
  | delete r latest =>
    rcases he with he | ⟨i, v, r', hi, hw, hkey⟩
    · have hlatest : latest = some e := hrelies.1.symm.trans he
      have hentry : server.store.entryAt? r u.key = some e := by
        rw [Store.latest?_of_get? (hlive r rfl)] at he
        exact he
      refine .inl (.inr ⟨j, u, r, ?_, rfl, rfl⟩)
      rw [hself]
      simp only [Place.goOn, hentry, Option.isSome_some, if_true, hlatest]
    · obtain rfl := halone hi hw hkey
      cases hi.symm.trans hj
  | write r latest =>
    rcases he with he | ⟨i, v, r', hi, hw, hkey⟩
    · rw [hrelies.1] at he
      cases he
    · obtain rfl := halone hi hw hkey
      cases hi.symm.trans hj
      refine .inr ⟨?_, hrelies.2 e rfl⟩
      rw [hstore]
      exact latest?_write (hlive r rfl) _
  | _ => cases hwriting

/-- An update that is made is no newer than the entry. -/
theorem newest_makes (h : Advancing w key record server) (hj : server.threads[j]? = some ⟨u, place⟩)
    (hstore : server'.store = (place.goOn rd server.store u).2)
    (htimed : ∀ e, server.store.latest? w key = some e → Timed e) (hw : u.worker = w) (hkey : u.key = key)
    (hmakes : place.makes server.store u = true) :
    ∃ e, server'.store.latest? w key = some e ∧ (u.receiver 0).val ≤ e.timestampOfDataRetrieval.val := by
  subst hw hkey
  have hlive : ∀ r, place.ref? = some r → server.store.workerData.get? u.worker = some r :=
    fun r hr => h.live j _ r hj rfl hr
  cases place with
  | compare r =>
    have hignores : ignoresUpdate (server.store.entryAt? r u.key) (u.receiver 0) = true := hmakes
    have hlatest : server.store.latest? u.worker u.key = server.store.entryAt? r u.key :=
      Store.latest?_of_get? (hlive r rfl) u.key
    have hsame : server'.store = server.store := by
      rw [hstore]
      simp only [Place.goOn]
      rw [if_pos hignores]
    cases hentry : server.store.entryAt? r u.key with
    | none =>
      rw [hentry] at hignores
      cases hignores
    | some e =>
      have he := hlatest.trans hentry
      rw [hentry] at hignores
      exact ⟨e, hsame ▸ he, le_of_ignoresUpdate (htimed e he) hignores⟩
  | write r latest =>
    refine ⟨u.entry 0, ?_, le_rfl⟩
    rw [hstore]
    exact latest?_write (hlive r rfl) latest
  | _ => cases hmakes

/-- A thread goes on. -/
theorem advancing_goOn (h : Advancing w key record server) (hwf : server.store.WellFormed)
    (hown : ∀ r, place.ref? = some r → r.worker = u.worker)
    (hj : server.threads[j]? = some ⟨u, place⟩) (hstore : server'.store = (place.goOn rd server.store u).2)
    (hthreads : server'.threads = server.threads.set j ⟨u, (place.goOn rd server.store u).1⟩)
    (hspared : place.creates = true → u.worker = w → server.store.workerData.get? w = none)
    (hone : place.compares = true → u.worker = w → u.key = key → Calm w key server)
    (htimed : ∀ e, server.store.latest? w key = some e → Timed e)
    (hrecord : ∀ time v, (time, Event.updated v) ∈ record' →
      (time, Event.updated v) ∈ record ∨ v = u ∧ place.makes server.store u = true) :
    Advancing w key record' server' := by
  have hdata : ∀ r, server.store.workerData.get? w = some r → server'.store.workerData.get? w = some r := by
    intro r hr
    rw [hstore]
    exact workerData_goOn hspared hr
  -- another thread that is between comparing and writing excludes this one
  have hexcluded : ∀ {i : Nat} {b : Thread P}, i ≠ j → server.threads[i]? = some b → b.Writes w key →
      ¬Thread.Writes w key ⟨u, (place.goOn rd server.store u).1⟩ := by
    rintro i b hij hi hb ⟨hw, hkey, hwriting⟩
    rcases goOn_writing hwriting with hbefore | hbefore
    · exact hij (h.alone i j b _ hi hj hb ⟨hw, hkey, hbefore⟩)
    · exact hone hbefore hw hkey b (List.mem_of_getElem? hi) hb
  constructor
  · intro i thread r hi hw hr
    rw [hthreads] at hi
    rcases rpcs_set hj hi with ⟨_, rfl⟩ | ⟨_, hi⟩
    · rcases Place.goOn_ref? hr with hr | hr
      · exact hdata r (h.live j _ r hj hw hr)
      · rw [show u.worker = w from hw] at hr
        exact hdata r hr
    · exact hdata r (h.live i thread r hi hw hr)
  · intro i k a b hi hk ha hb
    rw [hthreads] at hi hk
    rcases rpcs_set hj hi with ⟨rfl, rfl⟩ | ⟨hji, hi⟩
    · rcases rpcs_set hj hk with ⟨rfl, rfl⟩ | ⟨hjk, hk⟩
      · rfl
      · exact absurd ha (hexcluded (Ne.symm hjk) hk hb)
    · rcases rpcs_set hj hk with ⟨rfl, rfl⟩ | ⟨hjk, hk⟩
      · exact absurd hb (hexcluded (Ne.symm hji) hi ha)
      · exact h.alone i k a b hi hk ha hb
  · intro i thread hi hw hkey
    rw [hthreads] at hi
    rcases rpcs_set hj hi with ⟨_, rfl⟩ | ⟨hji, hi⟩
    · rw [hstore]
      have hw : u.worker = w := hw
      have hkey : u.key = key := hkey
      refine relies_goOn (h.relies j _ hj hw hkey) (fun r hr => ?_) fun e he hignores => ?_
      · rw [hw]
        exact h.live j _ r hj hw hr
      · rw [hw, hkey] at he
        exact le_of_not_ignoresUpdate hignores (htimed e he).1
    · by_cases hwriting : thread.place.writing = true
      · -- then this one changes nothing it relies on
        refine (h.relies i thread hi hw hkey).congr ?_
        rw [hw, hkey, hstore]
        exact latest?_goOn hwf hown hspared fun hwrites =>
          hji (h.alone j i _ thread hj hi hwrites ⟨hw, hkey, hwriting⟩)
      · exact .of_not_writing (u := thread.update) (Bool.eq_false_iff.mpr hwriting)
  · intro time v hv hw hkey
    rcases hrecord time v hv with hold | ⟨rfl, hmakes⟩
    · obtain ⟨e, he, hle⟩ := h.asNew time v hold hw hkey
      rcases newest_goOn h hwf hown hj hstore hthreads hspared he with he | ⟨he, hnewer⟩
      · exact ⟨e, he, hle⟩
      · exact ⟨u.entry 0, .inl he, hle.trans hnewer⟩
    · obtain ⟨e, he, hle⟩ := newest_makes h hj hstore htimed hw hkey hmakes
      exact ⟨e, .inl he, hle⟩

end GoOn

/-! ## Runs -/

variable [DecidableEq C] {s t : Mapper C P} {a : Action C P}

/-- Everything written for the key came with the time it was received at. -/
def AllStamped (w key : String) (record : List (ℚ × Event C P)) : Prop :=
  ∀ time c value raw receiver location,
    (time, Event.called c (.updateLatest w key value raw receiver location)) ∈ record → sentTimestamp raw ≠ 0

omit [DecidableEq C] in
theorem AllStamped.new (now : ℚ) (w key : String) : AllStamped w key (Mapper.new now : Mapper C P).record := by
  intro time c value raw receiver location hmem
  cases hmem

omit [DecidableEq C] in
theorem AllStamped.grow {events : List (Event C P)} (h : AllStamped w key s.record)
    (hnone : ∀ c value raw receiver location,
      Event.called c (.updateLatest w key value raw receiver location) ∈ events →
      sentTimestamp raw ≠ 0) : AllStamped w key (s.log events).record := by
  intro time c value raw receiver location hmem
  rcases mem_log.mp hmem with hold | ⟨_, hnew⟩
  · exact h time c value raw receiver location hold
  · exact hnone c value raw receiver location hnew

theorem allStamped_step (h : AllStamped w key s.record) (hok : Stamped w key s a)
    (hs : s.step rd pb a = some t) : AllStamped w key t.record := by
  cases step_cases hs with
  | wait htime => exact h
  | @called d call begun client hbegin =>
    refine AllStamped.grow (s := s) h fun c value raw receiver location hmem => ?_
    have hcall : Event.called c (.updateLatest w key value raw receiver location) = .called d call := by
      cases begun <;> simpa [Begun.events] using hmem
    cases hcall
    exact hok rfl rfl
  | taken hloop hi hworker => exact h
  | created hloop => exact h
  | served ha hi hhandle =>
    exact AllStamped.grow (s := s) h fun c value raw receiver location hmem => by simp at hmem
  | went hserver => exact AllStamped.grow (s := s) h fun c value raw receiver location hmem => by simp at hmem
  | answered hi hrest => exact AllStamped.grow (s := s) h fun c value raw receiver location hmem => by simp at hmem
  | failed hi hrest => exact AllStamped.grow (s := s) h fun c value raw receiver location hmem => by simp at hmem

omit [DecidableEq C] in
theorem timed_of_written {e : LatestMitmDataEntry P} (h : Written pb record w key e)
    (hstamped : AllStamped w key record) : Timed e := by
  obtain ⟨time, c, value, raw, receiver, location, hmem, hcarried⟩ := h
  constructor
  · rw [hcarried.received]
    exact Timestamp.truthy_eq_true.mpr (Int.cast_ne_zero.mpr (hstamped time c value raw receiver location hmem))
  · rw [hcarried.retrieval]
    exact Int.cast_nonneg hcarried.nonneg

theorem advancing_step (h : Advancing w key s.record s.server) (hready : Ready s)
    (hrelaying : Relaying pb s.record s.server) (hstamped : AllStamped w key s.record) (hok : Orderly w key s a)
    (hs : s.step rd pb a = some t) : Advancing w key t.record t.server := by
  cases step_cases hs with
  | wait htime => exact h
  | @called d call begun client hbegin =>
    refine h.grow (updated_of_log fun u => ?_) (fun r hr => hr) rfl (fun j thread hj => .inl hj) fun j thread hj => hj
    cases begun <;> simp [Begun.events]
  | taken hloop hi hworker => exact h
  | @created i worker hloop =>
    have hnone : worker = w → s.server.store.workerData.get? w = none :=
      fun hw => Dict.get?_eq_none_iff.mpr (hok.2.1 _ hloop rfl hw)
    have hdata : ∀ r, s.server.store.workerData.get? w = some r →
        (s.server.store.create worker).workerData.get? w = some r := by
      intro r hr
      rw [Store.create_get?_of_ne, hr]
      rintro rfl
      rw [hnone rfl] at hr
      cases hr
    have hlatest : (s.server.store.create worker).latest? w key = s.server.store.latest? w key := by
      rw [← Store.requestLatest_handler, ← Store.requestLatest_handler, MitmDataHandler.requestLatest,
        MitmDataHandler.requestLatest, hready.store.player_create hnone]
    exact h.grow (fun time u hu => hu) hdata hlatest (fun j thread hj => .inl hj) fun j thread hj => hj
  | @served i d call request waiting reply server _ ha hi hhandle =>
    obtain rfl : server = (s.server.handle pb request).2 := by rw [hhandle]
    have hdata := (s.server.handle_store pb request).1
    have hlatest : (s.server.handle pb request).2.store.latest? w key = s.server.store.latest? w key := by
      rw [Store.latest?, Store.latest?, hdata]
      cases s.server.store.workerData.get? w with
      | none => rfl
      | some r => exact entryAt?_handle pb s.server request r key
    refine h.grow (updated_of_log fun u => by simp) (fun r hr => (congrArg (·.get? w) hdata).trans hr) hlatest
      (fun j thread hj => ?_) fun j thread hj => ?_
    · have hj : (s.server.handle pb request).2.threads[j]? = some thread := hj
      rcases s.server.handle_threads pb request with hsame | ⟨_, _, _, _, hnew⟩
      · exact .inl (hsame ▸ hj)
      · rw [hnew, List.getElem?_append] at hj
        split at hj
        · exact .inl hj
        · rw [List.getElem?_singleton, Option.ite_none_right_eq_some] at hj
          cases hj.2
          exact .inr rfl
    · show (s.server.handle pb request).2.threads[j]? = some thread
      rcases s.server.handle_threads pb request with hsame | ⟨_, _, _, _, hnew⟩
      · rw [hsame, hj]
      · rw [hnew, List.getElem?_append_left (List.getElem?_eq_some_iff.mp hj).1, hj]
  | @went j updates server hserver =>
    obtain ⟨u, place, hj, rfl, hstore, hthreads⟩ := MitmMapperServer.goOn_some hserver
    refine advancing_goOn h hready.store (fun r hr => (hready.threads j _ r hj hr).1) hj hstore hthreads
      (fun hcreates hw => Dict.get?_eq_none_iff.mpr (hok.2.1 _ hj hcreates hw))
      (fun hcompares hw hkey => hok.2.2 _ hj hcompares hw hkey) (fun e he => ?_) fun time v hv => ?_
    · rw [← Store.requestLatest_handler] at he
      exact timed_of_written (hrelaying.latest hready.store he) hstamped
    · rcases mem_log.mp hv with hold | ⟨_, hnew⟩
      · exact .inl hold
      · obtain ⟨v', hv', heq⟩ := List.mem_map.mp hnew
        cases heq
        split at hv'
        · next hmakes =>
          cases List.mem_singleton.mp hv'
          exact .inr ⟨rfl, hmakes⟩
        · cases hv'
  | answered hi hrest =>
    exact h.grow (updated_of_log fun u => by simp) (fun r hr => hr) rfl (fun j thread hj => .inl hj)
      fun j thread hj => hj
  | failed hi hrest =>
    exact h.grow (updated_of_log fun u => by simp) (fun r hr => hr) rfl (fun j thread hj => .inl hj)
      fun j thread hj => hj

/-- Every request for the key was served while no thread was between comparing and writing. -/
structure ReadsCalm (w key : String) (s : Mapper C P) : Prop where
  returned : ∀ time c call i result, (time, Event.returned c call (some i) result) ∈ s.record →
    ∃ rpc, s.rpcs[i]? = some rpc ∧ rpc.call = call
  served : ∀ time i server reply, (time, Event.served i server reply) ∈ s.record →
    ∃ rpc, s.rpcs[i]? = some rpc ∧ (rpc.call.reads w key = true → Calm w key server)

omit [DecidableEq C] in
theorem ReadsCalm.new (now : ℚ) : ReadsCalm w key (Mapper.new now : Mapper C P) where
  returned time c call i result hmem := by cases hmem
  served time i server reply hmem := by cases hmem

omit [DecidableEq C] in
theorem ReadsCalm.grow {events : List (Event C P)} (h : ReadsCalm w key s)
    (hrpcs : ∀ (i : Nat) (rpc : Rpc C P), s.rpcs[i]? = some rpc →
      ∃ rpc', t.rpcs[i]? = some rpc' ∧ rpc'.call = rpc.call ∧ rpc'.request = rpc.request)
    (hrecord : t.record = (s.log events).record)
    (hreturned : ∀ c call i result, Event.returned c call (some i) result ∈ events →
      ∃ rpc, s.rpcs[i]? = some rpc ∧ rpc.call = call)
    (hserved : ∀ i server reply, Event.served i server reply ∈ events →
      ∃ rpc, s.rpcs[i]? = some rpc ∧ (rpc.call.reads w key = true → Calm w key server)) : ReadsCalm w key t where
  returned time c call i result hmem := by
    have hold : ∃ rpc, s.rpcs[i]? = some rpc ∧ rpc.call = call := by
      rw [hrecord] at hmem
      rcases mem_log.mp hmem with hold | ⟨_, hnew⟩
      · exact h.returned time c call i result hold
      · exact hreturned c call i result hnew
    obtain ⟨rpc, hi, hcall⟩ := hold
    obtain ⟨rpc', hi', hcall', _⟩ := hrpcs i rpc hi
    exact ⟨rpc', hi', hcall'.trans hcall⟩
  served time i server reply hmem := by
    have hold : ∃ rpc, s.rpcs[i]? = some rpc ∧ (rpc.call.reads w key = true → Calm w key server) := by
      rw [hrecord] at hmem
      rcases mem_log.mp hmem with hold | ⟨_, hnew⟩
      · exact h.served time i server reply hold
      · exact hserved i server reply hnew
    obtain ⟨rpc, hi, hcalm⟩ := hold
    obtain ⟨rpc', hi', hcall', _⟩ := hrpcs i rpc hi
    exact ⟨rpc', hi', hcall' ▸ hcalm⟩

omit [DecidableEq C] in
/-- A call that asks for the key needs data of its worker. -/
theorem worker?_of_reads {call : Call P} {request : Request P} (h : MitmMapperClient.request pb call = some request)
    (hreads : call.reads w key = true) : request.worker? ≠ none := by
  cases call with
  | requestLatest worker key' earliest =>
    obtain ⟨f, _, hrequest⟩ := Option.bind_eq_some_iff.mp h
    cases hrequest
    simp [Request.worker?]
  | _ => cases hreads

theorem readsCalm_step (h : ReadsCalm w key s) (hrecorded : Recorded pb s) (hok : OneByOne w key s a)
    (hs : s.step rd pb a = some t) : ReadsCalm w key t := by
  cases step_cases hs with
  | wait htime => exact ⟨h.returned, h.served⟩
  | @called d call begun client hbegin =>
    refine h.grow (rpcs_append_kept _ _) rfl (fun c call' i result hmem => ?_) fun i server reply hmem => ?_
    · cases begun <;> simp [Begun.events] at hmem
    · cases begun <;> simp [Begun.events] at hmem
  | taken hloop hi hworker => exact ⟨h.returned, h.served⟩
  | created hloop => exact ⟨h.returned, h.served⟩
  | @served i d call request waiting reply server _ ha hi hhandle =>
    refine h.grow (rpcs_set_kept hi rfl rfl) rfl (fun c call' i' result hmem => by simp at hmem)
      fun i' server' reply' hmem => ?_
    cases List.mem_singleton.mp hmem
    refine ⟨_, hi, fun hreads => ?_⟩
    rcases ha with ⟨_, hnone⟩ | ⟨worker, rfl, hloop⟩
    · obtain ⟨ts, hasked⟩ := hrecorded.rpcs i _ hi
      exact absurd hnone (worker?_of_reads hasked.asked hreads)
    · exact hok _ hloop rfl _ hi hreads
  | went hserver =>
    refine h.grow (fun i rpc hi => ⟨rpc, hi, rfl, rfl⟩) rfl (fun c call' i result hmem => ?_)
      fun i server reply hmem => ?_
    · simp at hmem
    · simp at hmem
  | @answered i d call request response result client hi hrest =>
    refine h.grow (rpcs_set_kept hi rfl rfl) rfl (fun c call' i' result' hmem => ?_)
      fun i' server reply hmem => by simp at hmem
    cases List.mem_singleton.mp hmem
    exact ⟨_, hi, rfl⟩
  | @failed i d call request reply result client hi hrest =>
    refine h.grow (rpcs_set_kept hi rfl rfl) rfl (fun c call' i' result' hmem => ?_)
      fun i' server reply hmem => by simp at hmem
    rw [List.mem_pair] at hmem
    rcases hmem with hmem | hmem
    · cases hmem
    · cases hmem
      exact ⟨_, hi, rfl⟩

theorem advancing_run {now : ℚ} {l : List (Action C P)}
    (h : Run (Mapper.step rd pb) (Orderly w key) (Mapper.new now) l s) :
    Advancing w key s.record s.server ∧ ReadsCalm w key s := by
  have hall := h.invariant
    (I := fun s => (Recorded pb s ∧ Ready s ∧ Relaying pb s.record s.server) ∧ AllStamped w key s.record ∧
      Advancing w key s.record s.server ∧ ReadsCalm w key s)
    ⟨⟨.new now, .new now, .new now⟩, .new now w key, .new now, .new now⟩
    fun _ _ _ hi hok hs =>
      ⟨⟨recorded_step hi.1.1 hs, ready_step hi.1.2.1 hs, relaying_step hi.1.2.2 hi.1.1 hi.1.2.1 hs⟩,
        allStamped_step hi.2.1 hok.1 hs, advancing_step hi.2.2.1 hi.1.2.1 hi.1.2.2 hi.2.1 hok hs,
        readsCalm_step hi.2.2.2 hi.1.1 hok.2.2 hs⟩
  exact hall.2.2

/-- In every run whose updates for a key come with the time they were received at, and are compared and written one
after the other, a client that reads the key without an error reads nothing older than any update made before it
asked. -/
theorem latest_newest {now : ℚ} {l : List (Action C P)}
    (h : Run (Mapper.step rd pb) (Orderly w key) (Mapper.new now) l s) {got : ℚ} {c : C} {i : Nat} {result : Result P}
    (hread : (got, Event.returned c (.requestLatest w key none) (some i) result) ∈ s.record)
    (hfine : (got, Event.failed i) ∉ s.record) :
    ∃ sent request, (sent, Event.sent i c request) ∈ s.record ∧
      ∀ time u, (time, Event.updated u) ∈ s.record → time < sent → u.worker = w → u.key = key →
        ∃ e, result = .latest (some e) ∧ (u.receiver 0).val ≤ e.timestampOfDataRetrieval.val := by
  obtain ⟨hrecorded, _⟩ := relaying_run h
  obtain ⟨_, hcalm⟩ := advancing_run h
  obtain ⟨sent, request, hgot⟩ := hrecorded.results _ _ _ _ _ hread
  refine ⟨sent, request, hgot.sent, fun time u hu hbefore hw hkey => ?_⟩
  rcases hgot.latest with ⟨hfailed, _⟩ | ⟨served, server, reply, hsent, _, hmem, hresult⟩
  · exact absurd hfailed hfine
  -- the request was served while no thread was between comparing and writing
  obtain ⟨rpc, hi, hcall⟩ := hcalm.returned _ _ _ _ _ hread
  obtain ⟨rpc', hi', hserved⟩ := hcalm.served _ _ _ _ hmem
  obtain rfl := Option.some.inj (hi.symm.trans hi')
  have hquiet : Calm w key server := hserved (by rw [hcall]; simp [Call.reads])
  obtain ⟨pre, post, hsplit⟩ := List.append_of_mem hmem
  have hearlier : (time, Event.updated u) ∈ pre := by
    have hsorted := hrecorded.sorted
    rw [hsplit] at hu hsorted
    rcases List.mem_append.mp hu with hpre | hpost
    · exact hpre
    · rcases List.mem_cons.mp hpost with hsame | hpost
      · cases hsame
      · have hle := (List.pairwise_cons.mp (List.pairwise_append.mp hsorted).2.1).1 _ hpost
        exact absurd (hsent.trans hle) (not_le.mpr hbefore)
  obtain ⟨⟨hwf, hrelaying⟩, hadvancing⟩ := served_earlier h
    (I := fun record server => (server.store.WellFormed ∧ Relaying pb record server) ∧ Advancing w key record server)
    (fun _ _ hrun => ⟨⟨(relaying_run hrun).2.1.store, (relaying_run hrun).2.2⟩, (advancing_run hrun).1⟩) hsplit
  obtain ⟨e, hnewest, hle⟩ := hadvancing.asNew time u hearlier hw hkey
  have he : server.handler.requestLatest w key none = some e :=
    (Store.requestLatest_handler _ _ _).trans (hnewest.of_calm hquiet)
  rw [Option.map_none, answersRequest_none, he] at hresult
  obtain ⟨m, hm, hresult⟩ := hresult
  obtain ⟨_, _, _, _, _, _, _, hcarried⟩ := hrelaying.latest hwf he
  refine ⟨_, hresult, ?_⟩
  rw [transform_carried hcarried hm, relayed, ← hcarried.retrieval]
  exact hle

/-- The threads that swap the two GMOs compare and write them one after the other. -/
def orderlyMapper : Mapper String (List Int) :=
  after (Mapper.step cellsOnly plain) (Orderly "a" gmoKey) (.new 100) swap

theorem latest_newest_swapped :
    ∃ sent request, (sent, Event.sent 2 "core" request) ∈ orderlyMapper.record ∧
      ∀ time u, (time, Event.updated u) ∈ orderlyMapper.record → time < sent → u.worker = "a" → u.key = gmoKey →
        ∃ e, Result.latest (some secondGmo) = .latest (some e) ∧ (u.receiver 0).val ≤ e.timestampOfDataRetrieval.val :=
  latest_newest (.of_after (by decide +kernel))
    (mem_returns.mp (by decide +kernel :
      (101, "core", .requestLatest "a" gmoKey none, some 2, .latest (some secondGmo)) ∈ returns orderlyMapper.record))
    (mt mem_failures.mpr (by decide +kernel))

end MapADroid.Mitm.Grpc
