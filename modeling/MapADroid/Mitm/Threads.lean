import Mathlib.Logic.Function.Basic
import MapADroid.Mitm.MitmDataHandler

/- The store in memory while threads update it (`MitmMapper.update_latest`).

   Every update of the latest data runs in a thread, and nothing locks the store. So the store
   is given with its objects (`Store`), and `update_latest` by the access to it that comes next
   (`Place`); a thread goes on by one access at a time, and others come in between. Two
   threads may both find no data of a worker, and the later one then replaces those that the
   first one made. An entry is deleted before it is written, and may be another one by then
   than when the update was compared with it.

   A thread that nothing comes in between leaves the data that `updateLatest` gives
   (`player_alone`). -/
namespace MapADroid.Mitm.Grpc
open Lib

variable {P : Type}

/-! ## The objects -/

/-- A reference to a `PlayerData`. -/
structure Ref where
  made : Nat
  worker : String
  deriving DecidableEq, Repr

/-- `MitmDataHandler`, with the objects there are. -/
structure Store (P : Type) where
  heap : Ref → PlayerData P
  /-- The references made before are in use. -/
  next : Nat
  workerData : Dict String Ref

namespace Store

def empty : Store P := ⟨fun _ => .new, 0, .empty⟩

/-- What the store has of the workers. -/
def handler (s : Store P) : MitmDataHandler P := ⟨s.workerData.mapValues fun _ r => s.heap r⟩

/-- `self.__worker_data[worker] = PlayerData(worker)`. -/
def create (s : Store P) (worker : String) : Store P where
  heap := Function.update s.heap ⟨s.next, worker⟩ .new
  next := s.next + 1
  workerData := s.workerData.insert worker ⟨s.next, worker⟩

/-- An assignment to a field of an object. -/
def modify (s : Store P) (r : Ref) (f : PlayerData P → PlayerData P) : Store P :=
  { s with heap := Function.update s.heap r (f (s.heap r)) }

/-- An assignment to an entry of an object, or its deletion. -/
def modifyHolder (s : Store P) (r : Ref) (f : LatestMitmDataHolder P → LatestMitmDataHolder P) : Store P :=
  s.modify r fun p => { p with latestDataHolder := f p.latestDataHolder }

/-- The entry of an object for a key. -/
def entryAt? (s : Store P) (r : Ref) (key : String) : Option (LatestMitmDataEntry P) :=
  (s.heap r).latestDataHolder.get? key

/-- The entry of a worker for a key. -/
def latest? (s : Store P) (w key : String) : Option (LatestMitmDataEntry P) :=
  (s.workerData.get? w).bind fun r => s.entryAt? r key

theorem player_handler (s : Store P) (w : String) :
    s.handler.player w = ((s.workerData.get? w).map s.heap).getD .new := by
  rw [MitmDataHandler.player, handler, Dict.get?_mapValues]

theorem player_of_get? {s : Store P} {w : String} {r : Ref} (h : s.workerData.get? w = some r) :
    s.handler.player w = s.heap r := by
  rw [player_handler, h]
  rfl

theorem player_of_none {s : Store P} {w : String} (h : s.workerData.get? w = none) :
    s.handler.player w = .new := by
  rw [player_handler, h]
  rfl

theorem requestLatest_handler (s : Store P) (w key : String) :
    s.handler.requestLatest w key none = s.latest? w key := by
  rw [MitmDataHandler.requestLatest, PlayerData.getSpecificLatestData, answersRequest_none, player_handler, latest?]
  cases s.workerData.get? w with
  | none => rfl
  | some r => rfl

@[simp] theorem modify_workerData (s : Store P) (r : Ref) (f : PlayerData P → PlayerData P) :
    (s.modify r f).workerData = s.workerData := rfl

@[simp] theorem modify_heap_self (s : Store P) (r : Ref) (f : PlayerData P → PlayerData P) :
    (s.modify r f).heap r = f (s.heap r) := Function.update_self ..

theorem modify_heap_of_ne (s : Store P) {r r' : Ref} (f : PlayerData P → PlayerData P) (h : r' ≠ r) :
    (s.modify r f).heap r' = s.heap r' := Function.update_of_ne h ..

theorem modify_heap (s : Store P) (r r' : Ref) (f : PlayerData P → PlayerData P) :
    (s.modify r f).heap r' = if r' = r then f (s.heap r') else s.heap r' := by
  split
  · next h => rw [h, modify_heap_self]
  · next h => exact s.modify_heap_of_ne f h

/-- Two assignments to one object. -/
theorem modify_modify (s : Store P) (r : Ref) (f g : PlayerData P → PlayerData P) :
    (s.modify r f).modify r g = s.modify r fun p => g (f p) := by
  unfold modify
  simp only [Function.update_self, Function.update_idem]

theorem modify_congr {s : Store P} {r : Ref} {f g : PlayerData P → PlayerData P} (h : f (s.heap r) = g (s.heap r)) :
    s.modify r f = s.modify r g := by
  unfold modify
  rw [h]

theorem modify_eq_self {s : Store P} {r : Ref} {f : PlayerData P → PlayerData P} (h : f (s.heap r) = s.heap r) :
    s.modify r f = s := by
  unfold modify
  rw [h, Function.update_eq_self]

@[simp] theorem create_get?_self (s : Store P) (w : String) :
    (s.create w).workerData.get? w = some ⟨s.next, w⟩ := Dict.get?_insert_self

theorem create_get?_of_ne (s : Store P) {v w : String} (h : v ≠ w) :
    (s.create w).workerData.get? v = s.workerData.get? v := Dict.get?_insert_of_ne h

theorem entryAt?_create (s : Store P) (w : String) (r : Ref) (key : String) :
    (s.create w).entryAt? r key = if r = ⟨s.next, w⟩ then none else s.entryAt? r key := by
  unfold entryAt? create
  split
  · next h =>
    rw [h]
    show (Function.update s.heap ⟨s.next, w⟩ PlayerData.new ⟨s.next, w⟩).latestDataHolder.get? key = none
    rw [Function.update_self]
    rfl
  · next h =>
    show (Function.update s.heap ⟨s.next, w⟩ PlayerData.new r).latestDataHolder.get? key = _
    rw [Function.update_of_ne h]

theorem entryAt?_modifyHolder (s : Store P) (r r' : Ref) (f : LatestMitmDataHolder P → LatestMitmDataHolder P)
    (key : String) : (s.modifyHolder r f).entryAt? r' key =
      if r' = r then (f (s.heap r').latestDataHolder).get? key else s.entryAt? r' key := by
  unfold entryAt? modifyHolder
  rw [modify_heap]
  split <;> rfl

theorem latest?_of_get? {s : Store P} {w : String} {r : Ref} (h : s.workerData.get? w = some r) (key : String) :
    s.latest? w key = s.entryAt? r key := by
  rw [latest?, h]
  rfl

/-- What becomes of the entries of a worker. -/
theorem latest?_modifyHolder {s : Store P} {w : String} {r : Ref} (h : s.workerData.get? w = some r)
    (f : LatestMitmDataHolder P → LatestMitmDataHolder P) (key : String) :
    (s.modifyHolder r f).latest? w key = (f (s.heap r).latestDataHolder).get? key := by
  rw [latest?_of_get? (show (s.modifyHolder r f).workerData.get? w = some r from h), entryAt?_modifyHolder, if_pos rfl]

/-- Fields besides the entries. -/
theorem entryAt?_modify {s : Store P} {r : Ref} {f : PlayerData P → PlayerData P}
    (hf : ∀ p, (f p).latestDataHolder = p.latestDataHolder) (r' : Ref) (key : String) :
    (s.modify r f).entryAt? r' key = s.entryAt? r' key := by
  unfold entryAt?
  rw [modify_heap]
  split
  · rw [hf]
  · rfl

/-- The references in the dictionary are their worker's, and the next ones are new. -/
def WellFormed (s : Store P) : Prop :=
  ∀ w r, s.workerData.get? w = some r → r.worker = w ∧ r.made < s.next

theorem WellFormed.empty : WellFormed (Store.empty : Store P) := by
  intro w r hr
  cases hr

theorem WellFormed.modify {s : Store P} (h : s.WellFormed) (r : Ref) (f : PlayerData P → PlayerData P) :
    (s.modify r f).WellFormed := h

theorem WellFormed.create {s : Store P} (h : s.WellFormed) (w : String) : (s.create w).WellFormed := by
  intro v r hr
  by_cases hv : v = w
  · subst hv
    rw [create_get?_self] at hr
    cases hr
    exact ⟨rfl, Nat.lt_succ_self _⟩
  · rw [create_get?_of_ne s hv] at hr
    obtain ⟨hworker, hmade⟩ := h v r hr
    exact ⟨hworker, Nat.lt_succ_of_lt hmade⟩

/-- What is there stays as it is where an object is made. -/
theorem WellFormed.create_heap {s : Store P} (h : s.WellFormed) {v : String} {r : Ref}
    (hr : s.workerData.get? v = some r) (w : String) : (s.create w).heap r = s.heap r := by
  apply Function.update_of_ne
  rintro rfl
  exact Nat.lt_irrefl _ (h v _ hr).2

/-- New data of a worker that has none are as if there were none. -/
theorem WellFormed.player_create {s : Store P} (h : s.WellFormed) {v w : String}
    (hnone : v = w → s.workerData.get? w = none) : (s.create v).handler.player w = s.handler.player w := by
  by_cases hv : v = w
  · subst hv
    rw [player_of_get? (s.create_get?_self v), player_of_none (hnone rfl)]
    exact Function.update_self ..
  · rw [player_handler, player_handler, create_get?_of_ne s (Ne.symm hv)]
    cases hr : s.workerData.get? w with
    | none => rfl
    | some r => exact h.create_heap hr v

/-- An assignment to the data of a worker. -/
theorem WellFormed.player_modify {s : Store P} (h : s.WellFormed) {w : String} {r : Ref}
    (hr : s.workerData.get? w = some r) (f : PlayerData P → PlayerData P) (v : String) :
    (s.modify r f).handler.player v = if v = w then f (s.handler.player v) else s.handler.player v := by
  split
  · next hv =>
    subst hv
    rw [player_of_get? (show (s.modify r f).workerData.get? v = some r from hr), player_of_get? hr, modify_heap_self]
  · next hv =>
    rw [player_handler, player_handler]
    show ((s.workerData.get? v).map (s.modify r f).heap).getD .new = _
    cases hr' : s.workerData.get? v with
    | none => rfl
    | some r' =>
      apply s.modify_heap_of_ne f
      rintro rfl
      exact hv ((h v r' hr').1.symm.trans (h w r' hr).1)

end Store

/-! ## The threads -/

/-- The access of `update_latest` that comes next. The thread has the object it found, and in
`latest` the entry it compared its update with. -/
inductive Place (P : Type) where
  /-- `if worker not in self.__worker_data`. -/
  | check
  | create
  /-- `return self.__worker_data[worker]`. -/
  | find
  /-- `latest_entry = self.__entries.get(key)`. -/
  | compare (r : Ref)
  /-- `if key in self.__entries`. -/
  | contains (r : Ref) (latest : Option (LatestMitmDataEntry P))
  | delete (r : Ref) (latest : Option (LatestMitmDataEntry P))
  | write (r : Ref) (latest : Option (LatestMitmDataEntry P))
  /-- `__parse_gmo_for_location`, with the look at the last cell ids. -/
  | parse (r : Ref)
  | setCellIds (r : Ref) (ids : List Int)
  | setMoved (r : Ref)
  | setLocation (r : Ref)
  /-- `self._injected = True`. -/
  | setInjected (r : Ref)
  /-- It has returned, or raised. -/
  | ended

namespace Place

/-- The object the thread has found. -/
def ref? : Place P → Option Ref
  | check | create | find | ended => none
  | compare r | contains r _ | delete r _ | write r _ | parse r | setCellIds r _ | setMoved r | setLocation r
  | setInjected r => some r

def creates : Place P → Bool
  | create => true
  | _ => false

def compares : Place P → Bool
  | compare _ => true
  | _ => false

/-- The update has been compared, and is not written yet. -/
def writing : Place P → Bool
  | contains _ _ | delete _ _ | write _ _ => true
  | _ => false

/-- After the holder; only a GMO is parsed. -/
def afterHolder (u : Update P) (r : Ref) : Place P := if u.key = gmoKey then .parse r else .ended

/-- After the cell ids; the location is set if there is one. -/
def afterMove (u : Update P) (r : Ref) : Place P := if u.location.isSome then .setLocation r else .setInjected r

/-- One access to the store, and the place after it. Both timestamps are given, so the clock is not read. -/
def goOn (rd : PayloadReader P) (s : Store P) (u : Update P) : Place P → Place P × Store P
  | check => (if (s.workerData.get? u.worker).isNone then .create else .find, s)
  | create => (.find, s.create u.worker)
  | find => ((s.workerData.get? u.worker).elim .ended .compare, s)
  | compare r =>
    if ignoresUpdate (s.entryAt? r u.key) (u.receiver 0) then (afterHolder u r, s)
    else (.contains r (s.entryAt? r u.key), s)
  | contains r latest => (if (s.entryAt? r u.key).isSome then .delete r latest else .write r latest, s)
  -- it raises if the entry is not there any more
  | delete r latest =>
    if (s.entryAt? r u.key).isSome then (.write r latest, s.modifyHolder r (·.erase u.key)) else (.ended, s)
  | write r _ => (afterHolder u r, s.modifyHolder r (·.insert u.key (u.entry 0)))
  | parse r =>
    match rd.cells u.value with
    | none => (.ended, s)
    | some ids =>
      if ids = [] then (.setInjected r, s)
      else if ids.toFinset ∩ (s.heap r).lastCellIds.toFinset = ∅ then (.setCellIds r ids, s)
      else (afterMove u r, s)
  | setCellIds r ids => (.setMoved r, s.modify r fun p => { p with lastCellIds := ids })
  | setMoved r => (afterMove u r, s.modify r fun p => { p with lastPossiblyMoved := u.raw 0 })
  | setLocation r => (.setInjected r, s.modify r fun p => { p with lastKnownLocation := u.location })
  | setInjected r => (.ended, s.modify r fun p => { p with injected := true })
  | ended => (.ended, s)

/-- The access makes the update: it writes the entry, or finds that the update is older than the one there is. -/
def makes (s : Store P) (u : Update P) : Place P → Bool
  | compare r => ignoresUpdate (s.entryAt? r u.key) (u.receiver 0)
  | write _ _ => true
  | _ => false

variable {rd : PayloadReader P} {s : Store P} {u : Update P} {place : Place P} {r : Ref} {key : String}

/-! ### What an access does -/

/-- It makes an object, or assigns to the one that was found, but not to the level or the visits. -/
theorem goOn_store (rd : PayloadReader P) (s : Store P) (u : Update P) (place : Place P) :
    (place.goOn rd s u).2 = s ∨ (place.creates = true ∧ (place.goOn rd s u).2 = s.create u.worker) ∨
      ∃ r f, place.ref? = some r ∧ (place.goOn rd s u).2 = s.modify r f ∧
        ∀ p, (f p).level = p.level ∧ (f p).pokeStopVisits = p.pokeStopVisits := by
  have hassigns : ∀ {t : Store P} {r : Ref} (f : PlayerData P → PlayerData P), place.ref? = some r →
      t = s.modify r f → (∀ p, (f p).level = p.level ∧ (f p).pokeStopVisits = p.pokeStopVisits) →
      t = s ∨ (place.creates = true ∧ t = s.create u.worker) ∨ ∃ r f, place.ref? = some r ∧ t = s.modify r f ∧
        ∀ p, (f p).level = p.level ∧ (f p).pokeStopVisits = p.pokeStopVisits :=
    fun f hr ht hf => .inr (.inr ⟨_, f, hr, ht, hf⟩)
  -- what raises or only reads leaves the store as it is
  cases place with
  | create => exact .inr (.inl ⟨rfl, rfl⟩)
  | check | find | contains r latest | ended => exact .inl rfl
  | compare r =>
    simp only [goOn]
    split <;> exact .inl rfl
  | delete r latest =>
    simp only [goOn]
    split
    · exact hassigns (fun p => { p with latestDataHolder := p.latestDataHolder.erase u.key }) rfl rfl
        fun _ => ⟨rfl, rfl⟩
    · exact .inl rfl
  | parse r =>
    simp only [goOn]
    split
    · exact .inl rfl
    split
    · exact .inl rfl
    split <;> exact .inl rfl
  | write r latest =>
    exact hassigns (fun p => { p with latestDataHolder := p.latestDataHolder.insert u.key (u.entry 0) }) rfl rfl
      fun _ => ⟨rfl, rfl⟩
  | setCellIds r ids => exact hassigns (fun p => { p with lastCellIds := ids }) rfl rfl fun _ => ⟨rfl, rfl⟩
  | setMoved r => exact hassigns (fun p => { p with lastPossiblyMoved := u.raw 0 }) rfl rfl fun _ => ⟨rfl, rfl⟩
  | setLocation r => exact hassigns (fun p => { p with lastKnownLocation := u.location }) rfl rfl fun _ => ⟨rfl, rfl⟩
  | setInjected r => exact hassigns (fun p => { p with injected := true }) rfl rfl fun _ => ⟨rfl, rfl⟩

theorem afterHolder_ref? {r r' : Ref} (h : (afterHolder u r).ref? = some r') : r = r' := by
  unfold afterHolder at h
  split at h
  · exact Option.some.inj h
  · cases h

theorem afterMove_ref? {r r' : Ref} (h : (afterMove u r).ref? = some r') : r = r' := by
  unfold afterMove at h
  split at h <;> exact Option.some.inj h

/-- The thread keeps the object it has found, and finds the one in the dictionary. -/
theorem goOn_ref? (hr : (place.goOn rd s u).1.ref? = some r) :
    place.ref? = some r ∨ s.workerData.get? u.worker = some r := by
  cases place with
  | check =>
    simp only [goOn] at hr
    split at hr <;> cases hr
  | create | ended | setInjected r' => cases hr
  | find =>
    simp only [goOn] at hr
    cases hdata : s.workerData.get? u.worker with
    | none =>
      rw [hdata] at hr
      cases hr
    | some r' =>
      rw [hdata] at hr
      exact .inr hr
  | compare r' =>
    simp only [goOn] at hr
    split at hr
    · exact .inl (congrArg some (afterHolder_ref? hr))
    · exact .inl hr
  | contains r' latest =>
    simp only [goOn] at hr
    split at hr <;> exact .inl hr
  | delete r' latest =>
    simp only [goOn] at hr
    split at hr
    · exact .inl hr
    · cases hr
  | write r' latest => exact .inl (congrArg some (afterHolder_ref? hr))
  | parse r' =>
    simp only [goOn] at hr
    split at hr
    · cases hr
    split at hr
    · exact .inl hr
    split at hr
    · exact .inl hr
    · exact .inl (congrArg some (afterMove_ref? hr))
  | setMoved r' => exact .inl (congrArg some (afterMove_ref? hr))
  | setCellIds r' ids | setLocation r' => exact .inl hr

/-- An entry is the one there was, or that of the update. -/
theorem entryAt?_goOn {e : LatestMitmDataEntry P} (h : (place.goOn rd s u).2.entryAt? r key = some e) :
    s.entryAt? r key = some e ∨ place.ref? = some r ∧ key = u.key ∧ e = u.entry 0 := by
  cases place with
  | check | find | contains r' latest | ended => exact .inl h
  | create =>
    rw [show ((create : Place P).goOn rd s u).2 = s.create u.worker from rfl, Store.entryAt?_create] at h
    split at h
    · cases h
    · exact .inl h
  | compare r' =>
    simp only [goOn] at h
    split at h <;> exact .inl h
  | delete r' latest =>
    simp only [goOn] at h
    split at h
    · rw [Store.entryAt?_modifyHolder] at h
      split at h
      · rw [Dict.get?_erase] at h
        split at h
        · cases h
        · exact .inl h
      · exact .inl h
    · exact .inl h
  | write r' latest =>
    simp only [goOn] at h
    rw [Store.entryAt?_modifyHolder] at h
    split at h
    · next hr =>
      subst hr
      rw [Dict.get?_insert] at h
      split at h
      · next hkey =>
        cases h
        exact .inr ⟨rfl, hkey, rfl⟩
      · exact .inl h
    · exact .inl h
  | parse r' =>
    simp only [goOn] at h
    split at h
    · exact .inl h
    split at h
    · exact .inl h
    split at h <;> exact .inl h
  | setCellIds r' ids =>
    exact .inl ((Store.entryAt?_modify (f := fun p => { p with lastCellIds := ids })
      (fun _ => rfl) r key).symm.trans h)
  | setMoved r' =>
    exact .inl ((Store.entryAt?_modify (f := fun p => { p with lastPossiblyMoved := u.raw 0 })
      (fun _ => rfl) r key).symm.trans h)
  | setLocation r' =>
    exact .inl ((Store.entryAt?_modify (f := fun p => { p with lastKnownLocation := u.location })
      (fun _ => rfl) r key).symm.trans h)
  | setInjected r' =>
    exact .inl ((Store.entryAt?_modify (f := fun p => { p with injected := true })
      (fun _ => rfl) r key).symm.trans h)

/-- Only a thread that writes the key of the object changes the entry. -/
theorem entryAt?_goOn_of_not (hmade : r.made < s.next)
    (h : place.writing = true → place.ref? = some r → key ≠ u.key) :
    (place.goOn rd s u).2.entryAt? r key = s.entryAt? r key := by
  cases place with
  | check | find | contains r' latest | ended => rfl
  | create =>
    rw [show ((create : Place P).goOn rd s u).2 = s.create u.worker from rfl, Store.entryAt?_create, if_neg]
    rintro rfl
    exact Nat.lt_irrefl _ hmade
  | compare r' =>
    simp only [goOn]
    split <;> rfl
  | delete r' latest =>
    simp only [goOn]
    split
    · rw [Store.entryAt?_modifyHolder]
      split
      · next hr =>
        rw [Dict.get?_erase, if_neg (h rfl (congrArg some hr.symm))]
        rfl
      · rfl
    · rfl
  | write r' latest =>
    simp only [goOn]
    rw [Store.entryAt?_modifyHolder]
    split
    · next hr =>
      rw [Dict.get?_insert, if_neg (h rfl (congrArg some hr.symm))]
      rfl
    · rfl
  | parse r' =>
    simp only [goOn]
    split
    · rfl
    split
    · rfl
    split <;> rfl
  | setCellIds r' ids =>
    exact Store.entryAt?_modify (f := fun p => { p with lastCellIds := ids }) (fun _ => rfl) r key
  | setMoved r' =>
    exact Store.entryAt?_modify (f := fun p => { p with lastPossiblyMoved := u.raw 0 }) (fun _ => rfl) r key
  | setLocation r' =>
    exact Store.entryAt?_modify (f := fun p => { p with lastKnownLocation := u.location }) (fun _ => rfl) r key
  | setInjected r' =>
    exact Store.entryAt?_modify (f := fun p => { p with injected := true }) (fun _ => rfl) r key

/-! ### A thread alone -/

/-- A thread that nothing comes in between goes on until it has ended. -/
inductive Alone (rd : PayloadReader P) (u : Update P) : Place P → Store P → Store P → Prop where
  | ended (s : Store P) : Alone rd u .ended s s
  | goOn {place : Place P} {s t : Store P} (h : Alone rd u (place.goOn rd s u).1 (place.goOn rd s u).2 t) :
      Alone rd u place s t

theorem alone_setInjected (s : Store P) (r : Ref) :
    Alone rd u (.setInjected r) s (s.modify r fun p => { p with injected := true }) := .goOn (.ended _)

theorem alone_afterMove (s : Store P) (r : Ref) : Alone rd u (afterMove u r) s
    (s.modify r fun p => { p with lastKnownLocation := u.location <|> p.lastKnownLocation, injected := true }) := by
  unfold afterMove
  split
  · next hsome =>
    obtain ⟨l, hl⟩ := Option.isSome_iff_exists.mp hsome
    have hset : Alone rd u (.setInjected r) (s.modify r fun p => { p with lastKnownLocation := u.location })
        ((s.modify r fun p => { p with lastKnownLocation := u.location }).modify r
          fun p => { p with injected := true }) := alone_setInjected _ r
    rw [Store.modify_modify] at hset
    have hassigned : (s.modify r fun p => { p with lastKnownLocation := u.location, injected := true }) =
        s.modify r fun p => { p with lastKnownLocation := u.location <|> p.lastKnownLocation, injected := true } :=
      Store.modify_congr (by simp [hl])
    rw [← hassigned]
    exact .goOn hset
  · next hnone =>
    rw [Option.not_isSome_iff_eq_none.mp hnone]
    exact alone_setInjected s r

/-- A GMO is parsed, unless its cells cannot be read. -/
theorem alone_parse (s : Store P) (r : Ref) : Alone rd u (.parse r) s (s.modify r fun p =>
    (rd.cells u.value).elim p fun ids => { p.parseGmoForLocation ids (u.raw 0) u.location with injected := true }) := by
  refine .goOn ?_
  simp only [goOn]
  cases hcells : rd.cells u.value with
  | none =>
    rw [Store.modify_eq_self rfl]
    exact .ended s
  | some ids =>
    by_cases hids : ids = []
    · simp only [hids, if_true, PlayerData.parseGmoForLocation, Option.elim_some]
      exact alone_setInjected s r
    simp only [if_neg hids, Option.elim_some]
    by_cases hmoved : ids.toFinset ∩ (s.heap r).lastCellIds.toFinset = ∅
    · have hassigned : (s.modify r fun p => { p with lastCellIds := ids }).modify r
          (fun p => { p with lastPossiblyMoved := u.raw 0 }) =
          s.modify r fun p => { p with lastCellIds := ids, lastPossiblyMoved := u.raw 0 } := Store.modify_modify ..
      have hparsed : (s.modify r fun p =>
          { p.parseGmoForLocation ids (u.raw 0) u.location with injected := true }) =
          (s.modify r fun p => { p with lastCellIds := ids, lastPossiblyMoved := u.raw 0 }).modify r fun p =>
            { p with lastKnownLocation := u.location <|> p.lastKnownLocation, injected := true } := by
        rw [Store.modify_modify]
        apply Store.modify_congr
        simp only [PlayerData.parseGmoForLocation, if_neg hids, if_pos hmoved]
        cases u.location <;> rfl
      rw [hparsed, if_pos hmoved]
      refine .goOn (.goOn ?_)
      simp only [goOn, hassigned]
      exact alone_afterMove _ r
    · have hparsed : (s.modify r fun p =>
          { p.parseGmoForLocation ids (u.raw 0) u.location with injected := true }) =
          s.modify r fun p =>
            { p with lastKnownLocation := u.location <|> p.lastKnownLocation, injected := true } := by
        apply Store.modify_congr
        simp only [PlayerData.parseGmoForLocation, if_neg hids, if_neg hmoved]
        cases u.location <;> rfl
      rw [hparsed, if_neg hmoved]
      exact alone_afterMove s r

theorem alone_afterHolder (s : Store P) (r : Ref) : Alone rd u (afterHolder u r) s (s.modify r fun p =>
    if u.key = gmoKey then
      (rd.cells u.value).elim p fun ids => { p.parseGmoForLocation ids (u.raw 0) u.location with injected := true }
    else p) := by
  unfold afterHolder
  by_cases hkey : u.key = gmoKey
  · simp only [if_pos hkey]
    exact alone_parse s r
  · simp only [if_neg hkey]
    rw [Store.modify_eq_self rfl]
    exact .ended s

/-- `update_latest` updates the holder, and parses a GMO then. -/
theorem modify_updateLatest {held : LatestMitmDataHolder P}
    (h : LatestMitmDataHolder.update (s.heap r).latestDataHolder u.key u.value (u.raw 0) (u.receiver 0) u.location =
      held) :
    (s.modify r fun p => p.updateLatest rd u.key u.value (u.raw 0) (u.receiver 0) u.location) =
      (s.modifyHolder r fun _ => held).modify r fun p =>
        if u.key = gmoKey then (rd.cells u.value).elim p fun ids =>
          { p.parseGmoForLocation ids (u.raw 0) u.location with injected := true }
        else p := by
  subst h
  rw [Store.modifyHolder, Store.modify_modify]
  apply Store.modify_congr
  unfold PlayerData.updateLatest
  cases rd.cells u.value <;> rfl

theorem alone_compare (s : Store P) (r : Ref) : Alone rd u (.compare r) s
    (s.modify r fun p => p.updateLatest rd u.key u.value (u.raw 0) (u.receiver 0) u.location) := by
  refine .goOn ?_
  by_cases hignored : ignoresUpdate (s.entryAt? r u.key) (u.receiver 0) = true
  · have hkept : (s.modifyHolder r fun _ => (s.heap r).latestDataHolder) = s := Store.modify_eq_self rfl
    rw [modify_updateLatest (if_pos hignored), hkept]
    simp only [goOn, if_pos hignored]
    exact alone_afterHolder s r
  rw [modify_updateLatest (if_neg hignored)]
  simp only [goOn, if_neg hignored]
  -- the entry is deleted if there is one, and written
  refine .goOn ?_
  by_cases hthere : (s.entryAt? r u.key).isSome = true
  · have hwritten : (s.modifyHolder r (·.erase u.key)).modifyHolder r (·.insert u.key (u.entry 0)) =
        s.modifyHolder r fun _ => ((s.heap r).latestDataHolder.erase u.key).insert u.key (u.entry 0) :=
      (Store.modify_modify ..).trans (Store.modify_congr rfl)
    simp only [goOn, if_pos hthere]
    refine .goOn ?_
    simp only [goOn, if_pos hthere]
    refine .goOn ?_
    simp only [goOn, hwritten]
    exact alone_afterHolder _ r
  · have hnone : u.key ∉ (s.heap r).latestDataHolder.keys := fun hkey => hthere (Dict.isSome_get?_iff.mpr hkey)
    simp only [goOn, if_neg hthere]
    refine .goOn ?_
    rw [Dict.erase_of_notMem hnone]
    exact alone_afterHolder _ r

/-- A thread alone leaves the data that `updateLatest` gives. -/
theorem player_alone (hs : s.WellFormed) : ∃ t, Alone rd u .check s t ∧
    ∀ w, t.handler.player w = (s.handler.updateLatest rd 0 u).player w := by
  have hupdated : ∀ {s : Store P} {r : Ref}, s.WellFormed → s.workerData.get? u.worker = some r → ∀ w,
      (s.modify r fun p => p.updateLatest rd u.key u.value (u.raw 0) (u.receiver 0) u.location).handler.player w =
        (s.handler.updateLatest rd 0 u).player w := by
    intro s r hs hr w
    rw [hs.player_modify hr, MitmDataHandler.updateLatest, MitmDataHandler.player_setPlayer]
    split
    · next hw => rw [hw]
    · rfl
  cases hdata : s.workerData.get? u.worker with
  | some r =>
    refine ⟨_, .goOn ?_, hupdated hs hdata⟩
    simp only [goOn, hdata, Option.isNone_some, Bool.false_eq_true, if_false]
    refine .goOn ?_
    simp only [goOn, hdata, Option.elim_some]
    exact alone_compare s r
  | none =>
    refine ⟨_, .goOn ?_, fun w => (hupdated (hs.create u.worker) (s.create_get?_self _) w).trans ?_⟩
    · simp only [goOn, hdata, Option.isNone_none, if_true]
      refine .goOn (.goOn ?_)
      simp only [goOn, Store.create_get?_self, Option.elim_some]
      exact alone_compare _ _
    · have hcreated : ∀ v, (s.create u.worker).handler.player v = s.handler.player v := fun v =>
        hs.player_create fun hv => hv ▸ hdata
      simp only [MitmDataHandler.updateLatest, MitmDataHandler.player_setPlayer, hcreated]

end Place

end MapADroid.Mitm.Grpc
