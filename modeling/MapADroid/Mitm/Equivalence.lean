import MapADroid.Mitm.MitmDataHandler
import MapADroid.Lib.Run

/- The two stores side by side: the same operations on `RedisMitmMapper` and on
   `MitmDataHandler`.

   They differ on GMOs. The store in memory looks at the cells of a GMO also if the entry
   is ignored as older than the one it has, and takes a worker to have moved only if no
   cell is left of those before, Redis as soon as the cells are not the same. Redis
   cannot give a time back as a number if it was a float (`moved_differs`).

   While no GMO is ignored and the cells of each are those before or none of them
   (`Agreeable`), the stores simulate each other (`Agree`) and answer alike
   (`same_answers`). -/
namespace MapADroid.Mitm
open Lib

variable {P : Type}

/-- A call of an operation; `update_latest` with both timestamps given. -/
inductive Operation (P : Type) where
  | updateLatest (worker key : String) (value : P) (raw receiver : Timestamp) (location : Option (Location ℚ))
  | setLevel (worker : String) (level : Int)
  | setPokestopVisits (worker : String) (visits : Int)
  | setQuestsHeld (worker : String) (quests : Option (List Int))
  | setInjectionStatus (worker : String) (status : Bool)

/-- An operation on the store in Redis; the clock is not read. -/
def Redis.apply (rd : PayloadReader P) (s : Redis P) : Operation P → Redis P
  | .updateLatest worker key value raw receiver location =>
    s.updateLatest rd 0 ⟨worker, key, value, some raw, some receiver, location⟩
  | .setLevel worker level => s.setLevel worker level
  | .setPokestopVisits worker visits => s.setPokestopVisits worker visits
  | .setQuestsHeld worker quests => s.setQuestsHeld worker quests
  | .setInjectionStatus worker status => s.setInjectionStatus worker status

/-- An operation on the store in memory; the clock is not read. -/
def MitmDataHandler.apply (rd : PayloadReader P) (m : MitmDataHandler P) : Operation P → MitmDataHandler P
  | .updateLatest worker key value raw receiver location =>
    m.updateLatest rd 0 ⟨worker, key, value, some raw, some receiver, location⟩
  | .setLevel worker level => m.setLevel worker level
  | .setPokestopVisits worker visits => m.setPokestopVisits worker visits
  | .setQuestsHeld worker quests => m.setQuestsHeld worker quests
  | .setInjectionStatus worker status => m.setInjectionStatus worker status

/-- Both stores, each given the same operations. -/
abbrev Stores (P : Type) := Redis P × MitmDataHandler P

def Stores.step (rd : PayloadReader P) (p : Stores P) (op : Operation P) : Option (Stores P) :=
  some (p.1.apply rd op, p.2.apply rd op)

/-- The stores give the same answers; `get_level` at any time. -/
structure SameAnswers (p : Stores P) : Prop where
  latest : ∀ worker key earliest, p.1.requestLatest worker key earliest = p.2.requestLatest worker key earliest
  moved : ∀ worker, (p.1.getLastPossiblyMoved worker).map Timestamp.int = some (p.2.getLastPossiblyMoved worker)
  location : ∀ worker, p.1.getLastKnownLocation worker = p.2.getLastKnownLocation worker
  level : ∀ now worker, (p.1.getLevel now worker).1 = p.2.getLevel worker
  injected : ∀ worker, p.1.getInjectionStatus worker = p.2.getInjectionStatus worker

/-- A GMO with these cells is not ignored as older than the stored one, and its cells are those
before or none of them; where they are others, its raw timestamp is an integer. -/
def AgreeableGmo (s : Redis P) (worker key : String) (ids : List Int) (raw receiver : Timestamp) : Prop :=
  ignoresUpdate (s.requestLatest worker key none) receiver = false ∧
    (ids = [] ∨ ids.toFinset = (s.cellIds worker).toFinset ∨
      ids.toFinset ∩ (s.cellIds worker).toFinset = ∅ ∧ raw = .int raw.toInt)

instance (s : Redis P) (worker key : String) (ids : List Int) (raw receiver : Timestamp) :
    Decidable (AgreeableGmo s worker key ids raw receiver) :=
  inferInstanceAs (Decidable (_ ∧ (_ ∨ _ ∨ _ ∧ _)))

/-- No condition but on GMOs whose cells can be read. -/
def Agreeable (rd : PayloadReader P) (p : Stores P) : Operation P → Prop
  | .updateLatest worker key value raw receiver _ =>
    key = gmoKey → ∀ ids ∈ rd.cells value, AgreeableGmo p.1 worker key ids raw receiver
  | .setLevel _ _ | .setPokestopVisits _ _ | .setQuestsHeld _ _ | .setInjectionStatus _ _ => True

instance (rd : PayloadReader P) (p : Stores P) : (op : Operation P) → Decidable (Agreeable rd p op)
  | .updateLatest worker key value raw receiver _ =>
    inferInstanceAs (Decidable
      (key = gmoKey → ∀ ids ∈ rd.cells value, AgreeableGmo p.1 worker key ids raw receiver))
  | .setLevel _ _ | .setPokestopVisits _ _ | .setQuestsHeld _ _ | .setInjectionStatus _ _ => isTrue trivial

/-! ## What a store has of a worker -/

/-- What both stores keep of a worker to answer the requests. -/
@[ext]
structure WorkerData (P : Type) where
  latest : String → Option (LatestMitmDataEntry P)
  moved : Timestamp
  location : Option (Location ℚ)
  cells : List Int
  injected : Bool
  level : Int

def Redis.data (s : Redis P) (w : String) : WorkerData P where
  latest key := s.latestData.get? (w, key)
  moved := (s.lastPossiblyMoved.get? w).getD (.int 0)
  location := s.lastKnownLocation.get? w
  cells := s.cellIds w
  injected := s.getInjectionStatus w
  level := (s.level.get? w).getD 0

def PlayerData.data (p : PlayerData P) : WorkerData P where
  latest key := p.latestDataHolder.get? key
  moved := p.lastPossiblyMoved
  location := p.lastKnownLocation
  cells := p.lastCellIds
  injected := p.injected
  level := p.level

/-- The data with the location of a GMO. -/
def WorkerData.located (d : WorkerData P) (location : Option (Location ℚ)) : WorkerData P :=
  { d with location := location.or d.location }

/-- `update_latest` of a store that ignores an old GMO if `skips`, and takes the worker to have
moved if `moves` says so of the cells of the GMO and of those before. -/
def WorkerData.update (rd : PayloadReader P) (skips : Bool) (moves : List Int → List Int → Bool)
    (d : WorkerData P) (key : String) (value : P) (raw receiver : Timestamp)
    (location : Option (Location ℚ)) : WorkerData P :=
  let ignored := ignoresUpdate (d.latest key) receiver
  let stored := if ignored then d
    else { d with latest := Function.update d.latest key (some ⟨location, raw, receiver, value⟩) }
  if key = gmoKey then
    match rd.cells value with
    | none => stored
    | some ids =>
      if ignored && skips then stored
      else if ids = [] then { stored with injected := true }
      else if moves ids d.cells then
        { stored.located location with cells := ids, moved := raw, injected := true }
      else { stored.located location with injected := true }
  else stored

/-- What an operation does to the data of its worker. -/
def WorkerData.apply (rd : PayloadReader P) (skips : Bool) (moves : List Int → List Int → Bool)
    (d : WorkerData P) : Operation P → WorkerData P
  | .updateLatest _ key value raw receiver location =>
    d.update rd skips moves key value raw receiver location
  | .setLevel _ level => { d with level := level }
  | .setInjectionStatus _ status => { d with injected := status }
  | .setPokestopVisits _ _ | .setQuestsHeld _ _ => d

def Operation.worker : Operation P → String
  | .updateLatest worker _ _ _ _ _ | .setLevel worker _ | .setPokestopVisits worker _
  | .setQuestsHeld worker _ | .setInjectionStatus worker _ => worker

/-- Cells that are not those before. -/
def otherCells (ids last : List Int) : Bool := ids.toFinset ≠ last.toFinset

/-- Cells none of which was there before. -/
def newCells (ids last : List Int) : Bool := ids.toFinset ∩ last.toFinset = ∅

/-! ### Commands -/

theorem data_setLatest (s : Redis P) (worker key : String) (e : LatestMitmDataEntry P) (w : String) :
    (s.setLatest worker key e).data w =
      if w = worker then { s.data w with latest := Function.update (s.data w).latest key (some e) }
      else s.data w := by
  split
  · next h =>
    subst h
    refine WorkerData.ext ?_ rfl rfl rfl rfl rfl
    funext k
    simp [Redis.data, Redis.setLatest, Dict.get?_insert, Function.update_apply]
  · next h =>
    refine WorkerData.ext ?_ rfl rfl rfl rfl rfl
    funext k
    simp [Redis.data, Redis.setLatest, Dict.get?_insert, h]

theorem data_setCellIds (s : Redis P) (worker : String) (ids : List Int) (w : String) :
    (s.setCellIds worker ids).data w =
      if w = worker then { s.data w with cells := ids } else s.data w := by
  have hcells : (s.setCellIds worker ids).cellIds w = if w = worker then ids else s.cellIds w :=
    Dict.getD_get?_insert _ _ _ _ _
  split
  · next h => exact WorkerData.ext rfl rfl rfl (hcells.trans (if_pos h)) rfl rfl
  · next h => exact WorkerData.ext rfl rfl rfl (hcells.trans (if_neg h)) rfl rfl

theorem data_setMoved (s : Redis P) (worker : String) (timestamp : Timestamp) (w : String) :
    (s.setMoved worker timestamp).data w =
      if w = worker then { s.data w with moved := timestamp } else s.data w := by
  have hmoved : ((s.setMoved worker timestamp).data w).moved =
      if w = worker then timestamp else (s.data w).moved := Dict.getD_get?_insert _ _ _ _ _
  split
  · next h => exact WorkerData.ext rfl (hmoved.trans (if_pos h)) rfl rfl rfl rfl
  · next h => exact WorkerData.ext rfl (hmoved.trans (if_neg h)) rfl rfl rfl rfl

theorem data_setLocation (s : Redis P) (worker : String) (l : Location ℚ) (w : String) :
    (s.setLocation worker l).data w =
      if w = worker then { s.data w with location := some l } else s.data w := by
  have hlocation : ((s.setLocation worker l).data w).location =
      if w = worker then some l else (s.data w).location := Dict.get?_insert _ _ _ _
  split
  · next h => exact WorkerData.ext rfl rfl (hlocation.trans (if_pos h)) rfl rfl rfl
  · next h => exact WorkerData.ext rfl rfl (hlocation.trans (if_neg h)) rfl rfl rfl

theorem data_setInjectionStatus (s : Redis P) (worker : String) (status : Bool) (w : String) :
    (s.setInjectionStatus worker status).data w =
      if w = worker then { s.data w with injected := status } else s.data w := by
  have hinjected : (s.setInjectionStatus worker status).getInjectionStatus w =
      if w = worker then status else s.getInjectionStatus w := Dict.getD_get?_insert _ _ _ _ _
  split
  · next h => exact WorkerData.ext rfl rfl rfl rfl (hinjected.trans (if_pos h)) rfl
  · next h => exact WorkerData.ext rfl rfl rfl rfl (hinjected.trans (if_neg h)) rfl

theorem data_setLevel (s : Redis P) (worker : String) (level : Int) (w : String) :
    (s.setLevel worker level).data w =
      if w = worker then { s.data w with level := level } else s.data w := by
  have hlevel : ((s.setLevel worker level).data w).level =
      if w = worker then level else (s.data w).level := Dict.getD_get?_insert _ _ _ _ _
  split
  · next h => exact WorkerData.ext rfl rfl rfl rfl rfl (hlevel.trans (if_pos h))
  · next h => exact WorkerData.ext rfl rfl rfl rfl rfl (hlevel.trans (if_neg h))

theorem data_locate (s : Redis P) (worker : String) (location : Option (Location ℚ)) (w : String) :
    (s.locate worker location).data w =
      if w = worker then (s.data w).located location else s.data w := by
  cases location with
  | none => exact (ite_self _).symm
  | some l => exact data_setLocation s worker l w

/-! ### Operations -/

theorem data_parseGmoForLocation (s : Redis P) (worker : String) {ids : List Int} (hids : ids ≠ [])
    (timestamp : Timestamp) (location : Option (Location ℚ)) (w : String) :
    (s.parseGmoForLocation worker ids timestamp location).data w =
      if w = worker then
        if otherCells ids (s.data w).cells then
          { (s.data w).located location with cells := ids, moved := timestamp }
        else (s.data w).located location
      else s.data w := by
  have hmoved : (if ids.toFinset ≠ (s.cellIds worker).toFinset then
      (s.setCellIds worker ids).setMoved worker timestamp else s).data w =
        if w = worker then
          if otherCells ids (s.data w).cells then { s.data w with cells := ids, moved := timestamp }
          else s.data w
        else s.data w := by
    by_cases h : w = worker
    · subst h
      by_cases hne : ids.toFinset ≠ (s.cellIds w).toFinset
      · have hother : otherCells ids (s.data w).cells = true := decide_eq_true hne
        simp only [if_pos hne, hother, data_setMoved, data_setCellIds, if_true]
      · have hother : otherCells ids (s.data w).cells = false := decide_eq_false hne
        simp only [if_neg hne, hother, if_true, Bool.false_eq_true, if_false]
    · rw [if_neg h]
      split
      · simp only [data_setMoved, data_setCellIds, if_neg h]
      · rfl
  rw [Redis.parseGmoForLocation, if_neg hids, data_locate]
  by_cases h : w = worker
  · simp only [if_pos h, hmoved]
    split
    · rfl
    · rfl
  · simp only [if_neg h, hmoved]

theorem data_updateLatest (rd : PayloadReader P) (s : Redis P) (time : Int) (u : Update P) (w : String) :
    (s.updateLatest rd time u).data w =
      if w = u.worker then
        (s.data w).update rd true otherCells u.key u.value (u.raw time) (u.receiver time) u.location
      else s.data w := by
  obtain ⟨worker, key, value, raw, receiver, location⟩ := u
  rw [Redis.updateLatest, WorkerData.update]
  by_cases h : w = worker
  · subst h
    have hlatest : s.requestLatest w key none = (s.data w).latest key := answersRequest_none _
    simp only [hlatest, if_true]
    cases hig : ignoresUpdate ((s.data w).latest key) (Update.receiver _ time) with
    | true =>
      simp only [if_true, Bool.and_self]
      split
      · cases rd.cells value <;> rfl
      · rfl
    | false =>
      simp only [Bool.false_eq_true, if_false, Bool.false_and]
      split
      · cases rd.cells value with
        | none => exact (data_setLatest _ _ _ _ w).trans (if_pos rfl)
        | some ids =>
          refine (data_setInjectionStatus _ _ _ w).trans ((if_pos rfl).trans ?_)
          by_cases hids : ids = []
          · simp only [Redis.parseGmoForLocation, hids, if_true, data_setLatest]
            rfl
          · simp only [data_parseGmoForLocation _ w hids, data_setLatest, if_neg hids, if_true]
            split
            · rfl
            · rfl
      · exact (data_setLatest _ _ _ _ w).trans (if_pos rfl)
  · simp only [if_neg h]
    split
    · rfl
    · split
      · cases rd.cells value with
        | none => exact (data_setLatest _ _ _ _ w).trans (if_neg h)
        | some ids =>
          refine (data_setInjectionStatus _ _ _ w).trans ((if_neg h).trans ?_)
          by_cases hids : ids = []
          · simp only [Redis.parseGmoForLocation, hids, if_true, data_setLatest, if_neg h]
          · simp only [data_parseGmoForLocation _ worker hids, data_setLatest, if_neg h]
      · exact (data_setLatest _ _ _ _ w).trans (if_neg h)

/-- Redis skips an ignored GMO and takes a worker to have moved once its cells are not the same. -/
theorem data_redis (rd : PayloadReader P) (s : Redis P) (op : Operation P) (w : String) :
    (s.apply rd op).data w =
      if w = op.worker then (s.data w).apply rd true otherCells op else s.data w := by
  cases op with
  | updateLatest worker key value raw receiver location => exact data_updateLatest rd s 0 _ w
  | setLevel worker level => exact data_setLevel s worker level w
  | setPokestopVisits worker visits => exact (ite_self _).symm
  | setQuestsHeld worker quests => exact (ite_self _).symm
  | setInjectionStatus worker status => exact data_setInjectionStatus s worker status w

theorem data_playerUpdate (rd : PayloadReader P) (p : PlayerData P) (key : String) (value : P)
    (raw receiver : Timestamp) (location : Option (Location ℚ)) :
    (p.updateLatest rd key value raw receiver location).data =
      p.data.update rd false newCells key value raw receiver location := by
  have hholder : ({ p with latestDataHolder :=
      LatestMitmDataHolder.update p.latestDataHolder key value raw receiver location } : PlayerData P).data =
      if ignoresUpdate (p.data.latest key) receiver then p.data
      else { p.data with latest := Function.update p.data.latest key (some ⟨location, raw, receiver, value⟩) } := by
    have hlatest : p.data.latest key = p.latestDataHolder.get? key := rfl
    rw [LatestMitmDataHolder.update, hlatest]
    split
    · rfl
    · refine WorkerData.ext ?_ rfl rfl rfl rfl rfl
      funext k
      simp only [PlayerData.data, Dict.get?_insert, Dict.get?_erase, Function.update_apply]
      split
      · rfl
      · rfl
  rw [PlayerData.updateLatest, WorkerData.update]
  simp only [Bool.and_false, Bool.false_eq_true, if_false]
  split
  · cases rd.cells value with
    | none => exact hholder
    | some ids =>
      rw [← hholder]
      by_cases hids : ids = []
      · simp only [PlayerData.parseGmoForLocation, hids, if_true]
        rfl
      · simp only [PlayerData.parseGmoForLocation, if_neg hids]
        by_cases hnew : ids.toFinset ∩ p.lastCellIds.toFinset = ∅
        · have : newCells ids p.data.cells = true := decide_eq_true hnew
          simp only [this, hnew, if_true]
          cases location <;> rfl
        · have : newCells ids p.data.cells = false := decide_eq_false hnew
          simp only [this, hnew, if_false, Bool.false_eq_true]
          cases location <;> rfl
  · exact hholder

/-- The store in memory looks at an ignored GMO too, and takes a worker to have moved once none of
its cells was there before. -/
theorem data_memory (rd : PayloadReader P) (m : MitmDataHandler P) (op : Operation P) (w : String) :
    ((m.apply rd op).player w).data =
      if w = op.worker then (m.player w).data.apply rd false newCells op else (m.player w).data := by
  have hset : ∀ worker (p : PlayerData P) (d : WorkerData P), (w = worker → p.data = d) →
      ((m.setPlayer worker p).player w).data = if w = worker then d else (m.player w).data := by
    intro worker p d hd
    rw [MitmDataHandler.player_setPlayer]
    split
    · next h => exact hd h
    · rfl
  cases op with
  | updateLatest worker key value raw receiver location =>
    refine hset worker _ _ fun h => ?_
    rw [h]
    exact data_playerUpdate rd _ key value raw receiver location
  | setLevel worker level => exact hset worker _ _ fun h => h ▸ rfl
  | setPokestopVisits worker visits => exact hset worker _ _ fun h => h ▸ rfl
  | setQuestsHeld worker quests => exact hset worker _ _ fun h => h ▸ rfl
  | setInjectionStatus worker status => exact hset worker _ _ fun h => h ▸ rfl

/-! ## The simulation -/

/-- The stores have the same data of every worker, times a worker moved at are integers, and no
answer is cached. -/
structure Agree (p : Stores P) : Prop where
  data : ∀ w, p.1.data w = (p.2.player w).data
  moved : ∀ w, ∃ i, (p.1.data w).moved = .int i
  cached : p.1.levelCached = .empty

theorem agree_empty : Agree ((.empty, .empty) : Stores P) where
  data _ := rfl
  moved _ := ⟨0, rfl⟩
  cached := rfl

theorem levelCached_apply (rd : PayloadReader P) (s : Redis P) (op : Operation P) :
    (s.apply rd op).levelCached = s.levelCached := by
  cases op with
  | updateLatest worker key value raw receiver location =>
    simp only [Redis.apply, Redis.updateLatest, Redis.parseGmoForLocation]
    split
    · rfl
    · split
      · cases rd.cells value with
        | none => rfl
        | some ids =>
          simp only [Redis.setInjectionStatus]
          split
          · rfl
          · cases location <;> (simp only [Redis.locate]; split <;> rfl)
      · rfl
  | setLevel | setPokestopVisits | setQuestsHeld | setInjectionStatus => rfl

/-- On an agreeable operation the two stores do the same to the data of the worker. -/
theorem apply_agreeable {rd : PayloadReader P} {p : Stores P} {op : Operation P} (h : Agreeable rd p op)
    (hmoved : ∃ i, (p.1.data op.worker).moved = .int i) :
    (p.1.data op.worker).apply rd true otherCells op = (p.1.data op.worker).apply rd false newCells op ∧
      ∃ i, ((p.1.data op.worker).apply rd true otherCells op).moved = .int i := by
  cases op with
  | setLevel | setPokestopVisits | setQuestsHeld | setInjectionStatus => exact ⟨rfl, hmoved⟩
  | updateLatest worker key value raw receiver location =>
    simp only [Operation.worker] at hmoved ⊢
    simp only [WorkerData.apply, WorkerData.update]
    have hstored : ∀ (b : Bool) (f : String → Option (LatestMitmDataEntry P)),
        (if b then p.1.data worker else { p.1.data worker with latest := f }).moved =
          (p.1.data worker).moved := by
      intro b f
      cases b <;> rfl
    split
    · next hkey =>
      cases hcells : rd.cells value with
      | none => exact ⟨rfl, hmoved.imp fun i hi => (hstored _ _).trans hi⟩
      | some ids =>
        obtain ⟨hfresh, hids⟩ := h hkey ids hcells
        have hlatest : ignoresUpdate ((p.1.data worker).latest key) receiver = false := by
          rw [← hfresh]
          exact congrArg (ignoresUpdate · receiver) (answersRequest_none _).symm
        simp only [hlatest, Bool.false_and, Bool.false_eq_true, if_false]
        by_cases hnil : ids = []
        · simp only [if_pos hnil]
          exact ⟨trivial, hmoved⟩
        · simp only [if_neg hnil]
          rcases hids with hids | hsame | ⟨hnew, hint⟩
          · exact absurd hids hnil
          · -- the cells before: neither store takes the worker to have moved
            have hother : otherCells ids (p.1.data worker).cells = false :=
              decide_eq_false (not_not.mpr hsame)
            have hnot : newCells ids (p.1.data worker).cells = false := by
              refine decide_eq_false ?_
              show ¬ ids.toFinset ∩ (p.1.cellIds worker).toFinset = ∅
              rw [← hsame, Finset.inter_self, List.toFinset_eq_empty_iff]
              exact hnil
            simp only [hother, hnot, Bool.false_eq_true, if_false]
            exact ⟨trivial, hmoved⟩
          · -- none of the cells before: both stores do
            have hnot : newCells ids (p.1.data worker).cells = true := decide_eq_true hnew
            have hother : otherCells ids (p.1.data worker).cells = true := by
              refine decide_eq_true ?_
              show ids.toFinset ≠ (p.1.cellIds worker).toFinset
              intro hsame
              rw [← hsame, Finset.inter_self, List.toFinset_eq_empty_iff] at hnew
              exact hnil hnew
            simp only [hother, hnot, if_true]
            exact ⟨trivial, raw.toInt, hint⟩
    · exact ⟨rfl, hmoved.imp fun i hi => (hstored _ _).trans hi⟩

theorem agree_step {rd : PayloadReader P} {p q : Stores P} {op : Operation P} (h : Agree p)
    (hop : Agreeable rd p op) (hs : p.step rd op = some q) : Agree q := by
  cases hs
  obtain ⟨hsame, hint⟩ := apply_agreeable hop (h.moved op.worker)
  refine ⟨fun w => ?_, fun w => ?_, (levelCached_apply rd p.1 op).trans h.cached⟩
  · rw [data_redis, data_memory, ← h.data w]
    split
    · next hw => rw [hw]; exact hsame
    · rfl
  · rw [data_redis]
    split
    · next hw => rw [hw]; exact hint
    · exact h.moved w

theorem Agree.sameAnswers {p : Stores P} (h : Agree p) : SameAnswers p where
  latest worker key earliest :=
    congrArg (answersRequest · earliest) (congrFun (congrArg WorkerData.latest (h.data worker)) key)
  moved worker := by
    obtain ⟨i, hi⟩ := h.moved worker
    have hmem : p.2.getLastPossiblyMoved worker = .int i :=
      (congrArg WorkerData.moved (h.data worker)).symm.trans hi
    have hget : (p.1.lastPossiblyMoved.get? worker).getD (.int 0) = .int i := hi
    rw [hmem, Redis.getLastPossiblyMoved]
    cases hm : p.1.lastPossiblyMoved.get? worker with
    | none => rw [hm] at hget; rw [← hget]; rfl
    | some t => rw [hm] at hget; cases hget; rfl
  location worker := congrArg WorkerData.location (h.data worker)
  level now worker := by
    rw [Redis.getLevel, h.cached]
    exact congrArg WorkerData.level (h.data worker)
  injected worker := congrArg WorkerData.injected (h.data worker)

/-- After any sequence of agreeable operations the stores give the same answers. -/
theorem same_answers {rd : PayloadReader P} {ops : List (Operation P)} {p : Stores P}
    (h : Run (Stores.step rd) (Agreeable rd) (.empty, .empty) ops p) : SameAnswers p :=
  (h.invariant agree_empty fun _ _ _ hp hop hs => agree_step hp hop hs).sameAnswers

/-- A GMO with these cells, received and retrieved at the time given. -/
def gmoAt (ids : List Int) (time : Int) : Operation (List Int) :=
  .updateLatest "a" gmoKey ids (.int time) (.int time) none

/-- A worker that moved, and reached level 30. -/
def movedStores : Stores (List Int) :=
  after (Stores.step cellsOnly) (Agreeable cellsOnly) (.empty, .empty)
    [gmoAt [1, 2] 10, gmoAt [2, 1] 15, gmoAt [3] 20, .setLevel "a" 30]

theorem same_answers_moved : SameAnswers movedStores := same_answers (.of_after (by decide +kernel))

/-- A move to cells some of which were there before counts in Redis only. -/
theorem moved_differs : ¬ ∀ (ops : List (Operation (List Int))) (p : Stores (List Int)),
    Run (Stores.step cellsOnly) Any (.empty, .empty) ops p → SameAnswers p := by
  intro h
  have hrun : Run (Stores.step cellsOnly) Any (.empty, .empty) [gmoAt [1, 2] 10, gmoAt [2, 3] 20] _ :=
    .of_after (by decide +kernel)
  have hmoved := (h _ _ hrun).moved "a"
  revert hmoved
  decide +kernel

end MapADroid.Mitm
