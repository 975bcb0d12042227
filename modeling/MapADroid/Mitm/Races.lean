import MapADroid.Mitm.RedisMitmMapper
import MapADroid.Lib.Run

/- Concurrent calls of `RedisMitmMapper.update_latest`, one Redis command at a time.

   The check whether an update is older than the entry stored and the command that stores
   it are two round trips, so an entry stored between them by another call is not
   checked and may be replaced by an older one (`newer_replaced`). What a single call does
   without others in between is `Redis.updateLatest` (`run_alone`).

   With a history of what each call read and stored, a call is overtaken if a newer entry
   of the same worker and key is stored between its own GET and SET. While no overtaken
   call stores its entry (`NotOvertaken`), no entry is ever replaced by an older one
   (`never_older`), and an overtaken one that does replaces a newer entry
   (`notOlder_iff`). -/
namespace MapADroid.Mitm
open Lib

variable {P : Type}

/-- A call of `update_latest`, whichever process it runs in. -/
abbrev Call := Nat

/-- The Redis command a call sends next. -/
inductive Pc (P : Type) where
  /-- None: the call has not begun, or it has returned. -/
  | idle
  /-- The SET of the entry; `latest` is what the GET before it returned. -/
  | writing (u : Update P) (time : Int) (latest : Option (LatestMitmDataEntry P))
  /-- The GET of the cell ids, to compare with `ids`. -/
  | readingCells (u : Update P) (time : Int) (ids : List Int)
  | writingCells (u : Update P) (time : Int) (ids : List Int)
  | writingMoved (u : Update P) (time : Int)
  | writingLocation (u : Update P) (l : Location ℚ)
  | writingInjected (u : Update P)
  deriving DecidableEq

structure Concurrent (P : Type) where
  redis : Redis P
  pc : Call → Pc P

inductive Action (P : Type) where
  /-- A call begins: the GET of the latest entry. -/
  | begin (c : Call) (u : Update P) (time : Int)
  /-- The SET of the entry, or an exception raised by it, which is logged. -/
  | set (c : Call) (ok : Bool)
  | getCells (c : Call)
  | setCells (c : Call)
  | setMoved (c : Call)
  | setLocation (c : Call)
  | setInjected (c : Call)
  /-- Another command raises: the call ends. -/
  | raise (c : Call)

namespace Concurrent

def init : Concurrent P := ⟨.empty, fun _ => .idle⟩

def setPc (s : Concurrent P) (c : Call) (pc : Pc P) : Concurrent P :=
  { s with pc := Function.update s.pc c pc }

/-- The command after the cells are dealt with. -/
def afterCells (u : Update P) : Pc P :=
  match u.location with
  | some l => .writingLocation u l
  | none => .writingInjected u

/-- The command after the SET of the entry. -/
def afterSet (rd : PayloadReader P) (u : Update P) (time : Int) : Pc P :=
  if u.key = gmoKey then
    match rd.cells u.value with
    | none => .idle
    | some ids => if ids = [] then .writingInjected u else .readingCells u time ids
  else .idle

def step (rd : PayloadReader P) (s : Concurrent P) : Action P → Option (Concurrent P)
  | .begin c u time =>
    match s.pc c with
    | .idle =>
      let latest := s.redis.requestLatest u.worker u.key none
      if ignoresUpdate latest (u.receiver time) then some s
      else some (s.setPc c (.writing u time latest))
    | _ => none
  | .set c ok =>
    match s.pc c with
    | .writing u time _ =>
      some { redis := if ok then s.redis.setLatest u.worker u.key (u.entry time) else s.redis
             pc := Function.update s.pc c (afterSet rd u time) }
    | _ => none
  | .getCells c =>
    match s.pc c with
    | .readingCells u time ids =>
      some (s.setPc c
        (if ids.toFinset ≠ (s.redis.cellIds u.worker).toFinset then .writingCells u time ids
         else afterCells u))
    | _ => none
  | .setCells c =>
    match s.pc c with
    | .writingCells u time ids =>
      some { redis := s.redis.setCellIds u.worker ids
             pc := Function.update s.pc c (.writingMoved u time) }
    | _ => none
  | .setMoved c =>
    match s.pc c with
    | .writingMoved u time =>
      some { redis := s.redis.setMoved u.worker (u.raw time)
             pc := Function.update s.pc c (afterCells u) }
    | _ => none
  | .setLocation c =>
    match s.pc c with
    | .writingLocation u l =>
      some { redis := s.redis.setLocation u.worker l
             pc := Function.update s.pc c (.writingInjected u) }
    | _ => none
  | .setInjected c =>
    match s.pc c with
    | .writingInjected u =>
      some { redis := s.redis.setInjectionStatus u.worker true
             pc := Function.update s.pc c .idle }
    | _ => none
  | .raise c =>
    match s.pc c with
    | .idle => none
    | _ => some (s.setPc c .idle)

/-- The entry stored for a worker and a key. -/
def latest (s : Concurrent P) (worker key : String) : Option (LatestMitmDataEntry P) :=
  s.redis.requestLatest worker key none

/-- No entry of the first state is replaced by an older one in the second. -/
def NotOlder (s t : Concurrent P) : Prop :=
  ∀ worker key, ∀ e ∈ s.latest worker key, ∃ e' ∈ t.latest worker key,
    e.timestampOfDataRetrieval.val ≤ e'.timestampOfDataRetrieval.val

/-! ## The history -/

inductive Event (P : Type) where
  /-- The GET of a call. -/
  | read (c : Call)
  /-- An entry was stored for a worker and a key. -/
  | stored (worker key : String) (e : LatestMitmDataEntry P)

/-- What a step adds to the history. -/
def events (s : Concurrent P) : Action P → List (Event P)
  | .begin c _ _ => [.read c]
  | .set c true =>
    match s.pc c with
    | .writing u time _ => [.stored u.worker u.key (u.entry time)]
    | _ => []
  | _ => []

/-- The entries stored for a worker and a key since the GET of a call, as one event after the other tells. -/
def storedSince (c : Call) (worker key : String) (history : List (Event P)) : List (LatestMitmDataEntry P) :=
  history.foldl (fun since event =>
    match event with
    | .read d => if d = c then [] else since
    | .stored worker' key' e => if (worker', key') = (worker, key) then since ++ [e] else since) []

/-- A call that stores its entry was not overtaken: no newer entry was stored since its GET, and the one
the GET returned is not newer either where its raw timestamp of zero kept it from being compared. -/
def NotOvertaken (p : Concurrent P × List (Event P)) : Action P → Prop
  | .set c true =>
    match p.1.pc c with
    | .writing u time read =>
      (∀ e ∈ read, e.timestampReceived.truthy = true ∨
        e.timestampOfDataRetrieval.val ≤ (u.receiver time).val) ∧
      ∀ e ∈ storedSince c u.worker u.key p.2, e.timestampOfDataRetrieval.val ≤ (u.receiver time).val
    | _ => True
  | _ => True

/-! ## One step -/

/-- Only the SET of an entry changes what is stored. -/
theorem step_latest {rd : PayloadReader P} {s t : Concurrent P} {a : Action P}
    (h : step rd s a = some t) :
    (∀ c, a ≠ .set c true) ∧ (∀ worker key, t.latest worker key = s.latest worker key) ∨
      ∃ c u time read, a = .set c true ∧ s.pc c = .writing u time read ∧ ∀ worker key,
        t.latest worker key =
          if (worker, key) = (u.worker, u.key) then some (u.entry time) else s.latest worker key := by
  cases a with
  | begin c u time =>
    simp only [step] at h
    split at h
    · split at h
      · cases h; exact .inl ⟨fun _ hne => (by cases hne), fun _ _ => rfl⟩
      · cases h; exact .inl ⟨fun _ hne => (by cases hne), fun _ _ => rfl⟩
    · cases h
  | set c ok =>
    simp only [step] at h
    split at h
    · next u time read hpc =>
      cases h
      cases ok with
      | false => exact .inl ⟨fun _ hne => (by cases hne), fun _ _ => rfl⟩
      | true =>
        refine .inr ⟨c, u, time, read, rfl, hpc, fun worker key => ?_⟩
        simp only [latest, Redis.requestLatest, answersRequest_none]
        exact Dict.get?_insert _ _ _ _
    · cases h
  | getCells c | setCells c | setMoved c | setLocation c | setInjected c =>
    simp only [step] at h
    split at h
    · cases h; exact .inl ⟨fun _ hne => (by cases hne), fun _ _ => rfl⟩
    · cases h
  | raise c =>
    simp only [step] at h
    split at h
    · cases h
    · cases h; exact .inl ⟨fun _ hne => (by cases hne), fun _ _ => rfl⟩

theorem afterCells_ne_writing (v : Update P) (u : Update P) (time : Int)
    (read : Option (LatestMitmDataEntry P)) : afterCells v ≠ .writing u time read := by
  intro h
  rw [afterCells] at h
  split at h
  · cases h
  · cases h

theorem afterSet_ne_writing (rd : PayloadReader P) (v : Update P) (t : Int) (u : Update P) (time : Int)
    (read : Option (LatestMitmDataEntry P)) : afterSet rd v t ≠ .writing u time read := by
  intro h
  rw [afterSet] at h
  split at h
  · split at h
    · cases h
    · split at h
      · cases h
      · cases h
  · cases h

/-- A step that sets the command of a call to one that is not the SET of an entry begins no call. -/
theorem writing_of_update {s : Concurrent P} {c d : Call} {pc : Pc P} {u : Update P} {time : Int}
    {read : Option (LatestMitmDataEntry P)} (hne : pc ≠ .writing u time read)
    (h : Function.update s.pc c pc d = .writing u time read) : s.pc d = .writing u time read := by
  rw [Function.update_apply] at h
  split at h
  · exact absurd h hne
  · exact h

/-- A call about to store its entry was so before, or it has just read and found nothing newer. -/
theorem step_writing {rd : PayloadReader P} {s t : Concurrent P} {a : Action P} {c : Call} {u : Update P}
    {time : Int} {read : Option (LatestMitmDataEntry P)} (h : step rd s a = some t)
    (hpc : t.pc c = .writing u time read) :
    s.pc c = .writing u time read ∧ (∀ u' time', a ≠ .begin c u' time') ∨
      a = .begin c u time ∧ read = s.latest u.worker u.key ∧ t.redis = s.redis ∧
        ignoresUpdate read (u.receiver time) = false := by
  cases a with
  | begin d u' time' =>
    simp only [step] at h
    split at h
    · next hidle =>
      split at h
      · cases h
        refine .inl ⟨hpc, fun u' time' heq => ?_⟩
        cases heq
        rw [hidle] at hpc
        cases hpc
      · next hig =>
        cases h
        simp only [setPc, Function.update_apply] at hpc
        split at hpc
        · next hcd =>
          cases hpc
          exact .inr ⟨by rw [hcd], rfl, rfl, Bool.eq_false_iff.mpr hig⟩
        · next hcd =>
          refine .inl ⟨hpc, fun u' time' heq => ?_⟩
          cases heq
          exact hcd rfl
    · cases h
  | set d ok =>
    simp only [step] at h
    split at h
    · cases h
      exact .inl ⟨writing_of_update (afterSet_ne_writing _ _ _ _ _ _) hpc, fun _ _ heq => (by cases heq)⟩
    · cases h
  | getCells d =>
    simp only [step] at h
    split at h
    · cases h
      refine .inl ⟨writing_of_update ?_ hpc, fun _ _ heq => (by cases heq)⟩
      split
      · intro heq; cases heq
      · exact afterCells_ne_writing _ _ _ _
    · cases h
  | setMoved d =>
    simp only [step] at h
    split at h
    · cases h
      exact .inl ⟨writing_of_update (afterCells_ne_writing _ _ _ _) hpc, fun _ _ heq => (by cases heq)⟩
    · cases h
  | setCells d | setLocation d | setInjected d =>
    simp only [step] at h
    split at h
    · cases h
      exact .inl ⟨writing_of_update (fun heq => by cases heq) hpc, fun _ _ heq => (by cases heq)⟩
    · cases h
  | raise d =>
    simp only [step] at h
    split at h
    · cases h
    · cases h
      exact .inl ⟨writing_of_update (fun heq => by cases heq) hpc, fun _ _ heq => (by cases heq)⟩

/-! ## What the history tells -/

theorem storedSince_read (c d : Call) (worker key : String) (history : List (Event P)) :
    storedSince c worker key (history ++ [.read d]) = if d = c then [] else storedSince c worker key history := by
  simp [storedSince]

theorem storedSince_stored (c : Call) (worker key worker' key' : String) (e : LatestMitmDataEntry P)
    (history : List (Event P)) :
    storedSince c worker key (history ++ [.stored worker' key' e]) =
      if (worker', key') = (worker, key) then storedSince c worker key history ++ [e]
      else storedSince c worker key history := by
  simp [storedSince]

/-- What a step adds to what was stored since the GET of a call that does not begin with it. -/
theorem storedSince_step {rd : PayloadReader P} {s t : Concurrent P} {a : Action P} (h : step rd s a = some t)
    {c : Call} (hbegin : ∀ u time, a ≠ .begin c u time) (worker key : String) (history : List (Event P)) :
    storedSince c worker key (history ++ s.events a) = storedSince c worker key history ∧
        t.latest worker key = s.latest worker key ∨
      ∃ e, storedSince c worker key (history ++ s.events a) = storedSince c worker key history ++ [e] ∧
        t.latest worker key = some e := by
  rcases step_latest h with ⟨hne, hsame⟩ | ⟨d, u, time, read, rfl, hpc, hset⟩
  · refine .inl ⟨?_, hsame worker key⟩
    unfold events
    split
    · next d u time =>
      rw [storedSince_read, if_neg]
      intro hdc
      subst hdc
      exact hbegin u time rfl
    · next d => exact absurd rfl (hne d)
    · rw [List.append_nil]
  · simp only [events, hpc, storedSince_stored, hset]
    by_cases hkey : (u.worker, u.key) = (worker, key)
    · exact .inr ⟨_, if_pos hkey, if_pos hkey.symm⟩
    · exact .inl ⟨if_neg hkey, if_neg (Ne.symm hkey)⟩

/-- What a call about to store its entry knows: the update is not ignored for the entry it read, and what is
stored now it has read itself, or it was stored since. -/
structure Checked (p : Concurrent P × List (Event P)) : Prop where
  compared : ∀ c u time read, p.1.pc c = .writing u time read → ignoresUpdate read (u.receiver time) = false
  recorded : ∀ c u time read, p.1.pc c = .writing u time read → ∀ e ∈ p.1.latest u.worker u.key,
    read = some e ∨ e ∈ storedSince c u.worker u.key p.2

theorem checked_init : Checked ((init, []) : Concurrent P × List (Event P)) where
  compared := fun _ _ _ _ h => by cases h
  recorded := fun _ _ _ _ h => by cases h

theorem Checked.step {rd : PayloadReader P} {p q : Concurrent P × List (Event P)} {a : Action P} (hp : Checked p)
    (h : recording (step rd) events p a = some q) : Checked q := by
  obtain ⟨hstep, hq⟩ := recording_some h
  constructor
  · intro c u time read hpc
    rcases step_writing hstep hpc with ⟨hbefore, _⟩ | ⟨_, _, _, hig⟩
    · exact hp.compared c u time read hbefore
    · exact hig
  · intro c u time read hpc e he
    rw [hq]
    rcases step_writing hstep hpc with ⟨hbefore, hbegin⟩ | ⟨_, hread, hredis, _⟩
    · rcases storedSince_step hstep hbegin u.worker u.key p.2 with ⟨hsince, hsame⟩ | ⟨e', hsince, hnew⟩
      · rw [hsince]
        rw [hsame] at he
        exact hp.recorded c u time read hbefore e he
      · rw [hnew] at he
        obtain rfl := Option.some.inj he
        rw [hsince]
        exact .inr (List.mem_append_right _ (List.mem_singleton_self _))
    · simp only [latest, hredis] at he
      exact .inl (hread.trans he)

/-- No entry that a call about to store its own has read or been overtaken by was replaced by an older one. -/
def Standing (p : Concurrent P × List (Event P)) : Prop :=
  ∀ c u time read, p.1.pc c = .writing u time read →
    ∀ e, read = some e ∨ e ∈ storedSince c u.worker u.key p.2 →
      ∃ e' ∈ p.1.latest u.worker u.key, e.timestampOfDataRetrieval.val ≤ e'.timestampOfDataRetrieval.val

theorem standing_init : Standing ((init, []) : Concurrent P × List (Event P)) :=
  fun _ _ _ _ h => by cases h

theorem Standing.step {rd : PayloadReader P} {p q : Concurrent P × List (Event P)} {a : Action P} (hp : Standing p)
    (h : recording (step rd) events p a = some q) (hkept : NotOlder p.1 q.1) : Standing q := by
  obtain ⟨hstep, hq⟩ := recording_some h
  intro c u time read hpc e he
  rw [hq] at he
  rcases step_writing hstep hpc with ⟨hbefore, hbegin⟩ | ⟨rfl, hread, hredis, _⟩
  · have hold : read = some e ∨ e ∈ storedSince c u.worker u.key p.2 →
        ∃ e' ∈ q.1.latest u.worker u.key, e.timestampOfDataRetrieval.val ≤ e'.timestampOfDataRetrieval.val := by
      intro he
      obtain ⟨e₁, he₁, hle₁⟩ := hp c u time read hbefore e he
      obtain ⟨e₂, he₂, hle₂⟩ := hkept u.worker u.key e₁ he₁
      exact ⟨e₂, he₂, hle₁.trans hle₂⟩
    rcases storedSince_step hstep hbegin u.worker u.key p.2 with ⟨hsince, _⟩ | ⟨e', hsince, hnew⟩
    · rw [hsince] at he
      exact hold he
    · rw [hsince, List.mem_append, List.mem_singleton, ← or_assoc] at he
      rcases he with he | he
      · exact hold he
      · exact ⟨e', hnew, he ▸ le_refl _⟩
  · have hsince : storedSince c u.worker u.key (p.2 ++ p.1.events (.begin c u time)) = [] := by
      rw [events, storedSince_read, if_pos rfl]
    rw [hsince] at he
    have hnow : q.1.latest u.worker u.key = some e := by
      simp only [latest, hredis]
      exact hread.symm.trans (he.resolve_right (List.not_mem_nil))
    exact ⟨e, hnow, le_refl _⟩

theorem NotOlder.refl (s : Concurrent P) : NotOlder s s := fun _ _ e he => ⟨e, he, le_refl _⟩

theorem NotOlder.trans {s t u : Concurrent P} (hst : NotOlder s t) (htu : NotOlder t u) : NotOlder s u := by
  intro worker key e he
  obtain ⟨e', he', hle⟩ := hst worker key e he
  obtain ⟨e'', he'', hle'⟩ := htu worker key e' he'
  exact ⟨e'', he'', hle.trans hle'⟩

theorem notOlder_of_notOvertaken {rd : PayloadReader P} {p q : Concurrent P × List (Event P)} {a : Action P}
    (hp : Checked p) (h : recording (step rd) events p a = some q) (ha : NotOvertaken p a) : NotOlder p.1 q.1 := by
  have hstep := (recording_some h).1
  intro worker key e he
  rcases step_latest hstep with ⟨_, hsame⟩ | ⟨c, u, time, read, rfl, hpc, hset⟩
  · exact ⟨e, (hsame worker key).symm ▸ he, le_refl _⟩
  · rw [hset]
    split
    · next heq =>
      cases heq
      simp only [NotOvertaken, hpc] at ha
      refine ⟨_, rfl, ?_⟩
      rcases hp.recorded c u time read hpc e he with hread | hsince
      · rcases ha.1 e hread with htruthy | hle
        · exact le_of_not_ignoresUpdate (hread ▸ hp.compared c u time read hpc) htruthy
        · exact hle
      · exact ha.2 e hsince
    · exact ⟨e, he, le_refl _⟩

theorem notOvertaken_of_notOlder {rd : PayloadReader P} {p q : Concurrent P × List (Event P)} {a : Action P}
    (hp : Standing p) (h : recording (step rd) events p a = some q) (hkept : NotOlder p.1 q.1) : NotOvertaken p a := by
  have hstep := (recording_some h).1
  rcases step_latest hstep with ⟨hne, _⟩ | ⟨c, u, time, read, rfl, hpc, hset⟩
  · unfold NotOvertaken
    split
    · next c => exact absurd rfl (hne c)
    · trivial
  · have hle : ∀ e, read = some e ∨ e ∈ storedSince c u.worker u.key p.2 →
        e.timestampOfDataRetrieval.val ≤ (u.receiver time).val := by
      intro e he
      obtain ⟨e₁, he₁, hle₁⟩ := hp c u time read hpc e he
      obtain ⟨e₂, he₂, hle₂⟩ := hkept u.worker u.key e₁ he₁
      rw [hset, if_pos rfl] at he₂
      cases he₂
      exact hle₁.trans hle₂
    simp only [NotOvertaken, hpc]
    exact ⟨fun e he => .inr (hle e (.inl he)), fun e he => hle e (.inr he)⟩

/-! ## Runs -/

/-- From any reachable state on, in any interleaving in which no overtaken call stores its entry, no entry is
replaced by an older one. -/
theorem never_older {rd : PayloadReader P} {l l' : List (Action P)} {s t : Concurrent P × List (Event P)}
    (hreach : Run (recording (step rd) events) Any (init, []) l s)
    (h : Run (recording (step rd) events) NotOvertaken s l' t) : NotOlder s.1 t.1 := by
  have hs : Checked s := hreach.invariant checked_init fun _ _ _ hp _ hstep => hp.step hstep
  have hinv : Checked t ∧ NotOlder s.1 t.1 := by
    refine h.invariant (I := fun p => Checked p ∧ NotOlder s.1 p.1) ⟨hs, NotOlder.refl s.1⟩ ?_
    intro p a q hp ha hstep
    exact ⟨hp.1.step hstep, hp.2.trans (notOlder_of_notOvertaken hp.1 hstep ha)⟩
  exact hinv.2

/-- After a run in which no overtaken call stored its entry, a step replaces no entry by an older one exactly if
it is not such a call that stores its entry. -/
theorem notOlder_iff {rd : PayloadReader P} {l : List (Action P)} {p q : Concurrent P × List (Event P)}
    {a : Action P} (h : Run (recording (step rd) events) NotOvertaken (init, []) l p)
    (hstep : recording (step rd) events p a = some q) : NotOlder p.1 q.1 ↔ NotOvertaken p a := by
  have hinv : Checked p ∧ Standing p := by
    refine h.invariant (I := fun p => Checked p ∧ Standing p) ⟨checked_init, standing_init⟩ ?_
    intro p a q hp ha hstep
    exact ⟨hp.1.step hstep, hp.2.step hstep (notOlder_of_notOvertaken hp.1 hstep ha)⟩
  exact ⟨notOvertaken_of_notOlder hinv.2 hstep, notOlder_of_notOvertaken hinv.1 hstep⟩

instance (p : Concurrent P × List (Event P)) : (a : Action P) → Decidable (NotOvertaken p a)
  | .set c true =>
    match h : p.1.pc c with
    | .writing u time read =>
      decidable_of_iff ((∀ e ∈ read, e.timestampReceived.truthy = true ∨
          e.timestampOfDataRetrieval.val ≤ (u.receiver time).val) ∧
        ∀ e ∈ storedSince c u.worker u.key p.2, e.timestampOfDataRetrieval.val ≤ (u.receiver time).val)
        (by simp only [NotOvertaken, h])
    | .idle | .readingCells _ _ _ | .writingCells _ _ _ | .writingMoved _ _ | .writingLocation _ _
    | .writingInjected _ => isTrue (by simp only [NotOvertaken, h])
  | .set _ false | .begin _ _ _ | .getCells _ | .setCells _ | .setMoved _ | .setLocation _
  | .setInjected _ | .raise _ => isTrue trivial

/-- An update of the GMO of a worker, received and retrieved at the time given. -/
def gmoUpdate (time : Int) : Update (List Int) := ⟨"a", gmoKey, [1], some (.int time), some (.int time), none⟩

/-- Two calls that both read before either stores its entry; the older one has stored its. -/
def olderStored : Concurrent (List Int) × List (Event (List Int)) :=
  after (recording (step cellsOnly) events) Any (init, [])
    [.begin 0 (gmoUpdate 100) 0, .begin 1 (gmoUpdate 101) 0, .set 0 true]

theorem never_older_olderStored :
    NotOlder olderStored.1 (after (recording (step cellsOnly) events) NotOvertaken olderStored [.set 1 true]).1 :=
  never_older (.of_after (by decide +kernel)) (.of_after (by decide +kernel))

/-- The same calls, the newer one storing first. -/
theorem newer_replaced : ¬ ∀ (l l' : List (Action (List Int))) (s t : Concurrent (List Int)),
    Run (step cellsOnly) Any init l s → Run (step cellsOnly) Any s l' t → NotOlder s t := by
  intro h
  have hreach : Run (step cellsOnly) Any init
      [.begin 0 (gmoUpdate 100) 0, .begin 1 (gmoUpdate 101) 0, .set 1 true] _ := .of_after (by decide +kernel)
  have hrun : Run (step cellsOnly) Any (after (step cellsOnly) Any init
      [.begin 0 (gmoUpdate 100) 0, .begin 1 (gmoUpdate 101) 0, .set 1 true]) [.set 0 true] _ :=
    .of_after (by decide +kernel)
  have hold := h _ _ _ _ hreach hrun "a" gmoKey ((gmoUpdate 101).entry 0) (by decide +kernel)
  revert hold
  decide +kernel

/-! ## A call alone -/

/-- The state once call `c` has returned and Redis is `r`. -/
def returned (s : Concurrent P) (c : Call) (r : Redis P) : Concurrent P :=
  ⟨r, Function.update s.pc c .idle⟩

theorem run_injected (rd : PayloadReader P) {s : Concurrent P} {c : Call} {u : Update P}
    (h : s.pc c = .writingInjected u) :
    ∃ l, Run (step rd) Any s l (s.returned c (s.redis.setInjectionStatus u.worker true)) := by
  refine ⟨[.setInjected c], .snoc (.nil s) trivial ?_⟩
  simp only [step, h, returned]

theorem run_afterCells (rd : PayloadReader P) {s : Concurrent P} {c : Call} {u : Update P}
    (h : s.pc c = afterCells u) :
    ∃ l, Run (step rd) Any s l (s.returned c
      ((s.redis.locate u.worker u.location).setInjectionStatus u.worker true)) := by
  rw [afterCells] at h
  cases hl : u.location with
  | none => rw [hl] at h; exact run_injected rd h
  | some loc =>
    rw [hl] at h
    have hstep : step rd s (.setLocation c) = some
        ⟨s.redis.setLocation u.worker loc, Function.update s.pc c (.writingInjected u)⟩ := by
      simp only [step, h]
    obtain ⟨l, hrun⟩ := run_injected rd (c := c) (u := u)
      (s := ⟨s.redis.setLocation u.worker loc, Function.update s.pc c (.writingInjected u)⟩)
      (Function.update_self _ _ _)
    refine ⟨.setLocation c :: l, .cons trivial hstep ?_⟩
    simpa only [returned, Redis.locate, Function.update_idem] using hrun

theorem run_cells (rd : PayloadReader P) {s : Concurrent P} {c : Call} {u : Update P} {time : Int}
    {ids : List Int} (h : s.pc c = .readingCells u time ids) (hids : ids ≠ []) :
    ∃ l, Run (step rd) Any s l (s.returned c
      ((s.redis.parseGmoForLocation u.worker ids (u.raw time) u.location).setInjectionStatus u.worker
        true)) := by
  simp only [Redis.parseGmoForLocation, if_neg hids]
  by_cases hne : ids.toFinset ≠ (s.redis.cellIds u.worker).toFinset
  · -- the GET finds other cells: three commands before the location
    have hget : step rd s (.getCells c) = some (s.setPc c (.writingCells u time ids)) := by
      simp only [step, h, if_pos hne]
    have hcells : step rd (s.setPc c (.writingCells u time ids)) (.setCells c) =
        some ⟨s.redis.setCellIds u.worker ids, Function.update s.pc c (.writingMoved u time)⟩ := by
      simp only [step, setPc, Function.update_self, Function.update_idem]
    have hmoved : step rd ⟨s.redis.setCellIds u.worker ids, Function.update s.pc c (.writingMoved u time)⟩
        (.setMoved c) = some ⟨(s.redis.setCellIds u.worker ids).setMoved u.worker (u.raw time),
          Function.update s.pc c (afterCells u)⟩ := by
      simp only [step, Function.update_self, Function.update_idem]
    obtain ⟨l, hrun⟩ := run_afterCells rd (c := c) (u := u)
      (s := ⟨(s.redis.setCellIds u.worker ids).setMoved u.worker (u.raw time),
        Function.update s.pc c (afterCells u)⟩) (Function.update_self _ _ _)
    refine ⟨.getCells c :: .setCells c :: .setMoved c :: l,
      .cons trivial hget (.cons trivial hcells (.cons trivial hmoved ?_))⟩
    simpa only [returned, Function.update_idem, if_pos hne] using hrun
  · have hget : step rd s (.getCells c) = some (s.setPc c (afterCells u)) := by
      simp only [step, h, if_neg hne]
    obtain ⟨l, hrun⟩ := run_afterCells rd (c := c) (u := u) (s := s.setPc c (afterCells u))
      (Function.update_self _ _ _)
    refine ⟨.getCells c :: l, .cons trivial hget ?_⟩
    simpa only [returned, setPc, Function.update_idem, if_neg hne] using hrun

/-- A call with no other in between does what `Redis.updateLatest` says. -/
theorem run_alone (rd : PayloadReader P) {s : Concurrent P} {c : Call} (h : s.pc c = .idle)
    (u : Update P) (time : Int) :
    ∃ l, Run (step rd) Any s l ⟨s.redis.updateLatest rd time u, s.pc⟩ := by
  have hpc : Function.update s.pc c .idle = s.pc := Function.update_eq_self_iff.mpr h.symm
  rw [Redis.updateLatest]
  split
  · next hig =>
    exact ⟨[.begin c u time], .snoc (.nil s) trivial (by simp only [step, h, hig, if_true])⟩
  · next hig =>
    have hbegin : step rd s (.begin c u time) =
        some (s.setPc c (.writing u time (s.redis.requestLatest u.worker u.key none))) := by
      simp only [step, h, if_neg hig]
    have hset : step rd (s.setPc c (.writing u time (s.redis.requestLatest u.worker u.key none)))
        (.set c true) = some ⟨s.redis.setLatest u.worker u.key (u.entry time),
          Function.update s.pc c (afterSet rd u time)⟩ := by
      simp only [step, setPc, Function.update_self, Function.update_idem, if_true]
    have htwo : ∀ {l : List (Action P)} {t : Concurrent P},
        Run (step rd) Any ⟨s.redis.setLatest u.worker u.key (u.entry time),
          Function.update s.pc c (afterSet rd u time)⟩ l t →
        Run (step rd) Any s (.begin c u time :: .set c true :: l) t :=
      fun hrun => .cons trivial hbegin (.cons trivial hset hrun)
    rw [afterSet] at htwo
    split
    · next hkey =>
      rw [if_pos hkey] at htwo
      cases hcells : rd.cells u.value with
      | none =>
        rw [hcells, hpc] at htwo
        exact ⟨_, htwo (.nil _)⟩
      | some ids =>
        simp only [hcells] at htwo
        by_cases hids : ids = []
        · simp only [if_pos hids] at htwo
          obtain ⟨l, hrun⟩ := run_injected rd (c := c) (u := u)
            (s := ⟨s.redis.setLatest u.worker u.key (u.entry time),
              Function.update s.pc c (.writingInjected u)⟩) (Function.update_self _ _ _)
          refine ⟨_, htwo (l := l) ?_⟩
          simpa only [returned, Function.update_idem, hpc, Redis.parseGmoForLocation, if_pos hids] using hrun
        · simp only [if_neg hids] at htwo
          obtain ⟨l, hrun⟩ := run_cells rd (c := c) (u := u)
            (s := ⟨s.redis.setLatest u.worker u.key (u.entry time),
              Function.update s.pc c (.readingCells u time ids)⟩) (Function.update_self _ _ _) hids
          refine ⟨_, htwo (l := l) ?_⟩
          simpa only [returned, Function.update_idem, hpc] using hrun
    · next hkey =>
      rw [if_neg hkey, hpc] at htwo
      exact ⟨_, htwo (.nil _)⟩

end Concurrent

end MapADroid.Mitm
