import MapADroid.Lib.Run
import MapADroid.Stats.PlayerStats

/- Collecting statistics while earlier ones are being submitted.

   The collecting calls never suspend. `__process_stats` takes the holders out of the
   handler, `PlayerStats.submit` takes them out of the player, and both then await one
   submission after another: between two awaits anything else may run, another
   `__process_stats` included. An exception that leaves `__process_stats` drops what the
   process still has to submit. As long as that is nothing, every event is counted once,
   in what is live, still to be submitted or handed to a submission
   (`events_conserved`). -/
namespace MapADroid.Stats
open Lib

/-! ## The handler -/

/-- `StatsHandler`: the stats of each worker under its name. -/
structure StatsHandler where
  workerStats : Dict String PlayerStats
  statsDetectSeenTypeHolder : Option (StatsDetectSeenTypeHolder Int)
  keyed : ∀ w p, workerStats.get? w = some p → p.worker = w

namespace StatsHandler

/-- `__init_stats_holders`. -/
def initStatsHolders (args : StatsArgs) (seen : Option (StatsDetectSeenTypeHolder Int)) :
    StatsHandler where
  workerStats := Dict.empty
  statsDetectSeenTypeHolder := if args.gameStatsMonSeen then some Dict.empty else seen
  keyed := by intro w p h; cases h

/-- `__init__`. -/
def init (args : StatsArgs) : StatsHandler := initStatsHolders args none

def ensurePlayerStat (s : StatsHandler) (args : StatsArgs) (worker : String) (now : Int) : PlayerStats :=
  (s.workerStats.get? worker).getD (PlayerStats.init args worker now)

theorem worker_ensurePlayerStat (s : StatsHandler) (args : StatsArgs) (worker : String) (now : Int) :
    (s.ensurePlayerStat args worker now).worker = worker := by
  unfold ensurePlayerStat
  cases h : s.workerStats.get? worker with
  | none => rfl
  | some p => exact s.keyed worker p h

/-- The player stats of `worker`, there or new, after a call of theirs. -/
def collect (s : StatsHandler) (args : StatsArgs) (worker : String) (now : Int)
    (f : PlayerStats → PlayerStats) (hf : ∀ p, (f p).worker = p.worker) : StatsHandler where
  workerStats := s.workerStats.insert worker (f (s.ensurePlayerStat args worker now))
  statsDetectSeenTypeHolder := s.statsDetectSeenTypeHolder
  keyed := by
    intro w p h
    rw [Dict.get?_insert] at h
    split at h
    · next hw =>
      obtain rfl := Option.some.inj h
      rw [hf, worker_ensurePlayerStat, hw]
    · exact s.keyed w p h

/-- The detections in the seen type holder, where there is one. -/
def addSeen (s : StatsHandler) (encounterIds : List Int) (type : MonSeenTypes) (time : Int) :
    StatsHandler :=
  { s with
    statsDetectSeenTypeHolder := s.statsDetectSeenTypeHolder.map fun h =>
      encounterIds.foldl (fun h id => StatsDetectSeenTypeHolder.add h ⟨id, type, time⟩) h }

end StatsHandler

/-- All encounters of one call. -/
def PlayerStats.statsCollectWildMons (p : PlayerStats) (encounterIds : List Int) (time : Int) :
    PlayerStats :=
  encounterIds.foldl (fun p id => p.statsCollectWildMon id time) p

namespace PlayerStats

variable {w : String} {k : Counted}

theorem statsCollectWildMons_spec (ids : List Int) (t : Int) (p : PlayerStats) :
    (p.statsCollectWildMons ids t).worker = p.worker ∧
      (p.statsCollectWildMons ids t).count w k =
        p.count w k + if p.worker = w then if k = .mon then ids.length else 0 else 0 := by
  induction ids generalizing p with
  | nil => simp [statsCollectWildMons]
  | cons id ids ih =>
    obtain ⟨hworker, hcount⟩ := ih (p.statsCollectWildMon id t)
    have hone : (p.statsCollectWildMon id t).count w k =
        p.count w k + if p.worker = w then if k = .mon then 1 else 0 else 0 := by
      rw [statsCollectWildMon, count_detected]
      cases k <;> rfl
    have hw : (p.statsCollectWildMon id t).worker = p.worker := rfl
    have hcons : p.statsCollectWildMons (id :: ids) t =
        (p.statsCollectWildMon id t).statsCollectWildMons ids t := rfl
    rw [hw] at hworker hcount
    refine ⟨hcons ▸ hworker, ?_⟩
    rw [hcons, hcount, hone, List.length_cons]
    split <;> (try split) <;> omega

end PlayerStats

/-! ## Submissions -/

inductive Submittable where
  | seenType (holder : StatsDetectSeenTypeHolder Int)
  | player (stats : PlayerStats)

/-- A `__process_stats` at one of its awaits: the submittables it has not come to, the
holders left of the `PlayerStats.submit` it is in, and whether it waits for the submission
of a holder. -/
structure Process where
  submittables : List Submittable
  holdersToSubmit : Option (List AbstractStatsHolder)
  submitting : Bool

namespace Process

/-- `__process_stats` up to its loop. -/
def start (h : StatsHandler) : Process where
  submittables := (h.statsDetectSeenTypeHolder.map .seenType).toList ++
    (h.workerStats.items.map Prod.snd).map .player
  holdersToSubmit := none
  submitting := false

/-- What an exception leaves of it. -/
def aborted : Process := ⟨[], none, false⟩

/-- `StatsDetectHolder.submit` stamps its entry, the others submit what they hold. -/
def stamped (now : Int) : AbstractStatsHolder → AbstractStatsHolder
  | .detect e => .detect { e with timestampScan := now }
  | h => h

/-- On to the next call of a `submit`: the process there, and the holder handed over if it is
a holder's. -/
def next (p : Process) (args : StatsArgs) (now : Int) : Option (Process × Option AbstractStatsHolder) :=
  if p.submitting then none
  else
    match p.holdersToSubmit, p.submittables with
    | some (h :: rest), l => some (⟨l, some rest, true⟩, some (stamped now h))
    | some [], l => some (⟨l, none, false⟩, none)
    | none, .seenType h :: l => some (⟨l, none, true⟩, some (.seenType h))
    -- The player has new holders now, but no dictionary has the player any more.
    | none, .player stats :: l => some (⟨l, some (stats.submit args now).1, false⟩, none)
    | none, [] => none

/-- The holders with counts that are still to be submitted. -/
def left (p : Process) : List AbstractStatsHolder :=
  p.holdersToSubmit.getD [] ++ p.submittables.flatMap fun
    | .seenType _ => []
    | .player stats => [.detect stats.statsDetectHolder, .location stats.statsLocationHolder]

end Process

/-! ## The system -/

structure State where
  now : Int
  handler : StatsHandler
  processes : List Process

inductive Action where
  | clock (now : Int)
  | statsCollectWildMon (worker : String) (encounterIds : List Int) (timeScanned : Int)
  | statsCollectMonIv (worker : String) (encounterId timeScanned : Int) (isShiny : Bool)
  | statsCollectQuest (worker : String) (timeScanned : Int)
  | statsCollectRaid (worker : String) (timeScanned : Int) (amountRaids : Nat)
  | statsCollectLocationData (worker : String) (data : LocationData)
  | statsCollectSeenType (encounterIds : List Int) (type : MonSeenTypes) (timeOfScan : Int)
  /-- A `__process_stats` starts. -/
  | processStats
  /-- Process `i` goes on to its next call of a `submit`. -/
  | next (i : Nat)
  /-- The submission process `i` waits for ends, also by an exception that is caught. -/
  | submitted (i : Nat)
  /-- An exception leaves process `i`. -/
  | raises (i : Nat)

namespace State

def init (args : StatsArgs) (now : Int) : State := ⟨now, StatsHandler.init args, []⟩

def collect (s : State) (args : StatsArgs) (worker : String) (f : PlayerStats → PlayerStats)
    (hf : ∀ p, (f p).worker = p.worker) : State :=
  { s with handler := s.handler.collect args worker s.now f hf }

def addSeen (s : State) (encounterIds : List Int) (type : MonSeenTypes) (time : Int) : State :=
  { s with handler := s.handler.addSeen encounterIds type time }

def setProcess (s : State) (i : Nat) (p : Process) : State :=
  { s with processes := s.processes.set i p }

def step (args : StatsArgs) (s : State) : Action → Option State
  | .clock now => some { s with now := now }
  | .statsCollectWildMon worker ids time =>
    some ((s.collect args worker (·.statsCollectWildMons ids time) fun p =>
      (p.statsCollectWildMons_spec (w := "") (k := .mon) ids time).1).addSeen ids .wild time)
  | .statsCollectMonIv worker id time isShiny =>
    some ((s.collect args worker (·.statsCollectMonIv id time isShiny) fun _ => rfl).addSeen [id]
      .encounter time)
  | .statsCollectQuest worker time =>
    some (s.collect args worker (·.statsCollectQuest time) fun _ => rfl)
  | .statsCollectRaid worker time amount =>
    some (s.collect args worker (·.statsCollectRaid time amount) fun _ => rfl)
  | .statsCollectLocationData worker data =>
    some (s.collect args worker (·.statsCollectLocationData data) fun _ => rfl)
  | .statsCollectSeenType ids type time => some (s.addSeen ids type time)
  | .processStats => some
      { s with
        handler := StatsHandler.initStatsHolders args none
        processes := s.processes ++ [Process.start s.handler] }
  | .next i => s.processes[i]?.bind fun p => (p.next args s.now).map fun q => s.setProcess i q.1
  | .submitted i => s.processes[i]?.bind fun p =>
      if p.submitting then some (s.setProcess i { p with submitting := false }) else none
  | .raises i => s.processes[i]?.map fun _ => s.setProcess i Process.aborted

end State

/-! ## Counts -/

variable {w : String} {k : Counted} {args : StatsArgs} {now : Int}

def Submittable.count (w : String) (k : Counted) : Submittable → Nat
  | .seenType _ => 0
  | .player stats => stats.count w k

/-- The events of kind `k` of worker `w` in the holders still to be submitted. -/
def Process.count (w : String) (k : Counted) (p : Process) : Nat :=
  total (AbstractStatsHolder.count w k) (p.holdersToSubmit.getD []) +
    total (Submittable.count w k) p.submittables

/-- The events in the handler's entries. -/
def StatsHandler.count (w : String) (k : Counted) (s : StatsHandler) : Nat :=
  s.workerStats.total (PlayerStats.count w k)

/-- The events live or in holders still to be submitted. -/
def State.count (w : String) (k : Counted) (s : State) : Nat :=
  s.handler.count w k + total (Process.count w k) s.processes

/-- The events of kind `k` of worker `w` a collecting call brings. -/
def Action.count (w : String) (k : Counted) : Action → Nat
  | .statsCollectWildMon worker ids _ => if worker = w then if k = .mon then ids.length else 0 else 0
  | .statsCollectMonIv worker _ _ _ => if worker = w then if k = .monIv then 1 else 0 else 0
  | .statsCollectQuest worker _ => if worker = w then if k = .quest then 1 else 0 else 0
  | .statsCollectRaid worker _ amount => if worker = w then if k = .raid then amount else 0 else 0
  | .statsCollectLocationData worker data =>
    if worker = w then
      if k = .locationOk then if data.success then 1 else 0
      else if k = .locationNok then if data.success then 0 else 1
      else 0
    else 0
  | .clock _ | .statsCollectSeenType _ _ _ | .processStats | .next _ | .submitted _ | .raises _ => 0

namespace Process

@[simp] theorem count_stamped (h : AbstractStatsHolder) :
    (stamped now h).count w k = h.count w k := by
  cases h <;> rfl

/-- The events move from the process to the submission. -/
theorem count_next {p q : Process} {h : Option AbstractStatsHolder} (hnext : p.next args now = some (q, h)) :
    q.count w k + total (AbstractStatsHolder.count w k) h.toList = p.count w k := by
  obtain ⟨submittables, holders, submitting⟩ := p
  cases submitting with
  | true => cases hnext
  | false =>
    cases holders with
    | some holders =>
      cases holders with
      | nil =>
        cases hnext
        rfl
      | cons holder rest =>
        cases hnext
        simp only [count, Option.getD_some, Option.toList_some, total_cons, total_nil, count_stamped]
        omega
    | none =>
      cases submittables with
      | nil => cases hnext
      | cons submittable rest =>
        cases submittable with
        | seenType entries =>
          cases hnext
          simp [count, Submittable.count, AbstractStatsHolder.count]
        | player stats =>
          cases hnext
          simp [count, Submittable.count, PlayerStats.count_submit]

theorem count_start (h : StatsHandler) : (start h).count w k = h.count w k := by
  have hplayers : total (Submittable.count w k) ((h.workerStats.items.map Prod.snd).map .player) =
      h.count w k := by
    rw [StatsHandler.count, ← Dict.total_values, total_map]
    rfl
  have hseen : total (Submittable.count w k)
      (h.statsDetectSeenTypeHolder.map Submittable.seenType).toList = 0 := by
    cases h.statsDetectSeenTypeHolder <;> rfl
  rw [count, start, total_append, hseen, hplayers]
  simp

/-- Where all that is left is empty, nothing is lost with the process. -/
theorem count_eq_zero {p : Process} (h : ∀ holder ∈ p.left, holder.Empty) : p.count w k = 0 := by
  have hholders : total (AbstractStatsHolder.count w k) (p.holdersToSubmit.getD []) = 0 := by
    apply total_eq_zero
    intro holder hmem
    exact (h holder (List.mem_append_left _ hmem)).count
  have hsubmittables : total (Submittable.count w k) p.submittables = 0 := by
    apply total_eq_zero
    intro s hs
    cases s with
    | seenType => rfl
    | player stats =>
      have hleft : ∀ holder ∈ [AbstractStatsHolder.detect stats.statsDetectHolder,
          .location stats.statsLocationHolder], holder.count w k = 0 := by
        intro holder hmem
        exact (h holder (List.mem_append_right _ (List.mem_flatMap.mpr ⟨_, hs, hmem⟩))).count
      have hdetect := hleft (.detect stats.statsDetectHolder) (by simp)
      have hlocation := hleft (.location stats.statsLocationHolder) (by simp)
      simp only [AbstractStatsHolder.count] at hdetect hlocation
      simp [Submittable.count, PlayerStats.count, hdetect, hlocation]
  rw [count, hholders, hsubmittables]

end Process

namespace State

/-- A collecting call that adds `n` to every player stat of `w` adds `n` if it is one of `w`. -/
theorem count_collect (s : State) {worker : String} {f : PlayerStats → PlayerStats}
    {hf : ∀ p, (f p).worker = p.worker} {n : Nat}
    (h : ∀ p, (f p).count w k = p.count w k + if p.worker = w then n else 0) :
    (s.collect args worker f hf).count w k = s.count w k + if worker = w then n else 0 := by
  have hinsert := Dict.total_insert (PlayerStats.count w k) s.handler.workerStats worker
    (f (s.handler.ensurePlayerStat args worker s.now))
  have hensured : (s.handler.ensurePlayerStat args worker s.now).count w k =
      ((s.handler.workerStats.get? worker).map (PlayerStats.count w k)).getD 0 := by
    unfold StatsHandler.ensurePlayerStat
    cases s.handler.workerStats.get? worker <;> simp
  rw [h, StatsHandler.worker_ensurePlayerStat, hensured] at hinsert
  simp only [count, collect, StatsHandler.count, StatsHandler.collect]
  omega

theorem count_statsCollectMonIv (s : State) (worker : String) (id t : Int) (shiny : Bool) :
    (s.collect args worker (·.statsCollectMonIv id t shiny) fun _ => rfl).count w k =
      s.count w k + if worker = w then if k = .monIv then 1 else 0 else 0 := by
  apply count_collect
  intro p
  rw [PlayerStats.statsCollectMonIv, PlayerStats.count_detected]
  cases k <;> rfl

theorem count_statsCollectQuest (s : State) (worker : String) (t : Int) :
    (s.collect args worker (·.statsCollectQuest t) fun _ => rfl).count w k =
      s.count w k + if worker = w then if k = .quest then 1 else 0 else 0 := by
  apply count_collect
  intro p
  rw [PlayerStats.statsCollectQuest, PlayerStats.count_detected]
  cases k <;> rfl

theorem count_statsCollectRaid (s : State) (worker : String) (t : Int) (amount : Nat) :
    (s.collect args worker (·.statsCollectRaid t amount) fun _ => rfl).count w k =
      s.count w k + if worker = w then if k = .raid then amount else 0 else 0 := by
  apply count_collect
  intro p
  rw [PlayerStats.statsCollectRaid, PlayerStats.count_detected]
  cases k <;> rfl

theorem count_statsCollectLocationData (s : State) (worker : String) (d : LocationData) :
    (s.collect args worker (·.statsCollectLocationData d) fun _ => rfl).count w k =
      s.count w k + Action.count w k (.statsCollectLocationData worker d) := by
  apply count_collect
  intro p
  rw [PlayerStats.count_location]
  cases k <;> rfl

theorem count_addSeen (s : State) (ids : List Int) (type : MonSeenTypes) (t : Int) :
    (s.addSeen ids type t).count w k = s.count w k := rfl

theorem count_setProcess {s : State} {i : Nat} {p : Process} (h : s.processes[i]? = some p) (q : Process) :
    (s.setProcess i q).count w k + p.count w k = s.count w k + q.count w k := by
  have hset := total_set (m := Process.count w k) h q
  simp only [count, setProcess]
  omega

end State

/-! ## Runs -/

inductive Record where
  /-- A call of the handler. -/
  | called (a : Action)
  /-- A holder has been handed to its `submit`. -/
  | handed (h : AbstractStatsHolder)

/-- What one step adds to the record. -/
def emit (args : StatsArgs) (s : State) : Action → List Record
  | .next i => ((s.processes[i]?.bind fun p => p.next args s.now).bind (·.2)).toList.map .handed
  | a => [.called a]

def Record.collected (w : String) (k : Counted) : Record → Nat
  | .called a => a.count w k
  | .handed _ => 0

def Record.submitted (w : String) (k : Counted) : Record → Nat
  | .called _ => 0
  | .handed h => h.count w k

/-- An exception leaves a process only when it has nothing counted left to submit. -/
def NothingDropped (s : State × List Record) : Action → Prop
  | .raises i => ∀ p ∈ s.1.processes[i]?, ∀ h ∈ p.left, h.Empty
  | _ => True

instance : ∀ s a, Decidable (NothingDropped s a)
  | s, .raises i => inferInstanceAs (Decidable (∀ p ∈ s.1.processes[i]?, ∀ h ∈ p.left, h.Empty))
  | _, .clock _ => isTrue trivial
  | _, .statsCollectWildMon _ _ _ => isTrue trivial
  | _, .statsCollectMonIv _ _ _ _ => isTrue trivial
  | _, .statsCollectQuest _ _ => isTrue trivial
  | _, .statsCollectRaid _ _ _ => isTrue trivial
  | _, .statsCollectLocationData _ _ => isTrue trivial
  | _, .statsCollectSeenType _ _ _ => isTrue trivial
  | _, .processStats => isTrue trivial
  | _, .next _ => isTrue trivial
  | _, .submitted _ => isTrue trivial

/-- Every event of a worker is in exactly one entry. -/
def Conserved (s : State × List Record) : Prop :=
  ∀ w k, s.1.count w k + total (Record.submitted w k) s.2 = total (Record.collected w k) s.2

/-- What a step does to the counts. -/
theorem State.count_step {s t : State} {records : List Record} {a : Action}
    (hs : s.step args a = some t) (hok : NothingDropped (s, records) a) :
    t.count w k + total (Record.submitted w k) (emit args s a) =
      s.count w k + total (Record.collected w k) (emit args s a) := by
  cases a with
  | clock now =>
    cases hs
    rfl
  | statsCollectWildMon worker ids time =>
    cases hs
    have hworker : ∀ p : PlayerStats, (p.statsCollectWildMons ids time).worker = p.worker :=
      fun p => (@PlayerStats.statsCollectWildMons_spec w k ids time p).1
    have hcollect := @State.count_collect w k args s worker _ hworker _
      fun p => (p.statsCollectWildMons_spec ids time).2
    simp only [emit, total_cons, total_nil, Record.submitted, Record.collected, count_addSeen, hcollect]
    rfl
  | statsCollectMonIv worker id time isShiny =>
    cases hs
    simp only [emit, total_cons, total_nil, Record.submitted, Record.collected, count_addSeen,
      count_statsCollectMonIv]
    rfl
  | statsCollectQuest worker time =>
    cases hs
    simp only [emit, total_cons, total_nil, Record.submitted, Record.collected, count_statsCollectQuest]
    rfl
  | statsCollectRaid worker time amount =>
    cases hs
    simp only [emit, total_cons, total_nil, Record.submitted, Record.collected, count_statsCollectRaid]
    rfl
  | statsCollectLocationData worker data =>
    cases hs
    simp only [emit, total_cons, total_nil, Record.submitted, Record.collected,
      count_statsCollectLocationData]
    rfl
  | statsCollectSeenType ids type time =>
    cases hs
    rfl
  | processStats =>
    cases hs
    have hfresh : (StatsHandler.initStatsHolders args none).count w k = 0 := rfl
    simp only [emit, count, total_append, total_cons, total_nil, Process.count_start, hfresh,
      Record.submitted, Record.collected, Action.count]
    omega
  | next i =>
    obtain ⟨p, hp, hnext⟩ := Option.bind_eq_some_iff.mp hs
    obtain ⟨⟨q, h⟩, hq, rfl⟩ := Option.map_eq_some_iff.mp hnext
    have hcount := Process.count_next (w := w) (k := k) hq
    have hset := count_setProcess (w := w) (k := k) hp q
    have hemit : emit args s (.next i) = h.toList.map .handed := by simp [emit, hp, hq]
    have hsubmitted : total (Record.submitted w k) (h.toList.map .handed) =
        total (AbstractStatsHolder.count w k) h.toList := by cases h <;> rfl
    have hcollected : total (Record.collected w k) (h.toList.map .handed) = 0 := by cases h <;> rfl
    rw [hemit, hsubmitted, hcollected]
    change (s.setProcess i q).count w k + _ = _
    omega
  | submitted i =>
    obtain ⟨p, hp, hq⟩ := Option.bind_eq_some_iff.mp hs
    split at hq
    · cases hq
      have hset := count_setProcess (w := w) (k := k) hp { p with submitting := false }
      have hcount : Process.count w k { p with submitting := false } = p.count w k := rfl
      simp only [emit, total_cons, total_nil, Record.submitted, Record.collected, Action.count]
      omega
    · cases hq
  | raises i =>
    obtain ⟨p, hp, rfl⟩ := Option.map_eq_some_iff.mp hs
    have hset := count_setProcess (w := w) (k := k) hp Process.aborted
    have hnothing : p.count w k = 0 := Process.count_eq_zero (hok p hp)
    have haborted : Process.aborted.count w k = 0 := rfl
    simp only [emit, total_cons, total_nil, Record.submitted, Record.collected, Action.count]
    omega

/-- In a run in which no exception drops a counted entry, every event collected is in one entry
that is live, still to be submitted or handed to one submission. -/
theorem events_conserved {now : Int} {l : List Action} {s : State × List Record}
    (h : Run (recording (State.step args) (emit args)) NothingDropped (State.init args now, []) l s) :
    Conserved s := by
  apply h.invariant (I := Conserved)
  · intro w k
    rfl
  · intro s a t hinv hok hstep w k
    obtain ⟨hs, ht⟩ := recording_some hstep
    have hcount := State.count_step (w := w) (k := k) hs hok
    have hbefore := hinv w k
    rw [ht, total_append, total_append]
    omega

/-- New events come in while a player is submitted, and the clean-up fails at the end. -/
def submission : List Action :=
  [.statsCollectWildMon "a" [1, 2] 5, .processStats, .next 0, .submitted 0, .next 0,
    .statsCollectRaid "a" 7 3, .next 0, .statsCollectQuest "b" 8, .submitted 0, .next 0, .submitted 0,
    .next 0, .raises 0]

theorem submission_conserved :
    Conserved (after (recording (State.step ⟨false, true⟩) (emit ⟨false, true⟩)) NothingDropped
      (State.init ⟨false, true⟩ 4, []) submission) :=
  events_conserved (.of_after (by decide +kernel))

/-- The submission of the seen types raises: what the player had counted is in no entry. -/
theorem dropped_by_exception :
    ¬ ∀ (args : StatsArgs) (now : Int) (l : List Action) (s : State × List Record),
      Run (recording (State.step args) (emit args)) Any (State.init args now, []) l s → Conserved s := by
  intro h
  have hrun := h ⟨false, true⟩ 4 [.statsCollectWildMon "a" [1] 5, .processStats, .next 0, .raises 0] _
    (.of_after (by decide +kernel))
  have hlost := hrun "a" .mon
  revert hlost
  decide +kernel

end MapADroid.Stats
