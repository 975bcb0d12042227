import MapADroid.Lib.Totals
import MapADroid.Location
import MapADroid.Stats.SeenTypes

/- The statistics of one worker: the holders `PlayerStats` collects in and hands over
   when it is submitted.

   `count` reads off an entry how many events of a kind it stands for. A collecting call
   adds the event to exactly one of the worker's two counting entries, and `submit` takes
   both out and leaves empty ones (`count_submit`). -/
namespace MapADroid.Stats
open Lib

/-! ## Entries -/

structure StatsDetectEntry where
  worker : String
  timestampScan : Int
  mon : Nat
  raid : Nat
  monIv : Nat
  quest : Nat
  deriving DecidableEq, Repr

/-- `StatsDetectEntry.__init__`, at the clock's reading `now`. -/
def statsDetectEntry (worker : String) (now : Int) : StatsDetectEntry := ⟨worker, now, 0, 0, 0, 0⟩

/-- What `StatsDetectEntry.update` is given. -/
structure NewCounts where
  newMons : Nat := 0
  newRaids : Nat := 0
  newMonIvs : Nat := 0
  newQuests : Nat := 0

def StatsDetectEntry.update (e : StatsDetectEntry) (timeScanned : Int) (new : NewCounts) :
    StatsDetectEntry where
  worker := e.worker
  timestampScan := if e.timestampScan < timeScanned then timeScanned else e.timestampScan
  mon := e.mon + new.newMons
  raid := e.raid + new.newRaids
  monIv := e.monIv + new.newMonIvs
  quest := e.quest + new.newQuests

structure StatsLocationEntry where
  worker : String
  timestampScan : Int
  locationOk : Nat
  locationNok : Nat
  deriving DecidableEq, Repr

def statsLocationEntry (worker : String) (now : Int) : StatsLocationEntry := ⟨worker, now, 0, 0⟩

def StatsLocationEntry.update (e : StatsLocationEntry) (timeOfScan : Int) (locationOk : Bool) :
    StatsLocationEntry where
  worker := e.worker
  timestampScan := timeOfScan
  locationOk := if locationOk then e.locationOk + 1 else e.locationOk
  locationNok := if locationOk then e.locationNok else e.locationNok + 1

structure WildMonStatsEntry where
  worker : String
  encounterId : Int
  count : Nat
  isShiny : Bool
  firstScanned : Int
  lastScanned : Int
  deriving DecidableEq, Repr

def WildMonStatsEntry.update (e : WildMonStatsEntry) (lastScanned : Int) (isShiny : Bool) :
    WildMonStatsEntry :=
  { e with isShiny := e.isShiny || isShiny, count := e.count + 1, lastScanned := lastScanned }

/-- `_wild_mons_seen` of a `WildMonStatsHolder`. -/
abbrev WildMonStatsHolder := Dict Int WildMonStatsEntry

/-- `WildMonStatsHolder.add`. -/
def WildMonStatsHolder.add (h : WildMonStatsHolder) (worker : String) (encounterId scanned : Int)
    (isShiny : Bool) : WildMonStatsHolder :=
  match h.get? encounterId with
  | none => h.insert encounterId ⟨worker, encounterId, 0, false, scanned, scanned⟩
  | some e => h.insert encounterId (e.update scanned isShiny)

inductive PositionType where
  | normal | prioq | startup | reboot | restart
  deriving DecidableEq, Repr

inductive TransportType where
  | teleport | walk
  deriving DecidableEq, Repr

/-- The arguments of `stats_collect_location_data`. -/
structure LocationData where
  location : Option (Location Rat)
  success : Bool
  fixTimestamp : Int
  positionType : Option PositionType
  dataTimestamp : Int
  workerType : Option String
  transportType : Option TransportType
  timestampOfRecord : Int

structure TrsStatsLocationRaw where
  worker : String
  fixTs : Int
  lat : Rat
  lng : Rat
  dataTs : Int
  type : PositionType
  walker : Option String
  success : Nat
  period : Int
  transporttype : TransportType

/-- `position_type.value if position_type else PositionType.STARTUP.value`: `NORMAL` has
the value 0, which counts as no position type. -/
def positionTypeOr : Option PositionType → PositionType
  | none | some .normal => .startup
  | some p => p

/-- `StatsLocationRawHolder.add_location`. -/
def addLocation (entries : List TrsStatsLocationRaw) (worker : String) (location : Location Rat)
    (d : LocationData) : List TrsStatsLocationRaw :=
  entries ++ [{
    worker := worker
    fixTs := d.fixTimestamp
    lat := location.lat
    lng := location.lng
    dataTs := d.dataTimestamp
    type := positionTypeOr d.positionType
    walker := d.workerType
    success := if d.success then 1 else 0
    period := d.timestampOfRecord
    transporttype := d.transportType.getD .teleport }]

/-! ## What an entry counts -/

inductive Counted where
  | mon | raid | monIv | quest | locationOk | locationNok
  deriving DecidableEq, Repr

/-- How many events of kind `k` of worker `w` the entry stands for. -/
def StatsDetectEntry.count (w : String) (k : Counted) (e : StatsDetectEntry) : Nat :=
  if e.worker = w then
    match k with
    | .mon => e.mon
    | .raid => e.raid
    | .monIv => e.monIv
    | .quest => e.quest
    | .locationOk | .locationNok => 0
  else 0

def StatsLocationEntry.count (w : String) (k : Counted) (e : StatsLocationEntry) : Nat :=
  if e.worker = w then
    match k with
    | .locationOk => e.locationOk
    | .locationNok => e.locationNok
    | .mon | .raid | .monIv | .quest => 0
  else 0

variable {w w' : String} {k : Counted} {now : Int}

/-- What `new` adds to a count. -/
def NewCounts.count (new : NewCounts) : Counted → Nat
  | .mon => new.newMons
  | .raid => new.newRaids
  | .monIv => new.newMonIvs
  | .quest => new.newQuests
  | .locationOk | .locationNok => 0

@[simp] theorem StatsDetectEntry.count_new : (statsDetectEntry w' now).count w k = 0 := by
  unfold count
  split
  · cases k <;> rfl
  · rfl

@[simp] theorem StatsLocationEntry.count_new : (statsLocationEntry w' now).count w k = 0 := by
  unfold count
  split
  · cases k <;> rfl
  · rfl

theorem StatsDetectEntry.count_update (e : StatsDetectEntry) (t : Int) (new : NewCounts) :
    (e.update t new).count w k = e.count w k + if e.worker = w then new.count k else 0 := by
  by_cases h : e.worker = w
  · cases k <;> simp [count, update, NewCounts.count, h]
  · simp [count, update, h]

/-- What one location record adds to a count. -/
def locationCount (success : Bool) : Counted → Nat
  | .locationOk => if success then 1 else 0
  | .locationNok => if success then 0 else 1
  | .mon | .raid | .monIv | .quest => 0

theorem StatsLocationEntry.count_update (e : StatsLocationEntry) (t : Int) (ok : Bool) :
    (e.update t ok).count w k = e.count w k + if e.worker = w then locationCount ok k else 0 := by
  by_cases h : e.worker = w
  · cases k <;> cases ok <;> simp [count, update, locationCount, h]
  · simp [count, update, h]

/-! ## The holders of a worker -/

/-- The holders `PlayerStats` submits, each with what it holds. -/
inductive AbstractStatsHolder where
  | detect (entry : StatsDetectEntry)
  | location (entry : StatsLocationEntry)
  | wildMon (wildMonsSeen : WildMonStatsHolder)
  | locationRaw (entries : List TrsStatsLocationRaw)
  | seenType (entries : StatsDetectSeenTypeHolder Int)

/-- The raw holders have no counts. -/
def AbstractStatsHolder.count (w : String) (k : Counted) : AbstractStatsHolder → Nat
  | .detect e => e.count w k
  | .location e => e.count w k
  | .wildMon _ | .locationRaw _ | .seenType _ => 0

/-- No event has been counted in it. -/
def AbstractStatsHolder.Empty : AbstractStatsHolder → Prop
  | .detect e => e.mon = 0 ∧ e.raid = 0 ∧ e.monIv = 0 ∧ e.quest = 0
  | .location e => e.locationOk = 0 ∧ e.locationNok = 0
  | .wildMon _ | .locationRaw _ | .seenType _ => True

instance : DecidablePred AbstractStatsHolder.Empty
  | .detect e => inferInstanceAs (Decidable (e.mon = 0 ∧ e.raid = 0 ∧ e.monIv = 0 ∧ e.quest = 0))
  | .location e => inferInstanceAs (Decidable (e.locationOk = 0 ∧ e.locationNok = 0))
  | .wildMon _ => isTrue trivial
  | .locationRaw _ => isTrue trivial
  | .seenType _ => isTrue trivial

theorem AbstractStatsHolder.Empty.count {h : AbstractStatsHolder} (he : h.Empty) : h.count w k = 0 := by
  cases h with
  | detect e =>
    obtain ⟨hmon, hraid, hiv, hquest⟩ := he
    cases k <;> simp [AbstractStatsHolder.count, StatsDetectEntry.count, hmon, hraid, hiv, hquest]
  | location e =>
    obtain ⟨hok, hnok⟩ := he
    cases k <;> simp [AbstractStatsHolder.count, StatsLocationEntry.count, hok, hnok]
  | wildMon => rfl
  | locationRaw => rfl
  | seenType => rfl

/-- The flags of the application arguments the statistics depend on. -/
structure StatsArgs where
  gameStatsRaw : Bool
  gameStatsMonSeen : Bool

/-- `PlayerStats`: both counting entries are those of its worker. -/
structure PlayerStats where
  worker : String
  statsDetectHolder : StatsDetectEntry
  statsLocationHolder : StatsLocationEntry
  wildMonStatsHolder : Option WildMonStatsHolder
  statsLocationRawHolder : Option (List TrsStatsLocationRaw)
  detect_worker : statsDetectHolder.worker = worker
  location_worker : statsLocationHolder.worker = worker

namespace PlayerStats

/-- `__init__`, and `__init_holders` again after a submission. -/
def init (args : StatsArgs) (worker : String) (now : Int) : PlayerStats where
  worker := worker
  statsDetectHolder := statsDetectEntry worker now
  statsLocationHolder := statsLocationEntry worker now
  wildMonStatsHolder := if args.gameStatsRaw then some Dict.empty else none
  statsLocationRawHolder := if args.gameStatsRaw then some [] else none
  detect_worker := rfl
  location_worker := rfl

/-- The holders with the detections of `update` added. -/
def detected (p : PlayerStats) (timeScanned : Int) (new : NewCounts) : PlayerStats :=
  { p with
    statsDetectHolder := p.statsDetectHolder.update timeScanned new
    detect_worker := p.detect_worker }

/-- An encounter in the raw holder, where there is one. -/
def sawWild (p : PlayerStats) (encounterId timeScanned : Int) (isShiny : Bool) : PlayerStats :=
  { p with
    wildMonStatsHolder :=
      p.wildMonStatsHolder.map fun h => h.add p.worker encounterId timeScanned isShiny }

def statsCollectWildMon (p : PlayerStats) (encounterId timeScanned : Int) : PlayerStats :=
  (p.sawWild encounterId timeScanned false).detected timeScanned { newMons := 1 }

def statsCollectMonIv (p : PlayerStats) (encounterId timeScanned : Int) (isShiny : Bool) :
    PlayerStats :=
  (p.sawWild encounterId timeScanned isShiny).detected timeScanned { newMonIvs := 1 }

def statsCollectQuest (p : PlayerStats) (timeScanned : Int) : PlayerStats :=
  p.detected timeScanned { newQuests := 1 }

def statsCollectRaid (p : PlayerStats) (timeScanned : Int) (amount : Nat) : PlayerStats :=
  p.detected timeScanned { newRaids := amount }

def statsCollectLocationData (p : PlayerStats) (d : LocationData) : PlayerStats :=
  { p with
    statsLocationRawHolder :=
      match p.statsLocationRawHolder, d.location with
      | some entries, some location => some (addLocation entries p.worker location d)
      | holder, _ => holder
    statsLocationHolder := p.statsLocationHolder.update d.timestampOfRecord d.success
    location_worker := p.location_worker }

/-- `submit`, up to its first await: the holders to submit, and the object with new ones. -/
def submit (p : PlayerStats) (args : StatsArgs) (now : Int) : List AbstractStatsHolder × PlayerStats :=
  ([.detect p.statsDetectHolder, .location p.statsLocationHolder] ++
      (p.wildMonStatsHolder.map .wildMon).toList ++
      (if args.gameStatsRaw then (p.statsLocationRawHolder.map .locationRaw).toList else []),
    init args p.worker now)

/-- The events of kind `k` of worker `w` in the live entries. -/
def count (w : String) (k : Counted) (p : PlayerStats) : Nat :=
  p.statsDetectHolder.count w k + p.statsLocationHolder.count w k

@[simp] theorem count_init (args : StatsArgs) : (init args w' now).count w k = 0 := by
  simp [count, init]

theorem count_detected (p : PlayerStats) (t : Int) (new : NewCounts) :
    (p.detected t new).count w k = p.count w k + if p.worker = w then new.count k else 0 := by
  have hdetect : (p.detected t new).statsDetectHolder.count w k =
      p.statsDetectHolder.count w k + if p.worker = w then new.count k else 0 := by
    rw [← p.detect_worker]
    exact StatsDetectEntry.count_update _ t new
  have hlocation : (p.detected t new).statsLocationHolder = p.statsLocationHolder := rfl
  rw [count, count, hdetect, hlocation]
  omega

@[simp] theorem count_sawWild (p : PlayerStats) (id t : Int) (shiny : Bool) :
    (p.sawWild id t shiny).count w k = p.count w k := rfl

@[simp] theorem worker_sawWild (p : PlayerStats) (id t : Int) (shiny : Bool) :
    (p.sawWild id t shiny).worker = p.worker := rfl

theorem count_location (p : PlayerStats) (d : LocationData) :
    (p.statsCollectLocationData d).count w k =
      p.count w k + if p.worker = w then locationCount d.success k else 0 := by
  have hlocation : (p.statsCollectLocationData d).statsLocationHolder.count w k =
      p.statsLocationHolder.count w k + if p.worker = w then locationCount d.success k else 0 := by
    rw [← p.location_worker]
    exact StatsLocationEntry.count_update _ _ d.success
  have hdetect : (p.statsCollectLocationData d).statsDetectHolder = p.statsDetectHolder := rfl
  rw [count, count, hdetect, hlocation]
  omega

/-- What is handed over is all that was counted. -/
theorem count_submit (p : PlayerStats) (args : StatsArgs) :
    total (AbstractStatsHolder.count w k) (p.submit args now).1 = p.count w k := by
  have hwild : total (AbstractStatsHolder.count w k)
      (p.wildMonStatsHolder.map AbstractStatsHolder.wildMon).toList = 0 := by
    cases p.wildMonStatsHolder <;> rfl
  have hraw : total (AbstractStatsHolder.count w k) (if args.gameStatsRaw then
      (p.statsLocationRawHolder.map AbstractStatsHolder.locationRaw).toList else []) = 0 := by
    cases p.statsLocationRawHolder <;> cases args.gameStatsRaw <;> rfl
  simp only [submit, total_append, total_cons, total_nil, hwild, hraw, AbstractStatsHolder.count]
  rfl

end PlayerStats

end MapADroid.Stats
