import Mathlib.Data.Rat.Floor

/- The jobs of the device updater (`mapadroid/updater`) and what `__handle_job`
   does to one entry.

   `DeviceUpdater.__handle_job` is cut at its suspension points: `handleStart` is
   everything up to the first of them, `handleConnect` what follows the first
   `__update_log`, `handleOutcome` what follows the device's answer. The awaits
   themselves, the log and the queue are in `Updater.Queue`.

   Clocks read seconds since the epoch as a rational; `int(time.time())` is its
   floor. `TYPE`, `SYNTAX` and `FIELDNAME` of a sub job are read only by the call
   to the device, whose result is left open, and are not modelled. -/
namespace MapADroid.Updater

/-- `JobStatus`. -/
inductive JobStatus where
  | none | init | pending | starting | processing | notConnected | notRequired
  | notSupported | cancelled | interrupted | failing | failed | future | success
  deriving DecidableEq, Repr, Inhabited

/-- `SubJob`: the wait before it, in minutes. -/
structure SubJob where
  waittime : Option Int := Option.none
  deriving DecidableEq, Repr

/-- `GlobalJobLogAlgoType`. -/
inductive GlobalJobLogAlgoType where
  | loop | daily
  deriving DecidableEq, Repr

/-- `Autocommand.algo_value`: minutes, or a time of day. -/
inductive AlgoValue where
  | int (n : Int)
  | str (s : String)
  deriving DecidableEq, Repr

/-- `Autocommand`: the settings `__handle_job` reads. -/
structure Autocommand where
  redo : Bool
  algoValue : AlgoValue
  redoOnError : Bool
  algoType : GlobalJobLogAlgoType := .loop
  deriving DecidableEq, Repr

/-- `GlobalJobLogEntry`. -/
structure GlobalJobLogEntry where
  id : String
  origin : String
  jobName : String
  subJobs : List SubJob := []
  lastStatus : JobStatus := .init
  counter : Nat := 0
  autoCommandSettings : Option Autocommand := Option.none
  processingDate : Option ℚ := Option.none
  subJobIndex : Nat := 0
  deriving DecidableEq, Inhabited

/-- `auto_command_settings is not None and auto_command_settings.redo`. -/
def GlobalJobLogEntry.redo (e : GlobalJobLogEntry) : Bool :=
  e.autoCommandSettings.any (·.redo)

/-- `auto_command_settings is not None and auto_command_settings.redo_on_error`. -/
def GlobalJobLogEntry.redoOnError (e : GlobalJobLogEntry) : Bool :=
  e.autoCommandSettings.any (·.redoOnError)

/-- The Python exceptions the modelled code can meet. -/
inductive PyError where
  | valueError | indexError | keyError
  deriving DecidableEq, Repr

/-! ## The next execution of an auto command -/

/-- The value of decimal digits, single underscores between them allowed. -/
def digits (cs : List Char) : Option Nat :=
  let groups := cs.splitOn '_'
  if groups.all fun g => !g.isEmpty && g.all Char.isDigit then
    some (groups.flatten.foldl (fun n c => 10 * n + (c.toNat - '0'.toNat)) 0)
  else none

/-- `int(...)` of a string: surrounding blanks and a sign are accepted. -/
def pyInt (cs : List Char) : Option Int :=
  let body := ((cs.dropWhile Char.isWhitespace).reverse.dropWhile Char.isWhitespace).reverse
  match body with
  | '-' :: ds => (digits ds).map fun n => -(n : Int)
  | '+' :: ds => (digits ds).map Int.ofNat
  | ds => (digits ds).map Int.ofNat

/-- Seconds from the reading `sub` to hour `h`, minute `m` of the UTC day of the
reading `now`: `timedelta.seconds` drops whole days. -/
def secondsUntil (h m : Int) (now sub : ℚ) : Int :=
  ⌊((⌊now⌋ / 86400 * 86400 + 3600 * h + 60 * m : Int) : ℚ) - sub⌋ % 86400

/-- `get_job_algo_value`: minutes to the next execution, `none` where type and value
do not match. `now` and `sub` are its two readings of the clock. -/
def getJobAlgoValue (algoType : GlobalJobLogAlgoType) (algoValue : AlgoValue) (now sub : ℚ) :
    Except PyError (Option Int) :=
  match algoType, algoValue with
  | .loop, .int n => .ok (some n)
  | .daily, .str s =>
    match s.toList.splitOn ':' with
    | [hh, mm] =>
      match pyInt hh, pyInt mm with
      | some h, some m =>
        if 0 ≤ h ∧ h < 24 ∧ 0 ≤ m ∧ m < 60 then .ok (some (secondsUntil h m now sub / 60))
        else .error .valueError
      | _, _ => .error .valueError
    | _ => .ok none
  | _, _ => .ok none

/-! ## `__handle_job`, between its suspension points -/

/-- The clock readings of the first part of `__handle_job`, in program order: two of
`DatetimeWrapper.now()`, then four of `time.time()`. -/
structure Readings where
  now : ℚ
  sub : ℚ
  algo : ℚ
  wait : ℚ
  check : ℚ
  start : ℚ

/-- Every reading the same. -/
def Readings.at (t : ℚ) : Readings := ⟨t, t, t, t, t, t⟩

/-- Why `__handle_job` awaits `restart_job`. -/
inductive Restarting where
  | failing | notConnected | redo
  deriving DecidableEq, Repr

/-- How a part of `__handle_job` ends. -/
inductive Next where
  /-- It returned; `true` for `True`, `false` for `False` or `None`. -/
  | returned (processed : Bool)
  | raised (e : PyError)
  | restarting (why : Restarting)
  /-- It awaits `__update_log` before it looks for the device. -/
  | processing
  deriving DecidableEq, Repr

/-- The date the settings of an auto command put on an entry without one: `ok none`
where the settings are invalid. -/
def algoDate (clk : Readings) (e : GlobalJobLogEntry) : Except PyError (Option (Option ℚ)) :=
  match e.autoCommandSettings with
  | none => .ok (some none)
  | some auto =>
    (getJobAlgoValue auto.algoType auto.algoValue clk.now clk.sub).map fun minutes =>
      minutes.map fun m => some ((⌊clk.algo⌋ + 60 * m : Int) : ℚ)

/-- The wait of the sub job to run next, on top of `date`. -/
def addWaittime (clk : Readings) (e : GlobalJobLogEntry) (date : Option ℚ) : Option ℚ :=
  match (e.subJobs[e.subJobIndex]?).bind (·.waittime) with
  | none => date
  | some w => some (date.getD ⌊clk.wait⌋ + 60 * w)

/-- The processing date is only set where there is none yet. -/
def schedule (clk : Readings) (e : GlobalJobLogEntry) : Except PyError (Option GlobalJobLogEntry) :=
  if e.processingDate.isSome then .ok (some e)
  else (algoDate clk e).map fun date =>
    date.map fun d => { e with processingDate := addWaittime clk e d }

/-- Whether the entry is not to be run before a later moment than `now`. -/
def GlobalJobLogEntry.dueAfter (e : GlobalJobLogEntry) (now : ℚ) : Bool :=
  e.processingDate.any fun d => now < d

/-- `__handle_job` from its start to its first suspension point. -/
def handleStart (jobRestartNotconnect : Int) (clk : Readings) (e : GlobalJobLogEntry) :
    GlobalJobLogEntry × Next :=
  if e.subJobs.length ≤ e.subJobIndex then (e, .returned true)
  else if e.lastStatus = .cancelled then (e, .returned true)
  else if e.lastStatus = .failed then (e, .returned true)
  else if 3 < e.counter then
    if e.lastStatus = .failing then
      if e.redoOnError then (e, .restarting .failing)
      else ({ e with lastStatus := .failed }, .returned true)
    else if e.lastStatus = .notConnected ∧ 0 < jobRestartNotconnect then
      ({ e with processingDate := some (clk.now + 60 * jobRestartNotconnect) },
        .restarting .notConnected)
    else (e, .returned true)
  else
    match schedule clk e with
    | .error err => (e, .raised err)
    | .ok none => (e, .returned true)
    | .ok (some e') =>
      if e'.dueAfter clk.check then ({ e' with lastStatus := .future }, .returned false)
      else ({ e' with lastStatus := .processing, processingDate := some ⌊clk.start⌋ }, .processing)

/-- The part after the first `__update_log`: the entry, and whether there is a
communicator to start the sub job with. -/
def handleConnect (connected : Bool) (now : ℚ) (e : GlobalJobLogEntry) : GlobalJobLogEntry :=
  if connected then { e with lastStatus := .starting }
  else { e with lastStatus := .notConnected, counter := e.counter + 1,
                processingDate := some ((⌊now⌋ + 60 : Int) : ℚ) }

/-- How `__start_job_type` ends. -/
inductive Outcome where
  | success | failure | exception
  deriving DecidableEq, Repr

/-- The part after `__start_job_type`, up to the redo of an auto command; the
`finally` block counts every attempt. -/
def handleOutcome (e : GlobalJobLogEntry) : Outcome → GlobalJobLogEntry
  | .success => { e with subJobIndex := e.subJobIndex + 1, lastStatus := .success, counter := 0 + 1 }
  | .failure => { e with lastStatus := .failing, counter := e.counter + 1 }
  | .exception => { e with lastStatus := .interrupted, counter := e.counter + 1 }

/-- What `restart_job` does to the logged entry. -/
def GlobalJobLogEntry.restart (e : GlobalJobLogEntry) (now : ℚ) : GlobalJobLogEntry :=
  { e with
    counter := 0
    subJobIndex := 0
    processingDate := e.processingDate.filter fun d => ¬ d < (⌊now⌋ : ℚ)
    lastStatus := .pending }

/-! ## What the parts leave alone -/

/-- The fields of an entry nothing changes after `add_job`. -/
structure SameJob (e e' : GlobalJobLogEntry) : Prop where
  id : e'.id = e.id
  origin : e'.origin = e.origin
  subJobs : e'.subJobs = e.subJobs
  auto : e'.autoCommandSettings = e.autoCommandSettings

theorem SameJob.refl (e : GlobalJobLogEntry) : SameJob e e := ⟨rfl, rfl, rfl, rfl⟩

theorem SameJob.trans {e e' e'' : GlobalJobLogEntry} (h : SameJob e e') (h' : SameJob e' e'') :
    SameJob e e'' :=
  ⟨h'.id.trans h.id, h'.origin.trans h.origin, h'.subJobs.trans h.subJobs, h'.auto.trans h.auto⟩

/-- A scheduled entry differs in its processing date only. -/
theorem schedule_same {clk : Readings} {e e' : GlobalJobLogEntry}
    (h : schedule clk e = .ok (some e')) :
    SameJob e e' ∧ e'.subJobIndex = e.subJobIndex ∧ e'.counter = e.counter := by
  unfold schedule at h
  split at h
  · cases h
    exact ⟨.refl _, rfl, rfl⟩
  · cases hd : algoDate clk e with
    | error err => rw [hd] at h; cases h
    | ok date =>
      rw [hd] at h
      cases date with
      | none => cases h
      | some d => cases h; exact ⟨⟨rfl, rfl, rfl, rfl⟩, rfl, rfl⟩

theorem handleStart_same (cfg : Int) (clk : Readings) (e : GlobalJobLogEntry) :
    SameJob e (handleStart cfg clk e).1 ∧ (handleStart cfg clk e).1.subJobIndex = e.subJobIndex := by
  unfold handleStart
  split
  · exact ⟨.refl _, rfl⟩
  split
  · exact ⟨.refl _, rfl⟩
  split
  · exact ⟨.refl _, rfl⟩
  split
  · split
    · split
      · exact ⟨.refl _, rfl⟩
      · exact ⟨⟨rfl, rfl, rfl, rfl⟩, rfl⟩
    · split
      · exact ⟨⟨rfl, rfl, rfl, rfl⟩, rfl⟩
      · exact ⟨.refl _, rfl⟩
  · split
    · exact ⟨.refl _, rfl⟩
    · exact ⟨.refl _, rfl⟩
    · next e' he =>
      obtain ⟨hsame, hindex, _⟩ := schedule_same he
      split
      · exact ⟨hsame.trans ⟨rfl, rfl, rfl, rfl⟩, hindex⟩
      · exact ⟨hsame.trans ⟨rfl, rfl, rfl, rfl⟩, hindex⟩

theorem handleConnect_same (connected : Bool) (now : ℚ) (e : GlobalJobLogEntry) :
    SameJob e (handleConnect connected now e) ∧
      (handleConnect connected now e).subJobIndex = e.subJobIndex := by
  cases connected
  · exact ⟨⟨rfl, rfl, rfl, rfl⟩, rfl⟩
  · exact ⟨⟨rfl, rfl, rfl, rfl⟩, rfl⟩

theorem handleOutcome_same (e : GlobalJobLogEntry) (o : Outcome) : SameJob e (handleOutcome e o) := by
  cases o <;> exact ⟨rfl, rfl, rfl, rfl⟩

theorem restart_same (e : GlobalJobLogEntry) (now : ℚ) : SameJob e (e.restart now) :=
  ⟨rfl, rfl, rfl, rfl⟩

end MapADroid.Updater
