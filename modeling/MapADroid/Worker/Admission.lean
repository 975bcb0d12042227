import MapADroid.Worker.StrategyFactory
import MapADroid.Worker.WalkerValue
import Mathlib.Data.Finset.Card

/- Admission to an area, and staying in it.

   `pre_check_value` decides whether a worker is sent into an area, `check_walker` and
   `check_max_walkers_reached` whether it stays. They apply the same rules, but treat
   values that do not suit the mode differently: what the first lets pass or catches,
   the second refuses or lets escape. `admission_agrees_iff` says for which values they
   agree. -/
namespace MapADroid.Worker

/-- `check_max_walkers_reached` of a worker with a walker. -/
def checkMaxWalkersReached (w : SettingsWalkerarea) (registeredWorkers : Nat) : Bool :=
  match w.maxWalkers with
  | none => true
  | some maxWalkers => !(maxWalkers ≠ 0 && maxWalkers < registeredWorkers)

/-- `check_walker` at second `time` and microsecond `now` of the local day; `none` where an exception is raised. -/
def checkWalker (u : Unicode) (w : SettingsWalkerarea) (eventId time : Int) (workerstart : Option Int)
    (now : Int) (processedRounds : Option Int) : Option Bool :=
  if ∃ eventid ∈ w.eventid, eventid ≠ eventId then some false
  else
    match w.algoType, w.algoValue with
    | .countdown, none => some false
    | .countdown, some countdown =>
      if countdown = "" then some false
      else
        match workerstart with
        | none => some false
        | some start => (u.int countdown.toList).map fun n => !(time ≥ start + n)
    | .timer, none => some false
    | .timer, some exittime =>
      if exittime = "" ∨ ':' ∉ exittime.toList then some false else checkWalkerValueType u now exittime
    | .round, none => none
    | .round, some rounds =>
      if rounds = "" then some false
      else
        match processedRounds with
        | none => some true
        | some processed => (u.int rounds.toList).map fun n => !(processed ≥ n)
    | .period, none => none
    | .period, some period => if period = "" then some false else checkWalkerValueType u now period
    | .coords, none => some true
    | .coords, some exittime => if exittime = "" then some true else checkWalkerValueType u now exittime
    | .idle, none => none
    -- Sleeps until the period is over.
    | .idle, some sleeptime =>
      if sleeptime = "" then some false else (checkWalkerValueType u now sleeptime).map fun _ => false

/-- `pre_check_value` with its own `int` and `check_walker_value_type`, of which it catches a `ValueError`. -/
def preCheck (u : Unicode) (w : SettingsWalkerarea) (eventId now : Int) (workers coords : Nat) (rounds : Int) :
    Option Bool :=
  preCheckValue (fun s => u.int s.toList) w
    { eventId := eventId
      workersRegisteredToRoute := workers
      coordsScannable := coords
      roundsProcessed := rounds
      checkWalkerValueType := fun value => (checkWalkerValueType u now value).getD false }

/-- Nothing raises, and a worker that is admitted, registered and started at once stays. -/
def Agrees (u : Unicode) (w : SettingsWalkerarea) (eventId time now : Int) (origin : String)
    (registered : Finset String) (coords : Nat) (rounds : Int) : Prop :=
  ∃ admitted stays : Bool,
    preCheck u w eventId now (registered.erase origin).card coords rounds = some admitted ∧
      checkWalker u w eventId time (some time) now (some rounds) = some stays ∧
      (admitted = true → stays = true ∧ checkMaxWalkersReached w (insert origin registered).card = true)

/-! ## When they agree -/

/-- The area is used for another event. -/
def OtherEvent (w : SettingsWalkerarea) (eventId : Int) : Prop := ∃ eventid ∈ w.eventid, eventid ≠ eventId

/-- The other workers are as many as may be. -/
def MaxReached (w : SettingsWalkerarea) (workers : Nat) : Prop :=
  ∃ maxWalkers ∈ w.maxWalkers, 0 < maxWalkers ∧ maxWalkers ≤ workers

/-- The value suits the mode. -/
def Suits (u : Unicode) (now : Int) : AlgoType → Option String → Prop
  | .countdown, some value => ∃ n ∈ u.int value.toList, 0 < n
  | .timer, some value | .period, some value => value ≠ "" ∧ (checkWalkerValueType u now value).isSome
  | .round, some value => value = "" ∨ (u.int value.toList).isSome
  | .coords, none => True
  | .coords, some value => value = "" ∨ (checkWalkerValueType u now value).isSome
  | _, _ => False

/-- The value does not suit the mode, but nothing raises in an area that is full. -/
def Refused (u : Unicode) : AlgoType → Option String → Prop
  | .countdown, none | .timer, none => True
  | .countdown, some value => value = "" ∨ ∃ n ∈ u.int value.toList, n ≤ 0
  | .timer, some value | .period, some value => value = ""
  | _, _ => False

variable {u : Unicode} {w : SettingsWalkerarea} {eventId time now rounds : Int} {origin : String}
  {registered : Finset String} {coords workers : Nat}

theorem card_registered (origin : String) (registered : Finset String) :
    (insert origin registered).card = (registered.erase origin).card + 1 := by
  have hinsert : insert origin registered = insert origin (registered.erase origin) := by
    ext x
    by_cases hx : x = origin
    · simp [hx]
    · simp [hx]
  rw [hinsert, Finset.card_insert_of_notMem (Finset.notMem_erase origin registered)]

/-- The worker itself fits in where the others leave room. -/
theorem room_left (hmax : ∀ m ∈ w.maxWalkers, 0 ≤ m) (h : ¬ MaxReached w workers) :
    checkMaxWalkersReached w (workers + 1) = true := by
  unfold checkMaxWalkersReached
  cases hw : w.maxWalkers with
  | none => rfl
  | some m =>
    have hnonneg := hmax m hw
    have hroom : ¬ (0 < m ∧ m ≤ workers) := fun hm => h ⟨m, hw, hm⟩
    simp
    omega

/-! ## The two checks past the event and the number of workers -/

/-- `pre_check_value` past its gates. -/
def admits (u : Unicode) (now rounds : Int) : AlgoType → Option String → Option Bool
  | .countdown, _ => some true
  | .round, none => some false
  | .round, some value => some ((u.int value.toList).any fun n => n > rounds)
  | .coords, none => some true
  | .timer, none | .period, none | .idle, none => none
  | _, some value => if value = "" then some true else some ((checkWalkerValueType u now value).getD false)

/-- `check_walker` of a worker that starts now, past the event. -/
def stay (u : Unicode) (now rounds : Int) : AlgoType → Option String → Option Bool
  | .countdown, none | .timer, none => some false
  | .countdown, some value =>
    if value = "" then some false else (u.int value.toList).map fun n => !(n ≤ 0)
  | .timer, some value =>
    if value = "" ∨ ':' ∉ value.toList then some false else checkWalkerValueType u now value
  | .round, none | .period, none | .idle, none => none
  | .round, some value =>
    if value = "" then some false else (u.int value.toList).map fun n => !(rounds ≥ n)
  | .period, some value => if value = "" then some false else checkWalkerValueType u now value
  | .coords, none => some true
  | .coords, some value => if value = "" then some true else checkWalkerValueType u now value
  | .idle, some value =>
    if value = "" then some false else (checkWalkerValueType u now value).map fun _ => false

theorem preCheck_of_gate (h : OtherEvent w eventId ∨ MaxReached w workers) :
    preCheck u w eventId now workers coords rounds = some false := by
  unfold preCheck preCheckValue
  by_cases hmax : MaxReached w workers
  · exact if_pos hmax
  · rw [if_neg (show ¬ ∃ m ∈ w.maxWalkers, 0 < m ∧ m ≤ (workers : Int) from hmax)]
    exact if_pos (h.resolve_right hmax)

theorem preCheck_eq (hevent : ¬ OtherEvent w eventId) (hmax : ¬ MaxReached w workers) (hcoords : coords ≠ 0) :
    preCheck u w eventId now workers coords rounds = admits u now rounds w.algoType w.algoValue := by
  unfold preCheck preCheckValue
  rw [if_neg (show ¬ ∃ m ∈ w.maxWalkers, 0 < m ∧ m ≤ (workers : Int) from hmax),
    if_neg (show ¬ ∃ e ∈ w.eventid, e ≠ eventId from hevent), if_neg (by simp [hcoords])]
  cases w.algoType <;> cases hvalue : w.algoValue <;> simp [admits]
  next value => cases u.int value.toList <;> simp

theorem checkWalker_of_event (h : OtherEvent w eventId) :
    checkWalker u w eventId time (some time) now (some rounds) = some false := by
  unfold checkWalker
  exact if_pos h

theorem checkWalker_eq (hevent : ¬ OtherEvent w eventId) :
    checkWalker u w eventId time (some time) now (some rounds) = stay u now rounds w.algoType w.algoValue := by
  unfold checkWalker
  rw [if_neg (show ¬ ∃ e ∈ w.eventid, e ≠ eventId from hevent)]
  have hstart : ∀ n : Int, (time + n ≤ time) = (n ≤ 0) := fun n => propext (by omega)
  cases w.algoType <;> cases w.algoValue <;> simp [stay, hstart]

@[simp] theorem int_empty (u : Unicode) : u.int [] = none := rfl

/-- In an area that is full nobody is admitted, but the check of the others must not raise. -/
theorem isSome_stay_iff {type : AlgoType} (hidle : type ≠ .idle) (value : Option String) :
    (stay u now rounds type value).isSome ↔ Suits u now type value ∨ Refused u type value := by
  cases type with
  | idle => exact absurd rfl hidle
  | countdown =>
    cases value with
    | none => simp [stay, Refused]
    | some value =>
      by_cases hempty : value = ""
      · simp [stay, Refused, hempty]
      · cases hint : u.int value.toList with
        | none => simp [stay, Suits, Refused, hempty, hint]
        | some n =>
          simp [stay, Suits, Refused, hempty, hint]
          omega
  | timer =>
    cases value with
    | none => simp [stay, Refused]
    | some value =>
      by_cases hempty : value = ""
      · simp [stay, Refused, hempty]
      · by_cases hcolon : ':' ∈ value.toList
        · simp [stay, Suits, Refused, hempty, hcolon]
        · simp [stay, Suits, hempty, hcolon, checkWalkerValueType_of_notMem hcolon]
  | round =>
    cases value with
    | none => simp [stay, Suits, Refused]
    | some value =>
      by_cases hempty : value = ""
      · simp [stay, Suits, hempty]
      · simp [stay, Suits, Refused, hempty]
  | period =>
    cases value with
    | none => simp [stay, Suits, Refused]
    | some value =>
      by_cases hempty : value = ""
      · simp [stay, Refused, hempty]
      · simp [stay, Suits, Refused, hempty]
  | coords =>
    cases value with
    | none => simp [stay, Suits]
    | some value =>
      by_cases hempty : value = ""
      · simp [stay, Suits, hempty]
      · simp [stay, Suits, Refused, hempty]

/-- Where there is room, the checks agree exactly on the values that suit the mode. -/
theorem admit_agrees_iff {type : AlgoType} (hidle : type ≠ .idle) (value : Option String) :
    (∃ admitted stays : Bool, admits u now rounds type value = some admitted ∧
        stay u now rounds type value = some stays ∧ (admitted = true → stays = true)) ↔
      Suits u now type value := by
  cases type with
  | idle => exact absurd rfl hidle
  | countdown =>
    cases value with
    | none => simp [admits, stay, Suits]
    | some value =>
      by_cases hempty : value = ""
      · simp [admits, stay, Suits, hempty]
      · cases hint : u.int value.toList with
        | none => simp [stay, Suits, hempty, hint]
        | some n => simp [admits, stay, Suits, hempty, hint]
  | timer =>
    cases value with
    | none => simp [admits, Suits]
    | some value =>
      by_cases hempty : value = ""
      · simp [admits, stay, Suits, hempty]
      · by_cases hcolon : ':' ∈ value.toList
        · cases hcheck : checkWalkerValueType u now value with
          | none => simp [stay, Suits, hempty, hcolon, hcheck]
          | some b => simp [admits, stay, Suits, hempty, hcolon, hcheck]
        · simp [admits, stay, Suits, hempty, hcolon, checkWalkerValueType_of_notMem hcolon]
  | round =>
    cases value with
    | none => simp [stay, Suits]
    | some value =>
      by_cases hempty : value = ""
      · simp [admits, stay, Suits, hempty]
      · cases hint : u.int value.toList with
        | none => simp [stay, Suits, hempty, hint]
        | some n =>
          simp [admits, stay, Suits, hempty, hint]
          omega
  | period =>
    cases value with
    | none => simp [stay, Suits]
    | some value =>
      by_cases hempty : value = ""
      · simp [admits, stay, Suits, hempty]
      · cases hcheck : checkWalkerValueType u now value with
        | none => simp [stay, Suits, hempty, hcheck]
        | some b => simp [admits, stay, Suits, hempty, hcheck]
  | coords =>
    cases value with
    | none => simp [admits, stay, Suits]
    | some value =>
      by_cases hempty : value = ""
      · simp [admits, stay, Suits, hempty]
      · cases hcheck : checkWalkerValueType u now value with
        | none => simp [stay, Suits, hempty, hcheck]
        | some b => simp [admits, stay, Suits, hempty, hcheck]

/-- The checks agree exactly where the area is used for another event, the value suits the mode, or the
area is full and the value is one that is only refused. -/
theorem admission_agrees_iff (hidle : w.algoType ≠ .idle) (hmax : ∀ m ∈ w.maxWalkers, 0 ≤ m)
    (hcoords : coords ≠ 0) :
    Agrees u w eventId time now origin registered coords rounds ↔
      OtherEvent w eventId ∨ Suits u now w.algoType w.algoValue ∨
        MaxReached w (registered.erase origin).card ∧ Refused u w.algoType w.algoValue := by
  unfold Agrees
  by_cases hevent : OtherEvent w eventId
  · rw [preCheck_of_gate (.inl hevent), checkWalker_of_event hevent]
    simp [hevent]
  · rw [checkWalker_eq hevent]
    by_cases hfull : MaxReached w (registered.erase origin).card
    · have hstay := @isSome_stay_iff u now rounds _ hidle w.algoValue
      rw [preCheck_of_gate (.inr hfull)]
      simp only [hevent, hfull, false_or, true_and]
      rw [← hstay, Option.isSome_iff_exists]
      simp
    · have hagree := @admit_agrees_iff u now rounds _ hidle w.algoValue
      rw [preCheck_eq hevent hfull hcoords, card_registered, room_left hmax hfull]
      simp only [hevent, hfull, false_or, false_and, or_false, and_true]
      exact hagree

/-- A worker in an area that is scanned until a quarter to nine, at eight o'clock. -/
theorem timer_agrees :
    Agrees ascii ⟨1, .timer, some "20:45", some 2, none⟩ 1 5 (20 * 3600000000) "a" {"b"} 7 0 :=
  (admission_agrees_iff (by decide) (by simp) (by decide)).mpr (.inr (.inl ⟨by decide, by decide +kernel⟩))

/-- An area with an empty time: the worker is admitted and leaves at once. -/
theorem empty_timer_disagrees :
    ¬ ∀ (u : Unicode) (w : SettingsWalkerarea) (eventId time now rounds : Int) (origin : String)
      (registered : Finset String) (coords : Nat), w.algoType ≠ .idle → (∀ m ∈ w.maxWalkers, 0 ≤ m) →
      coords ≠ 0 → Agrees u w eventId time now origin registered coords rounds := by
  intro h
  have hagrees := h ascii ⟨1, .timer, some "", none, none⟩ 1 5 0 0 "a" ∅ 7 (by decide) (by simp) (by decide)
  obtain ⟨admitted, stays, hadmitted, hstays, himp⟩ := hagrees
  have htrue : preCheck ascii ⟨1, .timer, some "", none, none⟩ 1 0 ((∅ : Finset String).erase "a").card 7 0 =
      some true := by decide +kernel
  have hfalse : checkWalker ascii ⟨1, .timer, some "", none, none⟩ 1 5 (some 5) 0 (some 0) = some false := by
    decide +kernel
  rw [htrue] at hadmitted
  rw [hfalse] at hstays
  cases hadmitted
  cases hstays
  exact absurd (himp rfl).1 (by decide)

end MapADroid.Worker
