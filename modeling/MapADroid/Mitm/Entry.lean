import MapADroid.Location
import Mathlib.Data.Rat.Floor

/- Entries of the latest data received from a worker, and the two checks on their
   timestamps that both stores make.

   A timestamp is a Python number. Comparing looks at its value only, but what Redis
   gives back of one depends on whether it was an `int` or a `float`, so the two are
   kept apart. -/
namespace MapADroid.Mitm

/-- A timestamp in seconds, an `int` or a `float`. -/
inductive Timestamp where
  | int (i : Int)
  | float (q : ℚ)
  deriving DecidableEq

namespace Timestamp

def val : Timestamp → ℚ
  | int i => i
  | float q => q

/-- The truth value of a number. -/
def truthy (t : Timestamp) : Bool := t.val ≠ 0

/-- `int(t)`: the fraction is cut off. -/
def toInt : Timestamp → Int
  | int i => i
  | float q => if 0 ≤ q then ⌊q⌋ else ⌈q⌉

theorem truthy_eq_true {t : Timestamp} : t.truthy = true ↔ t.val ≠ 0 := decide_eq_true_iff

theorem toInt_lt_of_val_lt {t : Timestamp} {i : Int} (h0 : 0 ≤ t.val) (h : t.val < i) : t.toInt < i := by
  cases t with
  | int j => exact Int.cast_lt.mp h
  | float q =>
    rw [toInt, if_pos (show (0 : ℚ) ≤ q from h0)]
    exact Int.floor_lt.mpr h

theorem val_lt_of_toInt_lt {t : Timestamp} {i : Int} (h0 : 0 < t.val) (h : t.toInt < i) : t.val < i := by
  cases t with
  | int j => exact Int.cast_lt.mpr h
  | float q =>
    rw [toInt, if_pos (show (0 : ℚ) < q from h0).le] at h
    exact Int.floor_lt.mp h

end Timestamp

/-- What a proto carries; what is read of its payload is a parameter.

`cells` is the ids of the cells in a GMO, `none` where reading them raises. -/
structure PayloadReader (P : Type) where
  hasCells : P → Bool
  cells : P → Option (List Int)
  status : P → Option Int
  hasRoutes : P → Bool
  result : P → Int

/-- Payloads that are the ids of the cells they have. -/
def cellsOnly : PayloadReader (List Int) where
  hasCells ids := ids ≠ []
  cells := some
  status _ := none
  hasRoutes _ := false
  result _ := 0

/-- `LatestMitmDataEntry`. Both stores replace a missing timestamp by the time of the call
before they make one, so neither is `None`. -/
structure LatestMitmDataEntry (P : Type) where
  location : Option (Location ℚ)
  /-- The time MAD received the data from a device/worker. -/
  timestampReceived : Timestamp
  /-- The time that the device/worker received the data. -/
  timestampOfDataRetrieval : Timestamp
  data : P
  deriving DecidableEq

variable {P : Type}

/-- The check of `update_latest` and `LatestMitmDataHolder.update`: an update is ignored
"as it yields an older timestamp than the one known to us". -/
def ignoresUpdate (latest : Option (LatestMitmDataEntry P)) (retrieval : Timestamp) : Bool :=
  match latest with
  | none => false
  | some e => e.timestampReceived.truthy &&
      (!retrieval.truthy || retrieval.val < e.timestampOfDataRetrieval.val)

/-- The check of `request_latest` and `get_specific_latest_data`. -/
def answersRequest (latest : Option (LatestMitmDataEntry P)) (earliest : Option Timestamp) :
    Option (LatestMitmDataEntry P) :=
  match latest, earliest with
  | none, _ => none
  | some e, none => some e
  | some e, some t =>
    if t.truthy && e.timestampOfDataRetrieval.truthy &&
        e.timestampOfDataRetrieval.toInt ≤ t.toInt then none
    else some e

theorem le_of_not_ignoresUpdate {e : LatestMitmDataEntry P} {retrieval : Timestamp}
    (h : ignoresUpdate (some e) retrieval = false) (he : e.timestampReceived.truthy = true) :
    e.timestampOfDataRetrieval.val ≤ retrieval.val := by
  simp only [ignoresUpdate, he, Bool.true_and, Bool.or_eq_false_iff, decide_eq_false_iff_not] at h
  exact not_lt.mp h.2

theorem answersRequest_none (latest : Option (LatestMitmDataEntry P)) :
    answersRequest latest none = latest := by
  cases latest <;> rfl

/-- `str(ProtoIdentifier.GMO.value)`. -/
def gmoKey : String := "106"

/-- The arguments of `update_latest`. -/
structure Update (P : Type) where
  worker : String
  key : String
  value : P
  timestampReceivedRaw : Option Timestamp
  timestampReceivedReceiver : Option Timestamp
  location : Option (Location ℚ)
  deriving DecidableEq

namespace Update

/-- `timestamp_received_raw`, `int(time.time())` where it is not given. -/
def raw (u : Update P) (time : Int) : Timestamp := u.timestampReceivedRaw.getD (.int time)

/-- `timestamp_received_receiver`, `int(time.time())` where it is not given. -/
def receiver (u : Update P) (time : Int) : Timestamp := u.timestampReceivedReceiver.getD (.int time)

/-- The entry made of an update, the raw timestamp as the time of reception. -/
def entry (u : Update P) (time : Int) : LatestMitmDataEntry P :=
  ⟨u.location, u.raw time, u.receiver time, u.value⟩

end Update

end MapADroid.Mitm
