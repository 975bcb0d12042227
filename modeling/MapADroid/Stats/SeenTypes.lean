import MapADroid.Lib.Batches
import MapADroid.Lib.Dict
import Mathlib.Data.List.Induction

/- Statistics on how a spawn was detected first: the holder that collects a batch of
   detections and the table it is written to.

   The table keeps the earliest time of each type (`createOrUpdate`), the holder
   overwrites the time it has with the newest (`Entry.update`). So what the table ends
   up with depends on where the batches were cut: the time kept is the newest one of
   the first batch with such a detection (`time_submitAll`), which is the earliest one
   exactly if that batch has only one time for it (`rows_earliest_iff`). -/
namespace MapADroid.Stats
open Lib

inductive MonSeenTypes where
  | wild | encounter | lureEncounter | lureWild | nearbyStop | nearbyCell
  deriving DecidableEq, Repr

/-- The six columns with times, `none` for NULL. -/
structure SeenTimes (τ : Type) where
  encounter : Option τ := none
  wild : Option τ := none
  nearbyStop : Option τ := none
  nearbyCell : Option τ := none
  lureEncounter : Option τ := none
  lureWild : Option τ := none
  deriving DecidableEq, Repr

/-- A row of `trs_stats_detect_seen_type`. -/
structure TrsStatsDetectSeenType (τ : Type) extends SeenTimes τ where
  encounterId : Int
  deriving DecidableEq, Repr

variable {τ : Type}

def SeenTimes.time (r : SeenTimes τ) : MonSeenTypes → Option τ
  | .encounter => r.encounter
  | .wild => r.wild
  | .nearbyStop => r.nearbyStop
  | .nearbyCell => r.nearbyCell
  | .lureEncounter => r.lureEncounter
  | .lureWild => r.lureWild

theorem TrsStatsDetectSeenType.ext_time {r r' : TrsStatsDetectSeenType τ}
    (hid : r.encounterId = r'.encounterId) (h : ∀ type, r.time type = r'.time type) : r = r' := by
  obtain ⟨⟨e, w, s, c, le, lw⟩, id⟩ := r
  obtain ⟨⟨e', w', s', c', le', lw'⟩, id'⟩ := r'
  have he : e = e' := h .encounter
  have hw : w = w' := h .wild
  have hs : s = s' := h .nearbyStop
  have hc : c = c' := h .nearbyCell
  have hle : le = le' := h .lureEncounter
  have hlw : lw = lw' := h .lureWild
  simp_all

/-! ## The holder -/

/-- `StatsDetectSeenTypeEntry.__init__`. -/
def statsDetectSeenTypeEntry (encounterId : Int) : TrsStatsDetectSeenType τ :=
  { encounterId := encounterId }

/-- `StatsDetectSeenTypeEntry.update`: every time that is given replaces the one held. -/
def TrsStatsDetectSeenType.update (e : TrsStatsDetectSeenType τ) (given : SeenTimes τ) :
    TrsStatsDetectSeenType τ :=
  { e with
    encounter := given.encounter.or e.encounter
    wild := given.wild.or e.wild
    nearbyStop := given.nearbyStop.or e.nearbyStop
    nearbyCell := given.nearbyCell.or e.nearbyCell
    lureEncounter := given.lureEncounter.or e.lureEncounter
    lureWild := given.lureWild.or e.lureWild }

/-- One call of `add`. -/
structure Detection (τ : Type) where
  encounterId : Int
  typeOfDetection : MonSeenTypes
  timeOfScan : τ
  deriving DecidableEq, Repr

/-- `_entries`. -/
abbrev StatsDetectSeenTypeHolder (τ : Type) := Dict Int (TrsStatsDetectSeenType τ)

namespace StatsDetectSeenTypeHolder

/-- The entry of an encounter, a new one if there is none. -/
def ensureEntryAvailable (h : StatsDetectSeenTypeHolder τ) (encounterId : Int) :
    TrsStatsDetectSeenType τ :=
  (h.get? encounterId).getD (statsDetectSeenTypeEntry encounterId)

def add (h : StatsDetectSeenTypeHolder τ) (d : Detection τ) : StatsDetectSeenTypeHolder τ :=
  let entry := ensureEntryAvailable h d.encounterId
  h.insert d.encounterId <|
    match d.typeOfDetection with
    | .encounter => entry.update { encounter := some d.timeOfScan }
    | .wild => entry.update { wild := some d.timeOfScan }
    | .nearbyStop => entry.update { nearbyStop := some d.timeOfScan }
    | .nearbyCell => entry.update { nearbyCell := some d.timeOfScan }
    | .lureEncounter => entry.update { lureEncounter := some d.timeOfScan }
    | .lureWild => entry.update { lureWild := some d.timeOfScan }

/-- A fresh holder with a batch of detections. -/
def ofBatch (batch : List (Detection τ)) : StatsDetectSeenTypeHolder τ := batch.foldl add Dict.empty

end StatsDetectSeenTypeHolder

/-! ## The table -/

/-- The table, by its primary key. -/
abbrev Table (τ : Type) := Dict Int (TrsStatsDetectSeenType τ)

section
variable [LinearOrder τ]

/-- `if not existing or stat and existing > stat: existing = stat`, for one column. -/
def updateColumn : Option τ → Option τ → Option τ
  | none, stat => stat
  | some existing, none => some existing
  | some existing, some stat => if stat < existing then some stat else some existing

/-- `TrsStatsDetectSeenTypeHelper.create_or_update`. -/
def createOrUpdate (db : Table τ) (stat : TrsStatsDetectSeenType τ) : Table τ :=
  match db.get? stat.encounterId with
  | none => db.insert stat.encounterId stat
  | some existing => db.insert stat.encounterId
      { existing with
        wild := updateColumn existing.wild stat.wild
        encounter := updateColumn existing.encounter stat.encounter
        lureEncounter := updateColumn existing.lureEncounter stat.lureEncounter
        lureWild := updateColumn existing.lureWild stat.lureWild
        nearbyCell := updateColumn existing.nearbyCell stat.nearbyCell
        nearbyStop := updateColumn existing.nearbyStop stat.nearbyStop }

/-- `submit`: the entries of the holder, one after another. -/
def submit (db : Table τ) (h : StatsDetectSeenTypeHolder τ) : Table τ :=
  h.items.foldl (fun db i => createOrUpdate db i.2) db

/-- The table after these batches, each collected in a fresh holder. -/
def submitAll (batches : List (List (Detection τ))) : Table τ :=
  batches.foldl (fun db b => submit db (.ofBatch b)) Dict.empty

end

/-! ## What the holder has -/

/-- The times of the detections of an encounter by one type, in order. -/
def times (id : Int) (type : MonSeenTypes) (l : List (Detection τ)) : List τ :=
  (l.filter fun d => d.encounterId = id ∧ d.typeOfDetection = type).map (·.timeOfScan)

def detected (id : Int) (l : List (Detection τ)) : Bool := l.any (·.encounterId = id)

/-- The row of an encounter with these times. -/
def row (id : Int) (t : MonSeenTypes → Option τ) : TrsStatsDetectSeenType τ where
  encounterId := id
  encounter := t .encounter
  wild := t .wild
  nearbyStop := t .nearbyStop
  nearbyCell := t .nearbyCell
  lureEncounter := t .lureEncounter
  lureWild := t .lureWild

@[simp] theorem encounterId_row (id : Int) (t : MonSeenTypes → Option τ) :
    (row id t).encounterId = id := rfl

@[simp] theorem time_row (id : Int) (t : MonSeenTypes → Option τ) (type : MonSeenTypes) :
    (row id t).time type = t type := by
  cases type <;> rfl

@[simp] theorem time_new (id : Int) (type : MonSeenTypes) :
    (statsDetectSeenTypeEntry id : TrsStatsDetectSeenType τ).time type = none := by
  cases type <;> rfl

theorem times_append (id : Int) (type : MonSeenTypes) (l l' : List (Detection τ)) :
    times id type (l ++ l') = times id type l ++ times id type l' := by
  simp [times]

theorem times_flatten (id : Int) (type : MonSeenTypes) (ls : List (List (Detection τ))) :
    times id type ls.flatten = (ls.map (times id type)).flatten := by
  induction ls with
  | nil => rfl
  | cons l ls ih => rw [List.flatten_cons, times_append, ih, List.map_cons, List.flatten_cons]

theorem times_eq_nil {id : Int} {type : MonSeenTypes} {l : List (Detection τ)}
    (h : detected id l = false) : times id type l = [] := by
  rw [times, List.map_eq_nil_iff, List.filter_eq_nil_iff]
  intro d hd
  have hne : ¬ d.encounterId = id := by simpa [detected] using List.any_eq_false.mp h d hd
  simp [hne]

namespace StatsDetectSeenTypeHolder

/-- `add` sets the time of the type in the entry of the encounter. -/
theorem get?_add (h : StatsDetectSeenTypeHolder τ) (d : Detection τ) (id : Int) :
    (h.add d).get? id =
      if id = d.encounterId then
        some (row (h.ensureEntryAvailable id).encounterId fun type =>
          if type = d.typeOfDetection then some d.timeOfScan
          else (h.ensureEntryAvailable id).time type)
      else h.get? id := by
  rw [add, Dict.get?_insert]
  by_cases hid : id = d.encounterId
  · subst hid
    rw [if_pos rfl, if_pos rfl, Option.some.injEq]
    cases d.typeOfDetection <;> rfl
  · rw [if_neg hid, if_neg hid]

/-- A holder has the newest time of every type. -/
theorem get?_ofBatch (b : List (Detection τ)) (id : Int) :
    (ofBatch b).get? id =
      if detected id b then some (row id fun type => (times id type b).getLast?) else none := by
  induction b using List.reverseRecOn with
  | nil => rfl
  | append_singleton b d ih =>
    have hadd : ofBatch (b ++ [d]) = (ofBatch b).add d := by simp [ofBatch]
    have hentry : (ofBatch b).ensureEntryAvailable id =
        row id fun type => (times id type b).getLast? := by
      rw [ensureEntryAvailable, ih]
      cases hb : detected id b with
      | true => rfl
      | false =>
        refine TrsStatsDetectSeenType.ext_time rfl fun type => ?_
        rw [time_row, times_eq_nil hb]
        exact time_new id type
    rw [hadd, get?_add, hentry]
    by_cases hid : id = d.encounterId
    · have hdet : detected id (b ++ [d]) = true := by simp [detected, hid]
      rw [if_pos hid, if_pos hdet, Option.some.injEq]
      refine TrsStatsDetectSeenType.ext_time rfl fun type => ?_
      have ht : times id type (b ++ [d]) =
          if type = d.typeOfDetection then times id type b ++ [d.timeOfScan] else times id type b := by
        rw [times_append]
        by_cases htype : type = d.typeOfDetection
        · simp [times, hid, htype]
        · simp [times, htype, Ne.symm htype]
      rw [time_row, time_row, time_row, ht]
      by_cases htype : type = d.typeOfDetection
      · rw [if_pos htype, if_pos htype, List.getLast?_concat]
      · rw [if_neg htype, if_neg htype]
    · have hdet : detected id (b ++ [d]) = detected id b := by simp [detected, Ne.symm hid]
      have ht : ∀ type, times id type (b ++ [d]) = times id type b := by
        intro type
        rw [times_append]
        simp [times, Ne.symm hid]
      rw [if_neg hid, ih, hdet]
      simp only [ht]

end StatsDetectSeenTypeHolder

theorem time_ofBatch (b : List (Detection τ)) (id : Int) (type : MonSeenTypes) :
    ((StatsDetectSeenTypeHolder.ofBatch b).get? id).bind (·.time type) = (times id type b).getLast? := by
  rw [StatsDetectSeenTypeHolder.get?_ofBatch]
  cases hb : detected id b with
  | true => exact time_row _ _ type
  | false => rw [times_eq_nil hb]; rfl

/-! ## What the table has -/

section
variable [LinearOrder τ]

/-- A row merged with the entry of a holder, either of which there may not be. -/
def mergeRow : Option (TrsStatsDetectSeenType τ) → Option (TrsStatsDetectSeenType τ) →
    Option (TrsStatsDetectSeenType τ)
  | none, stat => stat
  | some existing, none => some existing
  | some existing, some stat =>
    some (row existing.encounterId fun type => updateColumn (existing.time type) (stat.time type))

@[simp] theorem updateColumn_none (e : Option τ) : updateColumn e none = e := by
  cases e <;> rfl

theorem bind_mergeRow (r r' : Option (TrsStatsDetectSeenType τ)) (type : MonSeenTypes) :
    (mergeRow r r').bind (·.time type) =
      updateColumn (r.bind (·.time type)) (r'.bind (·.time type)) := by
  cases r with
  | none => rfl
  | some r =>
    cases r' with
    | none => exact (updateColumn_none _).symm
    | some r' => exact time_row _ _ type

theorem get?_createOrUpdate (db : Table τ) (stat : TrsStatsDetectSeenType τ) (id : Int) :
    (createOrUpdate db stat).get? id =
      if id = stat.encounterId then mergeRow (db.get? id) (some stat) else db.get? id := by
  rw [createOrUpdate]
  split
  · next h =>
    rw [Dict.get?_insert]
    by_cases hid : id = stat.encounterId
    · rw [if_pos hid, if_pos hid, hid, h, mergeRow]
    · rw [if_neg hid, if_neg hid]
  · next existing h =>
    rw [Dict.get?_insert]
    by_cases hid : id = stat.encounterId
    · rw [if_pos hid, if_pos hid, hid, h]
      rfl
    · rw [if_neg hid, if_neg hid]

/-- `submit` merges every row with the entry of the holder. -/
theorem get?_submit (db : Table τ) (h : StatsDetectSeenTypeHolder τ)
    (hid : ∀ id e, h.get? id = some e → e.encounterId = id) (id : Int) :
    (submit db h).get? id = mergeRow (db.get? id) (h.get? id) := by
  have hkey : ∀ i ∈ h.items, i.2.encounterId = i.1 := fun i hi => hid i.1 i.2 (Dict.get?_eq_some_iff.mpr hi)
  have hget := Dict.get?_foldl_upsert createOrUpdate (fun r e => mergeRow r (some e)) (fun id => id)
    (fun _ _ heq => heq) h (fun i hi db j => by rw [get?_createOrUpdate, hkey i hi]) db id
  rw [submit, hget]
  cases h.get? id with
  | none => cases db.get? id <;> rfl
  | some e => rfl

/-- The row after all batches: the entries of the batches' holders, merged in order. -/
theorem get?_submitAll (batches : List (List (Detection τ))) (id : Int) :
    (submitAll batches).get? id =
      (batches.map fun b => (StatsDetectSeenTypeHolder.ofBatch b).get? id).foldl mergeRow none := by
  induction batches using List.reverseRecOn with
  | nil => rfl
  | append_singleton batches b ih =>
    have hsubmit : submitAll (batches ++ [b]) = submit (submitAll batches) (.ofBatch b) := by
      simp [submitAll]
    rw [hsubmit, get?_submit, ih, List.map_append, List.foldl_append]
    · rfl
    · intro id e he
      rw [StatsDetectSeenTypeHolder.get?_ofBatch] at he
      split at he
      · cases he; rfl
      · cases he

theorem updateColumn_eq : (updateColumn : Option τ → Option τ → Option τ) = Option.merge min := by
  funext e s
  cases e with
  | none => cases s <;> rfl
  | some e =>
    cases s with
    | none => rfl
    | some s =>
      show (if s < e then some s else some e) = some (min e s)
      by_cases h : s < e
      · rw [if_pos h, min_eq_right h.le]
      · rw [if_neg h, min_eq_left (not_lt.mp h)]

/-- The time a row ends up with: the least of the newest times of the batches. -/
theorem time_submitAll (batches : List (List (Detection τ))) (id : Int) (type : MonSeenTypes) :
    ((submitAll batches).get? id).bind (·.time type) =
      ((batches.map (times id type)).map List.getLast?).foldl (Option.merge min) none := by
  rw [get?_submitAll]
  induction batches using List.reverseRecOn with
  | nil => rfl
  | append_singleton batches b ih =>
    rw [← updateColumn_eq] at ih ⊢
    simp only [List.map_append, List.foldl_append, ← ih]
    exact (bind_mergeRow _ _ type).trans (congrArg (updateColumn _) (time_ofBatch b id type))

theorem isSome_submitAll (batches : List (List (Detection τ))) (id : Int) :
    ((submitAll batches).get? id).isSome = detected id batches.flatten := by
  rw [get?_submitAll]
  induction batches using List.reverseRecOn with
  | nil => rfl
  | append_singleton batches b ih =>
    have hmerge : ∀ r r' : Option (TrsStatsDetectSeenType τ),
        (mergeRow r r').isSome = (r.isSome || r'.isSome) := by
      intro r r'
      cases r <;> cases r' <;> rfl
    have hb : ((StatsDetectSeenTypeHolder.ofBatch b).get? id).isSome = detected id b := by
      rw [StatsDetectSeenTypeHolder.get?_ofBatch]
      cases detected id b <;> rfl
    rw [List.map_append, List.foldl_append]
    refine (hmerge _ _).trans ?_
    rw [ih, hb]
    simp [detected]

theorem encounterId_submitAll (batches : List (List (Detection τ))) (id : Int)
    {r : TrsStatsDetectSeenType τ} (h : (submitAll batches).get? id = some r) : r.encounterId = id := by
  rw [get?_submitAll] at h
  induction batches using List.reverseRecOn generalizing r with
  | nil => cases h
  | append_singleton batches b ih =>
    rw [List.map_append, List.foldl_append] at h
    change mergeRow _ ((StatsDetectSeenTypeHolder.ofBatch b).get? id) = some r at h
    rw [StatsDetectSeenTypeHolder.get?_ofBatch] at h
    cases hr : (batches.map fun b => (StatsDetectSeenTypeHolder.ofBatch b).get? id).foldl mergeRow none with
    | none =>
      rw [hr] at h
      split at h
      · cases h; rfl
      · cases h
    | some existing =>
      rw [hr] at h
      split at h
      · cases h; exact (ih hr :)
      · cases h; exact ih hr

/-! ## The earliest times -/

/-- The row an encounter should have: the earliest time of every type. -/
def earliestRow (id : Int) (l : List (Detection τ)) : Option (TrsStatsDetectSeenType τ) :=
  if detected id l then some (row id fun type => (times id type l).min?) else none

/-- The first batch with detections of the encounter by this type has only one time for them. -/
def OneTime (id : Int) (type : MonSeenTypes) (batches : List (List (Detection τ))) : Prop :=
  ∀ b, firstBatch (batches.map (times id type)) = some b → ∀ t ∈ b, ∀ u ∈ b, t = u

/-- The rows have the earliest times exactly if no first batch has two times. -/
theorem rows_earliest_iff (batches : List (List (Detection τ)))
    (hsorted : (batches.flatten.map (·.timeOfScan)).Pairwise (· ≤ ·)) :
    (∀ id, (submitAll batches).get? id = earliestRow id batches.flatten) ↔
      ∀ id type, OneTime id type batches := by
  have htimes : ∀ id type, ((submitAll batches).get? id).bind (·.time type) =
      (times id type batches.flatten).min? ↔ OneTime id type batches := by
    intro id type
    have hflatten : (batches.map (times id type)).flatten.Pairwise (· ≤ ·) := by
      rw [← times_flatten]
      exact hsorted.sublist (List.filter_sublist.map _)
    rw [time_submitAll, times_flatten]
    exact foldl_merge_getLast_eq_min?_iff _ hflatten
  constructor
  · intro h id type
    rw [← htimes, h id, earliestRow]
    cases hd : detected id batches.flatten with
    | true => exact time_row _ _ type
    | false => rw [times_eq_nil hd]; rfl
  · intro h id
    have hsome := isSome_submitAll batches id
    rw [earliestRow]
    cases hr : (submitAll batches).get? id with
    | none =>
      rw [hr] at hsome
      rw [← hsome]
      rfl
    | some r =>
      rw [hr] at hsome
      rw [← hsome, Option.isSome_some, if_pos rfl, Option.some.injEq]
      refine TrsStatsDetectSeenType.ext_time (encounterId_submitAll batches id hr) fun type => ?_
      rw [time_row, ← (htimes id type).mpr (h id type), hr]
      rfl

end

/-- A wild sighting of encounter 1 at 10 and again at 20. -/
def seenTwice : List (Detection Int) := [⟨1, .wild, 10⟩, ⟨1, .wild, 20⟩]

theorem rows_earliest_iff_twice :
    (submitAll [[⟨1, .wild, 10⟩], [⟨1, .wild, (20 : Int)⟩]]).get? 1 =
      some { encounterId := 1, wild := some 10 } := by
  have h := (rows_earliest_iff (τ := Int) [[⟨1, .wild, 10⟩], [⟨1, .wild, 20⟩]] (by decide)).mpr ?_ 1
  · exact h
  · intro id type b hb
    by_cases hid : id = 1
    · subst hid
      cases type with
      | wild => cases hb; decide
      | encounter | lureEncounter | lureWild | nearbyStop | nearbyCell => cases hb
    · have hne : ¬ 1 = id := fun h => hid h.symm
      simp [times, hne, firstBatch] at hb

/-- In one batch only the later time is kept. -/
theorem batch_keeps_newest : ¬ ∀ (events : List (Detection Int)) (batches : List (List (Detection Int))),
    batches.flatten = events → (events.map (·.timeOfScan)).Pairwise (· ≤ ·) →
      ∀ id, (submitAll batches).get? id = earliestRow id events := by
  intro h
  have h1 := h seenTwice [seenTwice] (by decide) (by decide) 1
  revert h1
  decide

end MapADroid.Stats
