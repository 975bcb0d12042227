import Mathlib.Data.List.DropRight
import Mathlib.Algebra.Order.Ring.Rat
import Mathlib.Algebra.Field.Rat
import MapADroid.Lib.Dict
import MapADroid.Location

/- The calculation of a route and the row it is persisted in (`RoutecalcUtil`).

   The row says that a calculation is under way (`recalc_status`). It does so from a commit
   before the calculation up to one after it, and nothing puts it back if the calculation
   raises. A solver that raises is logged and has no solution, of which `route_calc_all`
   then takes the length. So the status is cleared exactly if the calculation comes to an
   end (`recalc_status_cleared_iff`).

   What the calls in the executor come to is left open, and so is what a float looks like.
   No one else writes the row between the two sessions. -/
namespace MapADroid.RouteCalc
open Lib

/-- What a call in a process of an executor comes to. -/
inductive Outcome (α : Type) where
  | returned (value : α)
  /-- An `Exception` of the method that was called. -/
  | raised
  /-- Anything else that is raised at its await: the process has died, the call has been
  cancelled. -/
  | broken

/-- Floats and their texts: `float`, `str`, and what `strip` takes off. -/
structure Texts (K : Type) where
  float : List Char → Option K
  str : K → List Char
  space : Char → Bool

/-- `SettingsRoutecalc`. -/
structure SettingsRoutecalc where
  routecalcId : Nat
  instanceId : Nat
  recalcStatus : Bool
  lastUpdated : Int
  routefile : Option (List Char)
  deriving DecidableEq, Repr

/-- The table of the `SettingsRoutecalc`, by their id. -/
abbrev Table := Dict Nat SettingsRoutecalc

variable {K : Type}

/-! ## The persisted route -/

def quotationMark : Char := Char.ofNat 34

def apostrophe : Char := Char.ofNat 39

namespace Texts
variable (t : Texts K)

def strip (text : List Char) : List Char := (text.dropWhile t.space).rdropWhile t.space

/-- `split` at a text of two characters. -/
def splitPair (a b : Char) : List Char → List (List Char)
  | [] => [[]]
  | [c] => [[c]]
  | c :: d :: rest =>
    if c = a ∧ d = b then [] :: splitPair a b rest
    else match splitPair a b (d :: rest) with
      | [] => [[c]]
      | first :: lines => (c :: first) :: lines

/-- A line of a routefile without its quotation marks and brackets. -/
def clean (line : List Char) : List Char :=
  t.strip (line.filter fun c => !(c = quotationMark || c = ']' || c = '['))

/-- A line that is left; `none` if it raises. -/
def readLine (line : List Char) : Option (Location K) :=
  match List.splitOn ',' line with
  | lat :: lng :: _ => do
    let lat ← t.float (t.strip lat)
    let lng ← t.float (t.strip lng)
    return ⟨lat, lng⟩
  | _ => none

/-- `read_persisted_route`. -/
def readPersistedRoute (routecalcEntry : SettingsRoutecalc) : Option (List (Location K)) :=
  match routecalcEntry.routefile with
  | none => some []
  | some routefile =>
    if (t.strip routefile).isEmpty then some []
    else (((splitPair quotationMark ',' routefile).map t.clean).filter fun line => !line.isEmpty).mapM t.readLine

/-- `_write_route_to_db_entry`: the `str` of a list of texts, with other quotes. -/
def writeRouteToDbEntry (routecalcEntry : SettingsRoutecalc) (newRoute : List (Location K)) : SettingsRoutecalc :=
  let calcCoords := newRoute.map fun coord => apostrophe :: (t.str coord.lat ++ ',' :: t.str coord.lng ++ [apostrophe])
  let toBeWritten := '[' :: (List.intercalate [',', ' '] calcCoords ++ [']'])
  { routecalcEntry with
    routefile := some (toBeWritten.map fun c => if c = apostrophe then quotationMark else c) }

end Texts

/-! ## The calculation -/

/-- `_run_in_process_executor`: the solver within its process. -/
def runInProcessExecutor : Outcome (List Int) → Outcome (Option (List Int))
  | .returned solution => .returned (some solution)
  | .raised => .returned none
  | .broken => .broken

/-- `route_calc_all`, given what the solver comes to; `none` if it raises. -/
def routeCalcAll (solver : Outcome (List Int)) : Option (List Int) :=
  match runInProcessExecutor solver with
  | .returned (some solBest) => some solBest
  -- `len` of None
  | .returned none => none
  | .raised | .broken => none

/-- `calculated_route_old[i]`, from the end if `i` is negative. -/
def item (l : List (Location K)) (i : Int) : Option (Location K) :=
  if 0 ≤ i then l[i.toNat]? else if -i ≤ l.length then l[l.length - (-i).toNat]? else none

/-- The arguments of `calculate_route` that the calculation depends on. -/
structure Request (K : Type) where
  routecalcId : Nat
  coords : List (Location K)
  maxRadius : Option ℚ
  maxCoordsWithinRadius : Option Int
  loadPersistedRoute : Bool
  overwritePersistedRoute : Bool

/-- The coords are to be clustered. -/
def Request.clusters (request : Request K) : Bool :=
  0 < request.coords.length && (match request.maxRadius with
    | none => false
    | some maxRadius => maxRadius ≠ 0 && 1 ≤ maxRadius) && match request.maxCoordsWithinRadius with
    | none => false
    | some maxCoordsWithinRadius => maxCoordsWithinRadius ≠ 0

/-- What is met on the way: what the executors come to, whether the commits before and
after the calculation succeed, and the clock. -/
structure Course (K : Type) where
  clustering : Outcome (List (Location K))
  solver : Outcome (List Int)
  commitBefore : Bool
  commitAfter : Bool
  now : Int

/-- The calculation, between the two sessions; `none` if it raises. -/
def calculated (request : Request K) (course : Course K) : Option (List (Location K)) :=
  let lessCoords := if request.clusters then course.clustering else .returned []
  match lessCoords with
  | .raised | .broken => none
  | .returned calculatedRoute =>
    if calculatedRoute.length < 3 then some calculatedRoute
    else match routeCalcAll course.solver with
      | none => none
      | some solBest => solBest.mapM (item calculatedRoute)

/-- The first session: `calculate_route` ends, with a persisted route or since reading it
raises, or the row is marked. -/
inductive Started (K : Type) where
  | ended (savedRoute : Option (List (Location K)))
  | marked (db : Table) (overwritePersistedRoute : Bool)

/-- `recalc_status = 1`, and the commit. -/
def mark (instanceId : Nat) (request : Request K) (course : Course K) (db : Table) : Table :=
  let routecalcEntry := match db.get? request.routecalcId with
    | some routecalcEntry => routecalcEntry
    | none => ⟨request.routecalcId, instanceId, false, course.now, none⟩
  if course.commitBefore then db.insert request.routecalcId { routecalcEntry with recalcStatus := true } else db

namespace Texts
variable (t : Texts K)

def start (instanceId : Nat) (request : Request K) (course : Course K) (db : Table) : Started K :=
  match request.loadPersistedRoute, db.get? request.routecalcId with
  | true, some routecalcEntry => match t.readPersistedRoute routecalcEntry with
    | none => .ended none
    | some [] => .marked (mark instanceId request course db) true
    | some (first :: rest) => .ended (some (first :: rest))
  | _, _ => .marked (mark instanceId request course db) request.overwritePersistedRoute

/-- The second session. -/
def finish (request : Request K) (course : Course K) (db : Table) (overwritePersistedRoute : Bool)
    (calculatedRoute : List (Location K)) : Table × Option (List (Location K)) :=
  match db.get? request.routecalcId with
  -- an attribute of None
  | none => (db, none)
  | some routecalcEntry =>
    let routecalcEntry := if overwritePersistedRoute then
        { t.writeRouteToDbEntry routecalcEntry calculatedRoute with lastUpdated := course.now }
      else routecalcEntry
    (if course.commitAfter then db.insert request.routecalcId { routecalcEntry with recalcStatus := false } else db,
      some calculatedRoute)

/-- `calculate_route`: the table afterwards, and the route unless it raises. -/
def calculateRoute (instanceId : Nat) (request : Request K) (course : Course K) (db : Table) :
    Table × Option (List (Location K)) :=
  match t.start instanceId request course db with
  | .ended savedRoute => (db, savedRoute)
  | .marked db overwritePersistedRoute => match calculated request course with
    | none => (db, none)
    | some calculatedRoute => t.finish request course db overwritePersistedRoute calculatedRoute

end Texts

/-! ## The status -/

/-- The row says that no calculation is under way. -/
def Cleared (id : Nat) (db : Table) : Prop := ∃ entry, db.get? id = some entry ∧ entry.recalcStatus = false

/-- A persisted route is returned, or reading it raises. -/
def Texts.Loads (t : Texts K) (request : Request K) (db : Table) : Prop :=
  request.loadPersistedRoute = true ∧
    ∃ entry, db.get? request.routecalcId = some entry ∧ t.readPersistedRoute entry ≠ some []

/-- The clustering, if there is any, returns, and so does the solver where there are three
coords or more, with indices of them. -/
def Comes (request : Request K) (course : Course K) : Prop :=
  request.clusters = true → ∃ coords, course.clustering = .returned coords ∧
    (3 ≤ coords.length → ∃ solution, course.solver = .returned solution ∧
      ∀ i ∈ solution, -(coords.length : Int) ≤ i ∧ i < coords.length)

/-- Python's indices, with those from the end. -/
theorem isSome_item_iff {l : List (Location K)} {i : Int} :
    (item l i).isSome ↔ -(l.length : Int) ≤ i ∧ i < l.length := by
  unfold item
  split
  · next hnonneg =>
    rw [Option.isSome_iff_ne_none, ne_eq, List.getElem?_eq_none_iff]
    omega
  · next hneg =>
    split
    · rw [Option.isSome_iff_ne_none, ne_eq, List.getElem?_eq_none_iff]
      omega
    · simp only [Option.isSome_none, Bool.false_eq_true, false_iff]
      omega

theorem isSome_mapM_iff {α β : Type} {f : α → Option β} {l : List α} :
    (l.mapM f).isSome ↔ ∀ a ∈ l, (f a).isSome := by
  induction l with
  | nil => simp
  | cons a l ih =>
    rw [List.mapM_cons, List.forall_mem_cons, ← ih]
    cases f a with
    | none => simp
    | some b => cases l.mapM f <;> simp

theorem routeCalcAll_eq_some_iff {solver : Outcome (List Int)} {solution : List Int} :
    routeCalcAll solver = some solution ↔ solver = .returned solution := by
  cases solver <;> simp [routeCalcAll, runInProcessExecutor]

theorem isSome_calculated_iff {request : Request K} {course : Course K} :
    (calculated request course).isSome ↔ Comes request course := by
  unfold calculated Comes
  cases hclusters : request.clusters with
  | false => simp
  | true =>
    rw [if_pos rfl]
    cases hclustering : course.clustering with
    | raised => simp
    | broken => simp
    | returned coords =>
      simp only [Outcome.returned.injEq, exists_eq_left', forall_const]
      by_cases hlen : coords.length < 3
      · rw [if_pos hlen]
        simp only [Option.isSome_some, true_iff]
        intro hge
        omega
      · rw [if_neg hlen]
        simp only [Nat.not_lt.mp hlen, forall_const]
        cases hsolver : routeCalcAll course.solver with
        | none =>
          simp only [Option.isSome_none, Bool.false_eq_true, false_iff]
          rintro ⟨solution, hreturned, _⟩
          rw [routeCalcAll_eq_some_iff.mpr hreturned] at hsolver
          cases hsolver
        | some solution =>
          rw [routeCalcAll_eq_some_iff] at hsolver
          simp only [isSome_mapM_iff, isSome_item_iff, hsolver, Outcome.returned.injEq, exists_eq_left']

/-- Before the calculation the row says that one is under way. -/
theorem get?_mark (instanceId : Nat) (request : Request K) {course : Course K} (db : Table)
    (hbefore : course.commitBefore = true) :
    ∃ entry, (mark instanceId request course db).get? request.routecalcId = some entry ∧ entry.recalcStatus = true := by
  rw [mark, if_pos hbefore, Dict.get?_insert_self]
  exact ⟨_, rfl, rfl⟩

variable (t : Texts K) {instanceId : Nat} {request : Request K} {course : Course K} {db : Table}

theorem start_of_loads (instanceId : Nat) (course : Course K) (h : t.Loads request db) :
    ∃ savedRoute, t.start instanceId request course db = .ended savedRoute := by
  obtain ⟨hload, entry, hentry, hread⟩ := h
  unfold Texts.start
  rw [hload, hentry]
  simp only
  cases hroute : t.readPersistedRoute entry with
  | none => exact ⟨_, rfl⟩
  | some savedRoute =>
    cases savedRoute with
    | nil => exact absurd hroute hread
    | cons first rest => exact ⟨_, rfl⟩

theorem start_of_not_loads (instanceId : Nat) (course : Course K) (h : ¬t.Loads request db) :
    ∃ overwrite, t.start instanceId request course db = .marked (mark instanceId request course db) overwrite := by
  unfold Texts.start
  split
  · next entry hload hentry =>
    have hread : t.readPersistedRoute entry = some [] := by
      by_contra hne
      exact h ⟨hload, entry, hentry, hne⟩
    rw [hread]
    exact ⟨_, rfl⟩
  · exact ⟨_, rfl⟩

theorem cleared_finish {route : List (Location K)} (overwrite : Bool)
    (hentry : (db.get? request.routecalcId).isSome) (hafter : course.commitAfter = true) :
    Cleared request.routecalcId (t.finish request course db overwrite route).1 := by
  obtain ⟨entry, hentry⟩ := Option.isSome_iff_exists.mp hentry
  unfold Texts.finish
  rw [hentry]
  simp only [hafter, if_true]
  exact ⟨_, Dict.get?_insert_self, rfl⟩

/-- The row is cleared exactly if the calculation comes to an end. -/
theorem recalc_status_cleared_iff (instanceId : Nat) (request : Request K) (course : Course K) (db : Table)
    (hbefore : course.commitBefore = true) (hafter : course.commitAfter = true) :
    Cleared request.routecalcId (t.calculateRoute instanceId request course db).1 ↔
      t.Loads request db ∧ Cleared request.routecalcId db ∨ ¬t.Loads request db ∧ Comes request course := by
  unfold Texts.calculateRoute
  by_cases hloads : t.Loads request db
  · obtain ⟨savedRoute, hstart⟩ := start_of_loads t instanceId course hloads
    rw [hstart]
    simp [hloads]
  · obtain ⟨overwrite, hstart⟩ := start_of_not_loads t instanceId course hloads
    obtain ⟨entry, hentry, hstatus⟩ := get?_mark instanceId request db hbefore
    rw [hstart, ← isSome_calculated_iff]
    simp only [hloads, false_and, not_false_eq_true, true_and, false_or]
    cases calculated request course with
    | none =>
      -- The mark of the first commit stays.
      simp only [Option.isSome_none, Bool.false_eq_true, iff_false]
      rintro ⟨entry', hentry', hcleared⟩
      rw [hentry] at hentry'
      cases hentry'
      rw [hstatus] at hcleared
      cases hcleared
    | some route =>
      simp only [Option.isSome_some, iff_true]
      exact cleared_finish t overwrite (by rw [hentry]; rfl) hafter

/-- Coordinates without a fraction. -/
def digits : Texts Nat where
  float text := match text with
    | [c] => if '0' ≤ c ∧ c ≤ '9' then some (c.toNat - 48) else none
    | _ => none
  str n := [Char.ofNat (48 + n)]
  space c := c = ' '

/-- Three stops that are visited one by one. -/
def threeCoords : Request Nat where
  routecalcId := 1
  coords := [⟨0, 0⟩, ⟨0, 1⟩, ⟨0, 2⟩]
  maxRadius := some 1
  maxCoordsWithinRadius := some 1
  loadPersistedRoute := false
  overwritePersistedRoute := true

/-- What becomes of them, if this is what the solver comes to. -/
def solvedBy (solver : Outcome (List Int)) : Course Nat :=
  ⟨.returned [⟨0, 0⟩, ⟨0, 1⟩, ⟨0, 2⟩], solver, true, true, 9⟩

theorem solved_cleared :
    Cleared 1 (digits.calculateRoute 0 threeCoords (solvedBy (.returned [0, 2, 1])) Dict.empty).1 := by
  have hcomes : Comes threeCoords (solvedBy (.returned [0, 2, 1])) := by
    intro _
    exact ⟨_, rfl, fun _ => ⟨_, rfl, by decide⟩⟩
  refine (recalc_status_cleared_iff digits 0 threeCoords _ Dict.empty rfl rfl).mpr (Or.inr ⟨?_, hcomes⟩)
  rintro ⟨hload, _⟩
  cases hload

/-- The solver raises, and the row says on and on that a calculation is under way. -/
theorem recalc_status_stuck : ¬∀ (t : Texts Nat) (instanceId : Nat) (request : Request Nat) (course : Course Nat)
    (db : Table), course.commitBefore = true → course.commitAfter = true →
      Cleared request.routecalcId (t.calculateRoute instanceId request course db).1 := by
  intro h
  obtain ⟨entry, hentry, hcleared⟩ := h digits 0 threeCoords (solvedBy .raised) Dict.empty rfl rfl
  have hstuck : (digits.calculateRoute 0 threeCoords (solvedBy .raised) Dict.empty).1.get? 1 =
      some ⟨1, 0, true, 9, none⟩ := by decide
  rw [show threeCoords.routecalcId = 1 from rfl, hstuck] at hentry
  cases hentry
  cases hcleared

end MapADroid.RouteCalc
