import MapADroid.Worker.StrategyFactory
import Mathlib.Data.List.Rotate

/- The search for a walker area.

   The loop of `__get_walker_settings` goes from its start to the end of the list and, if
   nothing goes through there, once more over the whole list. With checks that do not
   change meanwhile, the areas before the start are the only ones of the second pass that
   can go through, so what is found is the first area in cyclic order
   (`getWalkerSettings_first`). -/
namespace MapADroid.Worker

/-- The walker of the first of some areas, each with its index, that passes. -/
def firstWalker (passes : SettingsWalkerarea → Bool) (total : Nat) (l : List (SettingsWalkerarea × Nat)) : Found :=
  match l.find? fun area => passes area.1 with
  | none => .none
  | some area => .walker ⟨area.1, area.2, area.1.areaId, total⟩

/-- The indices of the areas the loop checks, in the order of the checks. -/
def preChecks (check : Nat → SettingsWalkerarea → Option Bool) (areas : List SettingsWalkerarea) (k index : Nat)
    (loopExit : Bool) : List Nat :=
  if h : index < areas.length then
    match check k areas[index] with
    | some false =>
      if index + 1 ≥ areas.length then
        if loopExit then [index] else index :: preChecks check areas (k + 1) 0 true
      else index :: preChecks check areas (k + 1) (index + 1) loopExit
    | _ => [index]
  else []
termination_by (if loopExit then 0 else areas.length) + (areas.length - index)
decreasing_by
  · rw [if_pos trivial, if_neg ‹_›]
    omega
  · split
    · omega
    · omega

/-- The index from which the search starts: the one of the device, 0 at first, and one back if the last area was
not finished. -/
def startIndex (e : DeviceMappingsEntry) : Int :=
  (updateWalkerIndex (if e.walkerAreaIndex < 0 then { e with walkerAreaIndex := 0, finished := false } else e)).walkerAreaIndex

theorem startIndex_eq (e : DeviceMappingsEntry) :
    startIndex e = if e.walkerAreaIndex < 0 then 0
      else if e.walkerAreaIndex > 0 ∧ e.finished = false then e.walkerAreaIndex - 1 else e.walkerAreaIndex := by
  unfold startIndex updateWalkerIndex
  split
  · simp
  · simp only [Bool.not_eq_true]
    split
    · rfl
    · rfl

/-- The areas in the order of the search: from its start to the end of the list, and all of them once more. -/
def searchOrder (e : DeviceMappingsEntry) : List SettingsWalkerarea :=
  if (startIndex e).toNat < e.walkerAreas.length then e.walkerAreas.drop (startIndex e).toNat ++ e.walkerAreas
  else []

/-- The check of `w` goes through when it is its turn, and those before it did not. -/
def FirstPass (check : Nat → SettingsWalkerarea → Option Bool) (order : List SettingsWalkerarea)
    (w : SettingsWalkerarea) : Prop :=
  ∃ j < order.length, order[j]? = some w ∧ check j w = some true ∧ ∀ i < j, ∀ v ∈ order[i]?, check i v = some false

/-- No check goes through, and none raises. -/
def NonePasses (check : Nat → SettingsWalkerarea → Option Bool) (order : List SettingsWalkerarea) : Prop :=
  ∀ j < order.length, ∀ v ∈ order[j]?, check j v = some false

instance (check : Nat → SettingsWalkerarea → Option Bool) (order : List SettingsWalkerarea) (w : SettingsWalkerarea) :
    Decidable (FirstPass check order w) := by unfold FirstPass; infer_instance

instance (check : Nat → SettingsWalkerarea → Option Bool) (order : List SettingsWalkerarea) :
    Decidable (NonePasses check order) := by unfold NonePasses; infer_instance

variable {check : Nat → SettingsWalkerarea → Option Bool} {areas : List SettingsWalkerarea}
  {passes : SettingsWalkerarea → Bool}

/-! ## The checks of the loop -/

/-- At most the areas from the index on are checked, and all of them once more. -/
theorem preChecks_length (k index : Nat) (loopExit : Bool) :
    (preChecks check areas k index loopExit).length ≤
      (areas.length - index) + if loopExit then 0 else areas.length := by
  fun_induction preChecks check areas k index loopExit with
  | case1 k index hlt hcheck hlast => simp only [List.length_singleton]; omega
  | case2 k index loopExit hlt hcheck hlast hfirst ih =>
    simp only [List.length_cons, if_neg hfirst]
    simp only [if_true] at ih
    omega
  | case3 k index loopExit hlt hcheck hinner ih =>
    simp only [List.length_cons]
    omega
  | case4 k index loopExit hlt hcheck => simp only [List.length_singleton]; omega
  | case5 k index loopExit hge => simp only [List.length_nil]; omega

/-! ## What it finds -/

theorem firstWalker_cons (total : Nat) (w : SettingsWalkerarea) (i : Nat) (l : List (SettingsWalkerarea × Nat)) :
    firstWalker passes total ((w, i) :: l) =
      if passes w then .walker ⟨w, i, w.areaId, total⟩ else firstWalker passes total l := by
  unfold firstWalker
  rw [List.find?_cons]
  cases passes w with
  | false => rfl
  | true => rfl

theorem firstWalker_cons_of_fails (total : Nat) {w : SettingsWalkerarea} (i : Nat) (l : List (SettingsWalkerarea × Nat))
    (h : passes w = false) : firstWalker passes total ((w, i) :: l) = firstWalker passes total l := by
  rw [firstWalker_cons, h]
  simp

theorem firstWalker_eq_none {total : Nat} {l : List (SettingsWalkerarea × Nat)} :
    firstWalker passes total l = .none ↔ ∀ area ∈ l, passes area.1 = false := by
  have hfind := List.find?_eq_none (p := fun area : SettingsWalkerarea × Nat => passes area.1) (l := l)
  simp only [Bool.not_eq_true] at hfind
  rw [← hfind]
  unfold firstWalker
  cases l.find? fun area => passes area.1 with
  | none => simp
  | some area => simp

/-- The areas before the end of the first pass fail the second. -/
theorem firstWalker_wrap (total : Nat) (l m : List (SettingsWalkerarea × Nat)) :
    firstWalker passes total (l ++ (m ++ l)) = firstWalker passes total (l ++ m) := by
  unfold firstWalker
  simp only [List.find?_append]
  cases l.find? fun area => passes area.1 with
  | none => simp
  | some area => rfl

/-- The areas from the index on are tried, and in a first pass all of them afterwards. -/
theorem preCheckLoop_fixed (hcheck : ∀ k, ∀ w ∈ areas, check k w = some (passes w)) (k index : Nat)
    (finished loopExit : Bool) (h : index < areas.length) :
    (preCheckLoop check areas k index finished loopExit).1 =
      firstWalker passes areas.length (areas.zipIdx.drop index ++ if loopExit then [] else areas.zipIdx) := by
  have hdrop : ∀ {i : Nat} (hi : i < areas.length),
      areas.zipIdx.drop i = (areas[i], i) :: areas.zipIdx.drop (i + 1) := by
    intro i hi
    rw [List.drop_eq_getElem_cons (by rw [List.length_zipIdx]; exact hi), List.getElem_zipIdx, Nat.zero_add]
  fun_induction preCheckLoop check areas k index finished loopExit with
  | case1 k index finished loopExit hlt w hraised =>
    rw [hcheck k w (List.getElem_mem hlt)] at hraised
    cases hraised
  | case2 k index finished loopExit hlt w hpassed =>
    rw [hcheck k w (List.getElem_mem hlt), Option.some.injEq] at hpassed
    rw [hdrop hlt, List.cons_append, firstWalker_cons, if_pos hpassed]
  | case3 k index finished hlt w hfailed hlast =>
    rw [hcheck k w (List.getElem_mem hlt), Option.some.injEq] at hfailed
    rw [hdrop hlt, List.cons_append, firstWalker_cons_of_fails _ _ _ hfailed,
      List.drop_eq_nil_of_le (by rw [List.length_zipIdx]; exact hlast)]
    rfl
  | case4 k index finished loopExit hlt w hfailed hlast hfirst ih =>
    rw [hcheck k w (List.getElem_mem hlt), Option.some.injEq] at hfailed
    have hend : areas.zipIdx.drop (index + 1) = [] :=
      List.drop_eq_nil_of_le (by rw [List.length_zipIdx]; exact hlast)
    rw [ih (by omega), hdrop hlt, List.cons_append, firstWalker_cons_of_fails _ _ _ hfailed, hend, if_neg hfirst]
    simp
  | case5 k index finished loopExit hlt w hfailed hinner ih =>
    rw [hcheck k w (List.getElem_mem hlt), Option.some.injEq] at hfailed
    rw [ih (by omega), hdrop hlt, List.cons_append, firstWalker_cons_of_fails _ _ _ hfailed]
  | case6 k index finished loopExit hge => exact absurd h hge

theorem updateWalkerIndex_walkerAreas (e : DeviceMappingsEntry) :
    (updateWalkerIndex e).walkerAreas = e.walkerAreas := by
  unfold updateWalkerIndex
  split
  · rfl
  · rfl

/-- A search is the loop from its start. -/
theorem getWalkerSettings_loop {e : DeviceMappingsEntry} {k : Nat} (hne : e.walkerAreas ≠ []) (hstart : startIndex e = k)
    (int : String → Option Int) (look : Nat → Surroundings) :
    ∃ finished, (getWalkerSettings int look e).1 =
        (preCheckLoop (fun j w => preCheckValue int w (look j)) e.walkerAreas 0 k finished false).1 ∧
      (getWalkerSettings int look e).2.walkerAreas = e.walkerAreas := by
  have hareas : (if e.walkerAreaIndex < 0 then { e with walkerAreaIndex := 0, finished := false } else e).walkerAreas =
      e.walkerAreas := by
    split
    · rfl
    · rfl
  unfold startIndex at hstart
  unfold getWalkerSettings
  simp only [if_neg hne, updateWalkerIndex_walkerAreas, hareas, hstart, Int.toNat_natCast]
  exact ⟨_, rfl, trivial⟩

/-! ## Checks that change -/

theorem firstPass_here {order : List SettingsWalkerarea} {w : SettingsWalkerarea} (h : check 0 w = some true) :
    FirstPass check (w :: order) w :=
  ⟨0, by simp, rfl, h, fun i hi => absurd hi (Nat.not_lt_zero i)⟩

/-- An area that fails, and the search from the next one on. -/
theorem FirstPass.cons {order : List SettingsWalkerarea} {v w : SettingsWalkerarea} (hv : check 0 v = some false)
    (h : FirstPass (fun j => check (j + 1)) order w) : FirstPass check (v :: order) w := by
  obtain ⟨j, hj, hat, hpassed, hbefore⟩ := h
  refine ⟨j + 1, by simpa using hj, hat, hpassed, ?_⟩
  intro i hi u hu
  cases i with
  | zero =>
    obtain rfl : v = u := Option.some.inj hu
    exact hv
  | succ i => exact hbefore i (by omega) u hu

theorem NonePasses.cons {order : List SettingsWalkerarea} {v : SettingsWalkerarea} (hv : check 0 v = some false)
    (h : NonePasses (fun j => check (j + 1)) order) : NonePasses check (v :: order) := by
  intro j hj u hu
  cases j with
  | zero =>
    obtain rfl : v = u := Option.some.inj hu
    exact hv
  | succ j => exact h j (by simpa using hj) u hu

theorem FirstPass.mem {check : Nat → SettingsWalkerarea → Option Bool} {e : DeviceMappingsEntry} {w : SettingsWalkerarea}
    (h : FirstPass check (searchOrder e) w) : w ∈ e.walkerAreas := by
  obtain ⟨j, _, hat, _⟩ := h
  have hmem := List.mem_of_getElem? hat
  unfold searchOrder at hmem
  split at hmem
  · rcases List.mem_append.mp hmem with hmem | hmem
    · exact List.mem_of_mem_drop hmem
    · exact hmem
  · cases hmem

/-- What the loop finds is the first area whose check goes through, and it finds none if none does. -/
theorem preCheckLoop_first (k index : Nat) (finished loopExit : Bool) (h : index < areas.length) :
    (∀ c, (preCheckLoop check areas k index finished loopExit).1 = .walker c → c.areaId = c.walkerSettings.areaId ∧
      FirstPass (fun j => check (k + j)) (areas.drop index ++ if loopExit then [] else areas) c.walkerSettings) ∧
    ((preCheckLoop check areas k index finished loopExit).1 = .none →
      NonePasses (fun j => check (k + j)) (areas.drop index ++ if loopExit then [] else areas)) := by
  have hnext : ∀ k, (fun j => check (k + (j + 1))) = fun j => check (k + 1 + j) := by
    intro k
    funext j
    rw [Nat.add_right_comm, Nat.add_assoc]
  fun_induction preCheckLoop check areas k index finished loopExit with
  | case1 k index finished loopExit hlt w hraised =>
    constructor
    · intro c hc
      cases hc
    · intro hc
      cases hc
  | case2 k index finished loopExit hlt w hpassed =>
    rw [List.drop_eq_getElem_cons hlt, List.cons_append]
    constructor
    · intro c hc
      cases hc
      exact ⟨rfl, firstPass_here hpassed⟩
    · intro hc
      cases hc
  | case3 k index finished hlt w hfailed hlast =>
    rw [List.drop_eq_getElem_cons hlt, List.drop_eq_nil_of_le hlast]
    constructor
    · intro c hc
      cases hc
    · intro _
      apply NonePasses.cons hfailed
      intro j hj
      exact absurd hj (Nat.not_lt_zero j)
  | case4 k index finished loopExit hlt w hfailed hlast hfirst ih =>
    have hih := ih (by omega)
    -- the second pass is over the whole list
    simp only [List.drop_zero, if_true, List.append_nil] at hih
    rw [List.drop_eq_getElem_cons hlt, List.drop_eq_nil_of_le hlast, if_neg hfirst, List.cons_append, List.nil_append]
    constructor
    · intro c hc
      obtain ⟨harea, hpass⟩ := hih.1 c hc
      exact ⟨harea, FirstPass.cons hfailed (by rw [hnext]; exact hpass)⟩
    · intro hc
      exact NonePasses.cons hfailed (by rw [hnext]; exact hih.2 hc)
  | case5 k index finished loopExit hlt w hfailed hinner ih =>
    have hih := ih (by omega)
    rw [List.drop_eq_getElem_cons hlt, List.cons_append]
    constructor
    · intro c hc
      obtain ⟨harea, hpass⟩ := hih.1 c hc
      exact ⟨harea, FirstPass.cons hfailed (by rw [hnext]; exact hpass)⟩
    · intro hc
      exact NonePasses.cons hfailed (by rw [hnext]; exact hih.2 hc)
  | case6 k index finished loopExit hge => exact absurd h hge

/-- What a search finds, with checks that may change from one to the next. -/
theorem getWalkerSettings_firstPass (int : String → Option Int) (look : Nat → Surroundings) (e : DeviceMappingsEntry) :
    (∀ c, (getWalkerSettings int look e).1 = .walker c → c.areaId = c.walkerSettings.areaId ∧
      FirstPass (fun j w => preCheckValue int w (look j)) (searchOrder e) c.walkerSettings) ∧
    ((getWalkerSettings int look e).1 = .none →
      NonePasses (fun j w => preCheckValue int w (look j)) (searchOrder e)) := by
  by_cases hne : e.walkerAreas = []
  · have horder : searchOrder e = [] := if_neg (by simp [hne])
    unfold getWalkerSettings
    rw [if_pos hne, horder]
    constructor
    · intro c hc
      cases hc
    · intro _ j hj
      exact absurd hj (Nat.not_lt_zero j)
  have hstart : 0 ≤ startIndex e := by
    rw [startIndex_eq]
    split
    · exact Int.le_refl 0
    · split
      · omega
      · omega
  obtain ⟨finished, hloop, _⟩ := getWalkerSettings_loop hne (Int.toNat_of_nonneg hstart).symm int look
  rw [hloop]
  by_cases hlt : (startIndex e).toNat < e.walkerAreas.length
  · have hfirst := @preCheckLoop_first (fun j w => preCheckValue int w (look j)) _ 0 _ finished false hlt
    simp only [Nat.zero_add, Bool.false_eq_true, if_false] at hfirst
    rw [searchOrder, if_pos hlt]
    exact hfirst
  · -- an index beyond the list
    have hnone : (preCheckLoop (fun j w => preCheckValue int w (look j)) e.walkerAreas 0 (startIndex e).toNat
        finished false).1 = .none := by
      unfold preCheckLoop
      rw [dif_neg hlt]
    rw [hnone, searchOrder, if_neg hlt]
    constructor
    · intro c hc
      cases hc
    · intro _ j hj
      exact absurd hj (Nat.not_lt_zero j)

/-! ## Checks that stay the same -/

/-- The search for a walker area, from the index that is left: at most twice as many checks as there are areas,
and what is found is the first area in cyclic order that passes, nothing if none does. -/
theorem getWalkerSettings_first {int : String → Option Int} {look : Nat → Surroundings} {e : DeviceMappingsEntry}
    {k : Nat} (hstart : startIndex e = k) (hk : k < e.walkerAreas.length)
    (hfixed : ∀ j, ∀ w ∈ e.walkerAreas, preCheckValue int w (look j) = some (passes w)) :
    (preChecks (fun j w => preCheckValue int w (look j)) e.walkerAreas 0 k false).length ≤ 2 * e.walkerAreas.length ∧
      (getWalkerSettings int look e).1 = firstWalker passes e.walkerAreas.length (e.walkerAreas.zipIdx.rotate k) ∧
      ((getWalkerSettings int look e).1 = .none ↔ ∀ w ∈ e.walkerAreas, passes w = false) := by
  have hfirst : (getWalkerSettings int look e).1 =
      firstWalker passes e.walkerAreas.length (e.walkerAreas.zipIdx.rotate k) := by
    obtain ⟨finished, hloop, _⟩ :=
      getWalkerSettings_loop (List.ne_nil_of_length_pos (by omega)) hstart int look
    rw [hloop, preCheckLoop_fixed hfixed 0 k finished false hk,
      List.rotate_eq_drop_append_take (by rw [List.length_zipIdx]; omega)]
    -- the whole list is the areas before the start and those from it on
    have hsplit := List.take_append_drop k e.walkerAreas.zipIdx
    calc firstWalker passes e.walkerAreas.length (e.walkerAreas.zipIdx.drop k ++ e.walkerAreas.zipIdx)
        = firstWalker passes e.walkerAreas.length (e.walkerAreas.zipIdx.drop k ++
            (e.walkerAreas.zipIdx.take k ++ e.walkerAreas.zipIdx.drop k)) := by rw [hsplit]
      _ = firstWalker passes e.walkerAreas.length (e.walkerAreas.zipIdx.drop k ++ e.walkerAreas.zipIdx.take k) :=
          firstWalker_wrap _ _ _
  refine ⟨?_, hfirst, ?_⟩
  · have hlength : (preChecks (fun j w => preCheckValue int w (look j)) e.walkerAreas 0 k false).length ≤ _ :=
      preChecks_length 0 k false
    simp only [Bool.false_eq_true, if_false] at hlength
    omega
  · rw [hfirst, firstWalker_eq_none]
    simp only [List.mem_rotate]
    constructor
    · intro h w hw
      obtain ⟨i, hi, rfl⟩ := List.mem_iff_getElem.mp hw
      exact h (e.walkerAreas[i], i) (List.mk_mem_zipIdx_iff_getElem?.mpr (List.getElem?_eq_getElem hi))
    · intro h area harea
      exact h area.1 (List.fst_mem_of_mem_zipIdx harea)

/-! ## A walker of three areas -/

/-- An area for an event. -/
def duringEvent (areaId eventid : Int) : SettingsWalkerarea := ⟨areaId, .countdown, none, none, some eventid⟩

/-- The first and the last area are for an event that is not on; the search starts at the last one. -/
def betweenEvents : DeviceMappingsEntry where
  walkerAreas := [duringEvent 1 7, duringEvent 2 0, duringEvent 3 7]
  walkerAreaIndex := 2
  finished := true

theorem getWalkerSettings_first_betweenEvents :
    (getWalkerSettings (fun _ => none) (fun _ => ⟨0, 0, 1, 0, fun _ => true⟩) betweenEvents).1 =
      .walker ⟨duringEvent 2 0, 1, 2, 3⟩ := by
  have hfixed : ∀ _ : Nat, ∀ w ∈ betweenEvents.walkerAreas,
      preCheckValue (fun _ => none) w ⟨0, 0, 1, 0, fun _ => true⟩ = some (decide (w.eventid = some 0)) :=
    fun _ => by decide
  have hfirst := getWalkerSettings_first (k := 2) (by decide) (by decide) hfixed
  rw [hfirst.2.1]
  decide

end MapADroid.Worker
