import MapADroid.Worker.Registration
import MapADroid.Worker.WalkerAreas

/- A walker area that is not finished is taken up again.

   The index of a device is that of the area after the one it is at, and 0 after the last
   one. A search that finds the area unfinished goes one back from the index, unless that
   is 0, so an unfinished last area is not taken up again (`last_area_left`). Every other
   one is, and a finished one is followed by the next (`resumed`): the record of what is
   selected and finished determines the next area, and a step keeps to it exactly if it
   does not look for an area with the index at 0 and the area unfinished
   (`resumed_iff`). -/
namespace MapADroid.Worker
open Lib

/-- What is recorded of a device. -/
inductive Event where
  /-- An area is selected. -/
  | selected (c : WalkerConfiguration)
  /-- `FINISHED` is set. -/
  | finished
  /-- The walkers are loaded again. -/
  | loaded
  deriving DecidableEq

/-- The last area selected since the walkers were loaded, and whether it was finished since. -/
def progress (es : List Event) : Option (WalkerConfiguration × Bool) :=
  es.foldl (fun p e => match e with
    | .selected c => some (c, false)
    | .finished => p.map fun last => (last.1, true)
    | .loaded => none) none

/-- The area to be selected next, none if there is no last one. -/
def nextArea (es : List Event) : Option Nat :=
  (progress es).map fun last =>
    if last.2 then (last.1.walkerIndex + 1) % last.1.totalAreasInWalker else last.1.walkerIndex

/-- Every area selected is the one to be selected. -/
def Resumed (es : List Event) : Prop :=
  ∀ pre c post, es = pre ++ .selected c :: post → ∀ i ∈ nextArea pre, c.walkerIndex = i

namespace State

/-- `FINISHED` is set before the search of a step, if there is one. -/
def finishes (cfg : Config) (s : State) : Action → Bool
  | .connect _ => false
  | .checkWalker _ => false
  | .updateStrategy _ => !s.pausedOrConfig cfg
  | .checkMaxWalkersReached others =>
    match s.scanStrategy with
    | none => false
    | some current => !s.checkMaxWalkersReached current others
  | .noLocationLeft => true
  | .setPaused _ => false
  | .update _ _ => false
  | .dropIdle _ => false

/-- The search of a step for a walker area, if there is one. -/
def search (cfg : Config) (s : State) : Action → Option Lookup
  | .connect l => if s.pausedOrConfig cfg then none else some l
  | .checkWalker l =>
    match s.scanStrategy with
    | none => none
    | some current =>
      match current.walker with
      | none => if s.pausedOrConfig cfg then none else some l
      | some _ => none
  | .updateStrategy l => if s.pausedOrConfig cfg then none else some l
  | .checkMaxWalkersReached _ => none
  | .noLocationLeft => none
  | .setPaused _ => none
  | .update _ _ => none
  | .dropIdle _ => none

/-- The area a search selects: the one found, if it is loaded. -/
def selection (cfg : Config) (s : State) (l : Lookup) : List Event :=
  match (getWalkerSettings cfg.int l.look s.mapping).1 with
  | .raised => []
  | .none => []
  | .walker c => if (s.routemanagers c.areaId).isNone then [] else [.selected c]

/-- The device once `FINISHED` is set, as far as a step does so. -/
def marked (cfg : Config) (s : State) (a : Action) : State :=
  if s.finishes cfg a then { s with mapping := { s.mapping with finished := true } } else s

/-- What a step records. -/
def emit (cfg : Config) (s : State) (a : Action) : List Event :=
  match a with
  | .update _ _ => [.loaded]
  | _ => (if s.finishes cfg a then [.finished] else []) ++
      ((s.search cfg a).map fun l => (s.marked cfg a).selection cfg l).getD []

/-- The first check of every area of the walker goes through, and its area is loaded, in the search of a step. -/
def AllPass (cfg : Config) (s : State) (a : Action) : Prop :=
  ∀ l ∈ s.search cfg a, ∀ w ∈ s.mapping.walkerAreas,
    preCheckValue cfg.int w (l.look 0) = some true ∧ (s.routemanagers w.areaId).isSome

/-- No search goes back from an index of 0: the last area is finished, or it is the only one. -/
def TakesUp (cfg : Config) (s : State) (a : Action) : Prop :=
  ∀ l ∈ s.search cfg a, s.mapping.walkerAreaIndex = 0 → s.finishes cfg a = false → s.mapping.finished = false →
    s.mapping.walkerAreas.length ≤ 1

/-- The device after a search. -/
def searched (cfg : Config) (s : State) (l : Lookup) : DeviceMappingsEntry :=
  let r := getWalkerSettings cfg.int l.look s.mapping
  match r.1 with
  | .raised => r.2
  | .none => r.2
  | .walker c => if (s.routemanagers c.areaId).isNone then r.2 else updateSettingsOfOrigin r.2 c

end State

/-! ## The record -/

theorem progress_snoc (es : List Event) (e : Event) :
    progress (es ++ [e]) = match e with
      | .selected c => some (c, false)
      | .finished => (progress es).map fun last => (last.1, true)
      | .loaded => none := by
  unfold progress
  rw [List.foldl_concat]

theorem Resumed.nil : Resumed [] := by
  intro pre c post h
  have hlength := congrArg List.length h
  simp at hlength

theorem resumed_snoc_iff (es : List Event) (e : Event) :
    Resumed (es ++ [e]) ↔ Resumed es ∧ ∀ c, e = .selected c → ∀ i ∈ nextArea es, c.walkerIndex = i := by
  constructor
  · intro h
    refine ⟨fun pre c post hes => h pre c (post ++ [e]) (by rw [hes]; simp), fun c he => ?_⟩
    exact h es c [] (by rw [he])
  · rintro ⟨hold, hnew⟩ pre c post hes
    rcases List.eq_nil_or_concat post with rfl | ⟨post, x, rfl⟩
    · obtain ⟨rfl, hx⟩ := List.append_inj' hes rfl
      exact hnew c (by simpa using hx)
    · have hsplit : es ++ [e] = (pre ++ .selected c :: post) ++ [x] := by simpa using hes
      exact hold pre c post (List.append_inj' hsplit rfl).1

/-- The index and `finished` of a device agree with the record: the index is that of the area after the last one
selected, and -1 before any is. -/
structure Tracks (e : DeviceMappingsEntry) (es : List Event) : Prop where
  unselected : progress es = none → e.walkerAreaIndex = -1
  selected : ∀ {c fin}, progress es = some (c, fin) → c.totalAreasInWalker = e.walkerAreas.length ∧
    c.walkerIndex < e.walkerAreas.length ∧
    e.walkerAreaIndex = ((c.walkerIndex + 1) % e.walkerAreas.length : Nat) ∧ e.finished = fin

/-- Setting `FINISHED` is recorded. -/
theorem Tracks.finished {e : DeviceMappingsEntry} {es : List Event} (h : Tracks e es) :
    Tracks { e with finished := true } (es ++ [.finished]) := by
  constructor
  · intro hnone
    rw [progress_snoc, Option.map_eq_none_iff] at hnone
    exact h.unselected hnone
  · intro c fin hsome
    rw [progress_snoc, Option.map_eq_some_iff] at hsome
    obtain ⟨last, hlast, heq⟩ := hsome
    cases heq
    obtain ⟨htotal, hlt, hindex, _⟩ := h.selected hlast
    exact ⟨htotal, hlt, hindex, rfl⟩

/-! ## A search -/

/-- The search starts at the area to be selected, unless it would have to go back from an index of 0. -/
theorem Tracks.startIndex {e : DeviceMappingsEntry} {es : List Event} (h : Tracks e es) (hne : 0 < e.walkerAreas.length) :
    ∃ k < e.walkerAreas.length, Worker.startIndex e = (k : Nat) ∧
      ((∀ i ∈ nextArea es, k = i) ↔ (e.walkerAreaIndex = 0 → e.finished = false → e.walkerAreas.length ≤ 1)) := by
  rw [startIndex_eq]
  unfold nextArea
  cases hprogress : progress es with
  | none =>
    have hindex := h.unselected hprogress
    refine ⟨0, hne, by rw [hindex]; rfl, ?_⟩
    simp [hindex]
  | some last =>
    obtain ⟨c, fin⟩ := last
    obtain ⟨htotal, hlt, hindex, hfin⟩ := h.selected hprogress
    have hmod : (c.walkerIndex + 1) % e.walkerAreas.length < e.walkerAreas.length := Nat.mod_lt _ hne
    rw [hindex, hfin]
    cases fin with
    | true =>
      refine ⟨(c.walkerIndex + 1) % e.walkerAreas.length, hmod, ?_, ?_⟩
      · rw [if_neg (by omega), if_neg (by simp)]
      · simp [htotal]
    | false =>
      -- the index is that of the next area, or 0 after the last one
      by_cases hlast : c.walkerIndex + 1 = e.walkerAreas.length
      · refine ⟨0, hne, ?_, ?_⟩
        · rw [hlast, Nat.mod_self]
          simp
        · simp only [hlast, Nat.mod_self, Option.map_some, Option.mem_some_iff, Bool.false_eq_true, if_false]
          constructor
          · intro hback _ _
            have hzero := hback c.walkerIndex rfl
            omega
          · intro hone i hi
            have hlength := hone rfl trivial
            omega
      · have hnext : (c.walkerIndex + 1) % e.walkerAreas.length = c.walkerIndex + 1 := Nat.mod_eq_of_lt (by omega)
        refine ⟨c.walkerIndex, hlt, ?_, ?_⟩
        · rw [hnext, if_neg (by omega), if_pos ⟨by omega, rfl⟩]
          omega
        · rw [hnext]
          simp only [Option.map_some, Option.mem_some_iff, Bool.false_eq_true, if_false]
          constructor
          · intro _ hzero
            omega
          · intro _ i hi
            exact hi

/-- With the first check going through, the area the search starts at is found. -/
theorem getWalkerSettings_of_pass {int : String → Option Int} {look : Nat → Surroundings} {e : DeviceMappingsEntry}
    {k : Nat} (hstart : startIndex e = k) (hk : k < e.walkerAreas.length)
    (hpass : ∀ w ∈ e.walkerAreas, preCheckValue int w (look 0) = some true) :
    (getWalkerSettings int look e).1 = .walker ⟨e.walkerAreas[k], k, e.walkerAreas[k].areaId, e.walkerAreas.length⟩ ∧
      (getWalkerSettings int look e).2.walkerAreas = e.walkerAreas := by
  obtain ⟨finished, hloop, hareas⟩ := getWalkerSettings_loop (List.ne_nil_of_length_pos (by omega)) hstart int look
  refine ⟨?_, hareas⟩
  rw [hloop]
  unfold preCheckLoop
  simp only [dif_pos hk, hpass _ (List.getElem_mem hk)]

namespace State

/-- What a search does to the record: the area selected is the one to be selected exactly if the search does not
go back from an index of 0. -/
theorem searched_iff {cfg : Config} {s : State} {l : Lookup} {es : List Event} (h : Tracks s.mapping es)
    (hpass : ∀ w ∈ s.mapping.walkerAreas,
      preCheckValue cfg.int w (l.look 0) = some true ∧ (s.routemanagers w.areaId).isSome) :
    Tracks (s.searched cfg l) (es ++ s.selection cfg l) ∧
      (Resumed (es ++ s.selection cfg l) ↔ Resumed es ∧
        (s.mapping.walkerAreaIndex = 0 → s.mapping.finished = false → s.mapping.walkerAreas.length ≤ 1)) := by
  by_cases hne : s.mapping.walkerAreas = []
  · have hnone : getWalkerSettings cfg.int l.look s.mapping = (.none, s.mapping) := by
      unfold getWalkerSettings
      rw [if_pos hne]
    unfold searched selection
    simp only [hnone, List.append_nil]
    refine ⟨h, ?_⟩
    simp [hne]
  · obtain ⟨k, hk, hstart, hnext⟩ := h.startIndex (List.length_pos_of_ne_nil hne)
    obtain ⟨hfound, hareas⟩ := getWalkerSettings_of_pass hstart hk fun w hw => (hpass w hw).1
    have hloaded : (s.routemanagers s.mapping.walkerAreas[k].areaId).isNone = false := by
      have hsome := (hpass _ (List.getElem_mem hk)).2
      rw [← Option.not_isSome, hsome]
      rfl
    unfold searched selection
    simp only [hfound, hloaded, Bool.false_eq_true, if_false]
    constructor
    · constructor
      · intro hnone
        rw [progress_snoc] at hnone
        cases hnone
      · intro c fin hsome
        rw [progress_snoc] at hsome
        cases hsome
        unfold updateSettingsOfOrigin
        simp only [hareas]
        refine ⟨trivial, hk, ?_, trivial⟩
        split
        · rw [show k + 1 = s.mapping.walkerAreas.length by omega, Nat.mod_self]
          rfl
        · rw [Nat.mod_eq_of_lt (by omega)]
          rfl
    · rw [resumed_snoc_iff, ← hnext]
      simp

theorem getStrategyUsingSettings_mapping (cfg : Config) (s : State) (l : Lookup) :
    (s.getStrategyUsingSettings cfg l).1.mapping = if s.pausedOrConfig cfg then s.mapping else s.searched cfg l := by
  unfold getStrategyUsingSettings searched prepSettings
  split
  · rfl
  · dsimp only
    cases (getWalkerSettings cfg.int l.look s.mapping).1 with
    | raised => rfl
    | none => rfl
    | walker c =>
      dsimp only
      by_cases hloaded : (s.routemanagers c.areaId).isNone
      · simp only [if_pos hloaded]
      · simp only [if_neg hloaded]

theorem setScanStrategy_mapping (s : State) (strategy : Option AbstractWorkerStrategy) :
    (s.setScanStrategy strategy).mapping = s.mapping := by
  cases strategy with
  | none => rfl
  | some strategy => rfl

/-- What a step does to the device: `FINISHED` may be set, then there may be a search. -/
theorem step_mapping {cfg : Config} {s t : State} {a : Action} (h : step cfg s a = some t)
    (hload : ∀ routemanagers walkerAreas, a ≠ .update routemanagers walkerAreas) :
    t.mapping = match s.search cfg a with
      | none => (s.marked cfg a).mapping
      | some l => (s.marked cfg a).searched cfg l := by
  cases a with
  | connect l =>
    have ht : some ((s.getStrategyUsingSettings cfg l).1.setScanStrategy (s.getStrategyUsingSettings cfg l).2) =
        some t := h
    rw [← Option.some.inj ht, setScanStrategy_mapping, getStrategyUsingSettings_mapping]
    unfold search marked finishes
    split
    · rfl
    · rfl
  | checkWalker l =>
    simp only [step] at h
    unfold search marked finishes
    split at h
    · cases h
    · next current hcurrent =>
      rw [hcurrent]
      dsimp only
      cases hwalker : current.walker with
      | none =>
        rw [hwalker] at h
        cases h
        simp only [getStrategyUsingSettings_mapping]
        split
        · rfl
        · rfl
      | some walker =>
        rw [hwalker] at h
        cases h
        rfl
  | updateStrategy l =>
    simp only [step] at h
    unfold search marked finishes
    split at h
    · cases h
    · next current hcurrent =>
      split at h
      · next hpaused =>
        cases h
        simp only [hpaused]
        rfl
      · next hactive =>
        have ht : some (((s.finish current).getStrategyUsingSettings cfg l).1.setScanStrategy
            ((s.finish current).getStrategyUsingSettings cfg l).2) = some t := h
        have hsame : (s.finish current).pausedOrConfig cfg = s.pausedOrConfig cfg := rfl
        rw [← Option.some.inj ht, setScanStrategy_mapping, getStrategyUsingSettings_mapping, hsame]
        simp only [hactive]
        rfl
  | checkMaxWalkersReached others =>
    simp only [step] at h
    unfold search marked finishes
    split at h
    · cases h
    · next current hcurrent =>
      rw [hcurrent]
      split at h
      · next hfits =>
        cases h
        simp only [hfits]
        rfl
      · next hfull =>
        cases h
        simp only [hfull]
        rfl
  | noLocationLeft =>
    simp only [step] at h
    split at h
    · cases h
    · cases h; rfl
  | setPaused paused => cases h; rfl
  | update routemanagers walkerAreas => exact absurd rfl (hload routemanagers walkerAreas)
  | dropIdle areaId => cases h; rfl

/-- A step keeps to the record exactly if its search does not go back from an index of 0. -/
theorem resumed_iff {cfg : Config} {s t : State} {a : Action} {es : List Event} (h : Tracks s.mapping es)
    (hresumed : Resumed es) (hpass : s.AllPass cfg a) (hs : step cfg s a = some t) :
    Tracks t.mapping (es ++ s.emit cfg a) ∧ (Resumed (es ++ s.emit cfg a) ↔ s.TakesUp cfg a) := by
  by_cases hload : ∃ routemanagers walkerAreas, a = .update routemanagers walkerAreas
  · obtain ⟨routemanagers, walkerAreas, rfl⟩ := hload
    cases hs
    refine ⟨⟨fun _ => rfl, fun hsome => ?_⟩, ?_⟩
    · rw [emit, progress_snoc] at hsome
      cases hsome
    · rw [emit, resumed_snoc_iff]
      simp [hresumed, TakesUp, search]
  · have hmapping := step_mapping hs fun routemanagers walkerAreas ha => hload ⟨routemanagers, walkerAreas, ha⟩
    have hemit : s.emit cfg a = (if s.finishes cfg a then [.finished] else []) ++
        ((s.search cfg a).map fun l => (s.marked cfg a).selection cfg l).getD [] := by
      unfold emit
      split
      · exact absurd ⟨_, _, rfl⟩ hload
      · rfl
    -- first `FINISHED`
    have hmarked : Tracks (s.marked cfg a).mapping (es ++ if s.finishes cfg a then [.finished] else []) := by
      unfold marked
      split
      · exact h.finished
      · rw [List.append_nil]
        exact h
    have hquiet : Resumed (es ++ if s.finishes cfg a then [.finished] else []) := by
      split
      · exact (resumed_snoc_iff es _).mpr ⟨hresumed, fun c hc => by cases hc⟩
      · rw [List.append_nil]
        exact hresumed
    -- then the search
    rw [hemit, hmapping, ← List.append_assoc]
    unfold TakesUp
    cases hsearch : s.search cfg a with
    | none =>
      simp only [Option.map_none, Option.getD_none, List.append_nil]
      exact ⟨hmarked, by simp [hquiet]⟩
    | some l =>
      have hareas : (s.marked cfg a).mapping.walkerAreas = s.mapping.walkerAreas := by
        unfold marked
        split
        · rfl
        · rfl
      have hroute : (s.marked cfg a).routemanagers = s.routemanagers := by
        unfold marked
        split
        · rfl
        · rfl
      have hpassed : ∀ w ∈ (s.marked cfg a).mapping.walkerAreas,
          preCheckValue cfg.int w (l.look 0) = some true ∧ ((s.marked cfg a).routemanagers w.areaId).isSome := by
        rw [hareas, hroute]
        exact hpass l hsearch
      have hsearched := searched_iff hmarked hpassed
      simp only [Option.map_some, Option.getD_some]
      refine ⟨hsearched.1, ?_⟩
      rw [hsearched.2, hareas]
      simp only [hquiet, true_and, Option.mem_def, Option.some.injEq, forall_eq']
      unfold marked
      cases s.finishes cfg a with
      | true => simp
      | false => simp

/-- While no search goes back from an index of 0, an area that was not finished is the next to be selected, and a
finished one is followed by the next in the list. -/
theorem resumed {cfg : Config} {s t : State} {l : List Action} {es : List Event} (h0 : s.mapping.walkerAreaIndex = -1)
    (h : Run (recording (step cfg) (emit cfg)) (fun p a => AllPass cfg p.1 a ∧ TakesUp cfg p.1 a) (s, []) l (t, es)) :
    Resumed es := by
  have hinv : Tracks t.mapping es ∧ Resumed es := by
    refine h.invariant (I := fun p => Tracks p.1.mapping p.2 ∧ Resumed p.2) ?_ fun p a q hi hok hq => ?_
    · exact ⟨⟨fun _ => h0, fun hsome => by cases hsome⟩, Resumed.nil⟩
    · obtain ⟨hstep, hes⟩ := recording_some hq
      obtain ⟨htracks, hiff⟩ := resumed_iff hi.1 hi.2 hok.1 hstep
      rw [hes]
      exact ⟨htracks, hiff.mpr hok.2⟩
  exact hinv.2

/-! ## A walker of two areas -/

instance (cfg : Config) (s : State) (a : Action) : Decidable (s.AllPass cfg a) :=
  inferInstanceAs (Decidable (∀ l ∈ s.search cfg a, ∀ w ∈ s.mapping.walkerAreas, _ ∧ _))

instance (cfg : Config) (s : State) (a : Action) : Decidable (s.TakesUp cfg a) :=
  inferInstanceAs (Decidable (∀ l ∈ s.search cfg a, _ → _ → _ → _))

/-- The first area is scanned, left and taken up again; the second follows when it is finished. -/
theorem resumed_twoAreas :
    Resumed (after (recording (step plain) (emit plain)) (fun p a => AllPass plain p.1 a ∧ TakesUp plain p.1 a)
      (twoAreas false, []) [.connect lookup, .connect lookup, .updateStrategy lookup, .updateStrategy lookup]).2 :=
  resumed rfl (.of_after (by decide +kernel))

/-- The second area is left unfinished, and the first one selected. -/
theorem last_area_left : ¬ ∀ (cfg : Config) (s t : State) (l : List Action) (es : List Event),
    s.mapping.walkerAreaIndex = -1 →
    Run (recording (step cfg) (emit cfg)) (fun p a => AllPass cfg p.1 a) (s, []) l (t, es) → Resumed es := by
  intro h
  have hresumed := h plain (twoAreas false) _ [.connect lookup, .updateStrategy lookup, .connect lookup] _ rfl
    (.of_after (by decide +kernel))
  have hsecond := hresumed [.selected ⟨always 1, 0, 1, 2⟩, .finished, .selected ⟨always 2, 1, 2, 2⟩]
    ⟨always 1, 0, 1, 2⟩ [] (by decide +kernel) 1 (by decide)
  exact absurd hsecond (by decide)

end State

end MapADroid.Worker
