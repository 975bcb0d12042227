import MapADroid.Mons.Submit

/- What becomes of a row once an encounter has been stored.

   No sighting changes its IVs, or that it was encountered (`ivs_kept`). But a sighting
   in the wild or nearby writes the identity it shows over the one of the encounter,
   unless a key of its own kind is in the cache, so that a ditto takes on its disguise
   again (`ditto_disguised`). The rows keep the identity of their last encounter while
   no sighting that is written shows another (`encounter_kept`), and each step keeps it
   only then (`identities_kept_iff`). -/
namespace MapADroid.Mons
open Lib Stats

/-- A sighting or an encounter is processed, or a key of the cache comes or goes. -/
inductive Action where
  | wild (timestamp : ℚ) (o : Outcome) (mon : WildMon)
  | nearby (timestamp : ℚ) (cellId : Option Int) (o : Outcome) (mon : NearbyMon)
  | lure (timestamp : ℚ) (o : Outcome) (fort : Fort)
  | encounter (timestamp : ℚ) (o : Outcome) (proto : EncounterProto)
  | cache (key : CacheKey) (present : Bool)

namespace Store

def step (cfg : Config) (s : Store) : Action → Option Store
  | .wild timestamp o mon => some (s.wildMon timestamp o mon)
  | .nearby timestamp cellId o mon => some (s.nearbyMon cfg timestamp cellId o mon)
  | .lure timestamp o fort => some (s.lureFort timestamp o fort)
  | .encounter timestamp o proto => some (s.monIv timestamp o proto).1
  | .cache key present => some { s with cache := Function.update s.cache key present }

/-- The row an encounter stores. -/
def stored (s : Store) : Action → List Pokemon
  | .encounter timestamp o proto => ((s.encountered timestamp o proto).map Prod.snd).toList
  | _ => []

/-- The row the last encounter of a mon stored. -/
def lastStored (l : List Pokemon) (id : Int) : Option Pokemon := (l.filter fun row => row.encounterId = id).getLast?

/-- A row that was encountered is the mon shown. -/
def Agrees (s : Store) (id : Int) (shown : Identity) : Prop :=
  ∀ row ∈ s.pokemon id, row.seenType = .encounter → row.identity = shown

instance (s : Store) (id : Int) (shown : Identity) : Decidable (s.Agrees id shown) :=
  inferInstanceAs (Decidable (∀ row ∈ s.pokemon id, _ → _))

/-- A sighting in the wild or nearby that is written shows the mon of the row, if that was encountered. -/
def Agreeing (s : Store) : Action → Prop
  | .wild _ o mon =>
    s.wildNew mon ∧ o.committed → s.Agrees (unsigned mon.encounterId) (shownIdentity mon.id mon.display)
  | .nearby _ _ o mon =>
    s.nearbyNew mon ∧ o.committed → s.Agrees (unsigned mon.encounterId) (shownIdentity mon.id mon.display)
  | .lure .. => True
  | .encounter .. => True
  | .cache .. => True

instance (s : Store) : (a : Action) → Decidable (s.Agreeing a)
  | .wild .. => inferInstanceAs (Decidable (_ ∧ _ → _))
  | .nearby .. => inferInstanceAs (Decidable (_ ∧ _ → _))
  | .lure .. => isTrue trivial
  | .encounter .. => isTrue trivial
  | .cache .. => isTrue trivial

/-! ## Messages -/

/-- Processing the wild mons of a map proto is a run of sightings. -/
theorem run_mons {cfg : Config} (s : Store) (timestamp : ℚ) (cells : List (List (WildMon × Outcome))) :
    Run (step cfg) Any s (cells.flatten.map fun x => .wild timestamp x.2 x.1) (s.mons timestamp cells).1 := by
  have hmons : (s.mons timestamp cells).1 = cells.flatten.foldl (fun s x => s.wildMon timestamp x.2 x.1) s := by
    unfold mons
    rw [← List.foldl_flatten]
    exact (List.foldl_hom Prod.fst fun _ _ => rfl).symm
  rw [hmons]
  refine .foldl ?_ _ s
  intro s x
  rfl

/-- Processing the nearby mons of a map proto is a run of sightings. -/
theorem run_monsNearby {cfg : Config} (s : Store) (timestamp : ℚ)
    (cells : List (Option Int × List (NearbyMon × Outcome))) :
    Run (step cfg) Any s
      ((cells.flatMap fun cell => cell.2.map fun x => (cell.1, x)).map fun x => .nearby timestamp x.1 x.2.2 x.2.1)
      (s.monsNearby cfg timestamp cells).1 := by
  have hnearby : (s.monsNearby cfg timestamp cells).1 =
      (cells.flatMap fun cell => cell.2.map fun x => (cell.1, x)).foldl
        (fun s x => s.nearbyMon cfg timestamp x.1 x.2.2 x.2.1) s := by
    unfold monsNearby
    rw [List.foldl_flatMap]
    simp only [List.foldl_map]
    refine (List.foldl_hom Prod.fst fun p cell => ?_).symm
    exact List.foldl_hom Prod.fst fun _ _ => rfl
  rw [hnearby]
  refine .foldl ?_ _ s
  intro s x
  rfl

/-- Processing the forts of a map proto is a run of sightings. -/
theorem run_monLureNoiv {cfg : Config} (s : Store) (timestamp : ℚ) (cells : List (List (Fort × Outcome))) :
    Run (step cfg) Any s (cells.flatten.map fun x => .lure timestamp x.2 x.1) (s.monLureNoiv timestamp cells).1 := by
  have hlure : (s.monLureNoiv timestamp cells).1 =
      cells.flatten.foldl (fun s x => s.lureFort timestamp x.2 x.1) s := by
    unfold monLureNoiv
    rw [← List.foldl_flatten]
    exact (List.foldl_hom Prod.fst fun _ _ => rfl).symm
  rw [hlure]
  refine .foldl ?_ _ s
  intro s x
  rfl

/-! ## Steps -/

theorem wildMon_eq (s : Store) (timestamp : ℚ) (o : Outcome) (wild : WildMon) :
    (s.wildMon timestamp o wild).pokemon =
      if s.wildNew wild ∧ o.committed then
        Function.update s.pokemon (unsigned wild.encounterId)
          (some (wildRow (s.pokemon (unsigned wild.encounterId)) timestamp o wild))
      else s.pokemon := by
  unfold wildMon
  by_cases hnew : s.wildNew wild
  · by_cases hc : o.committed = true
    · simp [hnew, hc]
    · simp [hnew, hc]
  · simp [hnew]

theorem nearbyMon_eq (cfg : Config) (s : Store) (timestamp : ℚ) (cellId : Option Int) (o : Outcome)
    (nearby : NearbyMon) :
    (s.nearbyMon cfg timestamp cellId o nearby).pokemon =
      if s.nearbyNew nearby ∧ o.committed then
        Function.update s.pokemon (unsigned nearby.encounterId)
          (some (nearbyRow cfg (s.pokemon (unsigned nearby.encounterId)) timestamp cellId o nearby))
      else s.pokemon := by
  unfold nearbyMon
  by_cases hnew : s.nearbyNew nearby
  · by_cases hc : o.committed = true
    · simp [hnew, hc]
    · simp [hnew, hc]
  · simp [hnew]

theorem lureFort_eq (s : Store) (timestamp : ℚ) (o : Outcome) (fort : Fort) :
    (s.lureFort timestamp o fort).pokemon = s.pokemon ∨
      ∃ lure, (s.lureFort timestamp o fort).pokemon =
        Function.update s.pokemon (unsigned lure.encounterId)
          (some (lureRow (s.pokemon (unsigned lure.encounterId)) timestamp fort lure)) := by
  unfold lureFort
  split
  · exact .inl rfl
  · next lure _ =>
    dsimp only
    split
    · exact .inl rfl
    · split
      · exact .inr ⟨lure, by simp⟩
      · exact .inl rfl

theorem encountered_row {s : Store} {timestamp : ℚ} {o : Outcome} {proto : EncounterProto} {wild : EncounteredMon}
    {row : Pokemon} (h : s.encountered timestamp o proto = some (wild, row)) :
    row.encounterId = unsigned wild.encounterId ∧ row.seenType = .encounter := by
  unfold encountered at h
  split at h
  · cases h
  · split at h
    · cases h
    · dsimp only at h
      split at h
      · cases h
      · split at h
        · cases h
        · split at h
          · split at h
            · cases h; exact ⟨rfl, rfl⟩
            · cases h
          · cases h

theorem monIv_eq {s : Store} {timestamp : ℚ} {o : Outcome} {proto : EncounterProto} :
    (s.monIv timestamp o proto).1 = s ∧ stored s (.encounter timestamp o proto) = [] ∨
      ∃ row, stored s (.encounter timestamp o proto) = [row] ∧ row.seenType = .encounter ∧
        (s.monIv timestamp o proto).1.pokemon = Function.update s.pokemon row.encounterId (some row) := by
  simp only [monIv, stored]
  split
  · next h => exact .inl ⟨rfl, by simp only [h]; rfl⟩
  · next wild row h =>
    obtain ⟨hid, htype⟩ := encountered_row h
    exact .inr ⟨row, by simp only [h]; rfl, htype, by simp [hid]⟩

/-- What a sighting leaves of a row that was encountered. -/
def Kept (old row : Pokemon) : Prop := old.seenType = .encounter → row.seenType = .encounter ∧ row.ivs = old.ivs

theorem wildRow_kept (old : Pokemon) (timestamp : ℚ) (o : Outcome) (wild : WildMon) :
    Kept old (wildRow (some old) timestamp o wild) := by
  intro h
  unfold wildRow
  dsimp only
  rw [h]
  exact ⟨rfl, rfl⟩

/-- A step leaves the row of a mon, or stores an encounter of it, or writes a sighting over it. -/
theorem step_rows {cfg : Config} {s t : Store} {a : Action} (h : step cfg s a = some t) (id : Int) :
    (t.pokemon id = s.pokemon id ∧ ∀ row ∈ stored s a, row.encounterId ≠ id) ∨
      (∃ row, stored s a = [row] ∧ row.encounterId = id ∧ row.seenType = .encounter ∧ t.pokemon id = some row) ∨
      (stored s a = [] ∧ ∃ row, t.pokemon id = some row ∧ ∀ old ∈ s.pokemon id, Kept old row) := by
  -- a row is written at one id
  have hone : ∀ id' row, stored s a = [] → t.pokemon = Function.update s.pokemon id' (some row) →
      (∀ old ∈ s.pokemon id', Kept old row) →
      (t.pokemon id = s.pokemon id ∧ ∀ row ∈ stored s a, row.encounterId ≠ id) ∨
        (stored s a = [] ∧ ∃ row, t.pokemon id = some row ∧ ∀ old ∈ s.pokemon id, Kept old row) := by
    intro id' row hnone ht hkept
    by_cases hid : id = id'
    · subst hid
      exact .inr ⟨hnone, row, by rw [ht, Function.update_self], hkept⟩
    · exact .inl ⟨by rw [ht, Function.update_of_ne hid], by rw [hnone]; intro _ hr; cases hr⟩
  have hsame : stored s a = [] → t.pokemon = s.pokemon →
      t.pokemon id = s.pokemon id ∧ ∀ row ∈ stored s a, row.encounterId ≠ id := by
    intro hnone ht
    exact ⟨by rw [ht], by rw [hnone]; intro _ hr; cases hr⟩
  cases a with
  | wild timestamp o wild =>
    cases h
    have hrows := wildMon_eq s timestamp o wild
    split at hrows
    · rcases hone _ _ rfl hrows (fun old hold => by rw [hold]; exact wildRow_kept old timestamp o wild) with hl | hr
      · exact .inl hl
      · exact .inr (.inr hr)
    · exact .inl (hsame rfl hrows)
  | nearby timestamp cellId o nearby =>
    cases h
    have hrows := nearbyMon_eq cfg s timestamp cellId o nearby
    split at hrows
    · rcases hone _ _ rfl hrows (fun old hold => by rw [hold]; exact fun h => ⟨h, rfl⟩) with hl | hr
      · exact .inl hl
      · exact .inr (.inr hr)
    · exact .inl (hsame rfl hrows)
  | lure timestamp o fort =>
    cases h
    rcases lureFort_eq s timestamp o fort with hrows | ⟨lure, hrows⟩
    · exact .inl (hsame rfl hrows)
    · rcases hone _ _ rfl hrows (fun old hold => by rw [hold]; exact fun h => ⟨h, rfl⟩) with hl | hr
      · exact .inl hl
      · exact .inr (.inr hr)
  | encounter timestamp o proto =>
    cases h
    rcases monIv_eq (s := s) (o := o) with ⟨hs, hnone⟩ | ⟨row, hstored, htype, hrows⟩
    · exact .inl (hsame hnone (by rw [hs]))
    · by_cases hid : row.encounterId = id
      · exact .inr (.inl ⟨row, hstored, hid, htype, by rw [hrows, ← hid, Function.update_self]⟩)
      · refine .inl ⟨by rw [hrows, Function.update_of_ne (Ne.symm hid)], fun row' hr => ?_⟩
        rw [hstored] at hr
        rw [List.mem_singleton.mp hr]
        exact hid
  | cache key present => cases h; exact .inl (hsame rfl rfl)

/-- The rows that were encountered are still the same mons. -/
def IdentitiesKept (s t : Store) : Prop :=
  ∀ id, ∀ old ∈ s.pokemon id, old.seenType = .encounter → ∃ row ∈ t.pokemon id, row.identity = old.identity

theorem identitiesKept_of_eq {s t : Store} (h : t.pokemon = s.pokemon) : IdentitiesKept s t :=
  fun id old hold _ => ⟨old, by rw [h]; exact hold, rfl⟩

/-- A row written at one id keeps the identities exactly if it agrees with the row that was there. -/
theorem identitiesKept_update_iff {s t : Store} {id : Int} {row : Pokemon}
    (h : t.pokemon = Function.update s.pokemon id (some row)) : IdentitiesKept s t ↔ s.Agrees id row.identity := by
  have hself : t.pokemon id = some row := by rw [h, Function.update_self]
  constructor
  · intro hkept old hold htype
    obtain ⟨row', hrow', heq⟩ := hkept id old hold htype
    rw [hself] at hrow'
    cases hrow'
    exact heq.symm
  · intro hagrees id' old hold htype
    by_cases hid : id' = id
    · subst hid
      exact ⟨row, hself, (hagrees old hold htype).symm⟩
    · exact ⟨old, by rw [h, Function.update_of_ne hid]; exact hold, rfl⟩

/-- A row that is only written at times has to agree only then. -/
theorem identitiesKept_ite_iff {s t : Store} {p : Prop} [Decidable p] {id : Int} {row : Pokemon}
    (h : t.pokemon = if p then Function.update s.pokemon id (some row) else s.pokemon) :
    IdentitiesKept s t ↔ (p → s.Agrees id row.identity) := by
  split at h
  · next hp =>
    rw [identitiesKept_update_iff h]
    exact ⟨fun hagrees _ => hagrees, fun hagrees => hagrees hp⟩
  · next hp => exact ⟨fun _ hp' => absurd hp' hp, fun _ => identitiesKept_of_eq h⟩

/-- A step that stores no encounter keeps all identities exactly if it agrees with them. -/
theorem identities_kept_iff {cfg : Config} {s t : Store} {a : Action} (h : step cfg s a = some t)
    (hnone : stored s a = []) : IdentitiesKept s t ↔ s.Agreeing a := by
  cases a with
  | wild timestamp o wild =>
    cases h
    have hrows := wildMon_eq s timestamp o wild
    have hshown : (wildRow (s.pokemon (unsigned wild.encounterId)) timestamp o wild).identity =
        shownIdentity wild.id wild.display := by
      unfold wildRow
      split
      · rfl
      · rfl
    rw [identitiesKept_ite_iff hrows, hshown]
    rfl
  | nearby timestamp cellId o nearby =>
    cases h
    have hrows := nearbyMon_eq cfg s timestamp cellId o nearby
    have hshown : (nearbyRow cfg (s.pokemon (unsigned nearby.encounterId)) timestamp cellId o nearby).identity =
        shownIdentity nearby.id nearby.display := by
      unfold nearbyRow
      split
      · rfl
      · rfl
    rw [identitiesKept_ite_iff hrows, hshown]
    rfl
  | lure timestamp o fort =>
    cases h
    refine ⟨fun _ => trivial, fun _ => ?_⟩
    rcases lureFort_eq s timestamp o fort with hrows | ⟨lure, hrows⟩
    · exact identitiesKept_of_eq hrows
    · refine (identitiesKept_update_iff hrows).mpr fun old hold _ => ?_
      rw [hold]
      rfl
  | encounter timestamp o proto =>
    cases h
    refine ⟨fun _ => trivial, fun _ => ?_⟩
    rcases monIv_eq (s := s) (o := o) with ⟨hs, _⟩ | ⟨row, hstored, _⟩
    · exact identitiesKept_of_eq (by rw [hs])
    · rw [hstored] at hnone
      cases hnone
  | cache key present =>
    cases h
    exact ⟨fun _ => trivial, fun _ => identitiesKept_of_eq rfl⟩

/-! ## Runs -/

/-- The tables with the rows encounters have stored so far, oldest first. -/
abbrev Recorded := Store × List Pokemon

theorem lastStored_append_of_ne {l l' : List Pokemon} {id : Int} (h : ∀ row ∈ l', row.encounterId ≠ id) :
    lastStored (l ++ l') id = lastStored l id := by
  have hnil : l'.filter (fun row => row.encounterId = id) = [] := by simpa using h
  rw [lastStored, List.filter_append, hnil, List.append_nil, lastStored]

theorem lastStored_append_self (l : List Pokemon) (row : Pokemon) :
    lastStored (l ++ [row]) row.encounterId = some row := by
  simp [lastStored, List.filter_append]

/-- The rows have the IVs of their last encounter and count as encountered. -/
def IvsKept (p : Recorded) : Prop :=
  ∀ id, ∀ d ∈ lastStored p.2 id, ∃ row ∈ p.1.pokemon id, row.seenType = .encounter ∧ row.ivs = d.ivs

/-- The rows also are the mons of their last encounter. -/
def EncounterKept (p : Recorded) : Prop :=
  ∀ id, ∀ d ∈ lastStored p.2 id, ∃ row ∈ p.1.pokemon id,
    row.seenType = .encounter ∧ row.ivs = d.ivs ∧ row.identity = d.identity

/-- What relates each row to the one its last encounter stored is kept, if a sighting keeps it. -/
theorem step_kept {cfg : Config} {p q : Recorded} {a : Action} {Like : Pokemon → Pokemon → Prop}
    (h : recording (step cfg) stored p a = some q) (hself : ∀ d, d.seenType = .encounter → Like d d)
    (hsighted : ∀ id, stored p.1 a = [] → ∀ old ∈ p.1.pokemon id, ∀ row ∈ q.1.pokemon id, Kept old row →
      ∀ d, Like old d → Like row d)
    (hp : ∀ id, ∀ d ∈ lastStored p.2 id, ∃ row ∈ p.1.pokemon id, Like row d) :
    ∀ id, ∀ d ∈ lastStored q.2 id, ∃ row ∈ q.1.pokemon id, Like row d := by
  obtain ⟨hstep, hq⟩ := recording_some h
  intro id d hd
  rw [hq] at hd
  rcases step_rows hstep id with ⟨hsame, hne⟩ | ⟨row, hrow, hid, htype, ht⟩ | ⟨hnone, row, ht, hkept⟩
  · rw [lastStored_append_of_ne hne] at hd
    rw [hsame]
    exact hp id d hd
  · rw [hrow, ← hid, lastStored_append_self] at hd
    cases hd
    exact ⟨d, ht, hself d htype⟩
  · rw [hnone, List.append_nil] at hd
    obtain ⟨old, hold, hlike⟩ := hp id d hd
    exact ⟨row, ht, hsighted id hnone old hold row ht (hkept old hold) d hlike⟩

theorem step_ivsKept {cfg : Config} {p q : Recorded} {a : Action} (hp : IvsKept p)
    (h : recording (step cfg) stored p a = some q) : IvsKept q := by
  refine step_kept h (fun d htype => ⟨htype, rfl⟩) ?_ hp
  intro id _ old _ row _ hkept d ⟨holdtype, hivs⟩
  obtain ⟨htype, hivs'⟩ := hkept holdtype
  exact ⟨htype, hivs'.trans hivs⟩

theorem step_encounterKept {cfg : Config} {p q : Recorded} {a : Action} (hp : EncounterKept p)
    (hagrees : p.1.Agreeing a) (h : recording (step cfg) stored p a = some q) : EncounterKept q := by
  refine step_kept h (fun d htype => ⟨htype, rfl, rfl⟩) ?_ hp
  intro id hnone old hold row hrow hkept d ⟨holdtype, hivs, hidentity⟩
  obtain ⟨htype, hivs'⟩ := hkept holdtype
  obtain ⟨row', hrow', hidentity'⟩ :=
    (identities_kept_iff (recording_some h).1 hnone).mpr hagrees id old hold holdtype
  rw [hrow] at hrow'
  cases hrow'
  exact ⟨htype, hivs'.trans hivs, hidentity'.trans hidentity⟩

/-- Sightings change neither the IVs of an encounter nor that there was one. -/
theorem ivs_kept {cfg : Config} {s : Store} {l : List Action} {p : Recorded}
    (h : Run (recording (step cfg) stored) Any (s, []) l p) : IvsKept p := by
  refine h.invariant (fun _ _ hd => ?_) fun _ _ _ hp _ hs => step_ivsKept hp hs
  cases hd

/-- While the sightings agree, the rows stay as their last encounter stored them. -/
theorem encounter_kept {cfg : Config} {s : Store} {l : List Action} {p : Recorded}
    (h : Run (recording (step cfg) stored) (fun p a => p.1.Agreeing a) (s, []) l p) : EncounterKept p := by
  refine h.invariant (fun _ _ hd => ?_) fun _ _ _ hp ha hs => step_encounterKept hp ha hs
  cases hd

/-! ## A ditto -/

def init : Store := ⟨fun _ => none, fun _ => none, fun _ => false⟩

/-- Written at 0, and known to disappear at 1800. -/
def atOnce : Outcome := ⟨1800, 0, none, true⟩

/-- A ditto disguised as mon 19, in the wild. -/
def disguised : WildMon := ⟨1, ⟨0, 0⟩, 19, 7, ⟨1, 0, 45, 1⟩⟩

/-- The same mon encountered: its attack is too low for the weather. -/
def tooWeak : EncounterProto :=
  ⟨some ⟨7, some 1, ⟨0, 0⟩, ⟨19, ⟨some 1, some 0, some 45, some 1, 0⟩, 0, 15, 15, 1 / 2, none, none, some 100,
    none, none, none⟩⟩, some [1 / 4, 1 / 2, 3 / 4]⟩

example : isMonDitto (tooWeak.wildPokemon.get rfl).pokemonData = true := by decide

/-- Seen before the encounter, the wild sighting after it is in the cache. -/
theorem encounter_kept_cached : EncounterKept (after
    (recording (step ⟨15, false, fun _ => ⟨0, 0⟩⟩) stored) (fun p a => p.1.Agreeing a) (init, [])
    [.wild 0 atOnce disguised, .encounter 0 atOnce tooWeak, .wild 1 atOnce disguised]) :=
  encounter_kept (.of_after (by decide +kernel))

/-- Seen after the encounter first, the ditto is mon 19 again. -/
theorem ditto_disguised : ¬ ∀ (cfg : Config) (s : Store) (l : List Action) (p : Recorded),
    Run (recording (step cfg) stored) Any (s, []) l p → EncounterKept p := by
  intro h
  let cfg : Config := ⟨15, false, fun _ => ⟨0, 0⟩⟩
  let l : List Action := [.encounter 0 atOnce tooWeak, .wild 1 atOnce disguised]
  have hkept := h cfg init l _ (.of_after (by decide +kernel)) 7
  have hlast : ((lastStored (after (recording (step cfg) stored) Any (init, []) l).2 7).map (·.identity)) =
      some ⟨132, some 3, some 0⟩ := by decide +kernel
  have hnow : (((after (recording (step cfg) stored) Any (init, []) l).1.pokemon 7).map (·.identity)) =
      some ⟨19, some 1, some 45⟩ := by decide +kernel
  obtain ⟨d, hd, hditto⟩ := Option.map_eq_some_iff.mp hlast
  obtain ⟨row, hrow, _, _, hidentity⟩ := hkept d hd
  rw [hrow, Option.map_some, hidentity, hditto] at hnow
  exact absurd hnow (by decide)

end Store

end MapADroid.Mons
