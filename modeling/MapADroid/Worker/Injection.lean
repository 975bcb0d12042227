import MapADroid.Lib.Dict
import MapADroid.Lib.Run
import Mathlib.Algebra.Order.Group.Int

/- The encounters a worker injects as seen already (`_update_injection_settings`).

   The list mirrors a table of mons: it is brought up to date with the mons modified after
   the newest one read before, an encounter that is on it keeps its expiry, and what has
   expired is taken off. So it is in sync after every call if, between the calls, no mon
   that becomes visible has the second of the newest one read, or changes the expiry of an
   encounter on the list (`synced_after_call`). The clock counts microseconds here, the
   table whole seconds. -/
namespace MapADroid.Worker
open Lib

variable {L : Type}

/-- A row of `pokemon`, the times in seconds. -/
structure Pokemon (L : Type) where
  lastModified : Int
  disappearTime : Int
  cp : Option Int
  location : L
  deriving DecidableEq, Repr

/-- The polygon of the fence, and `is_coord_inside_include_geofence`. -/
structure GeofenceHelper (L : Type) where
  insidePolygonBounds : L → Bool
  isCoordInsideIncludeGeofence : L → Bool

/-- The clock readings of a call: for the first fifteen minutes, for the query, and to take
off what has expired. -/
structure Readings where
  start : Int
  query : Int
  purge : Int
  deriving DecidableEq, Repr

/-- An hour is added to avoid encountering unknown disappear times again. -/
def Pokemon.expiry (mon : Pokemon L) : Int := mon.disappearTime + 60 * 60

/-- Whether a mon counts for an area: it has a CP and lies in the fence. -/
def GeofenceHelper.has (fence : GeofenceHelper L) (mon : Pokemon L) : Bool :=
  mon.cp.isSome && fence.insidePolygonBounds mon.location && fence.isCoordInsideIncludeGeofence mon.location

/-- The time the query of a call starts from. -/
def since (latest start : Int) : Int := if latest = 0 then start - 1000000 * (15 * 60) else latest

/-- The mons `get_encountered` goes through. -/
def encountered (fence : GeofenceHelper L) (rows : Dict Int (Pokemon L)) (t : Readings) (latest : Int) :
    Dict Int (Pokemon L) :=
  rows.filter fun _ mon => decide (t.query - 1000000 * (60 * 60) < 1000000 * mon.disappearTime ∧
    latest < 1000000 * mon.lastModified) && fence.has mon

/-- `PokemonHelper.get_encountered`. -/
def getEncountered (fence : Option (GeofenceHelper L)) (rows : Dict Int (Pokemon L)) (t : Readings)
    (latest : Int) : Int × Dict Int Int :=
  match fence with
  | none => (0, .empty)
  | some fence =>
    let found := encountered fence rows t (since latest t.start)
    (found.items.foldl (fun latest i => max latest (1000000 * i.2.lastModified)) (since latest t.start),
      found.mapValues fun _ mon => mon.expiry)

/-- The table, and the fields of the strategy; `now` and `first` are not in the source: the last
reading of the clock, and the time fifteen minutes before the first call. -/
structure InjectionState (L : Type) where
  rows : Dict Int (Pokemon L)
  latestEncounterUpdate : Int
  encounterIds : Dict Int Int
  now : Int
  first : Option Int

/-- The part of `_update_injection_settings` on the encounters. -/
def updateInjectionSettings (fence : Option (GeofenceHelper L)) (idsIv : List Int) (t : Readings)
    (s : InjectionState L) : InjectionState L :=
  if idsIv = [] then { s with now := t.purge } else
    let (latest, encounterIds) := getEncountered fence s.rows t s.latestEncounterUpdate
    { s with
      latestEncounterUpdate := latest
      encounterIds := (encounterIds.update s.encounterIds).filter fun _ expiry => !(1000000 * expiry < t.purge)
      now := t.purge
      first := some (s.first.getD (t.start - 1000000 * (15 * 60))) }

/-- A row becomes visible, new or in place of that of its encounter; or the worker calls. -/
inductive InjectionStep (L : Type) where
  | visible (id : Int) (mon : Pokemon L)
  | call (idsIv : List Int) (t : Readings)

/-- Rows that count for the area become visible in the order of `last_modified`, and the clock,
long past the first quarter of an hour of its era, does not go back. -/
def injectionStep (fence : GeofenceHelper L) (s : InjectionState L) :
    InjectionStep L → Option (InjectionState L)
  | .visible id mon =>
    if fence.has mon ∧ ∀ i ∈ s.rows.items, i.2.lastModified ≤ mon.lastModified then
      some { s with rows := s.rows.insert id mon }
    else none
  | .call idsIv t =>
    if 1000000 * (15 * 60) < t.start ∧ s.now ≤ t.start ∧ t.start ≤ t.query ∧ t.query ≤ t.purge then
      some (updateInjectionSettings (some fence) idsIv t s)
    else none

def initialInjection (L : Type) (now : Int) : InjectionState L := ⟨.empty, 0, .empty, now, none⟩

/-- After the first call, a row leaves the expiry of an encounter on the list as it is, and that of
another one is newer than what was read, or older than what counts. No mon was modified
fifteen minutes before the first call to the microsecond, or expires in that of the query and
the purge. -/
def Distinguished (s : InjectionState L) : InjectionStep L → Prop
  | .visible id mon => ∀ first ∈ s.first, (∀ expiry ∈ s.encounterIds.get? id, mon.expiry = expiry) ∧
      (id ∉ s.encounterIds.keys → s.latestEncounterUpdate < 1000000 * mon.lastModified ∨
        1000000 * mon.lastModified < first)
  | .call idsIv t => idsIv ≠ [] →
      (∀ i ∈ s.rows.items, 1000000 * i.2.expiry = t.query → t.query < t.purge) ∧
      (s.first = none → ∀ i ∈ s.rows.items, 1000000 * i.2.lastModified ≠ t.start - 1000000 * (15 * 60))

instance (s : InjectionState L) : (a : InjectionStep L) → Decidable (Distinguished s a)
  | .visible id mon => inferInstanceAs (Decidable (∀ first ∈ s.first, (∀ expiry ∈ s.encounterIds.get? id,
      mon.expiry = expiry) ∧ (id ∉ s.encounterIds.keys → _ ∨ _)))
  | .call _ _ => inferInstanceAs (Decidable (_ → (∀ i ∈ s.rows.items, _ → _) ∧
      (_ → ∀ i ∈ s.rows.items, _)))

/-- The list has the encounters modified since `first` that have not expired, each with its expiry. -/
def Mirrors (s : InjectionState L) (first now : Int) : Prop :=
  ∀ id expiry, s.encounterIds.get? id = some expiry ↔ ∃ mon, s.rows.get? id = some mon ∧
    first ≤ 1000000 * mon.lastModified ∧ mon.expiry = expiry ∧ now ≤ 1000000 * expiry

/-! ## What a call reads -/

section
variable {fence : GeofenceHelper L} {rows : Dict Int (Pokemon L)} {t : Readings} {latest : Int}

theorem get?_encountered {id : Int} {mon : Pokemon L} :
    (encountered fence rows t latest).get? id = some mon ↔ rows.get? id = some mon ∧
      t.query - 1000000 * (60 * 60) < 1000000 * mon.disappearTime ∧
      latest < 1000000 * mon.lastModified ∧ fence.has mon := by
  rw [encountered, Dict.get?_filter, Option.filter_eq_some_iff]
  simp [and_assoc]

theorem le_newest (items : List (Int × Pokemon L)) (latest : Int) :
    latest ≤ items.foldl (fun latest i => max latest (1000000 * i.2.lastModified)) latest ∧
      ∀ i ∈ items, 1000000 * i.2.lastModified ≤
        items.foldl (fun latest i => max latest (1000000 * i.2.lastModified)) latest := by
  induction items generalizing latest with
  | nil => simp
  | cons i items ih =>
    obtain ⟨hle, hall⟩ := ih (max latest (1000000 * i.2.lastModified))
    rw [List.foldl_cons]
    constructor
    · omega
    · intro j hj
      rcases List.mem_cons.mp hj with rfl | hj
      · omega
      · exact hall j hj

end

/-! ## The invariant -/

/-- The encounters on the list have rows modified since `first`, with their expiry; and a row modified since
then whose encounter is not is newer than `latest`, or has expired. -/
structure Listed (rows : Dict Int (Pokemon L)) (encounterIds : Dict Int Int) (first latest now : Int) :
    Prop where
  held : ∀ id expiry, encounterIds.get? id = some expiry → ∃ mon, rows.get? id = some mon ∧
    first ≤ 1000000 * mon.lastModified ∧ mon.expiry = expiry
  others : ∀ id mon, rows.get? id = some mon → first ≤ 1000000 * mon.lastModified →
    id ∈ encounterIds.keys ∨ latest < 1000000 * mon.lastModified ∨ 1000000 * mon.expiry < now

/-- The invariant: what is known of the list, once there was a call. -/
structure InSync (fence : GeofenceHelper L) (s : InjectionState L) : Prop where
  counts : ∀ i ∈ s.rows.items, fence.has i.2
  untouched : s.first = none → s.latestEncounterUpdate = 0 ∧ s.encounterIds = .empty
  started : ∀ first ∈ s.first, 0 < first ∧ first ≤ s.latestEncounterUpdate
  listed : ∀ first ∈ s.first, Listed s.rows s.encounterIds first s.latestEncounterUpdate s.now

variable {fence : GeofenceHelper L} {s s' : InjectionState L}

theorem inSync_initial (now : Int) : InSync fence (initialInjection L now) where
  counts := by simp [initialInjection, Dict.empty]
  untouched _ := ⟨rfl, rfl⟩
  started first h := by cases h
  listed first h := by cases h

/-- A row that becomes visible. -/
theorem InSync.visible {id : Int} {mon : Pokemon L} (h : InSync fence s)
    (hok : Distinguished s (.visible id mon)) (hstep : injectionStep fence s (.visible id mon) = some s') :
    InSync fence s' := by
  rw [injectionStep] at hstep
  split at hstep
  · next hguard =>
    obtain ⟨hcounts, horder⟩ := hguard
    obtain rfl := Option.some.inj hstep
    refine ⟨?_, h.untouched, h.started, ?_⟩
    · intro i hi
      obtain ⟨j, row⟩ := i
      rw [← Dict.get?_eq_some_iff, Dict.get?_insert_eq_some_iff] at hi
      rcases hi with ⟨_, rfl⟩ | ⟨_, hi⟩
      · exact hcounts
      · exact h.counts (j, row) (Dict.get?_eq_some_iff.mp hi)
    · intro first hfirst
      obtain ⟨hheld, hothers⟩ := h.listed first hfirst
      obtain ⟨hexpiry, hnew⟩ := hok first hfirst
      constructor
      · intro j expiry hj
        obtain ⟨row, hrow, hsince, heq⟩ := hheld j expiry hj
        by_cases hid : j = id
        · subst hid
          have hmodified := horder (j, row) (Dict.get?_eq_some_iff.mp hrow)
          refine ⟨mon, Dict.get?_insert_self, ?_, hexpiry expiry hj⟩
          simp only at hmodified
          omega
        · exact ⟨row, by rw [Dict.get?_insert_of_ne hid, hrow], hsince, heq⟩
      · intro j row hrow hsince
        rcases Dict.get?_insert_eq_some_iff.mp hrow with ⟨rfl, rfl⟩ | ⟨_, hrow⟩
        · by_cases hj : j ∈ s.encounterIds.keys
          · exact .inl hj
          · rcases hnew hj with hlater | hearlier
            · exact .inr (.inl hlater)
            · exact absurd hsince (not_le.mpr hearlier)
        · exact hothers j row hrow hsince
  · cases hstep

/-- What the query of a call starts from: the list is empty, or mirrors what was read before. -/
theorem InSync.before_call {t : Readings} (h : InSync fence s) (hstart : 1000000 * (15 * 60) < t.start)
    (hok : s.first = none → ∀ i ∈ s.rows.items, 1000000 * i.2.lastModified ≠ t.start - 1000000 * (15 * 60)) :
    0 < s.first.getD (t.start - 1000000 * (15 * 60)) ∧
      s.first.getD (t.start - 1000000 * (15 * 60)) ≤ since s.latestEncounterUpdate t.start ∧
      Listed s.rows s.encounterIds (s.first.getD (t.start - 1000000 * (15 * 60)))
        (since s.latestEncounterUpdate t.start) s.now := by
  cases hfirst : s.first with
  | none =>
    obtain ⟨hlatest, hempty⟩ := h.untouched hfirst
    have hsince : since s.latestEncounterUpdate t.start = t.start - 1000000 * (15 * 60) := if_pos hlatest
    rw [hsince, Option.getD_none, hempty]
    refine ⟨by omega, by omega, ?_, ?_⟩
    · intro id expiry hid
      rw [Dict.get?_empty] at hid
      cases hid
    · intro id mon hmon hle
      have hne := hok hfirst (id, mon) (Dict.get?_eq_some_iff.mp hmon)
      simp only at hne
      right; left
      omega
  | some first =>
    obtain ⟨hpos, hle⟩ := h.started first hfirst
    have hsince : since s.latestEncounterUpdate t.start = s.latestEncounterUpdate := if_neg (by omega)
    rw [hsince, Option.getD_some]
    exact ⟨hpos, hle, h.listed first hfirst⟩

/-- The list after a call. -/
theorem get?_updateInjectionSettings {idsIv : List Int} {t : Readings} (hids : idsIv ≠ []) {id expiry : Int} :
    (updateInjectionSettings (some fence) idsIv t s).encounterIds.get? id = some expiry ↔
      (s.encounterIds.get? id = some expiry ∨ id ∉ s.encounterIds.keys ∧
        ∃ mon, (encountered fence s.rows t (since s.latestEncounterUpdate t.start)).get? id = some mon ∧
          mon.expiry = expiry) ∧ t.purge ≤ 1000000 * expiry := by
  rw [updateInjectionSettings, if_neg hids]
  simp only [getEncountered, Dict.get?_filter, Dict.get?_update, Dict.get?_mapValues]
  rw [Option.filter_eq_some_iff, Option.or_eq_some_iff, Option.map_eq_some_iff, Dict.get?_eq_none_iff]
  simp

/-- The other fields after a call; what it read is not newer than `latestEncounterUpdate`. -/
theorem updateInjectionSettings_fields {idsIv : List Int} {t : Readings} (hids : idsIv ≠ []) :
    (updateInjectionSettings (some fence) idsIv t s).rows = s.rows ∧
    (updateInjectionSettings (some fence) idsIv t s).now = t.purge ∧
    (updateInjectionSettings (some fence) idsIv t s).first =
      some (s.first.getD (t.start - 1000000 * (15 * 60))) ∧
    since s.latestEncounterUpdate t.start ≤
      (updateInjectionSettings (some fence) idsIv t s).latestEncounterUpdate := by
  rw [updateInjectionSettings, if_neg hids]
  exact ⟨rfl, rfl, rfl, (le_newest _ _).1⟩

/-- The list mirrors the table after a call. -/
theorem InSync.mirrors {idsIv : List Int} {t : Readings} (h : InSync fence s) (hids : idsIv ≠ [])
    (hok : Distinguished s (.call idsIv t)) (hstart : 1000000 * (15 * 60) < t.start) (hnow : s.now ≤ t.purge)
    (hquery : t.query ≤ t.purge) :
    Mirrors (updateInjectionSettings (some fence) idsIv t s)
      (s.first.getD (t.start - 1000000 * (15 * 60))) t.purge := by
  obtain ⟨hexpires, hquarter⟩ := hok hids
  obtain ⟨_, hle, hlisted⟩ := h.before_call hstart hquarter
  intro id expiry
  rw [get?_updateInjectionSettings hids, (updateInjectionSettings_fields hids).1]
  constructor
  · intro hmem
    obtain ⟨hheld | ⟨_, mon, hmon, heq⟩, hlate⟩ := hmem
    · obtain ⟨mon, hmon, hsince, heq⟩ := hlisted.held id expiry hheld
      exact ⟨mon, hmon, hsince, heq, hlate⟩
    · obtain ⟨hrow, _, hnew, _⟩ := get?_encountered.mp hmon
      exact ⟨mon, hrow, by omega, heq, hlate⟩
  · intro hrow
    obtain ⟨mon, hrow, hsince, rfl, hlate⟩ := hrow
    refine ⟨?_, hlate⟩
    by_cases hkey : id ∈ s.encounterIds.keys
    · obtain ⟨expiry, hexpiry⟩ := Dict.mem_keys_iff.mp hkey
      obtain ⟨mon', hrow', _, rfl⟩ := hlisted.held id expiry hexpiry
      obtain rfl : mon = mon' := Option.some.inj (hrow.symm.trans hrow')
      exact .inl hexpiry
    · rcases hlisted.others id mon hrow hsince with hkey' | hnew | hexpired
      · exact absurd hkey' hkey
      · -- A row that expires in the microsecond of the query is taken off by the purge.
        have hitem := Dict.get?_eq_some_iff.mp hrow
        have hne : 1000000 * mon.expiry ≠ t.query := by
          intro heq
          have hlt := hexpires (id, mon) hitem heq
          omega
        refine .inr ⟨hkey, mon, get?_encountered.mpr ⟨hrow, ?_, hnew, h.counts (id, mon) hitem⟩, rfl⟩
        unfold Pokemon.expiry at hne hlate
        omega
      · omega

/-- A call keeps the invariant. -/
theorem InSync.call {idsIv : List Int} {t : Readings} (h : InSync fence s)
    (hok : Distinguished s (.call idsIv t)) (hstep : injectionStep fence s (.call idsIv t) = some s') :
    InSync fence s' ∧ (idsIv ≠ [] → ∃ first ∈ s'.first, Mirrors s' first t.purge) := by
  rw [injectionStep] at hstep
  split at hstep
  · next hguard =>
    obtain ⟨hstart, hnow, hread, hquery⟩ := hguard
    obtain rfl := Option.some.inj hstep
    by_cases hids : idsIv = []
    · refine ⟨?_, fun hne => absurd hids hne⟩
      rw [updateInjectionSettings, if_pos hids]
      refine ⟨h.counts, h.untouched, h.started, ?_⟩
      intro first hfirst
      obtain ⟨hheld, hothers⟩ := h.listed first hfirst
      refine ⟨hheld, ?_⟩
      intro id mon hrow hsince
      rcases hothers id mon hrow hsince with hkey | hnew | hexpired
      · exact .inl hkey
      · exact .inr (.inl hnew)
      · exact .inr (.inr (by simp only; omega))
    · have hmirrors := h.mirrors hids hok hstart (by omega) hquery
      obtain ⟨hrows, hpurge, hfirst, hlatest⟩ := @updateInjectionSettings_fields _ fence s _ t hids
      obtain ⟨hpos, hle, _⟩ := h.before_call hstart (hok hids).2
      refine ⟨⟨?_, ?_, ?_, ?_⟩, fun _ => ⟨_, hfirst, hmirrors⟩⟩
      · rw [hrows]
        exact h.counts
      · rw [hfirst]
        intro hnone
        cases hnone
      · intro first hmem
        rw [hfirst] at hmem
        obtain rfl := Option.some.inj hmem
        exact ⟨hpos, hle.trans hlatest⟩
      · intro first hmem
        rw [hfirst] at hmem
        obtain rfl := Option.some.inj hmem
        constructor
        · intro id expiry hexpiry
          obtain ⟨mon, hrow, hsince, heq, _⟩ := (hmirrors id expiry).mp hexpiry
          exact ⟨mon, hrow, hsince, heq⟩
        · intro id mon hrow hsince
          by_cases hlate : t.purge ≤ 1000000 * mon.expiry
          · exact .inl (Dict.mem_keys_iff.mpr ⟨_, (hmirrors id _).mpr ⟨mon, hrow, hsince, rfl, hlate⟩⟩)
          · rw [hpurge]
            exact .inr (.inr (not_le.mp hlate))
  · cases hstep

theorem InSync.step {a : InjectionStep L} (h : InSync fence s) (hok : Distinguished s a)
    (hstep : injectionStep fence s a = some s') : InSync fence s' := by
  cases a with
  | visible id mon => exact h.visible hok hstep
  | call idsIv t => exact (h.call hok hstep).1

/-- After every call of such a run the list is in sync. -/
theorem synced_after_call {now : Int} {l : List (InjectionStep L)} {idsIv : List Int} {t : Readings}
    (hrun : Run (injectionStep fence) Distinguished (initialInjection L now) l s)
    (hok : Distinguished s (.call idsIv t)) (hstep : injectionStep fence s (.call idsIv t) = some s')
    (hids : idsIv ≠ []) : ∃ first ∈ s'.first, Mirrors s' first t.purge := by
  have hsync : InSync fence s := hrun.invariant (I := InSync fence) (inSync_initial now)
    fun _ _ _ h hok hstep => h.step hok hstep
  exact (hsync.call hok hstep).2 hids

/-! ## Runs -/

def everywhere : GeofenceHelper Unit := ⟨fun _ => true, fun _ => true⟩

def wild (lastModified : Int) : Pokemon Unit := ⟨lastModified, 3000, some 10, ()⟩

def readAt (second : Int) : Readings := ⟨1000000 * second, 1000000 * second, 1000000 * second⟩

/-- A mon of second 1500 is read in second 2000, then a second one becomes visible. -/
def twoMons (second : Int) : List (InjectionStep Unit) :=
  [.visible 1 (wild 1500), .call [25] (readAt 2000), .visible 2 (wild second)]

/-- A mon modified a second after the newest one read. -/
theorem next_second_synced :
    ∃ first ∈ (after (injectionStep everywhere) Distinguished
        (after (injectionStep everywhere) Distinguished (initialInjection Unit 0) (twoMons 1501))
        [.call [25] (readAt 2100)]).first,
      Mirrors (after (injectionStep everywhere) Distinguished
        (after (injectionStep everywhere) Distinguished (initialInjection Unit 0) (twoMons 1501))
        [.call [25] (readAt 2100)]) first (readAt 2100).purge :=
  synced_after_call (.of_after (by decide +kernel)) (by decide +kernel)
    (step_after (by decide +kernel) (by decide +kernel)) (by decide)

/-- A mon modified in the second of the newest one read is never put on the list. -/
theorem same_second_missed :
    ¬ ∀ (fence : GeofenceHelper Unit) (now : Int) (l : List (InjectionStep Unit)) (idsIv : List Int)
      (t : Readings) (s s' : InjectionState Unit), Run (injectionStep fence) Any (initialInjection Unit now) l s →
      injectionStep fence s (.call idsIv t) = some s' → idsIv ≠ [] →
      ∃ first ∈ s'.first, Mirrors s' first t.purge := by
  intro h
  have hmirrors := h everywhere 0 (twoMons 1500) [25] (readAt 2100)
    (after (injectionStep everywhere) Any (initialInjection Unit 0) (twoMons 1500))
    (after (injectionStep everywhere) Any (initialInjection Unit 0) (twoMons 1500 ++ [.call [25] (readAt 2100)]))
    (.of_after (by decide +kernel)) rfl (by decide)
  obtain ⟨first, hfirst, hmirrors⟩ := hmirrors
  obtain rfl : 1100000000 = first := Option.some.inj hfirst
  have hrow := (hmirrors 2 6600).mpr ⟨wild 1500, by decide +kernel, by decide, by decide, by decide⟩
  revert hrow
  decide +kernel

end MapADroid.Worker
