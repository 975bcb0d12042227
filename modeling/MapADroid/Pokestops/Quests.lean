import MapADroid.Pokestops.PokestopHelper

/- The stops with and the stops without a quest of a layer since midnight.

   With at most one quest of a layer for each stop, a stop in the box is selected without a
   quest if all its quests of the layer are from before midnight, and with one if it has
   one from after (`selected_iff`). So the two lookups look at each stop of the box once,
   and together they return the stops inside of the fence exactly if these are all in the
   box and no look at one of the box raises. The box of a fence without areas holds no
   stop, and yet everything is inside of it. The midnight of the lookups has the offset of
   the present instant, so on a day the clock changes it is off by the change; a quest from
   the time between the two is on the wrong side (`quests_partition_iff`). -/
namespace MapADroid.Pokestops
open Lib Lib.Sql Geofence

variable {K : Type}

/-- A quest of the layer since midnight. -/
def HasQuest (quests : List TrsQuest) (layer midnight : Int) (stop : Pokestop K) : Prop :=
  ∃ quest ∈ quests, quest.guid = stop.pokestopId ∧ quest.layer = layer ∧ midnight ≤ quest.questTimestamp

/-- The first instant of the local day. -/
def LocalMidnight (utcoffset : Int → Int) (now midnight : Int) : Prop :=
  (midnight + utcoffset midnight) / 86400 = (now + utcoffset now) / 86400 ∧
    ∀ t, (t + utcoffset t) / 86400 = (now + utcoffset now) / 86400 → midnight ≤ t

/-- No quest of the layer, of a stop inside of the fence, is from the time between two instants. -/
def NoneBetween [Field K] [LinearOrder K] (fence : GeofenceHelper K) (path : List (Coord K) → Coord K → Bool)
    (stops : List (Pokestop K)) (quests : List TrsQuest) (layer a b : Int) : Prop :=
  ∀ stop ∈ stops, fence.Inside path stop.coord → ∀ quest ∈ quests, quest.guid = stop.pokestopId →
    quest.layer = layer → ¬ (min a b ≤ quest.questTimestamp ∧ quest.questTimestamp < max a b)

/-- The stop is among those returned. -/
def Returned (stops : Dict String (Pokestop K)) (stop : Pokestop K) : Prop :=
  stops.get? stop.pokestopId = some stop

variable [Field K] [LinearOrder K] {fence : GeofenceHelper K} {path : List (Coord K) → Coord K → Bool}
  {stops : List (Pokestop K)} {quests : List TrsQuest} {layer midnight : Int} {withoutQuests : Bool}

/-- Both lookups return, no stop is returned by both, together they return the stops inside of the fence, and the
second those with a quest since local midnight. -/
def Partitioned (fence : GeofenceHelper K) (path : List (Coord K) → Coord K → Bool)
    (utcoffsetAt : Location K → Option (Int → Int)) (now : Int) (stops : List (Pokestop K))
    (quests : List TrsQuest) (layer : Int) : Prop :=
  ∃ utcoffset midnight without scanned, utcoffsetAt fence.getMiddleFromFence = some utcoffset ∧
    LocalMidnight utcoffset now midnight ∧
    getStopsWithOrWithoutQuestsExclusive fence path utcoffsetAt now stops quests layer true = some without ∧
    getStopsWithOrWithoutQuestsExclusive fence path utcoffsetAt now stops quests layer false = some scanned ∧
    (∀ stop, ¬ (Returned without stop ∧ Returned scanned stop)) ∧
    (∀ stop, Returned without stop ∨ Returned scanned stop ↔ stop ∈ stops ∧ fence.Inside path stop.coord) ∧
    ∀ stop ∈ stops, fence.Inside path stop.coord → (Returned scanned stop ↔ HasQuest quests layer midnight stop)

/-! ## The rows -/

/-- A row is selected and not gone past without a quest, or with one on the right side of midnight. -/
theorem chosen_iff (quest : Option TrsQuest) :
    questCondition withoutQuests midnight quest = some true ∧ skips layer withoutQuests midnight quest = false ↔
      match quest with
      | none => withoutQuests = true
      | some quest => quest.layer = layer ∧ (withoutQuests = false ↔ midnight ≤ quest.questTimestamp) := by
  cases quest with
  | none => cases withoutQuests <;> simp [questCondition, skips]
  | some quest =>
    cases withoutQuests with
    | false => simp [questCondition, skips]
    | true =>
      simp only [questCondition, skips, if_true, Option.map_some, Truth.or_eq_true, compares_eq_true, isNull_eq_true]
      simp only [Option.some.injEq, exists_eq_left', decide_eq_true_eq, reduceCtorEq, or_false, Bool.true_and,
        Bool.not_true, Bool.false_and, Bool.or_false, Bool.or_eq_false_iff, decide_eq_false_iff_not, not_not, not_le,
        Bool.true_eq_false, false_iff]
      tauto

omit [Field K] [LinearOrder K] in
/-- With one quest per stop and layer, the timestamp of that quest decides. -/
theorem hasQuest_iff (hquests : ∀ quest ∈ quests, ∀ quest' ∈ quests, quest.guid = quest'.guid →
      quest.layer = quest'.layer → quest = quest') {stop : Pokestop K} {quest : TrsQuest} (hquest : quest ∈ quests)
    (hguid : quest.guid = stop.pokestopId) (hlayer : quest.layer = layer) :
    HasQuest quests layer midnight stop ↔ midnight ≤ quest.questTimestamp := by
  constructor
  · rintro ⟨other, hother, hguid', hlayer', hsince⟩
    rwa [hquests quest hquest other hother (hguid.trans hguid'.symm) (hlayer.trans hlayer'.symm)]
  · exact fun hsince => ⟨quest, hquest, hguid, hlayer, hsince⟩

omit [Field K] [LinearOrder K] in
/-- Two instants are the same for a stop if none of its quests is from between them. -/
theorem hasQuest_congr_iff (hquests : ∀ quest ∈ quests, ∀ quest' ∈ quests, quest.guid = quest'.guid →
      quest.layer = quest'.layer → quest = quest') {stop : Pokestop K} {a b : Int} :
    (HasQuest quests layer a stop ↔ HasQuest quests layer b stop) ↔
      ∀ quest ∈ quests, quest.guid = stop.pokestopId → quest.layer = layer →
        ¬ (min a b ≤ quest.questTimestamp ∧ quest.questTimestamp < max a b) := by
  have hside : ∀ timestamp : Int, (a ≤ timestamp ↔ b ≤ timestamp) ↔ ¬ (min a b ≤ timestamp ∧ timestamp < max a b) := by
    intro timestamp
    omega
  constructor
  · intro hsame quest hquest hguid hlayer
    rw [hasQuest_iff hquests hquest hguid hlayer, hasQuest_iff hquests hquest hguid hlayer] at hsame
    exact (hside _).mp hsame
  · intro hnone
    constructor
    · rintro ⟨quest, hquest, hguid, hlayer, hsince⟩
      exact ⟨quest, hquest, hguid, hlayer, ((hside _).mpr (hnone quest hquest hguid hlayer)).mp hsince⟩
    · rintro ⟨quest, hquest, hguid, hlayer, hsince⟩
      exact ⟨quest, hquest, hguid, hlayer, ((hside _).mpr (hnone quest hquest hguid hlayer)).mpr hsince⟩

/-- The rows: a stop of the box with each of its quests of the layer, or without one in an outer join. -/
theorem mem_questRows {stop : Pokestop K} {quest : Option TrsQuest} :
    (stop, quest) ∈ questRows fence stops quests layer withoutQuests midnight ↔
      (stop ∈ stops ∧ ((∃ other ∈ quests, (other.guid = stop.pokestopId ∧ other.layer = layer) ∧ quest = some other) ∨
        withoutQuests = true ∧ (∀ other ∈ quests, ¬ (other.guid = stop.pokestopId ∧ other.layer = layer)) ∧
          quest = none)) ∧
      questCondition withoutQuests midnight quest = some true ∧ fence.getPolygonFromFence.Holds stop.coord := by
  simp only [questRows, mem_select, mem_join, Truth.and_eq_true, inBox, Option.some.injEq, decide_eq_true_eq, ne_eq]

/-- A stop of the box has a row that the loop does not go past exactly if it is to be looked at. -/
theorem selected_iff (hquests : ∀ quest ∈ quests, ∀ quest' ∈ quests, quest.guid = quest'.guid →
      quest.layer = quest'.layer → quest = quest') (stop : Pokestop K) :
    (∃ quest, (stop, quest) ∈ questRows fence stops quests layer withoutQuests midnight ∧
        skips layer withoutQuests midnight quest = false) ↔
      stop ∈ stops ∧ fence.getPolygonFromFence.Holds stop.coord ∧
        (withoutQuests = false ↔ HasQuest quests layer midnight stop) := by
  constructor
  · rintro ⟨quest, hmem, hskip⟩
    obtain ⟨⟨hstop, hjoin⟩, hcondition, hbox⟩ := mem_questRows.mp hmem
    have hchosen := (chosen_iff quest).mp ⟨hcondition, hskip⟩
    refine ⟨hstop, hbox, ?_⟩
    rcases hjoin with ⟨other, hother, ⟨hguid, hlayer⟩, rfl⟩ | ⟨houter, hnone, rfl⟩
    · rw [hasQuest_iff hquests hother hguid hlayer]
      exact hchosen.2
    · constructor
      · intro hinner
        rw [houter] at hinner
        cases hinner
      · rintro ⟨other, hother, hguid, hlayer, _⟩
        exact absurd ⟨hguid, hlayer⟩ (hnone other hother)
  · rintro ⟨hstop, hbox, hside⟩
    by_cases hany : ∃ other ∈ quests, other.guid = stop.pokestopId ∧ other.layer = layer
    · obtain ⟨other, hother, hguid, hlayer⟩ := hany
      rw [hasQuest_iff hquests hother hguid hlayer] at hside
      obtain ⟨hcondition, hskip⟩ := (chosen_iff (some other)).mpr ⟨hlayer, hside⟩
      exact ⟨some other, mem_questRows.mpr ⟨⟨hstop, .inl ⟨other, hother, ⟨hguid, hlayer⟩, rfl⟩⟩, hcondition, hbox⟩,
        hskip⟩
    · -- Without a quest of the layer only the outer join has a row for the stop.
      have houter : withoutQuests = true := by
        rw [← Bool.not_eq_false, hside]
        rintro ⟨other, hother, hguid, hlayer, _⟩
        exact hany ⟨other, hother, hguid, hlayer⟩
      have hnone : ∀ other ∈ quests, ¬ (other.guid = stop.pokestopId ∧ other.layer = layer) := fun other hother hon =>
        hany ⟨other, hother, hon⟩
      have hchosen : questCondition withoutQuests midnight none = some true ∧
          skips layer withoutQuests midnight none = false := (chosen_iff none).mpr houter
      obtain ⟨hcondition, hskip⟩ := hchosen
      exact ⟨none, mem_questRows.mpr ⟨⟨hstop, .inr ⟨houter, hnone, rfl⟩⟩, hcondition, hbox⟩, hskip⟩

/-! ## The loop over the rows -/

variable {skip : Option TrsQuest → Bool}

theorem keepStop_eq (kept : Dict String (Pokestop K)) (row : Pokestop K × Option TrsQuest) :
    keepStop fence path skip kept row =
      if skip row.2 then some kept
      else (fence.isCoordInsideIncludeGeofence path .floats row.1.coord).map fun inside =>
        if inside then kept.insert row.1.pokestopId row.1 else kept := by
  unfold keepStop
  cases fence.isCoordInsideIncludeGeofence path .floats row.1.coord with
  | none => rfl
  | some inside => cases inside <;> rfl

/-- The loop ends unless a look at a row raises. -/
theorem foldlM_keepStop_isSome (rows : List (Pokestop K × Option TrsQuest)) (kept : Dict String (Pokestop K)) :
    (∃ kept', rows.foldlM (keepStop fence path skip) kept = some kept') ↔
      ∀ row ∈ rows, skip row.2 = false → (fence.isCoordInsideIncludeGeofence path .floats row.1.coord).isSome := by
  induction rows generalizing kept with
  | nil => simp
  | cons row rows ih =>
    rw [List.foldlM_cons, List.forall_mem_cons, keepStop_eq]
    by_cases hskip : skip row.2 = true
    · rw [if_pos hskip, Option.bind_eq_bind, Option.bind_some, ih]
      simp [hskip]
    · rw [if_neg hskip]
      cases hinside : fence.isCoordInsideIncludeGeofence path .floats row.1.coord with
      | none => simp [hskip]
      | some inside =>
        rw [Option.map_some, Option.bind_eq_bind, Option.bind_some, ih]
        simp

/-- A row is kept if it is not gone past and its stop is inside. -/
theorem keepStop_cases {kept kept' : Dict String (Pokestop K)} {row : Pokestop K × Option TrsQuest}
    (h : keepStop fence path skip kept row = some kept') :
    (kept' = kept ∧ ¬ (skip row.2 = false ∧ fence.Inside path row.1.coord)) ∨
      (kept' = kept.insert row.1.pokestopId row.1 ∧ skip row.2 = false ∧ fence.Inside path row.1.coord) := by
  rw [keepStop_eq] at h
  split at h
  · next hskip => exact .inl ⟨(Option.some.inj h).symm, fun hnot => by simp [hskip] at hnot⟩
  · next hskip =>
    obtain ⟨inside, hinside, rfl⟩ := Option.map_eq_some_iff.mp h
    cases inside with
    | true => exact .inr ⟨rfl, by simpa using hskip, hinside⟩
    | false =>
      refine .inl ⟨rfl, fun hnot => ?_⟩
      have hin := hnot.2
      rw [GeofenceHelper.Inside, hinside] at hin
      cases hin

/-- Stops of the table, under their ids. -/
def OfTable (stops : List (Pokestop K)) (kept : Dict String (Pokestop K)) : Prop :=
  ∀ id stop, kept.get? id = some stop → stop ∈ stops ∧ stop.pokestopId = id

omit [Field K] [LinearOrder K] in
theorem OfTable.insert {kept : Dict String (Pokestop K)} (h : OfTable stops kept) {new : Pokestop K}
    (hnew : new ∈ stops) : OfTable stops (kept.insert new.pokestopId new) := by
  intro id stop hget
  rw [Dict.get?_insert] at hget
  split at hget
  · next hid =>
    obtain rfl := Option.some.inj hget
    exact ⟨hnew, hid.symm⟩
  · exact h id stop hget

omit [Field K] [LinearOrder K] in
/-- A stop that takes the place of another one with its id is the same. -/
theorem returned_insert (hstops : ∀ stop ∈ stops, ∀ stop' ∈ stops, stop.pokestopId = stop'.pokestopId → stop = stop')
    {kept : Dict String (Pokestop K)} (h : OfTable stops kept) {new : Pokestop K} (hnew : new ∈ stops)
    (stop : Pokestop K) : Returned (kept.insert new.pokestopId new) stop ↔ Returned kept stop ∨ new = stop := by
  unfold Returned
  rw [Dict.get?_insert]
  split
  · next hid =>
    rw [Option.some.injEq]
    refine ⟨.inr, ?_⟩
    rintro (hget | heq)
    · exact hstops _ hnew _ (h _ _ hget).1 hid.symm
    · exact heq
  · next hid =>
    refine ⟨.inl, ?_⟩
    rintro (hget | rfl)
    · exact hget
    · exact absurd rfl hid

/-- What one turn of the loop keeps. -/
theorem keepStop_returned (hstops : ∀ stop ∈ stops, ∀ stop' ∈ stops, stop.pokestopId = stop'.pokestopId → stop = stop')
    {kept kept' : Dict String (Pokestop K)} (htable : OfTable stops kept) {row : Pokestop K × Option TrsQuest}
    (hrow : row.1 ∈ stops) (h : keepStop fence path skip kept row = some kept') :
    OfTable stops kept' ∧ ∀ stop, Returned kept' stop ↔
      Returned kept stop ∨ row.1 = stop ∧ skip row.2 = false ∧ fence.Inside path stop.coord := by
  rcases keepStop_cases h with ⟨rfl, hnot⟩ | ⟨rfl, hskip, hinside⟩
  · refine ⟨htable, fun stop => ⟨.inl, ?_⟩⟩
    rintro (hin | ⟨rfl, hin⟩)
    · exact hin
    · exact absurd hin hnot
  · refine ⟨htable.insert hrow, fun stop => ?_⟩
    rw [returned_insert hstops htable hrow]
    constructor
    · rintro (hin | rfl)
      · exact .inl hin
      · exact .inr ⟨rfl, hskip, hinside⟩
    · rintro (hin | ⟨heq, _⟩)
      · exact .inl hin
      · exact .inr heq

/-- What is kept are the stops of the rows that are inside. -/
theorem foldlM_keepStop_get? (hstops : ∀ stop ∈ stops, ∀ stop' ∈ stops, stop.pokestopId = stop'.pokestopId → stop = stop')
    (rows : List (Pokestop K × Option TrsQuest)) (hrows : ∀ row ∈ rows, row.1 ∈ stops)
    {kept kept' : Dict String (Pokestop K)} (hkept : OfTable stops kept)
    (h : rows.foldlM (keepStop fence path skip) kept = some kept') (stop : Pokestop K) :
    Returned kept' stop ↔ Returned kept stop ∨
      ∃ quest, (stop, quest) ∈ rows ∧ skip quest = false ∧ fence.Inside path stop.coord := by
  induction rows generalizing kept with
  | nil =>
    obtain rfl : kept = kept' := Option.some.inj h
    simp
  | cons row rows ih =>
    rw [List.foldlM_cons] at h
    obtain ⟨kept₁, hrow, hfold⟩ := Option.bind_eq_some_iff.mp h
    obtain ⟨htable, hreturned⟩ := keepStop_returned hstops hkept (hrows row List.mem_cons_self) hrow
    rw [ih (fun r hr => hrows r (List.mem_cons_of_mem _ hr)) htable hfold, hreturned, or_assoc]
    apply or_congr_right
    constructor
    · rintro (⟨rfl, hrest⟩ | ⟨quest, hmem, hrest⟩)
      · exact ⟨row.2, List.mem_cons_self, hrest⟩
      · exact ⟨quest, List.mem_cons_of_mem _ hmem, hrest⟩
    · rintro ⟨quest, hmem, hrest⟩
      rcases List.mem_cons.mp hmem with rfl | hmem
      · exact .inl ⟨rfl, hrest⟩
      · exact .inr ⟨quest, hmem, hrest⟩

/-! ## The two lookups -/

section
variable {utcoffsetAt : Location K → Option (Int → Int)} {utcoffset : Int → Int} {now : Int}

theorem lookup_eq (hzone : utcoffsetAt fence.getMiddleFromFence = some utcoffset) :
    getStopsWithOrWithoutQuestsExclusive fence path utcoffsetAt now stops quests layer withoutQuests =
      (questRows fence stops quests layer withoutQuests (timezoneMidnight utcoffset now)).foldlM
        (keepStop fence path (skips layer withoutQuests (timezoneMidnight utcoffset now))) Dict.empty := by
  unfold getStopsWithOrWithoutQuestsExclusive
  rw [hzone]
  rfl

/-- A lookup returns unless a look at one of its stops raises. -/
theorem lookup_isSome (hquests : ∀ quest ∈ quests, ∀ quest' ∈ quests, quest.guid = quest'.guid →
      quest.layer = quest'.layer → quest = quest') (hzone : utcoffsetAt fence.getMiddleFromFence = some utcoffset) :
    (∃ kept, getStopsWithOrWithoutQuestsExclusive fence path utcoffsetAt now stops quests layer withoutQuests = some kept) ↔
      ∀ stop ∈ stops, fence.getPolygonFromFence.Holds stop.coord →
        (withoutQuests = false ↔ HasQuest quests layer (timezoneMidnight utcoffset now) stop) →
        (fence.isCoordInsideIncludeGeofence path .floats stop.coord).isSome := by
  rw [lookup_eq hzone, foldlM_keepStop_isSome]
  constructor
  · intro h stop hstop hbox hside
    obtain ⟨quest, hrow, hskip⟩ := (selected_iff hquests stop).mpr ⟨hstop, hbox, hside⟩
    exact h (stop, quest) hrow hskip
  · intro h row hrow hskip
    obtain ⟨hstop, hbox, hside⟩ := (selected_iff hquests row.1).mp ⟨row.2, hrow, hskip⟩
    exact h row.1 hstop hbox hside

/-- What a lookup returns. -/
theorem lookup_returned (hstops : ∀ stop ∈ stops, ∀ stop' ∈ stops, stop.pokestopId = stop'.pokestopId → stop = stop')
    (hquests : ∀ quest ∈ quests, ∀ quest' ∈ quests, quest.guid = quest'.guid →
      quest.layer = quest'.layer → quest = quest') (hzone : utcoffsetAt fence.getMiddleFromFence = some utcoffset)
    {kept : Dict String (Pokestop K)}
    (h : getStopsWithOrWithoutQuestsExclusive fence path utcoffsetAt now stops quests layer withoutQuests = some kept)
    (stop : Pokestop K) :
    Returned kept stop ↔ stop ∈ stops ∧ fence.getPolygonFromFence.Holds stop.coord ∧
      (withoutQuests = false ↔ HasQuest quests layer (timezoneMidnight utcoffset now) stop) ∧
        fence.Inside path stop.coord := by
  rw [lookup_eq hzone] at h
  have hrows : ∀ row ∈ questRows fence stops quests layer withoutQuests (timezoneMidnight utcoffset now),
      row.1 ∈ stops := fun row hrow => (mem_join.mp (mem_select.mp hrow).1).1
  rw [foldlM_keepStop_get? hstops _ hrows (by simp [OfTable]) h stop]
  have hempty : ¬ Returned Dict.empty stop := by simp [Returned]
  constructor
  · rintro (hin | ⟨quest, hrow, hskip, hinside⟩)
    · exact absurd hin hempty
    · obtain ⟨hstop, hbox, hside⟩ := (selected_iff hquests stop).mp ⟨quest, hrow, hskip⟩
      exact ⟨hstop, hbox, hside, hinside⟩
  · rintro ⟨hstop, hbox, hside, hinside⟩
    obtain ⟨quest, hrow, hskip⟩ := (selected_iff hquests stop).mpr ⟨hstop, hbox, hside⟩
    exact .inr ⟨quest, hrow, hskip, hinside⟩

end

variable [IsStrictOrderedRing K]

/-- Without areas no row is in the box, so a lookup returns none. -/
theorem not_returned_of_noAreas {utcoffsetAt : Location K → Option (Int → Int)} {utcoffset : Int → Int} {now : Int}
    (hareas : fence.geofencedAreas = [])
    (hstops : ∀ stop ∈ stops, ∀ stop' ∈ stops, stop.pokestopId = stop'.pokestopId → stop = stop')
    (hquests : ∀ quest ∈ quests, ∀ quest' ∈ quests, quest.guid = quest'.guid →
      quest.layer = quest'.layer → quest = quest') (hzone : utcoffsetAt fence.getMiddleFromFence = some utcoffset)
    {kept : Dict String (Pokestop K)}
    (h : getStopsWithOrWithoutQuestsExclusive fence path utcoffsetAt now stops quests layer withoutQuests = some kept)
    (stop : Pokestop K) : ¬ Returned kept stop := by
  intro hreturned
  have hbox := ((lookup_returned hstops hquests hzone h stop).mp hreturned).2.1
  exact not_holds_of_noAreas hareas stop.coord hbox

/-- The two lookups part the stops inside of the fence, at local midnight, exactly if the middle of the fence has a
time zone, no quest of a stop inside of it is from between local midnight and midnight at the present offset, the
fence has an area or no stop inside of it, and no stop of its box is looked up in an area without corners. -/
theorem quests_partition_iff (hpath : Encloses path) (utcoffsetAt : Location K → Option (Int → Int)) (now : Int)
    (stops : List (Pokestop K)) (quests : List TrsQuest) (layer : Int)
    (hstops : ∀ stop ∈ stops, ∀ stop' ∈ stops, stop.pokestopId = stop'.pokestopId → stop = stop')
    (hquests : ∀ quest ∈ quests, ∀ quest' ∈ quests, quest.guid = quest'.guid →
      quest.layer = quest'.layer → quest = quest') :
    Partitioned fence path utcoffsetAt now stops quests layer ↔
      (∃ utcoffset ∈ utcoffsetAt fence.getMiddleFromFence, ∃ midnight, LocalMidnight utcoffset now midnight ∧
        NoneBetween fence path stops quests layer midnight (timezoneMidnight utcoffset now)) ∧
      (fence.geofencedAreas ≠ [] ∨ ∀ stop ∈ stops, ¬ fence.Inside path stop.coord) ∧
      ∀ stop ∈ stops, fence.getPolygonFromFence.Holds stop.coord →
        (fence.isCoordInsideIncludeGeofence path .floats stop.coord).isSome := by
  constructor
  · rintro ⟨utcoffset, midnight, without, scanned, hzone, hmidnight, hwithout, hscanned, _, hall, hside⟩
    refine ⟨⟨utcoffset, hzone, midnight, hmidnight, ?_⟩, ?_, ?_⟩
    · -- The stops with a quest since either midnight are the same.
      intro stop hstop hinside quest hquest hguid hlayer
      have hout := lookup_returned hstops hquests hzone hscanned
      have hin := lookup_returned hstops hquests hzone hwithout
      have hbox : fence.getPolygonFromFence.Holds stop.coord := by
        rcases (hall stop).mpr ⟨hstop, hinside⟩ with hreturned | hreturned
        · exact ((hin stop).mp hreturned).2.1
        · exact ((hout stop).mp hreturned).2.1
      refine (hasQuest_congr_iff hquests).mp ?_ quest hquest hguid hlayer
      rw [← hside stop hstop hinside, hout]
      simp [hstop, hbox, hinside]
    · by_contra hnot
      obtain ⟨hareas, stop, hstop, hinside⟩ : fence.geofencedAreas = [] ∧ ∃ stop ∈ stops, fence.Inside path stop.coord := by
        simpa using hnot
      rcases (hall stop).mpr ⟨hstop, hinside⟩ with hreturned | hreturned
      · exact not_returned_of_noAreas hareas hstops hquests hzone hwithout stop hreturned
      · exact not_returned_of_noAreas hareas hstops hquests hzone hscanned stop hreturned
    · intro stop hstop hbox
      by_cases hquest : HasQuest quests layer (timezoneMidnight utcoffset now) stop
      · exact (lookup_isSome hquests hzone).mp ⟨scanned, hscanned⟩ stop hstop hbox (by simp [hquest])
      · exact (lookup_isSome hquests hzone).mp ⟨without, hwithout⟩ stop hstop hbox (by simp [hquest])
  · rintro ⟨⟨utcoffset, hzone, midnight, hmidnight, hbetween⟩, hareas, hlooks⟩
    have hreturns : ∀ withoutQuests, ∃ kept,
        getStopsWithOrWithoutQuestsExclusive fence path utcoffsetAt now stops quests layer withoutQuests = some kept :=
      fun withoutQuests => (lookup_isSome hquests hzone).mpr fun stop hstop hbox _ => hlooks stop hstop hbox
    obtain ⟨without, hwithout⟩ := hreturns true
    obtain ⟨scanned, hscanned⟩ := hreturns false
    have hin := lookup_returned hstops hquests hzone hwithout
    have hout := lookup_returned hstops hquests hzone hscanned
    have hbox : ∀ stop ∈ stops, fence.Inside path stop.coord → fence.getPolygonFromFence.Holds stop.coord := by
      intro stop hstop hinside
      rcases hareas with hareas | hnone
      · exact inBox_of_inside hpath hareas hinside
      · exact absurd hinside (hnone stop hstop)
    refine ⟨utcoffset, midnight, without, scanned, hzone, hmidnight, hwithout, hscanned, ?_, ?_, ?_⟩
    · rintro stop ⟨hboth, hboth'⟩
      have hnot := ((hin stop).mp hboth).2.2.1
      have hquest := ((hout stop).mp hboth').2.2.1
      simp only [Bool.true_eq_false, false_iff] at hnot
      exact hnot (hquest.mp rfl)
    · intro stop
      rw [hin, hout]
      constructor
      · rintro (⟨hstop, _, _, hinside⟩ | ⟨hstop, _, _, hinside⟩)
        · exact ⟨hstop, hinside⟩
        · exact ⟨hstop, hinside⟩
      · rintro ⟨hstop, hinside⟩
        by_cases hquest : HasQuest quests layer (timezoneMidnight utcoffset now) stop
        · exact .inr ⟨hstop, hbox stop hstop hinside, by simp [hquest], hinside⟩
        · exact .inl ⟨hstop, hbox stop hstop hinside, by simp [hquest], hinside⟩
    · intro stop hstop hinside
      rw [hout, (hasQuest_congr_iff hquests).mpr (hbetween stop hstop hinside)]
      constructor
      · exact fun h => h.2.2.1.mp rfl
      · exact fun hquest => ⟨hstop, hbox stop hstop hinside, by simp [hquest], hinside⟩

/-! ## The day the clock is put forward -/

def square : Area ℚ := ⟨false, ['P', 'a', 'r', 'k'], [⟨0, 0⟩, ⟨0, 2⟩, ⟨2, 2⟩, ⟨2, 0⟩]⟩

def parkOnly : GeofenceHelper ℚ := ⟨[square], [], true⟩

/-- The time in central Europe around the 26th of March 2023: summer time from one o'clock UTC on. -/
def summerTime (t : Int) : Int := if t < 1679792400 then 3600 else 7200

theorem summerTime_midnight : LocalMidnight summerTime 1679828400 1679785200 := by
  have hnow : (1679828400 + summerTime 1679828400) / 86400 = 19442 := by decide
  refine ⟨by decide, ?_⟩
  intro t ht
  rw [hnow] at ht
  unfold summerTime at ht
  split at ht
  · omega
  · omega

/-- At noon of that day: a stop with a quest of the morning, and one with a quest of half past ten the evening before. -/
def twoStops : List (Pokestop ℚ) := [⟨"morning", 1, 1⟩, ⟨"evening", 1, 1 / 2⟩]

def twoQuests : List TrsQuest := [⟨"morning", 1, 1679810400⟩, ⟨"evening", 1, 1679779800⟩]

theorem quests_partition_iff_summerTime :
    Partitioned parkOnly containsPoint (fun _ => some summerTime) 1679828400 twoStops twoQuests 1 := by
  rw [quests_partition_iff containsPoint_encloses (fun _ => some summerTime) 1679828400 twoStops twoQuests 1
    (by decide +kernel) (by simp [twoQuests])]
  refine ⟨⟨summerTime, rfl, 1679785200, summerTime_midnight, ?_⟩, .inl (by simp [parkOnly]), by decide +kernel⟩
  intro stop _ _ quest hquest _ _
  rcases List.mem_pair.mp hquest with rfl | rfl
  · decide
  · decide

/-- Without areas a stop is inside of the fence, and neither lookup returns it. -/
theorem quests_lost :
    (⟨[], [], false⟩ : GeofenceHelper ℚ).Inside (fun _ _ => false) ⟨1, 1⟩ ∧
      ¬ Partitioned (⟨[], [], false⟩ : GeofenceHelper ℚ) (fun _ _ => false) (fun _ => some fun _ => 0) 0
        [⟨"stop", 1, 1⟩] [] 1 := by
  have hinside : (⟨[], [], false⟩ : GeofenceHelper ℚ).Inside (fun _ _ => false) ⟨1, 1⟩ := rfl
  refine ⟨hinside, ?_⟩
  rintro ⟨utcoffset, midnight, without, scanned, hzone, _, hwithout, hscanned, _, hall, _⟩
  rcases (hall ⟨"stop", 1, 1⟩).mpr ⟨by simp, hinside⟩ with hreturned | hreturned
  · exact not_returned_of_noAreas rfl (by simp) (by simp) hzone hwithout _ hreturned
  · exact not_returned_of_noAreas rfl (by simp) (by simp) hzone hscanned _ hreturned

end MapADroid.Pokestops
