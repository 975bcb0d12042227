import MapADroid.Stats.PlayerStats

/- Statistics on the wild mons a worker saw: the holder that collects a batch of them and
   the table it is written to.

   The first sighting of an encounter in a batch makes the entry, which begins with a count
   of zero and without a shiny, and is not put into it (`WildMonStatsHolder.add`). So the
   row of an encounter counts one sighting less for each batch it was in and knows of no
   shiny that came first in its batch (`row_spec`): no row has the right count
   (`row_right_iff`). Its times are right (`row_times`). -/
namespace MapADroid.Stats.WildMons
open Lib

/-- One call of `add`. -/
structure Sighting where
  encounterId : Int
  scanned : Int
  isShiny : Bool
  deriving DecidableEq, Repr

/-- A fresh holder with a batch of sightings. -/
def ofBatch (worker : String) (batch : List Sighting) : WildMonStatsHolder :=
  batch.foldl (fun h a => h.add worker a.encounterId a.scanned a.isShiny) Dict.empty

/-- A row of `trs_stats_detect_wild_mon_raw`; an entry of a holder is one. -/
abbrev TrsStatsDetectWildMonRaw := WildMonStatsEntry

/-- The table, by its primary key. -/
abbrev Table := Dict (String × Int) TrsStatsDetectWildMonRaw

/-- What `create_or_update` does to a row that exists. -/
def merge (existing entry : TrsStatsDetectWildMonRaw) : TrsStatsDetectWildMonRaw :=
  { existing with
    firstScanned := if existing.firstScanned > entry.firstScanned then entry.firstScanned else existing.firstScanned
    lastScanned := if existing.lastScanned < entry.lastScanned then entry.lastScanned else existing.lastScanned
    count := entry.count + existing.count
    isShiny := if entry.isShiny then entry.isShiny else existing.isShiny }

/-- `TrsStatsDetectWildMonRawHelper.create_or_update`. -/
def createOrUpdate (db : Table) (entry : TrsStatsDetectWildMonRaw) : Table :=
  match db.get? (entry.worker, entry.encounterId) with
  | none => db.insert (entry.worker, entry.encounterId) entry
  | some existing => db.insert (entry.worker, entry.encounterId) (merge existing entry)

/-- `WildMonStatsHolder.submit`: the entries of the holder, one after another. -/
def submit (db : Table) (h : WildMonStatsHolder) : Table :=
  h.items.foldl (fun db i => createOrUpdate db i.2) db

/-- The table after these batches, each collected in a fresh holder. -/
def submitAll (worker : String) (batches : List (List Sighting)) : Table :=
  batches.foldl (fun db batch => submit db (ofBatch worker batch)) Dict.empty

/-! ## What the holder has -/

/-- The sightings of an encounter. -/
def sightings (id : Int) (l : List Sighting) : List Sighting := l.filter fun a => a.encounterId = id

/-- The entry that the first sighting makes and the others update. -/
def entryOf (worker : String) (id : Int) : List Sighting → Option WildMonStatsEntry
  | [] => none
  | a :: rest => some (rest.foldl (fun e b => e.update b.scanned b.isShiny) ⟨worker, id, 0, false, a.scanned, a.scanned⟩)

theorem entryOf_concat (worker : String) (id : Int) (l : List Sighting) (b : Sighting) :
    entryOf worker id (l ++ [b]) = match entryOf worker id l with
      | none => some ⟨worker, id, 0, false, b.scanned, b.scanned⟩
      | some e => some (e.update b.scanned b.isShiny) := by
  cases l with
  | nil => rfl
  | cons a l => simp [entryOf]

/-- The entries of a holder do not depend on the other encounters. -/
theorem get?_ofBatch (worker : String) (batch : List Sighting) (id : Int) :
    (ofBatch worker batch).get? id = entryOf worker id (sightings id batch) := by
  induction batch using List.reverseRecOn with
  | nil => rfl
  | append_singleton batch b ih =>
    have hadd : ofBatch worker (batch ++ [b]) =
        (ofBatch worker batch).add worker b.encounterId b.scanned b.isShiny := by simp [ofBatch]
    rw [hadd, WildMonStatsHolder.add]
    by_cases hid : b.encounterId = id
    · have hsightings : sightings id (batch ++ [b]) = sightings id batch ++ [b] := by simp [sightings, hid]
      rw [hsightings, entryOf_concat, hid, ← ih]
      cases (ofBatch worker batch).get? id with
      | none => simp
      | some e => simp
    · have hsightings : sightings id (batch ++ [b]) = sightings id batch := by simp [sightings, hid]
      rw [hsightings, ← ih]
      split
      · exact Dict.get?_insert_of_ne (Ne.symm hid)
      · exact Dict.get?_insert_of_ne (Ne.symm hid)

/-- An entry counts the sightings after the first one. -/
theorem entryOf_cons (worker : String) (id : Int) (a : Sighting) (rest : List Sighting) :
    entryOf worker id (a :: rest) = some
      { worker := worker, encounterId := id, count := rest.length, isShiny := rest.any Sighting.isShiny,
        firstScanned := a.scanned, lastScanned := (rest.getLast?.getD a).scanned } := by
  induction rest using List.reverseRecOn with
  | nil => rfl
  | append_singleton rest b ih =>
    rw [← List.cons_append, entryOf_concat, ih]
    simp [WildMonStatsEntry.update]

/-! ## What the table has -/

/-- A row and what a batch has of its encounter. -/
def mergeRow : Option TrsStatsDetectWildMonRaw → Option WildMonStatsEntry → Option TrsStatsDetectWildMonRaw
  | none, entry => entry
  | some existing, none => some existing
  | some existing, some entry => some (merge existing entry)

theorem get?_createOrUpdate (db : Table) (entry : TrsStatsDetectWildMonRaw) (key : String × Int) :
    (createOrUpdate db entry).get? key =
      if key = (entry.worker, entry.encounterId) then mergeRow (db.get? key) (some entry) else db.get? key := by
  rw [createOrUpdate]
  split
  · next h =>
    rw [Dict.get?_insert]
    by_cases hkey : key = (entry.worker, entry.encounterId)
    · rw [if_pos hkey, if_pos hkey, hkey, h, mergeRow]
    · rw [if_neg hkey, if_neg hkey]
  · next existing h =>
    rw [Dict.get?_insert]
    by_cases hkey : key = (entry.worker, entry.encounterId)
    · rw [if_pos hkey, if_pos hkey, hkey, h, mergeRow]
    · rw [if_neg hkey, if_neg hkey]

theorem entryOf_key {worker : String} {id : Int} {l : List Sighting} {e : WildMonStatsEntry}
    (h : entryOf worker id l = some e) : e.worker = worker ∧ e.encounterId = id := by
  cases l with
  | nil => cases h
  | cons a rest =>
    rw [entryOf_cons] at h
    cases h
    exact ⟨rfl, rfl⟩

/-- `submit` merges every row with the entry of the holder. -/
theorem get?_submit (db : Table) (worker : String) (batch : List Sighting) (id : Int) :
    (submit db (ofBatch worker batch)).get? (worker, id) =
      mergeRow (db.get? (worker, id)) (entryOf worker id (sightings id batch)) := by
  have hkey : ∀ i ∈ (ofBatch worker batch).items, (i.2.worker, i.2.encounterId) = (worker, i.1) := by
    intro i hi
    have hget := Dict.get?_eq_some_iff.mpr hi
    rw [get?_ofBatch] at hget
    obtain ⟨hworker, hid⟩ := entryOf_key hget
    rw [hworker, hid]
  have hget := Dict.get?_foldl_upsert createOrUpdate (fun r e => mergeRow r (some e)) (fun id => (worker, id))
    (fun _ _ heq => (Prod.mk.inj heq).2) (ofBatch worker batch)
    (fun i hi db j => by rw [get?_createOrUpdate, hkey i hi]) db id
  rw [submit, hget, get?_ofBatch]
  cases entryOf worker id (sightings id batch) with
  | none => cases db.get? (worker, id) <;> rfl
  | some e => rfl

/-- The row after all batches: the entries of the batches' holders, merged in order. -/
theorem get?_submitAll (worker : String) (batches : List (List Sighting)) (id : Int) :
    (submitAll worker batches).get? (worker, id) =
      (batches.map fun batch => entryOf worker id (sightings id batch)).foldl mergeRow none := by
  induction batches using List.reverseRecOn with
  | nil => rfl
  | append_singleton batches b ih =>
    have hsubmit : submitAll worker (batches ++ [b]) = submit (submitAll worker batches) (ofBatch worker b) := by
      simp [submitAll]
    rw [hsubmit, get?_submit, ih, List.map_append, List.foldl_append]
    rfl

theorem sightings_flatten (id : Int) (batches : List (List Sighting)) :
    sightings id batches.flatten = (batches.map (sightings id)).flatten := by
  rw [sightings, List.filter_flatten]
  rfl

theorem sightings_concat (id : Int) (batches : List (List Sighting)) (b : List Sighting) :
    sightings id (batches ++ [b]).flatten = sightings id batches.flatten ++ sightings id b := by
  simp [sightings]

/-- What the row of an encounter says of its sightings `l`: one is missing in the count for
each of the batches with the encounter, and a shiny one that comes first in its batch. -/
structure Describes (id : Int) (batches : List (List Sighting)) (row : TrsStatsDetectWildMonRaw) : Prop where
  seen : sightings id batches.flatten ≠ []
  count : row.count + (batches.filter fun batch => sightings id batch ≠ []).length =
    (sightings id batches.flatten).length
  isShiny : row.isShiny = batches.any fun batch => (sightings id batch).tail.any Sighting.isShiny
  firstScanned : (batches.flatten.map Sighting.scanned).Pairwise (· ≤ ·) →
    (sightings id batches.flatten).head?.map Sighting.scanned = some row.firstScanned
  lastScanned : (batches.flatten.map Sighting.scanned).Pairwise (· ≤ ·) →
    (sightings id batches.flatten).getLast?.map Sighting.scanned = some row.lastScanned

variable {id : Int} {batches : List (List Sighting)} {row : TrsStatsDetectWildMonRaw} {b : List Sighting}

/-- A batch without the encounter changes nothing. -/
theorem Describes.skip (h : Describes id batches row) (hb : sightings id b = []) :
    Describes id (batches ++ [b]) row where
  seen := by
    rw [sightings_concat, hb, List.append_nil]
    exact h.seen
  count := by
    have hcount := h.count
    rw [sightings_concat, hb, List.append_nil, List.filter_append, List.length_append]
    simpa [hb] using hcount
  isShiny := by simp [h.isShiny, hb]
  firstScanned hsorted := by
    rw [sightings_concat, hb, List.append_nil]
    refine h.firstScanned (hsorted.sublist ?_)
    simp
  lastScanned hsorted := by
    rw [sightings_concat, hb, List.append_nil]
    refine h.lastScanned (hsorted.sublist ?_)
    simp

/-- The first batch with the encounter. -/
theorem Describes.first {worker : String} {a : Sighting} {rest : List Sighting}
    (hbefore : sightings id batches.flatten = []) (hb : sightings id b = a :: rest)
    (hentry : entryOf worker id (a :: rest) = some row) : Describes id (batches ++ [b]) row := by
  rw [entryOf_cons] at hentry
  cases hentry
  have hnone : ∀ batch ∈ batches, sightings id batch = [] := by
    rw [sightings_flatten, List.flatten_eq_nil_iff] at hbefore
    exact fun batch hbatch => hbefore _ (List.mem_map_of_mem hbatch)
  refine ⟨?_, ?_, ?_, fun _ => ?_, fun _ => ?_⟩
  · rw [sightings_concat, hbefore, hb]
    simp
  · have hfilter : batches.filter (fun batch => sightings id batch ≠ []) = [] :=
      List.filter_eq_nil_iff.mpr fun batch hbatch => by simp [hnone batch hbatch]
    rw [sightings_concat, hbefore, List.filter_append, hfilter]
    simp [hb]
  · have hany : (batches.any fun batch => (sightings id batch).tail.any Sighting.isShiny) = false :=
      List.any_eq_false.mpr fun batch hbatch => by simp [hnone batch hbatch]
    rw [List.any_append, hany]
    simp [hb]
  · rw [sightings_concat, hbefore, hb]
    rfl
  · rw [sightings_concat, hbefore, hb, List.nil_append, List.getLast?_cons]
    rfl

/-- A later batch with it. -/
theorem Describes.later (worker : String) {a : Sighting} {rest : List Sighting}
    {entry : WildMonStatsEntry} (h : Describes id batches row) (hb : sightings id b = a :: rest)
    (hentry : entryOf worker id (a :: rest) = some entry) :
    Describes id (batches ++ [b]) (merge row entry) := by
  rw [entryOf_cons] at hentry
  cases hentry
  -- The sightings of the earlier batches are older.
  have holder : (((batches ++ [b]).flatten).map Sighting.scanned).Pairwise (· ≤ ·) →
      (batches.flatten.map Sighting.scanned).Pairwise (· ≤ ·) ∧
      ∀ c ∈ sightings id batches.flatten, ∀ d ∈ sightings id b, c.scanned ≤ d.scanned := by
    intro hsorted
    rw [List.flatten_append, List.map_append, List.pairwise_append] at hsorted
    refine ⟨hsorted.1, fun c hc d hd => hsorted.2.2 _ ?_ _ ?_⟩
    · exact List.mem_map_of_mem (List.mem_filter.mp hc).1
    · rw [List.flatten_singleton]
      exact List.mem_map_of_mem (List.mem_filter.mp hd).1
  refine ⟨?_, ?_, ?_, fun hsorted => ?_, fun hsorted => ?_⟩
  · rw [sightings_concat, hb]
    simp
  · have hcount := h.count
    rw [sightings_concat, List.filter_append, List.length_append, List.length_append, hb]
    have hone : ([b].filter fun batch => sightings id batch ≠ []).length = 1 := by simp [hb]
    rw [hone, merge, List.length_cons]
    show rest.length + row.count + _ = _
    omega
  · rw [List.any_append, ← h.isShiny]
    simp only [merge, List.any_cons, List.any_nil, hb, List.tail_cons, Bool.or_false]
    cases rest.any Sighting.isShiny <;> simp
  · obtain ⟨hbatches, hle⟩ := holder hsorted
    obtain ⟨c, hc, hfirst⟩ := Option.map_eq_some_iff.mp (h.firstScanned hbatches)
    have hca : c.scanned ≤ a.scanned := hle c (List.mem_of_head? hc) a (by rw [hb]; exact List.mem_cons_self)
    rw [sightings_concat, List.head?_append, hc]
    simp only [merge, Option.some_or, Option.map_some, hfirst]
    rw [if_neg (by omega)]
  · obtain ⟨hbatches, hle⟩ := holder hsorted
    obtain ⟨c, hc, hlast⟩ := Option.map_eq_some_iff.mp (h.lastScanned hbatches)
    obtain ⟨d, hd⟩ : ∃ d, (sightings id b).getLast? = some d := by rw [hb]; exact ⟨_, List.getLast?_cons⟩
    have hcd : c.scanned ≤ d.scanned := hle c (List.mem_of_getLast? hc) d (List.mem_of_getLast? hd)
    have hda : rest.getLast?.getD a = d := by
      rw [hb, List.getLast?_cons] at hd
      exact Option.some.inj hd
    rw [sightings_concat, List.getLast?_append, hd]
    simp only [merge, Option.some_or, Option.map_some, hda]
    split
    · rfl
    · rw [Option.some.injEq]
      omega

/-- The row of an encounter after all batches; without sightings there is none. -/
theorem row_spec (worker : String) (batches : List (List Sighting)) (id : Int) :
    match (submitAll worker batches).get? (worker, id) with
    | none => sightings id batches.flatten = []
    | some row => Describes id batches row := by
  rw [get?_submitAll]
  induction batches using List.reverseRecOn with
  | nil => rfl
  | append_singleton batches b ih =>
    rw [List.map_append, List.foldl_append]
    change match mergeRow _ (entryOf worker id (sightings id b)) with
      | none => sightings id (batches ++ [b]).flatten = []
      | some row => Describes id (batches ++ [b]) row
    generalize (batches.map fun batch => entryOf worker id (sightings id batch)).foldl mergeRow none = before at ih ⊢
    cases hb : sightings id b with
    | nil =>
      cases before with
      | none => exact (sightings_concat id batches b).trans (by rw [ih, hb]; rfl)
      | some row => exact ih.skip hb
    | cons a rest =>
      cases before with
      | none => exact .first ih hb rfl
      | some row => exact ih.later worker hb rfl

/-! ## Which rows are right -/

/-- The row of an encounter with these sightings, as it should be. -/
def rightRow (worker : String) (id : Int) : List Sighting → Option TrsStatsDetectWildMonRaw
  | [] => none
  | a :: rest => some
    { worker := worker, encounterId := id, count := (a :: rest).length, isShiny := (a :: rest).any Sighting.isShiny,
      firstScanned := a.scanned, lastScanned := (rest.getLast?.getD a).scanned }

/-- The row of an encounter that was seen is never right. -/
theorem row_right_iff (worker : String) (batches : List (List Sighting)) (id : Int) :
    (submitAll worker batches).get? (worker, id) = rightRow worker id (sightings id batches.flatten) ↔
      sightings id batches.flatten = [] := by
  have hspec := row_spec worker batches id
  constructor
  · intro h
    cases hs : sightings id batches.flatten with
    | nil => rfl
    | cons a rest =>
      exfalso
      rw [hs, rightRow] at h
      rw [h] at hspec
      -- Some batch had the encounter, and its first sighting is not counted.
      have hcount := hspec.count
      rw [hs] at hcount
      have hbatch : ∃ batch ∈ batches, sightings id batch ≠ [] := by
        by_contra hnone
        push Not at hnone
        have hnil : sightings id batches.flatten = [] := by
          rw [sightings_flatten, List.flatten_eq_nil_iff]
          simpa using hnone
        rw [hs] at hnil
        cases hnil
      obtain ⟨batch, hmem, hne⟩ := hbatch
      have hpos : 0 < (batches.filter fun batch => sightings id batch ≠ []).length :=
        List.length_pos_of_mem (List.mem_filter.mpr ⟨hmem, by simpa using hne⟩)
      simp only at hcount
      omega
  · intro hs
    rw [hs, rightRow]
    cases h : (submitAll worker batches).get? (worker, id) with
    | none => rfl
    | some row =>
      rw [h] at hspec
      exact absurd hs hspec.seen

/-- One shiny sighting: the row has a count of zero and no shiny. -/
theorem sighting_lost : ¬∀ (worker : String) (batches : List (List Sighting)) (id : Int),
    (batches.flatten.map Sighting.scanned).Pairwise (· ≤ ·) →
      (submitAll worker batches).get? (worker, id) = rightRow worker id (sightings id batches.flatten) := by
  intro h
  have hrow : (submitAll "worker" [[⟨7, 100, true⟩]]).get? ("worker", 7) = some ⟨"worker", 7, 0, false, 100, 100⟩ := by
    decide
  rw [h _ _ _ (by decide)] at hrow
  exact absurd hrow (by decide)

end MapADroid.Stats.WildMons
