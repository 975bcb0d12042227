import MapADroid.Mons.Spawnpoints
import Mathlib.Data.Fin.VecNotation
import Mathlib.Data.List.Forall2
import Mathlib.Order.Bounds.Basic
import Mathlib.Order.MinMax

/- What the rows of the spawnpoints say.

   However sessions overlap, everything a row says was seen: it has an hour's `spawndef` only
   if the spawnpoint was seen in all four quarters, and the time left and the end of a mon are
   those of a sighting (`Supported`). Where no session commits to a row that was written since
   it read it (`Isolated`), nothing is lost either: a row says exactly what was seen since it
   was made (`Learned`). -/
namespace MapADroid.Mons
open Lib

variable {L : Type} {position : Int → L} {received : Int} {event : Option Int} {k : Int}

/-! ## Quarters -/

/-- The `spawndef` of the quarters a spawnpoint was seen in. -/
def encode (seen : Fin 4 → Bool) : Int :=
  (if seen 0 then 8 else 128) + (if seen 1 then 4 else 64) + (if seen 2 then 2 else 32) + (if seen 3 then 1 else 16)

theorem encode_none : encode (fun _ => false) = defaultSpawndef := rfl

/-- A spawnpoint with the `spawndef` of an hour was seen in every quarter. -/
theorem encode_eq_hour (seen : Fin 4 → Bool) : encode seen = 15 ↔ ∀ q, seen q = true := by
  rw [Fin.forall_fin_succ, Fin.forall_fin_succ, Fin.forall_fin_two]
  simp only [encode]
  show _ ↔ seen 0 = true ∧ seen 1 = true ∧ seen 2 = true ∧ seen 3 = true
  cases seen 0 <;> cases seen 1 <;> cases seen 2 <;> cases seen 3 <;> decide

/-- The quarter of the sighting is one more that the spawnpoint was seen in. -/
theorem setSpawnSeeMinutesgroup_encode (seen : Fin 4 → Bool) (pos : Option Nat) :
    setSpawnSeeMinutesgroup (encode seen) pos = some (encode fun q => seen q || pos = some (4 + q.val)) := by
  have hpos : pos = some 4 ∨ pos = some 5 ∨ pos = some 6 ∨ pos = some 7 ∨
      (pos ≠ some 4 ∧ pos ≠ some 5 ∧ pos ≠ some 6 ∧ pos ≠ some 7) := by
    by_cases h4 : pos = some 4
    · exact .inl h4
    by_cases h5 : pos = some 5
    · exact .inr (.inl h5)
    by_cases h6 : pos = some 6
    · exact .inr (.inr (.inl h6))
    by_cases h7 : pos = some 7
    · exact .inr (.inr (.inr (.inl h7)))
    · exact .inr (.inr (.inr (.inr ⟨h4, h5, h6, h7⟩)))
  unfold setSpawnSeeMinutesgroup setSeen encode
  beta_reduce
  rcases hpos with rfl | rfl | rfl | rfl | ⟨h4, h5, h6, h7⟩
  · cases seen 0 <;> cases seen 1 <;> cases seen 2 <;> cases seen 3 <;> decide
  · cases seen 0 <;> cases seen 1 <;> cases seen 2 <;> cases seen 3 <;> decide
  · cases seen 0 <;> cases seen 1 <;> cases seen 2 <;> cases seen 3 <;> decide
  · cases seen 0 <;> cases seen 1 <;> cases seen 2 <;> cases seen 3 <;> decide
  · -- no quarter: the bits stay
    simp only [h4, h5, h6, h7, if_false, Fin.isValue, Fin.val_zero, Fin.val_one, Fin.val_two, Nat.add_zero,
      Nat.reduceAdd, decide_false, Bool.or_false, show ((3 : Fin 4) : Nat) = 3 from rfl]
    cases seen 0 <;> cases seen 1 <;> cases seen 2 <;> cases seen 3 <;> decide

/-! ## What was seen -/

def SpawnEvent.sighting? : SpawnEvent → Option Sighting
  | .sighted s => some s
  | .gone => none

def SpawnEvent.isGone : SpawnEvent → Bool
  | .sighted _ => false
  | .gone => true

/-- What was seen at a spawnpoint. -/
def seenAt (k : Int) (es : List (Int × SpawnEvent)) : List Sighting := (history k es).filterMap SpawnEvent.sighting?

theorem seenAt_append (k : Int) (es fs : List (Int × SpawnEvent)) : seenAt k (es ++ fs) = seenAt k es ++ seenAt k fs := by
  rw [seenAt, history_append, List.filterMap_append]
  rfl

theorem seenAt_sighted (k j : Int) (s : Sighting) : seenAt k [(j, .sighted s)] = if j = k then [s] else [] := by
  rw [seenAt, history_single]
  split
  · rfl
  · rfl

/-- Everything a row says was seen. -/
structure Supported (row : TrsSpawn L) (es : List Sighting) : Prop where
  quarters : ∃ seen, row.spawndef = encode seen ∧ ∀ q, seen q = true → ∃ e ∈ es, e.pos = some (4 + q.val)
  earliest : row.earliestUnseen = 99999999 ∨ ∃ e ∈ es, ∃ p ∈ e.timed, row.earliestUnseen = p.1
  ending : ∀ p ∈ row.calcEndminsec, ∃ e ∈ es, ∃ t ∈ e.timed, t.2 = p

theorem Supported.mono {row : TrsSpawn L} {es fs : List Sighting} (h : Supported row es) (hsub : es ⊆ fs) :
    Supported row fs where
  quarters := by
    obtain ⟨seen, hdef, hseen⟩ := h.quarters
    refine ⟨seen, hdef, fun q hq => ?_⟩
    obtain ⟨e, he, hpos⟩ := hseen q hq
    exact ⟨e, hsub he, hpos⟩
  earliest := by
    rcases h.earliest with hnone | ⟨e, he, htimed⟩
    · exact .inl hnone
    · exact .inr ⟨e, hsub he, htimed⟩
  ending p hp := by
    obtain ⟨e, he, htimed⟩ := h.ending p hp
    exact ⟨e, hsub he, htimed⟩

theorem sighting_timed (received : Int) (counted : Bool) {mon : WildPokemon} (htimed : mon.timed = true) :
    (sighting received counted mon).timed = some (mon.timeTillHidden, calcendtime received mon.timeTillHidden) :=
  if_pos htimed

/-- The quarters of a row with those of one more sighting. -/
theorem encode_update (es : List Sighting) (seen : Fin 4 → Bool) (e : Sighting)
    (hseen : ∀ q, seen q = true → ∃ e ∈ es, e.pos = some (4 + q.val)) (q : Fin 4)
    (hq : (seen q || decide (e.pos = some (4 + q.val))) = true) : ∃ e' ∈ es ++ [e], e'.pos = some (4 + q.val) := by
  rw [Bool.or_eq_true, decide_eq_true_iff] at hq
  rcases hq with hq | hq
  · obtain ⟨e', he', hpos⟩ := hseen q hq
    exact ⟨e', List.mem_append_left _ he', hpos⟩
  · exact ⟨e, by simp, hq⟩

theorem Supported.update {spawn updated : TrsSpawn L} {es : List Sighting} {mon : WildPokemon} (h : Supported spawn es)
    (hupdate : updateSpawn received event mon spawn = some updated) (counted : Bool) :
    Supported updated (es ++ [sighting received counted mon]) := by
  obtain ⟨seen, hdef, hseen⟩ := h.quarters
  unfold updateSpawn at hupdate
  rw [hdef, setSpawnSeeMinutesgroup_encode, Option.bind_some] at hupdate
  obtain ⟨current, _, rfl⟩ := Option.map_eq_some_iff.mp hupdate
  have hold : Supported spawn (es ++ [sighting received counted mon]) := h.mono (List.subset_append_left _ _)
  have hquarters : ∃ seen', (if eventCounts current spawn.eventid then
        encode fun q => seen q || decide (getCurrentSpawndefPos mon.now = some (4 + q.val)) else encode seen) =
        encode seen' ∧ ∀ q, seen' q = true → ∃ e ∈ es ++ [sighting received counted mon], e.pos = some (4 + q.val) := by
    split
    · exact ⟨_, rfl, encode_update es seen (sighting received counted mon) hseen⟩
    · refine ⟨seen, rfl, fun q hq => ?_⟩
      obtain ⟨e, he, hpos⟩ := hseen q hq
      exact ⟨e, List.mem_append_left _ he, hpos⟩
  dsimp only
  split
  · next htimed =>
    have hnew := sighting_timed received counted htimed
    refine ⟨hquarters, ?_, fun p hp => ?_⟩
    · rcases min_choice spawn.earliestUnseen mon.timeTillHidden with hmin | hmin
      · rw [hmin]; exact hold.earliest
      · exact .inr ⟨_, by simp, _, hnew, hmin⟩
    · cases hp
      exact ⟨_, by simp, _, hnew, rfl⟩
  · exact ⟨hquarters, hold.earliest, hold.ending⟩

theorem Supported.new {location : L} {row : TrsSpawn L} {mon : WildPokemon}
    (hnew : newSpawn location received event mon = some row) (counted : Bool) :
    Supported row [sighting received counted mon] := by
  unfold newSpawn at hnew
  rw [← encode_none, setSpawnSeeMinutesgroup_encode, Option.map_some, Option.some.injEq] at hnew
  have hquarters : ∃ seen', (encode fun q => false || decide (getCurrentSpawndefPos mon.now = some (4 + q.val))) =
      encode seen' ∧ ∀ q, seen' q = true → ∃ e ∈ [sighting received counted mon], e.pos = some (4 + q.val) :=
    ⟨_, rfl, encode_update [] (fun _ => false) (sighting received counted mon) fun q hq => (by cases hq)⟩
  subst hnew
  split
  · next htimed =>
    have htime := sighting_timed received counted htimed
    refine ⟨hquarters, .inr ⟨_, by simp, _, htime, rfl⟩, fun p hp => ?_⟩
    cases hp
    exact ⟨_, by simp, _, htime, rfl⟩
  · exact ⟨hquarters, .inl rfl, fun p hp => by cases hp⟩

/-- A row with some columns of one row and some of another. -/
theorem Supported.write {read now current : TrsSpawn L} {es : List Sighting} (hnow : Supported now es)
    (hcurrent : Supported current es) : Supported (writeRow read now current) es where
  quarters := by
    show ∃ seen, written _ _ _ = _ ∧ _
    unfold written
    split
    · exact hcurrent.quarters
    · exact hnow.quarters
  earliest := by
    show written _ _ _ = _ ∨ ∃ e ∈ es, ∃ p ∈ e.timed, written _ _ _ = p.1
    unfold written
    split
    · exact hcurrent.earliest
    · exact hnow.earliest
  ending p hp := by
    change p ∈ written _ _ _ at hp
    unfold written at hp
    split at hp
    · exact hcurrent.ending p hp
    · exact hnow.ending p hp

/-- What a session has made of its rows was seen, by it or before. -/
structure SessionSupported (session : SpawnSession L) (es : List (Int × SpawnEvent)) : Prop where
  spawndef : ∀ k row, session.spawndef.get? k = some row → Supported row (seenAt k (es ++ session.sightings))
  added : ∀ i ∈ session.added, Supported i.2 (seenAt i.1 session.sightings)

theorem SessionSupported.mono {session : SpawnSession L} {es fs : List (Int × SpawnEvent)}
    (h : SessionSupported session es) : SessionSupported session (es ++ fs) where
  spawndef k row hrow := by
    refine (h.spawndef k row hrow).mono ?_
    simp only [seenAt_append]
    intro e he
    simp only [List.mem_append] at he ⊢
    tauto
  added := h.added

theorem SessionSupported.handle {session session' : SpawnSession L} {es : List (Int × SpawnEvent)} {mon : WildPokemon}
    (h : SessionSupported session es) (hhandle : handleWild position received event session mon = some session') :
    SessionSupported session' es := by
  unfold handleWild at hhandle
  obtain ⟨spawnid, _, hhandle⟩ := Option.bind_eq_some_iff.mp hhandle
  split at hhandle
  · next spawn hspawn =>
    obtain ⟨updated, hupdate, rfl⟩ := Option.map_eq_some_iff.mp hhandle
    refine ⟨fun k row hrow => ?_, fun i hi => ?_⟩
    · rw [← List.append_assoc, seenAt_append]
      rcases Dict.get?_insert_eq_some_iff.mp hrow with ⟨rfl, rfl⟩ | ⟨_, hold⟩
      · rw [seenAt_sighted, if_pos rfl]
        exact (h.spawndef k spawn hspawn).update hupdate _
      · exact (h.spawndef k row hold).mono (List.subset_append_left _ _)
    · rw [seenAt_append]
      exact (h.added i hi).mono (List.subset_append_left _ _)
  · obtain ⟨new, hnew, rfl⟩ := Option.map_eq_some_iff.mp hhandle
    refine ⟨fun k row hrow => ?_, fun i hi => ?_⟩
    · rw [← List.append_assoc, seenAt_append]
      exact (h.spawndef k row hrow).mono (List.subset_append_left _ _)
    · rw [seenAt_append]
      rcases List.mem_append.mp hi with hi | hi
      · exact (h.added i hi).mono (List.subset_append_left _ _)
      · rw [List.mem_singleton] at hi
        subst hi
        rw [seenAt_sighted, if_pos rfl]
        exact (Supported.new hnew true).mono (List.subset_append_right _ _)

/-- A property of a session that handling a mon keeps is kept by the loop. -/
theorem foldlM_handleWild {I : SpawnSession L → Prop} {wild : List WildPokemon} {session session' : SpawnSession L}
    (hstep : ∀ t mon t', I t → handleWild position received event t mon = some t' → I t') (h : I session)
    (hloop : wild.foldlM (handleWild position received event) session = some session') : I session' := by
  induction wild generalizing session with
  | nil =>
    rw [List.foldlM_nil] at hloop
    cases hloop
    exact h
  | cons mon wild ih =>
    rw [List.foldlM_cons] at hloop
    obtain ⟨t, ht, hrest⟩ := Option.bind_eq_some_iff.mp hloop
    exact ih (hstep session mon t h ht) hrest

theorem spawnpoints_supported {wild : List WildPokemon} {table : Dict Int (TrsSpawn L)} {session : SpawnSession L}
    {es : List (Int × SpawnEvent)} (htable : ∀ k row, table.get? k = some row → Supported row (seenAt k es))
    (hsession : spawnpoints position received event wild table = some session) : SessionSupported session es := by
  refine foldlM_handleWild (I := fun t => SessionSupported t es) (fun t mon t' h hhandle => h.handle hhandle) ?_ hsession
  refine ⟨fun k row hrow => ?_, fun i hi => by cases hi⟩
  rw [Dict.get?_filter, Option.filter_eq_some_iff] at hrow
  rw [List.append_nil]
  exact htable k row hrow.1

/-! ## The table -/

theorem find_mem {k : Int} {row : TrsSpawn L} : ∀ {l : List (Int × TrsSpawn L)}, (l.map Prod.fst).Nodup →
    (Dict.ofList l).get? k = some row → (k, row) ∈ l := by
  intro l hnodup h
  rw [Dict.get?_eq_some_iff, Dict.items_ofList hnodup] at h
  exact h

/-- A row after a commit: a new one, or one that was there, perhaps with columns of the session. -/
theorem commit_get? {session : SpawnSession L} {table : Dict Int (TrsSpawn L)} {row : TrsSpawn L}
    (hcommits : session.commits table = true) (hrow : (session.commit table).get? k = some row) :
    (k, row) ∈ session.added ∧ table.get? k = none ∨ ∃ current, table.get? k = some current ∧
      (row = current ∧ (session.read.get? k = none ∨ session.spawndef.get? k = none) ∨
        ∃ read now, session.read.get? k = some read ∧ session.spawndef.get? k = some now ∧
          row = writeRow read now current) := by
  simp only [SpawnSession.commits, Bool.and_eq_true, decide_eq_true_eq] at hcommits
  obtain ⟨⟨_, hnodup⟩, hnew⟩ := hcommits
  unfold SpawnSession.commit at hrow
  rw [Dict.get?_update] at hrow
  cases hadded : (Dict.ofList session.added).get? k with
  | some new =>
    rw [hadded] at hrow
    cases hrow
    have hmem := find_mem hnodup hadded
    refine .inl ⟨hmem, ?_⟩
    have hisNone := List.all_eq_true.mp hnew _ hmem
    exact Option.isNone_iff_eq_none.mp hisNone
  | none =>
    rw [hadded, Option.none_or, Dict.get?_mapValues] at hrow
    obtain ⟨current, hcurrent, hvalue⟩ := Option.map_eq_some_iff.mp hrow
    refine .inr ⟨current, hcurrent, ?_⟩
    split at hvalue
    · next read now hread hnow => exact .inr ⟨read, now, hread, hnow, hvalue.symm⟩
    · next hneither =>
      refine .inl ⟨hvalue.symm, ?_⟩
      cases hread : session.read.get? k with
      | none => exact .inl rfl
      | some read =>
        cases hnow : session.spawndef.get? k with
        | none => exact .inr rfl
        | some now => exact absurd hnow (hneither read now hread)

/-- What the rows of the table and of the sessions say was seen. -/
structure AllSupported (s : Spawns L) : Prop where
  table : ∀ k row, s.table.get? k = some row → Supported row (seenAt k s.history)
  session : ∀ n session, s.session n = some session → SessionSupported session s.history

theorem AllSupported.endSession {s : Spawns L} (h : AllSupported s) (n : Nat) : AllSupported (s.endSession n) where
  table := h.table
  session m session hm := by
    change Function.update s.session n none m = some session at hm
    rw [Function.update_apply] at hm
    split at hm
    · cases hm
    · exact h.session m session hm

theorem AllSupported.keep {s : Spawns L} (h : AllSupported s) (p : Int → TrsSpawn L → Bool) : AllSupported (s.keep p) where
  table k row hrow := by
    change (s.table.filter p).get? k = some row at hrow
    rw [Dict.get?_filter, Option.filter_eq_some_iff] at hrow
    show Supported row (seenAt k (s.history ++ _))
    rw [seenAt_append]
    exact (h.table k row hrow.1).mono (List.subset_append_left _ _)
  session n session hn := (h.session n session hn).mono

theorem AllSupported.commit {s : Spawns L} {n : Nat} {session : SpawnSession L} (h : AllSupported s)
    (hn : s.session n = some session) : AllSupported (s.commit n session) := by
  have hsession := h.session n session hn
  unfold Spawns.commit
  split
  · next hcommits =>
    refine ⟨fun k row hrow => ?_, fun m session' hm => ((h.endSession n).session m session' hm).mono⟩
    show Supported row (seenAt k (s.history ++ session.sightings))
    rw [seenAt_append]
    rcases commit_get? hcommits hrow with ⟨hadded, _⟩ | ⟨current, hcurrent, ⟨rfl, _⟩ | ⟨read, now, _, hnow, rfl⟩⟩
    · exact (hsession.added _ hadded).mono (List.subset_append_right _ _)
    · exact (h.table k row hcurrent).mono (List.subset_append_left _ _)
    · refine .write ?_ ((h.table k current hcurrent).mono (List.subset_append_left _ _))
      have hsupported := hsession.spawndef k now hnow
      rw [seenAt_append] at hsupported
      exact hsupported
  · exact h.endSession n

theorem AllSupported.step {s t : Spawns L} {a : SpawnAction} (h : AllSupported s)
    (hs : Spawns.step position s a = some t) : AllSupported t := by
  cases a with
  | spawnpoints n received event wild =>
    simp only [Spawns.step] at hs
    split at hs
    · cases hs
    · cases hs
      refine ⟨h.table, fun m session hm => ?_⟩
      change Function.update s.session n _ m = some session at hm
      rw [Function.update_apply] at hm
      split at hm
      · exact spawnpoints_supported h.table hm
      · exact h.session m session hm
  | commit n =>
    obtain ⟨session, hn, rfl⟩ := Option.map_eq_some_iff.mp hs
    exact h.commit hn
  | rollback n =>
    obtain ⟨_, _, rfl⟩ := Option.map_eq_some_iff.mp hs
    exact h.endSession n
  | convertSpawnpoints ids eventId =>
    cases hs
    refine ⟨fun k row hrow => ?_, h.session⟩
    rw [Dict.get?_mapValues] at hrow
    obtain ⟨old, hold, rfl⟩ := Option.map_eq_some_iff.mp hrow
    have hsupported := h.table k old hold
    split
    · exact ⟨hsupported.quarters, hsupported.earliest, hsupported.ending⟩
    · exact hsupported
  | deleteAllExcept spawns => cases hs; exact h.keep _
  | deleteIncludingSpawns eventId => cases hs; exact h.keep _

theorem allSupported {l : List SpawnAction} {s : Spawns L} (hrun : Run (Spawns.step position) Any Spawns.init l s) :
    AllSupported s := by
  refine hrun.invariant ⟨fun k row h => (by cases h), fun n session h => (by cases h)⟩ ?_
  intro t a u h _ hs
  exact h.step hs

/-- The row as the spawns that start next are read off it: those whose end is known. -/
def TrsSpawn.next (row : TrsSpawn L) : Option (PrioQueue.TrsSpawn L) :=
  row.calcEndminsec.map fun p => ⟨row.location, p.1, p.2, row.spawndef⟩

/-- However sessions overlap and whatever is deleted or converted in between, of a spawn whose end is known: if it is
taken to last an hour, it was seen in all four quarters of one; its end is that of a sighting; and its shortest time
left, where one is known (99999999 says that none is), is that of a sighting. -/
theorem learned_was_seen {l : List SpawnAction} {s : Spawns L}
    (hrun : Run (Spawns.step position) Any Spawns.init l s) {row : TrsSpawn L} (hrow : s.table.get? k = some row)
    {spawn : PrioQueue.TrsSpawn L} (hnext : row.next = some spawn) :
    (PrioQueue.spawnDurationMinutes spawn = 60 → ∀ q : Fin 4, ∃ e ∈ seenAt k s.history, e.pos = some (4 + q.val)) ∧
    (∃ e ∈ seenAt k s.history, ∃ t ∈ e.timed, t.2 = (spawn.minutes, spawn.seconds)) ∧
    (row.earliestUnseen = 99999999 ∨ ∃ e ∈ seenAt k s.history, ∃ t ∈ e.timed, row.earliestUnseen = t.1) := by
  obtain ⟨⟨seen, hdef, hseen⟩, hearliest, hending⟩ := (allSupported hrun).table k row hrow
  obtain ⟨p, hp, rfl⟩ := Option.map_eq_some_iff.mp hnext
  refine ⟨fun hhour q => ?_, hending p hp, hearliest⟩
  have hfifteen : row.spawndef = 15 := by
    by_contra hne
    simp [PrioQueue.spawnDurationMinutes, hne] at hhour
  exact hseen q ((encode_eq_hour seen).mp (hdef ▸ hfifteen) q)

/-- A spawnpoint seen in every quarter of the hour, in two sessions that overlap. -/
def fourQuarters : List SpawnAction :=
  [.spawnpoints 0 60 (some 1) [⟨some 7, -1, 60, 61⟩], .commit 0,
    .spawnpoints 1 1000 (some 1) [⟨some 7, 90000, 1000, 1001⟩], .spawnpoints 2 2000 (some 1) [⟨some 7, -1, 2000, 2001⟩],
    .commit 1, .commit 2, .spawnpoints 3 3000 (some 1) [⟨some 7, -1, 3000, 3001⟩], .commit 3,
    .spawnpoints 4 5000 (some 1) [⟨some 7, 30000, 5000, 5001⟩], .commit 4]

def overlapped : Spawns Unit := after (Spawns.step fun _ => ()) Any Spawns.init fourQuarters

/-- What the first of the two learned of the quarter is lost and learned again. -/
theorem learned_was_seen_overlapped :
    (overlapped.table.get? 7).map (fun row => (row.spawndef, row.earliestUnseen, row.calcEndminsec)) =
        some (15, 30000, some (23, 50)) ∧
      ∀ q : Fin 4, ∃ e ∈ seenAt 7 overlapped.history, e.pos = some (4 + q.val) := by
  have hrow : overlapped.table.get? 7 =
      some ⟨(), 15, 30000, some 5000, none, some 3001, some (23, 50), 1⟩ := by decide +kernel
  have hnext : (⟨(), 15, 30000, some 5000, none, some 3001, some (23, 50), 1⟩ : TrsSpawn Unit).next =
      some ⟨(), 23, 50, 15⟩ := rfl
  exact ⟨by rw [hrow]; rfl, (learned_was_seen (.of_after (by decide +kernel)) hrow hnext).1 rfl⟩

/-! ## What is lost -/

/-- What was seen at a spawnpoint since its row was last deleted. -/
def seenSince (k : Int) (es : List (Int × SpawnEvent)) : List Sighting :=
  (since SpawnEvent.isGone (history k es)).filterMap SpawnEvent.sighting?

/-- A row says exactly what was seen: the quarters of the sightings that counted, the shortest time left, and the end
of the last mon whose end was known. -/
structure Learned (row : TrsSpawn L) (es : List Sighting) : Prop where
  quarters : row.spawndef = encode fun q => es.any fun e => e.counted && e.pos = some (4 + q.val)
  earliest : IsLeast (insert 99999999 {h | ∃ e ∈ es, ∃ t ∈ e.timed, t.1 = h}) row.earliestUnseen
  ending : row.calcEndminsec = (es.filterMap (·.timed)).getLast?.map (·.2)

theorem quarters_append (es : List Sighting) (e : Sighting) (q : Fin 4) :
    ((es ++ [e]).any fun e => e.counted && decide (e.pos = some (4 + q.val))) =
      ((es.any fun e => e.counted && decide (e.pos = some (4 + q.val))) ||
        (e.counted && decide (e.pos = some (4 + q.val)))) := by
  rw [List.any_append, List.any_cons, List.any_nil, Bool.or_false]

/-- The times left with those of one more sighting. -/
theorem timesLeft_append (es : List Sighting) (e : Sighting) :
    {h | ∃ e' ∈ es ++ [e], ∃ t ∈ e'.timed, t.1 = h} =
      {h : Int | ∃ e' ∈ es, ∃ t ∈ e'.timed, t.1 = h} ∪ {h | ∃ t ∈ e.timed, t.1 = h} := by
  ext h
  simp only [List.mem_append, List.mem_singleton, Set.mem_ofPred_eq, Set.mem_union, or_and_right, exists_or,
    exists_eq_left]

theorem timesLeft_none {e : Sighting} (h : e.timed = none) : {h : Int | ∃ t ∈ e.timed, t.1 = h} = ∅ := by
  ext x
  simp [h]

theorem timesLeft_some {e : Sighting} {t : Int × (Fin 60 × Fin 60)} (h : e.timed = some t) :
    {h : Int | ∃ t ∈ e.timed, t.1 = h} = {t.1} := by
  ext x
  simp [h, eq_comm]

theorem Learned.append_timed {row row' : TrsSpawn L} {es : List Sighting} {e : Sighting}
    {t : Int × (Fin 60 × Fin 60)} (h : Learned row es) (htimed : e.timed = some t)
    (hdef : row'.spawndef = encode fun q => (es.any fun e => e.counted && decide (e.pos = some (4 + q.val))) ||
      (e.counted && decide (e.pos = some (4 + q.val))))
    (hearliest : row'.earliestUnseen = min row.earliestUnseen t.1) (hending : row'.calcEndminsec = some t.2) :
    Learned row' (es ++ [e]) where
  quarters := by
    rw [hdef]
    congr 1
    funext q
    exact (quarters_append es e q).symm
  earliest := by
    rw [timesLeft_append, timesLeft_some htimed, hearliest, Set.union_singleton, Set.insert_comm, min_comm]
    exact h.earliest.insert t.1
  ending := by
    rw [hending, List.filterMap_append]
    simp [htimed]

theorem Learned.append_untimed {row row' : TrsSpawn L} {es : List Sighting} {e : Sighting} (h : Learned row es)
    (htimed : e.timed = none)
    (hdef : row'.spawndef = encode fun q => (es.any fun e => e.counted && decide (e.pos = some (4 + q.val))) ||
      (e.counted && decide (e.pos = some (4 + q.val))))
    (hearliest : row'.earliestUnseen = row.earliestUnseen) (hending : row'.calcEndminsec = row.calcEndminsec) :
    Learned row' (es ++ [e]) where
  quarters := by
    rw [hdef]
    congr 1
    funext q
    exact (quarters_append es e q).symm
  earliest := by
    rw [timesLeft_append, timesLeft_none htimed, hearliest, Set.union_empty]
    exact h.earliest
  ending := by
    rw [hending, h.ending, List.filterMap_append]
    simp [htimed]

theorem sighting_untimed {counted : Bool} {mon : WildPokemon} (htimed : ¬ mon.timed = true) :
    (sighting received counted mon).timed = none := if_neg htimed

/-- A sighting is learned by the row that there is. -/
theorem Learned.update {spawn updated : TrsSpawn L} {es : List Sighting} {mon : WildPokemon} (h : Learned spawn es)
    (hupdate : updateSpawn received event mon spawn = some updated) :
    Learned updated (es ++ [sighting received (event.any (eventCounts · spawn.eventid)) mon]) := by
  unfold updateSpawn at hupdate
  rw [h.quarters, setSpawnSeeMinutesgroup_encode, Option.bind_some] at hupdate
  obtain ⟨current, rfl, rfl⟩ := Option.map_eq_some_iff.mp hupdate
  rw [Option.any_some]
  have hquarters : (if eventCounts current spawn.eventid then
        encode fun q => (es.any fun e => e.counted && decide (e.pos = some (4 + q.val))) ||
          decide (getCurrentSpawndefPos mon.now = some (4 + q.val))
      else encode fun q => es.any fun e => e.counted && decide (e.pos = some (4 + q.val))) =
      encode fun q => (es.any fun e => e.counted && decide (e.pos = some (4 + q.val))) ||
        (eventCounts current spawn.eventid && decide (getCurrentSpawndefPos mon.now = some (4 + q.val))) := by
    cases eventCounts current spawn.eventid <;> simp
  dsimp only
  split
  · next htimed => exact h.append_timed (sighting_timed _ _ htimed) hquarters rfl rfl
  · next htimed => exact h.append_untimed (sighting_untimed htimed) hquarters rfl rfl

theorem Learned.nil (location : L) (eventid : Int) :
    Learned ⟨location, defaultSpawndef, 99999999, none, none, none, none, eventid⟩ [] where
  quarters := rfl
  earliest := by simp
  ending := rfl

/-- A new row has learned of its one sighting. -/
theorem Learned.new {location : L} {row : TrsSpawn L} {mon : WildPokemon}
    (hnew : newSpawn location received event mon = some row) : Learned row [sighting received true mon] := by
  unfold newSpawn at hnew
  rw [← encode_none, setSpawnSeeMinutesgroup_encode, Option.map_some, Option.some.injEq] at hnew
  subst hnew
  split
  · next htimed =>
    have hle : mon.timeTillHidden ≤ 99999999 := by
      simp only [WildPokemon.timed, Bool.and_eq_true, decide_eq_true_eq] at htimed
      omega
    refine (Learned.nil location 1).append_timed (sighting_timed _ _ htimed) ?_ ?_ rfl
    · congr 1
    · exact (min_eq_right hle).symm
  · next htimed =>
    refine (Learned.nil location 1).append_untimed (sighting_untimed htimed) ?_ rfl rfl
    congr 1

/-- What a session has made of its rows is what they were with what it saw; its new rows are each of one sighting. -/
structure SessionLearned (session : SpawnSession L) : Prop where
  keys : ∀ k, session.read.get? k = none ↔ session.spawndef.get? k = none
  spawndef : ∀ k read now, session.read.get? k = some read → session.spawndef.get? k = some now → ∀ es,
    Learned read es → Learned now (es ++ seenAt k session.sightings)
  added : ∀ k, session.read.get? k = none →
    List.Forall₂ (fun i e => Learned i.2 [e]) (session.added.filter (·.1 = k)) (seenAt k session.sightings)
  addedNew : ∀ i ∈ session.added, session.read.get? i.1 = none
  quiet : ∀ e ∈ session.sightings, e.2.isGone = false

theorem SessionLearned.handle {session session' : SpawnSession L} {mon : WildPokemon} (h : SessionLearned session)
    (hhandle : handleWild position received event session mon = some session') : SessionLearned session' := by
  unfold handleWild at hhandle
  obtain ⟨spawnid, _, hhandle⟩ := Option.bind_eq_some_iff.mp hhandle
  split at hhandle
  · next spawn hspawn =>
    obtain ⟨updated, hupdate, rfl⟩ := Option.map_eq_some_iff.mp hhandle
    have hread : session.read.get? spawnid ≠ none := by
      intro hnone
      rw [(h.keys spawnid).mp hnone] at hspawn
      cases hspawn
    refine ⟨fun k => ?_, fun k read now hkread hknow es hes => ?_, fun k hk => ?_, h.addedNew, fun e he => ?_⟩
    · show _ ↔ (session.spawndef.insert spawnid updated).get? k = none
      rw [Dict.get?_insert]
      split
      · next hk => subst hk; simp [hread]
      · exact h.keys k
    · rw [seenAt_append, ← List.append_assoc, seenAt_sighted]
      rcases Dict.get?_insert_eq_some_iff.mp hknow with ⟨rfl, rfl⟩ | ⟨hne, hold⟩
      · rw [if_pos rfl]
        exact (h.spawndef k read spawn hkread hspawn es hes).update hupdate
      · rw [if_neg (Ne.symm hne), List.append_nil]
        exact h.spawndef k read now hkread hold es hes
    · have hne : spawnid ≠ k := fun heq => hread (heq ▸ hk)
      rw [seenAt_append, seenAt_sighted, if_neg hne, List.append_nil]
      exact h.added k hk
    · rcases List.mem_append.mp he with he | he
      · exact h.quiet e he
      · rw [List.mem_singleton] at he
        subst he
        rfl
  · next hnone =>
    obtain ⟨new, hnew, rfl⟩ := Option.map_eq_some_iff.mp hhandle
    have hread := (h.keys spawnid).mpr hnone
    refine ⟨h.keys, fun k read now hkread hknow es hes => ?_, fun k hk => ?_, fun i hi => ?_, fun e he => ?_⟩
    · have hne : spawnid ≠ k := by
        rintro rfl
        rw [hread] at hkread
        cases hkread
      rw [seenAt_append, seenAt_sighted, if_neg hne, List.append_nil]
      exact h.spawndef k read now hkread hknow es hes
    · show List.Forall₂ _ ((session.added ++ [(spawnid, new)]).filter (·.1 = k)) _
      rw [seenAt_append, seenAt_sighted, List.filter_append]
      refine List.rel_append (h.added k hk) ?_
      by_cases heq : spawnid = k
      · rw [if_pos heq, List.filter_singleton]
        simp only [heq, decide_true]
        exact .cons (Learned.new hnew) .nil
      · rw [if_neg heq, List.filter_singleton]
        simp [heq]
    · rcases List.mem_append.mp hi with hi | hi
      · exact h.addedNew i hi
      · rw [List.mem_singleton] at hi
        subst hi
        exact hread
    · rcases List.mem_append.mp he with he | he
      · exact h.quiet e he
      · rw [List.mem_singleton] at he
        subst he
        rfl

theorem spawnpoints_learned {wild : List WildPokemon} {table : Dict Int (TrsSpawn L)} {session : SpawnSession L}
    (hsession : spawnpoints position received event wild table = some session) : SessionLearned session := by
  refine foldlM_handleWild (fun t mon t' h hhandle => h.handle hhandle) ?_ hsession
  refine ⟨fun k => Iff.rfl, fun k read now hread hnow es hes => ?_, fun k _ => .nil, fun i hi => (by cases hi),
    fun e he => (by cases he)⟩
  rw [hread] at hnow
  cases hnow
  show Learned read (es ++ [])
  rw [List.append_nil]
  exact hes

/-! ## Commits that lose nothing -/

/-- A commit is only made while the rows of the session are as it read them. -/
def Isolated (s : Spawns L) : SpawnAction → Prop
  | .commit n => ∀ session ∈ s.session n, ∀ i ∈ session.read.items, s.table.get? i.1 = some i.2
  | _ => True

instance [DecidableEq L] (s : Spawns L) (a : SpawnAction) : Decidable (Isolated s a) := by
  unfold Isolated
  split
  · infer_instance
  · infer_instance

theorem seenSince_append {k : Int} {es fs : List (Int × SpawnEvent)} (hquiet : ∀ e ∈ fs, e.2.isGone = false) :
    seenSince k (es ++ fs) = seenSince k es ++ seenAt k fs := by
  unfold seenSince
  rw [history_append, since_append, List.filterMap_append]
  · rfl
  · intro e he
    simp only [history, List.mem_map, List.mem_filter] at he
    obtain ⟨i, ⟨hi, _⟩, rfl⟩ := he
    exact hquiet i hi

/-- The new rows of a session that commits are each the only one of its spawnpoint. -/
theorem filter_key {l : List (Int × TrsSpawn L)} {row : TrsSpawn L} (hnodup : (l.map Prod.fst).Nodup)
    (h : (k, row) ∈ l) : l.filter (·.1 = k) = [(k, row)] := by
  induction l with
  | nil => cases h
  | cons i l ih =>
    obtain ⟨hi, hnodup⟩ := List.nodup_cons.mp hnodup
    rcases List.mem_cons.mp h with rfl | h
    · have hrest : l.filter (·.1 = k) = [] := by
        rw [List.filter_eq_nil_iff]
        intro j hj hjk
        exact hi (List.mem_map.mpr ⟨j, hj, of_decide_eq_true hjk⟩)
      simp [hrest]
    · have hne : i.1 ≠ k := fun heq => hi (List.mem_map.mpr ⟨(k, row), h, heq.symm⟩)
      rw [List.filter_cons_of_neg (by simpa using hne), ih hnodup h]

theorem seenAt_eq_nil_of_notAdded {session : SpawnSession L} (h : SessionLearned session)
    (hread : session.read.get? k = none) (hadded : ∀ row, (k, row) ∉ session.added) :
    seenAt k session.sightings = [] := by
  have hforall := h.added k hread
  have hnil : session.added.filter (·.1 = k) = [] := by
    rw [List.filter_eq_nil_iff]
    intro i hi hik
    have hk := of_decide_eq_true hik
    exact hadded i.2 (hk ▸ hi)
  rw [hnil] at hforall
  exact List.forall₂_nil_left_iff.mp hforall

structure AllLearned (s : Spawns L) : Prop where
  table : ∀ k row, s.table.get? k = some row → Learned row (seenSince k s.history)
  fresh : ∀ k, s.table.get? k = none → seenSince k s.history = []
  session : ∀ n session, s.session n = some session → SessionLearned session

theorem AllLearned.endSession {s : Spawns L} (h : AllLearned s) (n : Nat) : AllLearned (s.endSession n) where
  table := h.table
  fresh := h.fresh
  session m session hm := by
    change Function.update s.session n none m = some session at hm
    rw [Function.update_apply] at hm
    split at hm
    · cases hm
    · exact h.session m session hm

/-- What a deletion adds to the record of a spawnpoint: that its row is gone, if it is. -/
theorem history_gone (s : Spawns L) (p : Int → TrsSpawn L → Bool) (k : Int) (e : SpawnEvent) :
    e ∈ history k ((s.table.items.filter fun i => !p i.1 i.2).map fun i => (i.1, SpawnEvent.gone)) ↔
      e = .gone ∧ ∃ row, s.table.get? k = some row ∧ p k row = false := by
  simp only [history, List.mem_map, List.mem_filter, Bool.not_eq_true', Dict.get?_eq_some_iff]
  constructor
  · rintro ⟨_, ⟨⟨⟨j, row⟩, ⟨hmem, hp⟩, rfl⟩, hjk⟩, rfl⟩
    obtain rfl : j = k := of_decide_eq_true hjk
    exact ⟨rfl, row, hmem, hp⟩
  · rintro ⟨rfl, row, hmem, hp⟩
    exact ⟨(k, .gone), ⟨⟨(k, row), ⟨hmem, hp⟩, rfl⟩, by simp⟩, rfl⟩

/-- A row that is deleted takes with it what was seen. -/
theorem seenSince_keep (s : Spawns L) (p : Int → TrsSpawn L → Bool) (k : Int) :
    seenSince k (s.keep p).history =
      if (s.table.get? k).any (fun row => !p k row) then [] else seenSince k s.history := by
  unfold seenSince
  show List.filterMap _ (since _ (history k (s.history ++ _))) = _
  rw [history_append]
  split
  · next hany =>
    obtain ⟨row, hrow, hp⟩ := (Option.any_eq_true _ _).mp hany
    have hmem := (history_gone s p k .gone).mpr ⟨rfl, row, hrow, by simpa using hp⟩
    rw [since_marks (List.ne_nil_of_mem hmem)]
    · rfl
    · intro e he
      rw [((history_gone s p k e).mp he).1]
      rfl
  · next hany =>
    have hnil : history k ((s.table.items.filter fun i => !p i.1 i.2).map fun i => (i.1, SpawnEvent.gone)) = [] := by
      rw [List.eq_nil_iff_forall_not_mem]
      intro e he
      obtain ⟨_, row, hrow, hp⟩ := (history_gone s p k e).mp he
      exact hany (by simp [hrow, hp])
    rw [hnil, List.append_nil]

theorem AllLearned.keep {s : Spawns L} (h : AllLearned s) (p : Int → TrsSpawn L → Bool) : AllLearned (s.keep p) where
  table k row hrow := by
    change (s.table.filter p).get? k = some row at hrow
    rw [Dict.get?_filter, Option.filter_eq_some_iff] at hrow
    rw [seenSince_keep, hrow.1, if_neg (by simp [hrow.2])]
    exact h.table k row hrow.1
  fresh k hnone := by
    change (s.table.filter p).get? k = none at hnone
    rw [Dict.get?_filter] at hnone
    rw [seenSince_keep]
    split
    · rfl
    · next hany =>
      cases hrow : s.table.get? k with
      | none => exact h.fresh k hrow
      | some row =>
        rw [hrow] at hnone hany
        simp only [Option.any_some, Bool.not_eq_true', Bool.not_eq_false] at hany
        simp [Option.filter, hany] at hnone
  session := h.session

theorem commit_get?_none {session : SpawnSession L} {table : Dict Int (TrsSpawn L)}
    (hcommits : session.commits table = true) (hnone : (session.commit table).get? k = none) :
    table.get? k = none ∧ ∀ row, (k, row) ∉ session.added := by
  simp only [SpawnSession.commits, Bool.and_eq_true, decide_eq_true_eq] at hcommits
  unfold SpawnSession.commit at hnone
  rw [Dict.get?_update, Option.or_eq_none_iff, Dict.get?_mapValues, Option.map_eq_none_iff] at hnone
  refine ⟨hnone.2, fun row hmem => ?_⟩
  have hget : (Dict.ofList session.added).get? k = some row := by
    rw [Dict.get?_eq_some_iff, Dict.items_ofList hcommits.1.2]
    exact hmem
  rw [hget] at hnone
  cases hnone.1

theorem written_self {υ : Type} [DecidableEq υ] (read now : υ) : written read now read = now := by
  unfold written
  split
  · next h => exact h.symm
  · rfl

/-- A commit to the row that was read writes all that the session made of it. -/
theorem Learned.write {read now : TrsSpawn L} {es : List Sighting} (h : Learned now es) :
    Learned (writeRow read now read) es where
  quarters := by
    show written _ _ _ = _
    rw [written_self, h.quarters]
  earliest := by
    show IsLeast _ (written _ _ _)
    rw [written_self]
    exact h.earliest
  ending := by
    show written _ _ _ = _
    rw [written_self, h.ending]

theorem AllLearned.commit {s : Spawns L} {n : Nat} {session : SpawnSession L} (h : AllLearned s)
    (hn : s.session n = some session) (hisolated : Isolated s (.commit n)) : AllLearned (s.commit n session) := by
  have hsession := h.session n session hn
  have hread : ∀ k read, session.read.get? k = some read → s.table.get? k = some read :=
    fun k read hkread => hisolated session hn (k, read) (Dict.get?_eq_some_iff.mp hkread)
  have hunread : ∀ k, s.table.get? k = none → session.read.get? k = none := by
    intro k hnone
    cases hkread : session.read.get? k with
    | none => rfl
    | some read => rw [hread k read hkread] at hnone; cases hnone
  unfold Spawns.commit
  split
  · next hcommits =>
    have hadded : ∀ i ∈ session.added, s.table.get? i.1 = none := by
      simp only [SpawnSession.commits, Bool.and_eq_true, List.all_eq_true] at hcommits
      exact fun i hi => Option.isNone_iff_eq_none.mp (hcommits.2 i hi)
    have hnodup : (session.added.map Prod.fst).Nodup := by
      simp only [SpawnSession.commits, Bool.and_eq_true, decide_eq_true_eq] at hcommits
      exact hcommits.1.2
    refine ⟨fun k row hrow => ?_, fun k hnone => ?_, fun m session' hm => (h.endSession n).session m session' hm⟩
    · show Learned row (seenSince k (s.history ++ session.sightings))
      rw [seenSince_append hsession.quiet]
      rcases commit_get? hcommits hrow with ⟨hmem, hnone⟩ | ⟨current, hcurrent, ⟨rfl, hkept⟩ | ⟨read, now, hkread, hnow, rfl⟩⟩
      · -- a new row: its one sighting is all that was seen
        have hforall := hsession.added k (hunread k hnone)
        rw [filter_key hnodup hmem] at hforall
        obtain ⟨e, es, hlearned, hnil, hseen⟩ := List.forall₂_cons_left_iff.mp hforall
        rw [List.forall₂_nil_left_iff] at hnil
        rw [h.fresh k hnone, hseen, hnil]
        exact hlearned
      · -- a row that the session did not read
        have hunseen : seenAt k session.sightings = [] := by
          refine seenAt_eq_nil_of_notAdded hsession ?_ fun new hmem => ?_
          · rcases hkept with hkread | hnow
            · exact hkread
            · exact (hsession.keys k).mpr hnow
          · rw [hadded _ hmem] at hcurrent
            cases hcurrent
        rw [hunseen, List.append_nil]
        exact h.table k row hcurrent
      · obtain rfl : read = current := Option.some.inj ((hread k read hkread).symm.trans hcurrent)
        exact (hsession.spawndef k read now hkread hnow _ (h.table k read hcurrent)).write
    · show seenSince k (s.history ++ session.sightings) = []
      obtain ⟨hgone, hnotAdded⟩ := commit_get?_none hcommits hnone
      rw [seenSince_append hsession.quiet, h.fresh k hgone,
        seenAt_eq_nil_of_notAdded hsession (hunread k hgone) hnotAdded]
      rfl
  · exact h.endSession n

theorem AllLearned.step {s t : Spawns L} {a : SpawnAction} (h : AllLearned s) (hisolated : Isolated s a)
    (hs : Spawns.step position s a = some t) : AllLearned t := by
  cases a with
  | spawnpoints n received event wild =>
    simp only [Spawns.step] at hs
    split at hs
    · cases hs
    · cases hs
      refine ⟨h.table, h.fresh, fun m session hm => ?_⟩
      change Function.update s.session n _ m = some session at hm
      rw [Function.update_apply] at hm
      split at hm
      · exact spawnpoints_learned hm
      · exact h.session m session hm
  | commit n =>
    obtain ⟨session, hn, rfl⟩ := Option.map_eq_some_iff.mp hs
    exact h.commit hn hisolated
  | rollback n =>
    obtain ⟨_, _, rfl⟩ := Option.map_eq_some_iff.mp hs
    exact h.endSession n
  | convertSpawnpoints ids eventId =>
    cases hs
    refine ⟨fun k row hrow => ?_, fun k hnone => ?_, h.session⟩
    · rw [Dict.get?_mapValues] at hrow
      obtain ⟨old, hold, rfl⟩ := Option.map_eq_some_iff.mp hrow
      have hlearned := h.table k old hold
      split
      · exact ⟨hlearned.quarters, hlearned.earliest, hlearned.ending⟩
      · exact hlearned
    · rw [Dict.get?_mapValues, Option.map_eq_none_iff] at hnone
      exact h.fresh k hnone
  | deleteAllExcept spawns => cases hs; exact h.keep _
  | deleteIncludingSpawns eventId => cases hs; exact h.keep _

/-- As long as sessions only commit to rows that are as they read them, a row says exactly what was seen at its
spawnpoint since it was made: the quarters of the sightings whose event counted, the shortest of the times left
that were known, and the end of the last of these mons. -/
theorem learned_exactly {l : List SpawnAction} {s : Spawns L} (hrun : Run (Spawns.step position) Isolated Spawns.init l s)
    {row : TrsSpawn L} (hrow : s.table.get? k = some row) : Learned row (seenSince k s.history) := by
  have hall : AllLearned s := by
    refine hrun.invariant (I := AllLearned) ?_ fun t a u h hok hs => h.step hok hs
    exact ⟨fun k row h => (by cases h), fun k _ => rfl, fun n session h => (by cases h)⟩
  exact hall.table k row hrow

/-- The sessions one after the other. -/
def inTurn : List SpawnAction :=
  [.spawnpoints 0 60 (some 1) [⟨some 7, -1, 60, 61⟩, ⟨some 8, -1, 60, 61⟩], .commit 0,
    .spawnpoints 1 1000 (some 2) [⟨some 7, 90000, 1000, 1001⟩], .commit 1, .deleteAllExcept [7],
    .spawnpoints 2 2000 (some 1) [⟨some 7, 30000, 2000, 2001⟩, ⟨some 8, -1, 2000, 2001⟩], .commit 2]

def taughtInTurn : Spawns Unit := after (Spawns.step fun _ => ()) Isolated Spawns.init inTurn

/-- The second sighting is from another event, and does not count. -/
theorem learned_exactly_in_turn : (taughtInTurn.table.get? 7).map (·.spawndef) = some (8 + 64 + 2 + 16) ∧
    Learned (⟨(), 8 + 64 + 2 + 16, 30000, some 2000, none, some 61, some (33, 50), 1⟩ : TrsSpawn Unit)
      (seenSince 7 taughtInTurn.history) := by
  have hrow : taughtInTurn.table.get? 7 =
      some ⟨(), 8 + 64 + 2 + 16, 30000, some 2000, none, some 61, some (33, 50), 1⟩ := by decide +kernel
  exact ⟨by rw [hrow]; rfl, learned_exactly (.of_after (by decide +kernel)) hrow⟩

end MapADroid.Mons
