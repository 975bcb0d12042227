import MapADroid.Mons.Submit

/- The mons whose IVs are to be found out (`PokemonHelper.get_to_be_encountered`).

   A mon of the query counts if its kind is on the list of the area and it is in the
   geofence, and its priority is the position of its kind on the list. The list is walked
   as it is, so a mon is returned once for every position its kind has: at most once
   where no kind is listed twice (`encounters_nodup`). -/
namespace MapADroid.Mons
open Stats

/-- The query; `now` and `later` are its two reads of the clock. -/
def withoutIvs (minTimeLeftSeconds : Int) (now later : ℚ) (rows : List Pokemon) : List Pokemon :=
  (rows.filter fun pokemon =>
    pokemon.ivs.individualAttack.isNone && pokemon.ivs.individualDefense.isNone &&
      pokemon.ivs.individualStamina.isNone && pokemon.encounterId ≠ 0 && pokemon.seenType ≠ .nearbyCell &&
      now + minTimeLeftSeconds ≤ pokemon.disappearTime && pokemon.disappearTime ≤ later + 3600).mergeSort
    fun a b => a.disappearTime ≤ b.disappearTime

/-- `next_to_encounter`: mons on the list and in the geofence. The coordinates of a row are never NULL. -/
def nextToEncounter (inside : Option (Location ℚ → Bool)) (eligibleMonIds : List Int) (mons : List Pokemon) :
    List Pokemon :=
  mons.filter fun pokemon =>
    eligibleMonIds.contains pokemon.identity.pokemonId && inside.all fun isInside => isInside pokemon.location

/-- `get_to_be_encountered`: priority, location and encounter of each mon; `inside` is that of the geofence helper,
if there is one. -/
def getToBeEncountered (inside : Option (Location ℚ → Bool)) (minTimeLeftSeconds : Option Int)
    (eligibleMonIds : Option (List Int)) (now later : ℚ) (rows : List Pokemon) : List (Nat × Location ℚ × Int) :=
  match minTimeLeftSeconds, eligibleMonIds with
  | some seconds, some monIds =>
    let mons := nextToEncounter inside monIds (withoutIvs seconds now later rows)
    monIds.zipIdx.flatMap fun monPrio =>
      (mons.filter fun mon => monPrio.1 = mon.identity.pokemonId).map fun mon =>
        (monPrio.2, mon.location, mon.encounterId)
  | _, _ => []

/-- Mons of different kinds that are distinct by their encounters have different encounters. -/
theorem nodup_flatMap_kinds {mons : List Pokemon} (hmons : (mons.map Pokemon.encounterId).Nodup) {monIds : List Int}
    (hids : monIds.Nodup) :
    (monIds.flatMap fun monPrio =>
      (mons.filter fun mon => monPrio = mon.identity.pokemonId).map Pokemon.encounterId).Nodup := by
  rw [List.nodup_flatMap]
  refine ⟨fun monPrio _ => hmons.sublist (List.filter_sublist.map _), ?_⟩
  refine hids.imp fun {a b} hne => ?_
  intro encounter ha hb
  obtain ⟨mon, hmon, rfl⟩ := List.mem_map.mp ha
  obtain ⟨mon', hmon', hsame⟩ := List.mem_map.mp hb
  rw [List.mem_filter, decide_eq_true_eq] at hmon hmon'
  have heq : mon' = mon := List.inj_on_of_nodup_map hmons hmon'.1 hmon.1 hsame
  rw [heq] at hmon'
  exact hne (hmon.2.trans hmon'.2.symm)

/-- The encounters returned, one position of the list after the other. -/
theorem encounters_eq (inside : Option (Location ℚ → Bool)) (seconds : Int) (monIds : List Int) (now later : ℚ)
    (rows : List Pokemon) :
    (getToBeEncountered inside (some seconds) (some monIds) now later rows).map (·.2.2) =
      monIds.flatMap fun monPrio => ((nextToEncounter inside monIds (withoutIvs seconds now later rows)).filter
        fun mon => monPrio = mon.identity.pokemonId).map Pokemon.encounterId := by
  unfold getToBeEncountered
  simp only
  generalize nextToEncounter inside monIds (withoutIvs seconds now later rows) = mons
  have hfst : monIds.zipIdx.map Prod.fst = monIds := List.zipIdx_map_fst 0 monIds
  conv_rhs => rw [← hfst, List.flatMap_map]
  rw [List.map_flatMap]
  simp only [List.map_map]
  rfl

/-- With no kind twice on the list, no encounter is returned twice. -/
theorem encounters_nodup {rows : List Pokemon} (hrows : (rows.map Pokemon.encounterId).Nodup)
    (inside : Option (Location ℚ → Bool)) (minTimeLeftSeconds : Option Int) {monIds : List Int} (hids : monIds.Nodup)
    (now later : ℚ) :
    ((getToBeEncountered inside minTimeLeftSeconds (some monIds) now later rows).map (·.2.2)).Nodup := by
  cases minTimeLeftSeconds with
  | none => exact List.nodup_nil
  | some seconds =>
    rw [encounters_eq]
    refine nodup_flatMap_kinds ?_ hids
    have hquery : ((withoutIvs seconds now later rows).map Pokemon.encounterId).Nodup := by
      unfold withoutIvs
      rw [((List.mergeSort_perm _ _).map _).nodup_iff]
      exact hrows.sublist (List.filter_sublist.map _)
    exact hquery.sublist (List.filter_sublist.map _)

end MapADroid.Mons
