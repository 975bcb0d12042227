import MapADroid.MappingManager.Readers
import MapADroid.Mons.Encounters
import MapADroid.Worker.WalkerValue

/- The IV list of an area.

   An area takes the mons of its list, and after them, if it is for all mons, every id of
   `pokemon.json` that is not on the list. The ids of the file are texts and those of the
   list numbers, so that none of them is ever found on the list: an id that is configured
   stands on the list of the area twice (`areamons_iff`). -/
namespace MapADroid.MappingManager
open Lib

/-- A number and a text of Python, which are never equal. -/
inductive Value where
  | int (n : Int)
  | str (s : String)
  deriving DecidableEq

/-- The loop over `get_mon_ids`; `none` where `int` raises. -/
def appendMonIds (int : String → Option Int) (monIds : List String) (monList : List Int) : Option (List Int) :=
  monIds.foldlM (fun monList monId =>
    if (monList.map Value.int).contains (.str monId) then some monList
    else (int monId).map fun n => monList ++ [n]) monList

/-- The list of one area; `monlist` is the list it names, none if there is no such list. -/
def areaMonList (int : String → Option Int) (monIds : List String) (monlist : Option (List Int)) (allMons : Bool) :
    Option (List Int) :=
  if allMons then appendMonIds int monIds (monlist.getD []) else some (monlist.getD [])

/-- A list for an area for all mons: the mons configured come first, each mon known is there once, and there are
no others. -/
structure Lists (configured known monList : List Int) : Prop where
  first : configured <+: monList
  once : ∀ n ∈ known, monList.count n = 1
  only : ∀ n ∈ monList, n ∈ configured ∨ n ∈ known

variable {int : String → Option Int} {monIds : List String} {known : List Int}

/-- No id of the file is found on the list. -/
theorem contains_str (monList : List Int) (monId : String) :
    (monList.map Value.int).contains (.str monId) = false := by
  rw [List.contains_eq_mem, decide_eq_false_iff_not]
  intro h
  obtain ⟨n, _, hn⟩ := List.mem_map.mp h
  cases hn

theorem appendMonIds_eq (hknown : monIds.mapM int = some known) (monList : List Int) :
    appendMonIds int monIds monList = some (monList ++ known) := by
  unfold appendMonIds
  induction monIds generalizing known monList with
  | nil =>
    rw [List.mapM_nil] at hknown
    cases hknown
    rw [List.append_nil]
    rfl
  | cons monId monIds ih =>
    rw [List.mapM_cons] at hknown
    obtain ⟨n, hn, hbind⟩ := Option.bind_eq_some_iff.mp hknown
    obtain ⟨rest, hrest, hcons⟩ := Option.bind_eq_some_iff.mp hbind
    cases hcons
    rw [List.foldlM_cons, contains_str, hn]
    show List.foldlM _ (monList ++ [n]) monIds = _
    rw [ih hrest, List.append_assoc]
    rfl

theorem areaMonList_eq (hknown : monIds.mapM int = some known) (monlist : Option (List Int)) (allMons : Bool) :
    areaMonList int monIds monlist allMons = some (monlist.getD [] ++ if allMons then known else []) := by
  unfold areaMonList
  cases allMons with
  | true => exact appendMonIds_eq hknown _
  | false => exact congrArg some (List.append_nil _).symm

/-- The reader puts this list down for each area, the ids of the file being those of the setup. -/
theorem getLatestAreamons_eq {F : Type} {setup : Setup F} (hknown : monIds.mapM int = some setup.monIds)
    (fails : Nat → Bool) (monlists : Dict Int (List Int)) (areas : Dict Int AreaEntry) :
    getLatestAreamons setup fails monlists areas = areas.items.foldlM (fun areamons i => do
      let monList := areaMonList int monIds (i.2.settings.monlistId.bind monlists.get?) i.2.settings.allMons
      if i.2.settings.allMons then
        let _ ← query fails setup.monIds
        pure (areamons.insert i.1 (monList.getD []))
      else pure (areamons.insert i.1 (monList.getD []))) Dict.empty := by
  unfold getLatestAreamons
  congr 1
  funext areamons i
  cases hall : i.2.settings.allMons with
  | true =>
    simp only [areaMonList_eq hknown, if_true, Option.getD_some]
    funext n
    simp only [bind, StateT.bind, query]
    cases fails n with
    | true => rfl
    | false => rfl
  | false => simp only [areaMonList_eq hknown, Bool.false_eq_true, if_false, Option.getD_some, List.append_nil]

/-- The known mons are on the list once each exactly if none of them is configured. -/
theorem lists_append_iff {configured : List Int} (hdistinct : known.Nodup) :
    Lists configured known (configured ++ known) ↔ ∀ n ∈ configured, n ∉ known := by
  constructor
  · intro h n hn hmem
    have honce := h.once n hmem
    rw [List.count_append, List.count_eq_one_of_mem hdistinct hmem] at honce
    have hpos := List.count_pos_iff.mpr hn
    omega
  · intro h
    refine ⟨List.prefix_append _ _, fun n hn => ?_, fun n hn => List.mem_append.mp hn⟩
    have hnone : n ∉ configured := fun hmem => h n hmem hn
    rw [List.count_append, List.count_eq_zero_of_not_mem hnone, List.count_eq_one_of_mem hdistinct hn]

/-- The list of an area for all mons is as it should be, and no mon on it is returned twice as one to be
encountered, exactly if no mon that is known is configured. -/
theorem areamons_iff (hknown : monIds.mapM int = some known) (hdistinct : known.Nodup) {monlist : Option (List Int)}
    (hmonlist : (monlist.getD []).Nodup) :
    (∃ monList, areaMonList int monIds monlist true = some monList ∧ Lists (monlist.getD []) known monList ∧
      ∀ inside seconds now later rows, (rows.map Mons.Pokemon.encounterId).Nodup →
        ((Mons.getToBeEncountered inside seconds (some monList) now later rows).map (·.2.2)).Nodup) ↔
      ∀ n ∈ monlist.getD [], n ∉ known := by
  rw [areaMonList_eq hknown]
  constructor
  · rintro ⟨monList, heq, hlists, _⟩
    cases heq
    exact (lists_append_iff hdistinct).mp hlists
  · intro h
    refine ⟨_, rfl, (lists_append_iff hdistinct).mpr h, fun inside seconds now later rows hrows => ?_⟩
    refine Mons.encounters_nodup hrows inside seconds ?_ now later
    rw [if_pos rfl, List.nodup_append]
    exact ⟨hmonlist, hdistinct, fun a ha b hb hab => h a ha (hab ▸ hb)⟩

/-- What `int` reads of a text of ASCII. -/
def asciiInt (s : String) : Option Int := Worker.ascii.int s.toList

theorem areamons_iff_unlisted : ∃ monList, areaMonList asciiInt ["1", "4", "7"] none true = some monList ∧
    Lists [] [1, 4, 7] monList ∧
      ∀ inside seconds now later rows, (rows.map Mons.Pokemon.encounterId).Nodup →
        ((Mons.getToBeEncountered inside seconds (some monList) now later rows).map (·.2.2)).Nodup :=
  (areamons_iff (by decide) (by decide) (by decide)).mpr (by decide)

/-- A mon is configured that the file has: it is on the list twice. -/
theorem configured_twice : ¬ ∀ (int : String → Option Int) (monIds : List String) (known : List Int)
    (monlist : Option (List Int)), monIds.mapM int = some known → known.Nodup → (monlist.getD []).Nodup →
    ∃ monList, areaMonList int monIds monlist true = some monList ∧ Lists (monlist.getD []) known monList ∧
      ∀ inside seconds now later rows, (rows.map Mons.Pokemon.encounterId).Nodup →
        ((Mons.getToBeEncountered inside seconds (some monList) now later rows).map (·.2.2)).Nodup := by
  intro h
  obtain ⟨monList, heq, hlists, _⟩ := h asciiInt ["1", "4", "7"] [1, 4, 7] (some [4]) (by decide) (by decide) (by decide)
  have hlist : areaMonList asciiInt ["1", "4", "7"] (some [4]) true = some [4, 1, 4, 7] := by decide
  rw [hlist] at heq
  cases heq
  exact absurd (hlists.once 4 (by decide)) (by decide)

end MapADroid.MappingManager
