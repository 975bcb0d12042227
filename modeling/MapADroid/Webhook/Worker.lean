import MapADroid.Stats.SeenTypes

/- The webhook worker: what a pass of its loop reads, and the payload it makes of it.

   The types of changes are read one after another, the mons last. An exception ends the
   reading, and the payload has what was read before (`collect`). So the payload has, of all
   changes since the last check outside the excluded areas, those of a type some receiver
   subscribes to that are read before an exception (`createPayload_eq`).

   Of the other types only what is made of their changes is looked at, and what a message on
   a mon copies of its row, its spawnpoint and its display is one value (`columns`). -/
namespace MapADroid.Webhook
open Stats (MonSeenTypes)

/-- `__valid_types`. -/
inductive WebhookType where
  | pokemon | raid | weather | quest | gym | pokestop
  deriving DecidableEq, Repr

/-- `__valid_mon_types`. -/
def validMonTypes : List MonSeenTypes :=
  [.encounter, .wild, .nearbyStop, .nearbyCell, .lureWild, .lureEncounter]

section
variable (L C S D : Type)

/-- A row of `pokemon`, with the pokestop its `fort_id` names. -/
structure Pokemon where
  encounterId : Int
  location : L
  lastModified : Int
  seenType : MonSeenTypes
  spawnVerified : Bool
  stop : Option S
  columns : C
  deriving DecidableEq, Repr

/-- The table, `encounter_id` its primary key. -/
structure PokemonTable where
  rows : List (Pokemon L C S)
  nodup : (rows.map Pokemon.encounterId).Nodup

/-- The message of `__prepare_mon_data`; `stop` is there for mons at pokestops alone. -/
structure MonPayload where
  encounterId : Int
  location : L
  seenType : MonSeenTypes
  verified : Bool
  stop : Option (Option S)
  columns : C
  deriving DecidableEq, Repr

inductive Message where
  | mon (message : MonPayload L C S)
  | other (type : WebhookType) (message : D)
  deriving DecidableEq, Repr

/-- What the queries of a pass find, `none` where one raises. -/
structure Reads where
  changedSince : WebhookType → Int → Option (List D)
  mons : Option (List (Pokemon L C S))

end

variable {L C S D : Type}

/-- The sets `__build_webhook_receivers` fills, and `__is_in_excluded_area`. -/
structure Subscriptions (L : Type) where
  webhookTypes : List WebhookType
  pokemonTypes : List MonSeenTypes
  isInExcludedArea : L → Bool

/-! ## Mons -/

/-- The types whose message has a pokestop. -/
def stopTypes : List MonSeenTypes := [.nearbyStop, .lureWild, .lureEncounter]

/-- `PokemonHelper.get_changed_since`: the pokestops are joined for the types that have one.
The filter of the caller compares the text of a seen type with a number, and drops none. -/
def getChangedSince (timestamp : Int) (monTypes : List MonSeenTypes) (rows : List (Pokemon L C S)) :
    List (Pokemon L C S) :=
  let monTypes := if monTypes = [] then [.encounter, .lureEncounter] else monTypes
  let found := rows.filter fun mon => timestamp ≤ mon.lastModified ∧ mon.seenType ∈ monTypes
  if ∃ type ∈ stopTypes, type ∈ monTypes then found else found.map fun mon => { mon with stop := none }

def MonPayload.of (mon : Pokemon L C S) : MonPayload L C S where
  encounterId := mon.encounterId
  location := mon.location
  seenType := mon.seenType
  verified := match mon.seenType with
    | .nearbyStop | .nearbyCell => false
    | .lureWild | .lureEncounter => true
    | _ => mon.spawnVerified
  stop := if mon.seenType ∈ stopTypes then some mon.stop else none
  columns := mon.columns

/-- `__prepare_mon_data`. -/
def prepareMonData (isInExcludedArea : L → Bool) (mons : List (Pokemon L C S)) :
    List (MonPayload L C S) :=
  (mons.filter fun mon => !isInExcludedArea mon.location).map MonPayload.of

/-- Without its pokestop, a mon of another type gives the same message. -/
theorem MonPayload.of_without_stop {mon : Pokemon L C S} (h : mon.seenType ∉ stopTypes) :
    MonPayload.of { mon with stop := none } = MonPayload.of mon := by
  simp only [MonPayload.of, if_neg h]

/-- The messages on the mons, whether or not the pokestops were joined. -/
theorem prepare_getChangedSince {monTypes : List MonSeenTypes} (h : monTypes ≠ [])
    (isInExcludedArea : L → Bool) (timestamp : Int) (rows : List (Pokemon L C S)) :
    prepareMonData isInExcludedArea (getChangedSince timestamp monTypes rows) =
      (rows.filter fun mon => (timestamp ≤ mon.lastModified ∧ mon.seenType ∈ monTypes) ∧
        isInExcludedArea mon.location = false).map MonPayload.of := by
  unfold prepareMonData getChangedSince
  simp only [if_neg h]
  split
  · rw [List.filter_filter]
    simp [Bool.and_comm]
  · next hstop =>
    rw [List.filter_map, List.map_map, List.filter_filter]
    have hfilter : (fun mon : Pokemon L C S => (fun mon : Pokemon L C S => !isInExcludedArea mon.location)
          { mon with stop := none } && decide (timestamp ≤ mon.lastModified ∧ mon.seenType ∈ monTypes)) =
        fun mon => decide ((timestamp ≤ mon.lastModified ∧ mon.seenType ∈ monTypes) ∧
          isInExcludedArea mon.location = false) := by
      funext mon
      simp [Bool.and_comm]
    simp only [Function.comp_def]
    rw [hfilter]
    apply List.map_congr_left
    intro mon hmon
    have hfound : (timestamp ≤ mon.lastModified ∧ mon.seenType ∈ monTypes) ∧
        isInExcludedArea mon.location = false := by
      simpa using (List.mem_filter.mp hmon).2
    apply MonPayload.of_without_stop
    intro hmem
    exact hstop ⟨_, hmem, hfound.1.2⟩

/-! ## The payload -/

def Message.type : Message L C S D → WebhookType
  | .mon _ => .pokemon
  | .other type _ => type

/-- `payload["message"].get("seen_type")`. -/
def Message.seenType : Message L C S D → Option MonSeenTypes
  | .mon message => some message.seenType
  | .other _ _ => none

/-- What the steps add until one of them raises. -/
def collect {α : Type} : List (Option (List α)) → List α
  | [] => []
  | none :: _ => []
  | some l :: steps => l ++ collect steps

/-- The order in which `__create_payload` reads the types. -/
def fetchOrder : List WebhookType := [.raid, .quest, .weather, .gym, .pokestop, .pokemon]

/-- The condition of a step: the mons are read if there is any type of mons to read. -/
def subscribed (subs : Subscriptions L) : WebhookType → Bool
  | .pokemon => subs.pokemonTypes ≠ []
  | type => type ∈ subs.webhookTypes

/-- What a step adds. -/
def fetch (subs : Subscriptions L) (lastCheck : Int) (reads : Reads L C S D) :
    WebhookType → Option (List (Message L C S D))
  | .pokemon => reads.mons.map fun rows => (prepareMonData subs.isInExcludedArea
      (getChangedSince lastCheck subs.pokemonTypes rows)).map .mon
  | type => (reads.changedSince type lastCheck).map fun l => l.map (.other type)

/-- `__create_payload`. -/
def createPayload (subs : Subscriptions L) (lastCheck : Int) (reads : Reads L C S D) :
    List (Message L C S D) := collect ((fetchOrder.filter (subscribed subs)).map (fetch subs lastCheck reads))

/-- No step before that of the type raises. -/
def Reached (subs : Subscriptions L) (lastCheck : Int) (reads : Reads L C S D) (type : WebhookType) : Prop :=
  ∀ before ∈ fetchOrder.takeWhile (· ≠ type), subscribed subs before →
    (fetch subs lastCheck reads before).isSome

/-- All changes since the last check outside the excluded areas, as far as they can be read. -/
def changes (isInExcludedArea : L → Bool) (lastCheck : Int) (reads : Reads L C S D) :
    List (Message L C S D) :=
  fetchOrder.flatMap fun type => (fetch ⟨[], validMonTypes, isInExcludedArea⟩ lastCheck reads type).getD []

/-- A change that is read. -/
def Fetched (subs : Subscriptions L) (lastCheck : Int) (reads : Reads L C S D)
    (message : Message L C S D) : Prop :=
  subscribed subs message.type ∧ (∀ type ∈ message.seenType, type ∈ subs.pokemonTypes) ∧
    Reached subs lastCheck reads message.type

instance (subs : Subscriptions L) (lastCheck : Int) (reads : Reads L C S D) (type : WebhookType) :
    Decidable (Reached subs lastCheck reads type) :=
  inferInstanceAs (Decidable (∀ before ∈ fetchOrder.takeWhile (· ≠ type), _ → _))

instance (subs : Subscriptions L) (lastCheck : Int) (reads : Reads L C S D) (message : Message L C S D) :
    Decidable (Fetched subs lastCheck reads message) := inferInstanceAs (Decidable (_ ∧ _ ∧ _))

/-- The steps that are taken, each with what it adds if none before it raises. -/
theorem collect_filter_map {τ α : Type} [DecidableEq τ] (taken : τ → Bool) (f : τ → Option (List α))
    {types : List τ} (hnodup : types.Nodup) :
    collect ((types.filter taken).map f) = types.flatMap fun type =>
      if taken type ∧ ∀ before ∈ types.takeWhile (· ≠ type), taken before → (f before).isSome
        then (f type).getD [] else [] := by
  induction types with
  | nil => rfl
  | cons t types ih =>
    obtain ⟨ht, hnodup⟩ := List.nodup_cons.mp hnodup
    have hrest : ∀ type ∈ types, (t :: types).takeWhile (· ≠ type) = t :: types.takeWhile (· ≠ type) := by
      intro type htype
      have hne : t ≠ type := fun h => ht (h ▸ htype)
      simp [hne]
    have hfirst : (t :: types).takeWhile (· ≠ t) = [] := by simp
    rw [List.flatMap_cons, hfirst]
    by_cases htaken : taken t
    · rw [List.filter_cons_of_pos htaken, List.map_cons]
      cases hf : f t with
      | none =>
        have hnothing : ∀ type ∈ types, (if taken type ∧
            ∀ before ∈ (t :: types).takeWhile (· ≠ type), taken before → (f before).isSome
              then (f type).getD [] else []) = [] := by
          intro type htype
          rw [if_neg]
          intro h
          have hsome := h.2 t (by rw [hrest type htype]; simp) htaken
          rw [hf] at hsome
          cases hsome
        rw [List.flatMap_congr hnothing]
        simp [collect]
      | some l =>
        rw [collect, ih hnodup]
        simp only [htaken, List.not_mem_nil, false_implies, implies_true, and_self, if_true, Option.getD_some]
        congr 1
        apply List.flatMap_congr
        intro type htype
        rw [hrest type htype]
        simp [hf]
    · rw [List.filter_cons_of_neg htaken, ih hnodup]
      simp only [htaken]
      simp only [Bool.false_eq_true, false_and, if_false, List.nil_append]
      apply List.flatMap_congr
      intro type htype
      rw [hrest type htype]
      simp [htaken]

/-- The steps before that of the mons. -/
theorem fetch_other {type : WebhookType} (h : type ≠ .pokemon) (subs : Subscriptions L) (lastCheck : Int)
    (reads : Reads L C S D) : fetch subs lastCheck reads type =
      (reads.changedSince type lastCheck).map fun l => l.map (.other type) := by
  cases type with
  | pokemon => exact absurd rfl h
  | _ => rfl

theorem mem_validMonTypes (seenType : MonSeenTypes) : seenType ∈ validMonTypes := by
  cases seenType <;> decide

/-- The step of the mons. -/
theorem fetch_pokemon {subs : Subscriptions L} (h : subs.pokemonTypes ≠ []) (lastCheck : Int)
    (reads : Reads L C S D) : fetch subs lastCheck reads .pokemon = reads.mons.map fun rows =>
      (rows.filter fun mon => (lastCheck ≤ mon.lastModified ∧ mon.seenType ∈ subs.pokemonTypes) ∧
        subs.isInExcludedArea mon.location = false).map fun mon => .mon (MonPayload.of mon) := by
  simp only [fetch, prepare_getChangedSince h, List.map_map, Function.comp_def]

/-- What a step adds is what it can read of the types of mons that are subscribed to. -/
theorem fetch_eq_filter {subs : Subscriptions L} {lastCheck : Int} {reads : Reads L C S D}
    {type : WebhookType} (h : subscribed subs type) :
    (fetch subs lastCheck reads type).getD [] =
      ((fetch ⟨[], validMonTypes, subs.isInExcludedArea⟩ lastCheck reads type).getD []).filter
        fun message => ∀ seenType ∈ message.seenType, seenType ∈ subs.pokemonTypes := by
  by_cases htype : type = .pokemon
  · subst htype
    have hsome : subs.pokemonTypes ≠ [] := by simpa [subscribed] using h
    rw [fetch_pokemon hsome, fetch_pokemon (by simp [validMonTypes])]
    cases reads.mons with
    | none => rfl
    | some rows =>
      rw [Option.map_some, Option.map_some, Option.getD_some, Option.getD_some, List.filter_map,
        List.filter_filter]
      congr 1
      apply List.filter_congr
      intro mon _
      simp only [mem_validMonTypes, and_true, Function.comp_apply, Message.seenType, MonPayload.of,
        Option.mem_some_iff, forall_eq', ← Bool.decide_and]
      congr 1
      exact propext ⟨fun h => ⟨h.1.2, h.1.1, h.2⟩, fun h => ⟨⟨h.2.1, h.1⟩, h.2.2⟩⟩
  · rw [fetch_other htype, fetch_other htype]
    cases reads.changedSince type lastCheck with
    | none => rfl
    | some l =>
      symm
      apply List.filter_eq_self.mpr
      intro message hmessage
      obtain ⟨d, _, rfl⟩ := List.mem_map.mp hmessage
      simp [Message.seenType]

/-- A message of the step of the mons is on a mon. -/
theorem mon_of_mem_fetch {subs : Subscriptions L} {lastCheck : Int} {reads : Reads L C S D}
    {message : Message L C S D} (h : message ∈ (fetch subs lastCheck reads .pokemon).getD []) :
    ∃ p, message = .mon p := by
  rw [fetch] at h
  cases hmons : reads.mons with
  | none => simp [hmons] at h
  | some rows =>
    rw [hmons, Option.map_some, Option.getD_some] at h
    obtain ⟨p, _, rfl⟩ := List.mem_map.mp h
    exact ⟨p, rfl⟩

/-- A message of a step is on a change of its type. -/
theorem type_of_mem_fetch {subs : Subscriptions L} {lastCheck : Int} {reads : Reads L C S D}
    {type : WebhookType} {message : Message L C S D}
    (h : message ∈ (fetch subs lastCheck reads type).getD []) : message.type = type := by
  by_cases htype : type = .pokemon
  · subst htype
    obtain ⟨p, rfl⟩ := mon_of_mem_fetch h
    rfl
  · rw [fetch_other htype] at h
    cases hchanged : reads.changedSince type lastCheck with
    | none => simp [hchanged] at h
    | some l =>
      rw [hchanged, Option.map_some, Option.getD_some] at h
      obtain ⟨d, _, rfl⟩ := List.mem_map.mp h
      rfl

/-- The payload has the changes that are read, in their order. -/
theorem createPayload_eq (subs : Subscriptions L) (lastCheck : Int) (reads : Reads L C S D) :
    createPayload subs lastCheck reads =
      (changes subs.isInExcludedArea lastCheck reads).filter (Fetched subs lastCheck reads) := by
  rw [createPayload, collect_filter_map _ _ (by decide), changes, List.filter_flatMap]
  apply List.flatMap_congr
  intro type _
  split
  · next h =>
    rw [fetch_eq_filter h.1]
    apply List.filter_congr
    intro message hmessage
    have htype := type_of_mem_fetch hmessage
    have hreached : Reached subs lastCheck reads type := h.2
    simp [Fetched, htype, h.1, hreached]
  · next h =>
    symm
    apply List.filter_eq_nil_iff.mpr
    intro message hmessage hfetched
    have htype := type_of_mem_fetch hmessage
    obtain ⟨hsubscribed, _, hreached⟩ := of_decide_eq_true hfetched
    rw [htype] at hsubscribed hreached
    exact h ⟨hsubscribed, hreached⟩

theorem mon_mem_changes {isInExcludedArea : L → Bool} {lastCheck : Int} {reads : Reads L C S D}
    {rows : List (Pokemon L C S)} (hmons : reads.mons = some rows) {message : MonPayload L C S} :
    .mon message ∈ changes isInExcludedArea lastCheck reads ↔ ∃ mon ∈ rows,
      lastCheck ≤ mon.lastModified ∧ isInExcludedArea mon.location = false ∧ MonPayload.of mon = message := by
  have hall : (⟨[], validMonTypes, isInExcludedArea⟩ : Subscriptions L).pokemonTypes ≠ [] := by
    simp [validMonTypes]
  have hfetch := fetch_pokemon hall lastCheck reads
  rw [changes, List.mem_flatMap]
  constructor
  · intro h
    obtain ⟨type, _, hmem⟩ := h
    obtain rfl : WebhookType.pokemon = type := type_of_mem_fetch hmem
    rw [hfetch, hmons, Option.map_some, Option.getD_some] at hmem
    obtain ⟨mon, hmon, heq⟩ := List.mem_map.mp hmem
    obtain ⟨hrow, hfound⟩ := List.mem_filter.mp hmon
    obtain ⟨⟨hsince, _⟩, hexcluded⟩ := of_decide_eq_true hfound
    exact ⟨mon, hrow, hsince, hexcluded, Message.mon.inj heq⟩
  · intro h
    obtain ⟨mon, hrow, hsince, hexcluded, heq⟩ := h
    refine ⟨.pokemon, by decide, ?_⟩
    rw [hfetch, hmons, Option.map_some, Option.getD_some, ← heq]
    apply List.mem_map_of_mem
    exact List.mem_filter.mpr ⟨hrow, by simp [hsince, hexcluded, mem_validMonTypes]⟩

/-- The mons in a payload. -/
theorem mon_mem_createPayload {subs : Subscriptions L} {lastCheck : Int} {reads : Reads L C S D}
    {rows : List (Pokemon L C S)} (hmons : reads.mons = some rows)
    (hreached : Reached subs lastCheck reads .pokemon) {message : MonPayload L C S} :
    .mon message ∈ createPayload subs lastCheck reads ↔
      ∃ mon ∈ rows, lastCheck ≤ mon.lastModified ∧ mon.seenType ∈ subs.pokemonTypes ∧
        subs.isInExcludedArea mon.location = false ∧ MonPayload.of mon = message := by
  rw [createPayload_eq, List.mem_filter, mon_mem_changes hmons]
  constructor
  · intro h
    obtain ⟨⟨mon, hrow, hsince, hexcluded, rfl⟩, hfetched⟩ := h
    obtain ⟨_, htypes, _⟩ := of_decide_eq_true hfetched
    exact ⟨mon, hrow, hsince, htypes mon.seenType rfl, hexcluded, rfl⟩
  · intro h
    obtain ⟨mon, hrow, hsince, htype, hexcluded, rfl⟩ := h
    have hsubscribed : subscribed subs .pokemon = true := by
      simpa [subscribed] using List.ne_nil_of_mem htype
    have htypes : ∀ type ∈ Message.seenType (.mon (MonPayload.of mon) : Message L C S D),
        type ∈ subs.pokemonTypes := by
      intro type h
      rwa [← Option.some.inj h]
    exact ⟨⟨mon, hrow, hsince, hexcluded, rfl⟩, decide_eq_true ⟨hsubscribed, htypes, hreached⟩⟩

end MapADroid.Webhook
