import MapADroid.Lib.Chunks
import MapADroid.Webhook.Worker

/- The receivers of webhooks: their filters, and what is sent to each.

   What is read is what any receiver subscribes to, and a receiver gets the messages its
   filter lets through. The filter `pokemon` lets every mon through, so its receiver gets
   the types of mons that others subscribe to (`sent_eq_iff`). -/
namespace MapADroid.Webhook
open Lib
open Stats (MonSeenTypes)

variable {L C S D : Type}

/-! ## The configuration -/

structure Receiver where
  url : String
  types : Option (List String)
  deriving DecidableEq, Repr

def WebhookType.name : WebhookType → String
  | .pokemon => "pokemon"
  | .raid => "raid"
  | .weather => "weather"
  | .quest => "quest"
  | .gym => "gym"
  | .pokestop => "pokestop"

def monTypeName : MonSeenTypes → String
  | .wild => "wild"
  | .encounter => "encounter"
  | .lureEncounter => "lure_encounter"
  | .lureWild => "lure_wild"
  | .nearbyStop => "nearby_stop"
  | .nearbyCell => "nearby_cell"

/-- `__valid_types`. -/
def validTypes : List WebhookType := [.pokemon, .raid, .weather, .quest, .gym, .pokestop]

section
variable (space : Char → Bool)

/-- `str.strip`. -/
def strip (l : List Char) : List Char := ((l.dropWhile space).reverse.dropWhile space).reverse

/-- `str.replace(" ", "")`. -/
def withoutBlanks (l : List Char) : String := .ofList (l.filter (· ≠ ' '))

/-- An entry of `webhook_url`; `none` where the bracket is not closed (`ValueError`). -/
def receiver (webhook : List Char) : Option Receiver :=
  match strip space webhook with
  | '[' :: url =>
    if ']' ∈ url then
      let rawSubTypes := strip space (url.takeWhile (· ≠ ']'))
      let subTypes := (rawSubTypes.splitOn ' ').map withoutBlanks
      some ⟨withoutBlanks ((url.dropWhile (· ≠ ']')).drop 1),
        some (if "pokemon" ∈ subTypes then subTypes ++ ["encounter"] else subTypes)⟩
    else none
  | url => some ⟨withoutBlanks url, none⟩

/-- `__build_webhook_receivers`. -/
def buildWebhookReceivers (webhookUrl : String) : Option (List Receiver) :=
  (webhookUrl.toList.splitOn ',').mapM (receiver space)

end

/-- A name is in the filter, or there is none. -/
def Receiver.has (r : Receiver) (name : String) : Bool := r.types.all fun types => name ∈ types

/-- The sets of `__build_webhook_receivers`. -/
def subscriptions (isInExcludedArea : L → Bool) (receivers : List Receiver) : Subscriptions L where
  webhookTypes := validTypes.filter fun type => receivers.any fun r => r.has type.name
  pokemonTypes := validMonTypes.filter fun type => receivers.any fun r => r.has (monTypeName type)
  isInExcludedArea := isInExcludedArea

/-! ## Sending -/

/-- The test of `__send_webhook`. -/
def Receiver.accepts (r : Receiver) (message : Message L C S D) : Bool :=
  r.has message.type.name || message.seenType.any fun type => r.has (monTypeName type)

/-- `__payload_chunk`. -/
def payloadChunk {α : Type} (size : Int) (payload : List α) : List (List α) :=
  if size = 0 then [payload] else if size < 0 then [] else chunks size.toNat payload

/-- The part of `__send_webhook` that is about one receiver: what is posted. -/
def payloadList (size : Int) (payloads : List (Message L C S D)) (r : Receiver) :
    List (List (Message L C S D)) :=
  let payloadToSend := payloads.filter r.accepts
  if payloadToSend = [] then [] else payloadChunk size payloadToSend

/-- The sets the receivers of the configuration lead to. -/
def configured (space : Char → Bool) (isInExcludedArea : L → Bool) (webhookUrl : String) : Subscriptions L :=
  subscriptions isInExcludedArea ((buildWebhookReceivers space webhookUrl).getD [])

/-- `__send_webhook` of a round's payload: every receiver, with the chunks posted to it. -/
def sendWebhook (space : Char → Bool) (isInExcludedArea : L → Bool) (size lastCheck : Int)
    (reads : Reads L C S D) (webhookUrl : String) : List (Receiver × List (List (Message L C S D))) :=
  ((buildWebhookReceivers space webhookUrl).getD []).map fun r =>
    (r, payloadList size (createPayload (configured space isInExcludedArea webhookUrl) lastCheck reads) r)

theorem flatten_payloadChunk {α : Type} (size : Int) (payload : List α) :
    (payloadChunk size payload).flatten = if size < 0 then [] else payload := by
  unfold payloadChunk
  by_cases hzero : size = 0
  · simp [hzero]
  · rw [if_neg hzero]
    by_cases hneg : size < 0
    · simp [hneg]
    · rw [if_neg hneg, if_neg hneg, flatten_chunks]
      omega

theorem flatten_payloadList (size : Int) (payloads : List (Message L C S D)) (r : Receiver) :
    (payloadList size payloads r).flatten = if size < 0 then [] else payloads.filter r.accepts := by
  unfold payloadList
  by_cases h : payloads.filter r.accepts = []
  · simp [h]
  · simp only [if_neg h, flatten_payloadChunk]

theorem filter_eq_filter_iff {α : Type} {p q : α → Bool} {l : List α} :
    l.filter p = l.filter q ↔ ∀ a ∈ l, p a = q a := by
  refine ⟨?_, List.filter_congr⟩
  intro h a ha
  rw [Bool.eq_iff_iff]
  have hmem : a ∈ l.filter p ↔ a ∈ l.filter q := by rw [h]
  simpa [ha] using hmem

section
variable {space : Char → Bool} {isInExcludedArea : L → Bool} {size lastCheck : Int}
  {reads : Reads L C S D} {url url' : String} {r r' : Receiver}
  {posted posted' : List (List (Message L C S D))}

/-- What a receiver gets are the changes that are read and that its filter lets through. -/
theorem posted_flatten (hr : (r, posted) ∈ sendWebhook space isInExcludedArea size lastCheck reads url) :
    posted.flatten = if size < 0 then [] else (changes isInExcludedArea lastCheck reads).filter
      fun m => r.accepts m && decide (Fetched (configured space isInExcludedArea url) lastCheck reads m) := by
  obtain ⟨r, _, heq⟩ := List.mem_map.mp hr
  obtain ⟨rfl, rfl⟩ := Prod.mk.inj heq
  rw [flatten_payloadList, createPayload_eq, List.filter_filter]
  rfl

/-- A type in the filter of a receiver is one that is subscribed to. -/
theorem has_configured (hr : (r, posted) ∈ sendWebhook space isInExcludedArea size lastCheck reads url) :
    (∀ type : WebhookType, r.has type.name → type ∈ (configured space isInExcludedArea url).webhookTypes) ∧
      ∀ type, r.has (monTypeName type) → type ∈ (configured space isInExcludedArea url).pokemonTypes := by
  obtain ⟨r, hmem, heq⟩ := List.mem_map.mp hr
  obtain ⟨rfl, rfl⟩ := Prod.mk.inj heq
  constructor
  · intro type h
    apply List.mem_filter.mpr
    exact ⟨by cases type <;> decide, List.any_eq_true.mpr ⟨r, hmem, h⟩⟩
  · intro type h
    exact List.mem_filter.mpr ⟨mem_validMonTypes type, List.any_eq_true.mpr ⟨r, hmem, h⟩⟩

/-- Every query of the round is answered. -/
def Answered (lastCheck : Int) (reads : Reads L C S D) : Prop :=
  (∀ type, (reads.changedSince type lastCheck).isSome) ∧ reads.mons.isSome

/-- If every query is answered, what is read is what is subscribed to. -/
theorem fetched_iff (h : Answered lastCheck reads) {subs : Subscriptions L} {m : Message L C S D} :
    Fetched subs lastCheck reads m ↔
      subscribed subs m.type ∧ ∀ type ∈ m.seenType, type ∈ subs.pokemonTypes := by
  have hreached : Reached subs lastCheck reads m.type := by
    intro before _ _
    by_cases hbefore : before = .pokemon
    · rw [hbefore, fetch, Option.isSome_map]
      exact h.2
    · rw [fetch_other hbefore, Option.isSome_map]
      exact h.1 before
  simp [Fetched, hreached]

theorem subscribed_mon {subs : Subscriptions L} {p : MonPayload L C S} (h : p.seenType ∈ subs.pokemonTypes) :
    subscribed subs (Message.mon p : Message L C S D).type := by
  simpa [subscribed, Message.type] using List.ne_nil_of_mem h

theorem fetched_mon_iff (h : Answered lastCheck reads) {subs : Subscriptions L} {p : MonPayload L C S} :
    Fetched subs lastCheck reads (.mon p) ↔ p.seenType ∈ subs.pokemonTypes := by
  rw [fetched_iff h]
  constructor
  · intro hp
    exact hp.2 p.seenType rfl
  · intro hp
    refine ⟨subscribed_mon hp, ?_⟩
    intro type htype
    rwa [← Option.some.inj htype]

/-- The messages of a step of another type are on that type. -/
theorem subscribed_other {subs : Subscriptions L} {type : WebhookType} {d : D}
    (h : Message.other type d ∈ changes isInExcludedArea lastCheck reads) :
    subscribed subs type = decide (type ∈ subs.webhookTypes) := by
  cases type with
  | pokemon =>
    obtain ⟨type, _, hmem⟩ := List.mem_flatMap.mp h
    obtain rfl : WebhookType.pokemon = type := type_of_mem_fetch hmem
    obtain ⟨p, heq⟩ := mon_of_mem_fetch hmem
    cases heq
  | _ => rfl

/-- With every query answered, two configurations read the same of what a filter lets through unless
it is `pokemon` and a mon has a type that is subscribed to in only one of them. -/
theorem fetched_agree_iff (hanswered : Answered lastCheck reads)
    (hr : (r, posted) ∈ sendWebhook space isInExcludedArea size lastCheck reads url)
    (hr' : (r', posted') ∈ sendWebhook space isInExcludedArea size lastCheck reads url')
    (htypes : r.types = r'.types) :
    (∀ m ∈ changes isInExcludedArea lastCheck reads, r.accepts m →
      (Fetched (configured space isInExcludedArea url) lastCheck reads m ↔
        Fetched (configured space isInExcludedArea url') lastCheck reads m)) ↔
    (r.has "pokemon" → ∀ p, .mon p ∈ changes isInExcludedArea lastCheck reads →
      (p.seenType ∈ (configured space isInExcludedArea url).pokemonTypes ↔
        p.seenType ∈ (configured space isInExcludedArea url').pokemonTypes)) := by
  have hhas : ∀ name, r'.has name = r.has name := by
    intro name
    rw [Receiver.has, Receiver.has, htypes]
  obtain ⟨hkinds, hmons⟩ := has_configured hr
  obtain ⟨hkinds', hmons'⟩ := has_configured hr'
  constructor
  · intro h hpokemon p hp
    have hagree := h (.mon p) hp (by simp [Receiver.accepts, Message.type, WebhookType.name, hpokemon])
    rwa [fetched_mon_iff hanswered, fetched_mon_iff hanswered] at hagree
  · intro h m hm haccepts
    cases m with
    | mon p =>
      rw [fetched_mon_iff hanswered, fetched_mon_iff hanswered]
      by_cases hpokemon : r.has "pokemon"
      · exact h hpokemon p hm
      · have hname : r.has (monTypeName p.seenType) := by
          simpa [Receiver.accepts, Message.type, Message.seenType, WebhookType.name, hpokemon] using haccepts
        exact iff_of_true (hmons _ hname) (hmons' _ (hhas _ ▸ hname))
    | other type d =>
      have hname : r.has type.name := by
        simpa [Receiver.accepts, Message.type, Message.seenType] using haccepts
      rw [fetched_iff hanswered, fetched_iff hanswered, Message.type, subscribed_other hm, subscribed_other hm]
      simp [Message.seenType, hkinds _ hname, hkinds' _ (hhas _ ▸ hname)]

/-- Receivers with one filter, in two configurations: each gets a change at most once, and they get
the same exactly if, of what the filter lets through, the same is read. With every query
answered, it is unless the filter is `pokemon` and a mon has a type that is subscribed to in
only one of them. -/
theorem sent_eq_iff (hr : (r, posted) ∈ sendWebhook space isInExcludedArea size lastCheck reads url)
    (hr' : (r', posted') ∈ sendWebhook space isInExcludedArea size lastCheck reads url')
    (htypes : r.types = r'.types) :
    posted.flatten.Sublist (changes isInExcludedArea lastCheck reads) ∧
    (posted.flatten = posted'.flatten ↔
      size < 0 ∨ ∀ m ∈ changes isInExcludedArea lastCheck reads, r.accepts m →
        (Fetched (configured space isInExcludedArea url) lastCheck reads m ↔
          Fetched (configured space isInExcludedArea url') lastCheck reads m)) ∧
    (Answered lastCheck reads →
      (posted.flatten = posted'.flatten ↔
        size < 0 ∨ (r.has "pokemon" → ∀ p, .mon p ∈ changes isInExcludedArea lastCheck reads →
          (p.seenType ∈ (configured space isInExcludedArea url).pokemonTypes ↔
            p.seenType ∈ (configured space isInExcludedArea url').pokemonTypes)))) := by
  have heq : posted.flatten = posted'.flatten ↔
      size < 0 ∨ ∀ m ∈ changes isInExcludedArea lastCheck reads, r.accepts m →
        (Fetched (configured space isInExcludedArea url) lastCheck reads m ↔
          Fetched (configured space isInExcludedArea url') lastCheck reads m) := by
    have haccepts : (r'.accepts : Message L C S D → Bool) = r.accepts := by
      funext m
      simp only [Receiver.accepts, Receiver.has, htypes]
    rw [posted_flatten hr, posted_flatten hr', haccepts]
    by_cases hsize : size < 0
    · simp [hsize]
    · rw [if_neg hsize, if_neg hsize, filter_eq_filter_iff]
      constructor
      · intro h
        right
        intro m hm hm'
        simpa [hm'] using h m hm
      · intro h m hm
        have hagree := h.resolve_left hsize m hm
        cases hm' : r.accepts m with
        | false => rfl
        | true => simpa using hagree hm'
  refine ⟨?_, heq, ?_⟩
  · rw [posted_flatten hr]
    split
    · exact List.nil_sublist _
    · exact List.filter_sublist
  · intro hanswered
    rw [heq, fetched_agree_iff hanswered hr hr' htypes]

end

/-! ## Two configurations -/

def blank (c : Char) : Bool := c = ' '

/-- A change of a mon of the type, and no other. -/
def changed (type : MonSeenTypes) : Reads Unit Unit Unit Unit where
  changedSince _ _ := some []
  mons := some [⟨1, (), 10, type, true, none, ()⟩]

def messageOf (type : MonSeenTypes) : Message Unit Unit Unit Unit :=
  .mon (.of ⟨1, (), 10, type, true, none, ()⟩)

def pokemonFilter : Receiver := ⟨"a", some ["pokemon", "encounter"]⟩

def nowhere (_ : Unit) : Bool := false

/-- The raids another receiver gets change nothing. -/
theorem encounter_sent :
    [[messageOf .encounter]].flatten.Sublist (changes nowhere 10 (changed .encounter)) ∧
    ([[messageOf .encounter]].flatten = [[messageOf .encounter]].flatten ↔
      (0 : Int) < 0 ∨ (pokemonFilter.has "pokemon" → ∀ p, .mon p ∈ changes nowhere 10 (changed .encounter) →
        (p.seenType ∈ (configured blank nowhere "[pokemon]a").pokemonTypes ↔
          p.seenType ∈ (configured blank nowhere "[raid]b, [pokemon]a").pokemonTypes))) :=
  have h := @sent_eq_iff _ _ _ _ blank nowhere 0 10 (changed .encounter) "[pokemon]a" "[raid]b, [pokemon]a"
    pokemonFilter pokemonFilter [[messageOf .encounter]] [[messageOf .encounter]] (by decide +kernel)
    (by decide +kernel) rfl
  ⟨h.1, h.2.2 ⟨fun _ => rfl, rfl⟩⟩

/-- With another receiver for wild mons, the one for `pokemon` gets them as well. -/
theorem wild_sent_with_other :
    ¬ ∀ (url url' : String) (reads : Reads Unit Unit Unit Unit) (r r' : Receiver)
      (posted posted' : List (List (Message Unit Unit Unit Unit))),
      (r, posted) ∈ sendWebhook blank nowhere 0 10 reads url →
      (r', posted') ∈ sendWebhook blank nowhere 0 10 reads url' → r.types = r'.types →
      posted.flatten = posted'.flatten := by
  intro h
  have hsame := h "[pokemon]a" "[pokemon]a,[wild]b" (changed .wild) pokemonFilter pokemonFilter []
    [[messageOf .wild]] (by decide +kernel) (by decide +kernel) rfl
  revert hsame
  decide

end MapADroid.Webhook
