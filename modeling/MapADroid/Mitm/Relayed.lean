import MapADroid.Lib.Trace
import MapADroid.Mitm.Answers

/- The latest data through gRPC.

   What a client reads for a key is what some client wrote for it, as the two messages on the
   way make of it (`relayed`): the fractions of the timestamps are gone, a location that
   was not given is the point zero, and nothing is left of an empty value. That is so however
   the threads of the server come in between each other, as what they lose is not written
   otherwise. -/
namespace MapADroid.Mitm.Grpc
open Lib

variable {C P : Type} [DecidableEq C] {rd : PayloadReader P} {pb : Protobuf P} {s t : Mapper C P} {a : Action C P}
  {record record' : List (ℚ × Event C P)}

/-! ## The messages -/

/-- The number a timestamp is sent as. -/
def sentTimestamp (t : Option Timestamp) : Int := t.elim 0 Timestamp.toInt

/-- What a client reads of what a client gave to `update_latest`. -/
def relayed (pb : Protobuf P) (value : P) (raw receiver : Option Timestamp) (location : Option (Location ℚ)) :
    LatestMitmDataEntry (Option P) where
  location := some (location.getD ⟨0, 0⟩)
  timestampReceived := .int (sentTimestamp raw)
  timestampOfDataRetrieval := .int (sentTimestamp receiver)
  data := if pb.isEmpty value then none else pb.packed value

theorem toInt_of_not_truthy {t : Timestamp} (h : ¬t.truthy = true) : t.toInt = 0 := by
  have hzero : t.val = 0 := not_not.mp fun hval => h (Timestamp.truthy_eq_true.mpr hval)
  cases t with
  | int i => exact Int.cast_eq_zero.mp hzero
  | float q =>
    obtain rfl : q = 0 := hzero
    simp [Timestamp.toInt]

theorem timestampField_eq {t : Option Timestamp} {f : Option Uint64Field}
    (h : MitmMapperClient.timestampField t = some f) : f.elim 0 Subtype.val = sentTimestamp t := by
  cases t with
  | none =>
    cases h
    rfl
  | some t =>
    simp only [MitmMapperClient.timestampField] at h
    split at h
    · obtain ⟨g, hg, rfl⟩ := Option.map_eq_some_iff.mp h
      exact field_eq_some.mp hg
    · next htruthy =>
      cases h
      exact (toInt_of_not_truthy htruthy).symm

theorem storedTimestamp_eq {i : Int} {f : Option Uint64Field}
    (h : MitmMapperServer.storedTimestamp (.int i) = some f) : f.elim 0 Subtype.val = i := by
  simp only [MitmMapperServer.storedTimestamp] at h
  split at h
  · obtain ⟨g, hg, rfl⟩ := Option.map_eq_some_iff.mp h
    exact field_eq_some.mp hg
  · next htruthy =>
    cases h
    exact (toInt_of_not_truthy htruthy).symm

/-- The value in a message: none if it is empty, else what it is packed as. -/
theorem content_eq {value : P} {data : Option (Kind × P)} (h : content pb value = some data) :
    pb.isEmpty value = true ∧ data = none ∨
      pb.isEmpty value = false ∧ ∃ kind v, pb.kind value = some kind ∧ pb.packed value = some v ∧
        data = some (kind, v) := by
  unfold content at h
  split at h
  · cases h
  · next kind hkind =>
    split at h
    · next hempty =>
      cases h
      exact .inl ⟨hempty, rfl⟩
    · next hempty =>
      obtain ⟨v, hv, rfl⟩ := Option.map_eq_some_iff.mp h
      exact .inr ⟨Bool.eq_false_iff.mpr hempty, kind, v, hkind, hv, rfl⟩

/-- What is stored of an update. -/
structure Carried (pb : Protobuf P) (value : P) (raw receiver : Option Timestamp) (location : Option (Location ℚ))
    (e : LatestMitmDataEntry P) : Prop where
  location : e.location = some (location.getD ⟨0, 0⟩)
  received : e.timestampReceived = .int (sentTimestamp raw)
  retrieval : e.timestampOfDataRetrieval = .int (sentTimestamp receiver)
  nonneg : 0 ≤ sentTimestamp receiver
  kind : (pb.kind e.data).isSome = true
  data : pb.isEmpty value = true ∧ e.data = pb.emptyList ∨ pb.isEmpty value = false ∧ pb.packed value = some e.data

theorem carried_toUpdate {worker key : String} {value : P} {raw receiver : Option Timestamp}
    {location : Option (Location ℚ)} {w k : String} {data : EntryMessage P}
    (h : MitmMapperClient.updateLatest pb worker key value raw receiver location = some (.updateLatest w k data)) :
    Carried pb value raw receiver location ((MitmMapperServer.toUpdate pb w k data).entry 0) := by
  simp only [MitmMapperClient.updateLatest, Option.bind_eq_bind, Option.bind_eq_some_iff] at h
  obtain ⟨received, hreceived, retrieval, hretrieval, content, hcontent, h⟩ := h
  cases h
  have hraw := congrArg Timestamp.int (timestampField_eq hreceived)
  have hreceiver := congrArg Timestamp.int (timestampField_eq hretrieval)
  have hnonneg : 0 ≤ sentTimestamp receiver := by
    rw [← timestampField_eq hretrieval]
    cases retrieval with
    | none => exact le_rfl
    | some f => exact f.property.1
  rcases content_eq hcontent with ⟨hempty, rfl⟩ | ⟨hempty, kind, v, hkind, hv, rfl⟩
  · exact ⟨rfl, hraw, hreceiver, hnonneg, Option.isSome_iff_exists.mpr ⟨_, pb.kind_emptyList⟩, .inl ⟨hempty, rfl⟩⟩
  · exact ⟨rfl, hraw, hreceiver, hnonneg,
      Option.isSome_iff_exists.mpr ⟨kind, (pb.kind_packed hv).trans hkind⟩, .inr ⟨hempty, hv⟩⟩

/-- Read back, it is as it was sent. -/
theorem transform_carried {value : P} {raw receiver : Option Timestamp} {location : Option (Location ℚ)}
    {e : LatestMitmDataEntry P} {m : EntryMessage P} (h : Carried pb value raw receiver location e)
    (hm : MitmMapperServer.transformLatestMitmDataEntry pb e = some m) :
    MitmMapperClient.transformProtoDataEntry pb m = relayed pb value raw receiver location := by
  simp only [MitmMapperServer.transformLatestMitmDataEntry, Option.bind_eq_bind, Option.bind_eq_some_iff, h.received,
    h.retrieval, h.location] at hm
  obtain ⟨retrieval, hretrieval, received, hreceived, data, hdata, hm⟩ := hm
  cases hm
  simp only [MitmMapperClient.transformProtoDataEntry, relayed, storedTimestamp_eq hretrieval,
    storedTimestamp_eq hreceived, Option.getD_some]
  congr 1
  rw [MitmMapperServer.storedContent, if_pos h.kind] at hdata
  rcases h.data with ⟨hempty, hnil⟩ | ⟨hempty, hpacked⟩
  · -- an empty value is stored as the empty list, and sent back as nothing
    rw [hnil] at hdata
    rcases content_eq hdata with ⟨_, rfl⟩ | ⟨hnot, _⟩
    · rw [if_pos hempty]
      rfl
    · rw [pb.isEmpty_emptyList] at hnot
      cases hnot
  · have hstored : pb.isEmpty e.data = false := (pb.isEmpty_packed hpacked).trans hempty
    rw [if_neg (Bool.eq_false_iff.mp hempty), hpacked]
    rcases content_eq hdata with ⟨hnot, _⟩ | ⟨_, kind, v, _, hv, rfl⟩
    · rw [hstored] at hnot
      cases hnot
    · have hsame : e.data = v := Option.some.inj ((pb.packed_packed hpacked).symm.trans hv)
      simp [← hsame, hstored]

/-! ## The store -/

omit [DecidableEq C] in
/-- Serving a request leaves the latest data alone. -/
theorem entryAt?_handle (pb : Protobuf P) (server : MitmMapperServer P) (request : Request P) (r : Ref) (key : String) :
    (server.handle pb request).2.store.entryAt? r key = server.store.entryAt? r key := by
  have hassign : ∀ worker (f : PlayerData P → PlayerData P), (∀ p, (f p).latestDataHolder = p.latestDataHolder) →
      (server.assign worker f).store.entryAt? r key = server.store.entryAt? r key := by
    intro worker f hf
    unfold MitmMapperServer.assign
    split
    · rfl
    · exact Store.entryAt?_modify hf r key
  cases request with
  | setLevel worker level => exact hassign worker _ fun _ => rfl
  | setPokestopVisits worker visits => exact hassign worker _ fun _ => rfl
  | setInjected worker isInjected => exact hassign worker _ fun _ => rfl
  | setQuestsHeld worker questsHeld => exact hassign worker _ fun _ => rfl
  | _ => rfl

/-- An update that is sent is the one a client was told to make. -/
theorem updateLatest_of_request {call : Call P} {worker key : String} {data : EntryMessage P}
    (h : MitmMapperClient.request pb call = some (.updateLatest worker key data)) :
    ∃ value raw receiver location, call = .updateLatest worker key value raw receiver location ∧
      Carried pb value raw receiver location ((MitmMapperServer.toUpdate pb worker key data).entry 0) := by
  cases call with
  | updateLatest worker' key' value raw receiver location =>
    have hcarried := carried_toUpdate h
    simp only [MitmMapperClient.request, MitmMapperClient.updateLatest, Option.bind_eq_bind,
      Option.bind_eq_some_iff] at h
    obtain ⟨_, _, _, _, _, _, h⟩ := h
    cases h
    exact ⟨value, raw, receiver, location, rfl, hcarried⟩
  | requestLatest worker' key' earliest =>
    simp [MitmMapperClient.request, MitmMapperClient.requestLatest, Option.bind_eq_some_iff] at h
  | setQuestsHeld worker' questsHeld =>
    simp only [MitmMapperClient.request, MitmMapperClient.setQuestsHeld] at h
    split at h <;> simp at h
  | _ => simp [MitmMapperClient.request] at h

/-! ## Where the latest data comes from -/

/-- A client was told to write this for the key. -/
def Written (pb : Protobuf P) (record : List (ℚ × Event C P)) (w key : String) (e : LatestMitmDataEntry P) : Prop :=
  ∃ time c value raw receiver location,
    (time, Event.called c (.updateLatest w key value raw receiver location)) ∈ record ∧
      Carried pb value raw receiver location e

/-- Everything the server has, and every update that was made, was written by a client. -/
structure Relaying (pb : Protobuf P) (record : List (ℚ × Event C P)) (server : MitmMapperServer P) : Prop where
  threads : ∀ thread ∈ server.threads,
    Written pb record thread.update.worker thread.update.key (thread.update.entry 0)
  updated : ∀ time u, (time, Event.updated u) ∈ record → Written pb record u.worker u.key (u.entry 0)
  stored : ∀ r key e, server.store.entryAt? r key = some e → Written pb record r.worker key e

omit [DecidableEq C] in
theorem Written.grow {w key : String} {e : LatestMitmDataEntry P} (h : Written pb record w key e)
    (hsub : record ⊆ record') :
    Written pb record' w key e := by
  obtain ⟨time, c, value, raw, receiver, location, hmem, hcarried⟩ := h
  exact ⟨time, c, value, raw, receiver, location, hsub hmem, hcarried⟩

omit [DecidableEq C] in
/-- A step that makes no update. -/
theorem Relaying.grow {server server' : MitmMapperServer P} (h : Relaying pb record server) (hsub : record ⊆ record')
    (hnone : ∀ time u, (time, Event.updated u) ∈ record' → (time, Event.updated u) ∈ record)
    (hthreads : ∀ thread ∈ server'.threads, thread ∈ server.threads ∨
      Written pb record' thread.update.worker thread.update.key (thread.update.entry 0))
    (hstored : ∀ r key e, server'.store.entryAt? r key = some e → server.store.entryAt? r key = some e) :
    Relaying pb record' server' where
  threads thread hthread := (hthreads thread hthread).elim (fun hold => (h.threads thread hold).grow hsub) id
  updated time u hu := (h.updated time u (hnone time u hu)).grow hsub
  stored r key e he := (h.stored r key e (hstored r key e he)).grow hsub

omit [DecidableEq C] in
theorem updated_of_log {s : Mapper C P} {events : List (Event C P)}
    (h : ∀ u, Event.updated u ∉ events) (time : ℚ) (u : Update P)
    (hmem : (time, Event.updated u) ∈ (s.log events).record) : (time, Event.updated u) ∈ s.record :=
  (mem_log.mp hmem).resolve_right fun hnew => h u hnew.2

omit [DecidableEq C] in
/-- What a client reads is an entry of an object of the worker. -/
theorem Relaying.latest {server : MitmMapperServer P} (h : Relaying pb record server) (hwf : server.store.WellFormed)
    {w key : String} {e : LatestMitmDataEntry P} (he : server.handler.requestLatest w key none = some e) :
    Written pb record w key e := by
  rw [MitmMapperServer.handler, Store.requestLatest_handler] at he
  obtain ⟨r, hr, he⟩ := Option.bind_eq_some_iff.mp he
  have hwritten := h.stored r key e he
  rwa [(hwf w r hr).1] at hwritten

theorem relaying_step (h : Relaying pb s.record s.server) (hrecorded : Recorded pb s) (hready : Ready s)
    (hs : s.step rd pb a = some t) : Relaying pb t.record t.server := by
  cases step_cases hs with
  | wait htime => exact h
  | @called d call begun client hbegin =>
    refine h.grow (record_log _ _) (updated_of_log fun u => ?_) (fun u hu => .inl hu) fun r key e he => he
    cases begun <;> simp [Begun.events]
  | taken hloop hi hworker => exact h
  | @created i worker hloop =>
    refine ⟨h.threads, h.updated, fun r key e he => h.stored r key e ?_⟩
    have he : (s.server.store.create worker).entryAt? r key = some e := he
    rw [Store.entryAt?_create] at he
    split at he
    · cases he
    · exact he
  | @served i d call request waiting reply server _ ha hi hhandle =>
    obtain rfl : server = (s.server.handle pb request).2 := by rw [hhandle]
    refine h.grow (record_log _ _) (updated_of_log fun u => by simp) (fun thread hthread => ?_) fun r key e he => ?_
    · have hthread : thread ∈ (s.server.handle pb request).2.threads := hthread
      rcases s.server.handle_threads pb request with hsame | ⟨worker, key, data, rfl, hnew⟩
      · exact .inl (hsame ▸ hthread)
      · rw [hnew, List.mem_append, List.mem_singleton] at hthread
        rcases hthread with hold | rfl
        · exact .inl hold
        · obtain ⟨ts, hasked⟩ := hrecorded.rpcs i _ hi
          obtain ⟨value, raw, receiver, location, hcall, hcarried⟩ := updateLatest_of_request hasked.asked
          exact .inr ⟨ts, d, value, raw, receiver, location, record_log _ _ (hcall ▸ hasked.called), hcarried⟩
    · exact (entryAt?_handle pb s.server request r key).symm.trans he
  | @went j updates server hserver =>
    obtain ⟨u, place, hj, hupdates, hstore, hthreads⟩ := MitmMapperServer.goOn_some hserver
    have hwritten : Written pb s.record u.worker u.key (u.entry 0) := h.threads ⟨u, place⟩ (List.mem_of_getElem? hj)
    constructor
    · intro thread hthread
      have hthread : thread ∈ server.threads := hthread
      rw [hthreads] at hthread
      rcases List.mem_or_eq_of_mem_set hthread with hold | rfl
      · exact (h.threads thread hold).grow (record_log _ _)
      · exact hwritten.grow (record_log _ _)
    · intro time v hv
      rcases mem_log.mp hv with hold | ⟨_, hnew⟩
      · exact (h.updated time v hold).grow (record_log _ _)
      · obtain ⟨v', hv', heq⟩ := List.mem_map.mp hnew
        cases heq
        rw [hupdates] at hv'
        split at hv'
        · cases List.mem_singleton.mp hv'
          exact hwritten.grow (record_log _ _)
        · cases hv'
    · intro r key e he
      have he : server.store.entryAt? r key = some e := he
      rw [hstore] at he
      rcases Place.entryAt?_goOn he with hold | ⟨hr, rfl, rfl⟩
      · exact (h.stored r key e hold).grow (record_log _ _)
      · rw [(hready.threads j _ r hj hr).1]
        exact hwritten.grow (record_log _ _)
  | @answered i d call request response result client hi hrest =>
    exact h.grow (record_log _ _) (updated_of_log fun u => by simp) (fun u hu => .inl hu) fun r key e he => he
  | @failed i d call request reply result client hi hrest =>
    exact h.grow (record_log _ _) (updated_of_log fun u => by simp) (fun u hu => .inl hu) fun r key e he => he

omit [DecidableEq C] in
theorem Relaying.new (now : ℚ) :
    Relaying pb (Mapper.new now : Mapper C P).record (Mapper.new now : Mapper C P).server where
  threads thread hthread := by cases hthread
  updated time u hu := by cases hu
  stored r key e he := by cases he

theorem relaying_run {ok : Mapper C P → Action C P → Prop} {now : ℚ} {l : List (Action C P)}
    (h : Run (Mapper.step rd pb) ok (Mapper.new now) l s) : Recorded pb s ∧ Ready s ∧ Relaying pb s.record s.server :=
  h.invariant (I := fun s => Recorded pb s ∧ Ready s ∧ Relaying pb s.record s.server) ⟨.new now, .new now, .new now⟩
    fun _ _ _ hi _ hs => ⟨recorded_step hi.1 hs, ready_step hi.2.1 hs, relaying_step hi.2.2 hi.1 hi.2.1 hs⟩

/-- What holds of the record and the server in every state held of them when a request was served. -/
theorem served_earlier {ok : Mapper C P → Action C P → Prop} {I : List (ℚ × Event C P) → MitmMapperServer P → Prop}
    {now : ℚ} {l : List (Action C P)} (h : Run (Mapper.step rd pb) ok (Mapper.new now) l s)
    (hI : ∀ l s, Run (Mapper.step rd pb) ok (Mapper.new now) l s → I s.record s.server)
    {pre post : List (ℚ × Event C P)}
    {time : ℚ} {i : Nat} {server : MitmMapperServer P} {reply : Option (Response P)}
    (hsplit : s.record = pre ++ (time, .served i server reply) :: post) : I pre server := by
  induction h generalizing pre post time i server reply with
  | nil => simp [Mapper.new] at hsplit
  | @snoc t u l a hrun ha hs ih =>
    have hnone : ∀ events, u.record = (t.log events).record →
      (∀ j server' reply', Event.served j server' reply' ∉ events) →
        I pre server := by
      intro events hrecord hmem
      rw [hrecord] at hsplit
      rcases append_eq_cons hsplit with ⟨mid, hold, _⟩ | ⟨mid, hnew⟩
      · exact ih hold
      · have hin : (time, Event.served i server reply) ∈ events.map fun e => (t.now, e) := hnew ▸ by simp
        obtain ⟨e, he, heq⟩ := List.mem_map.mp hin
        cases heq
        exact absurd he (hmem i server reply)
    cases step_cases hs with
    | wait htime => exact ih hsplit
    | @called d call begun client hbegin =>
      refine hnone _ rfl fun j server' reply' => ?_
      cases begun <;> simp [Begun.events]
    | taken hloop hi hworker => exact ih hsplit
    | created hloop => exact ih hsplit
    | @served j d call request waiting reply' server' _ ha hi hhandle =>
      rcases snoc_eq_cons (show t.record ++ [(t.now, Event.served j t.server reply')] = _ from hsplit) with
        ⟨mid, hold, _⟩ | ⟨rfl, hnew, _⟩
      · exact ih hold
      · cases hnew
        exact hI l t hrun
    | went hserver => exact hnone _ rfl fun j server' reply' => by simp
    | answered hi hrest => exact hnone _ rfl fun j server' reply' => by simp
    | failed hi hrest => exact hnone _ rfl fun j server' reply' => by simp

/-! ## What a client reads -/

/-- An entry that answers a request is the one stored, and later than a time that is asked for. -/
theorem answersRequest_eq_some {latest : Option (LatestMitmDataEntry P)} {earliest : Option Timestamp}
    {e : LatestMitmDataEntry P}
    (h : answersRequest latest earliest = some e) : latest = some e ∧
      ∀ t ∈ earliest, t.val = 0 ∨ e.timestampOfDataRetrieval.val = 0 ∨ t.toInt < e.timestampOfDataRetrieval.toInt := by
  unfold answersRequest at h
  split at h
  · cases h
  · cases h
    exact ⟨rfl, fun t ht => by cases ht⟩
  · next e' t =>
    split at h
    · cases h
    · next hnot =>
      cases h
      refine ⟨rfl, fun t' ht' => ?_⟩
      cases ht'
      by_contra hall
      push Not at hall
      refine hnot ?_
      simp only [Bool.and_eq_true, Timestamp.truthy_eq_true, decide_eq_true_eq]
      exact ⟨⟨hall.1, hall.2.1⟩, hall.2.2⟩

/-- The earliest time that is sent, a zero being none. -/
theorem answersRequest_sent (latest : Option (LatestMitmDataEntry P)) {earliest : Option Int} {f : Option Uint64Field}
    (h : MitmMapperClient.timestampField (earliest.map .int) = some f) :
    answersRequest latest (f.map fun t => .int t) = answersRequest latest (earliest.map .int) := by
  cases earliest with
  | none =>
    cases h
    rfl
  | some t =>
    simp only [Option.map_some, MitmMapperClient.timestampField] at h
    split at h
    · obtain ⟨g, hg, rfl⟩ := Option.map_eq_some_iff.mp h
      have hval : g.val = t := field_eq_some.mp hg
      simp [hval]
    · next htruthy =>
      cases h
      cases latest with
      | none => rfl
      | some e => simp [answersRequest, htruthy]

omit [DecidableEq C] in
/-- The answer to a request for the latest data is none if it failed, else what the server had when it was served. -/
theorem Got.latest {got sent : ℚ} {c : C} {w key : String} {earliest : Option Int} {i : Nat} {result : Result P}
    {request : Request P} (h : Got pb record got c (.requestLatest w key earliest) i result sent request) :
    ((got, Event.failed i) ∈ record ∧ result = .latest none) ∨
      ∃ served server reply, sent ≤ served ∧ served ≤ got ∧ (served, Event.served i server reply) ∈ record ∧
        match answersRequest (server.handler.requestLatest w key none) (earliest.map .int) with
        | none => result = .latest none
        | some e => ∃ m, MitmMapperServer.transformLatestMitmDataEntry pb e = some m ∧
            result = .latest (some (MitmMapperClient.transformProtoDataEntry pb m)) := by
  rcases h.came with ⟨hfailed, client, hresult⟩ | ⟨served, server, response, client, hsent, hserved, hmem, hhandle,
    hresult⟩
  · exact .inl ⟨hfailed, hresult.symm⟩
  refine .inr ⟨served, server, some response, hsent, hserved, hmem, ?_⟩
  have hasked := h.asked
  simp only [MitmMapperClient.request, MitmMapperClient.requestLatest, Option.bind_eq_bind,
    Option.bind_eq_some_iff] at hasked
  obtain ⟨f, hf, hasked⟩ := hasked
  cases hasked
  have hlatest : server.handler.requestLatest w key (f.map fun t => .int t) =
      answersRequest (server.handler.requestLatest w key none) (earliest.map .int) := by
    rw [← answersRequest_sent _ hf, MitmDataHandler.requestLatest, MitmDataHandler.requestLatest,
      PlayerData.getSpecificLatestData, PlayerData.getSpecificLatestData, answersRequest_none]
  rw [MitmMapperServer.handle, hlatest] at hhandle
  cases hanswer : answersRequest (server.handler.requestLatest w key none) (earliest.map .int) with
  | none =>
    rw [hanswer] at hhandle
    cases hhandle
    exact hresult.symm
  | some e =>
    rw [hanswer] at hhandle
    obtain ⟨m, hm, rfl⟩ := Option.map_eq_some_iff.mp hhandle
    exact ⟨m, hm, hresult.symm⟩

/-- In every run, what a client reads for a key of a worker was written for it by some client before, as it is
relayed, and is later than the earliest time asked for, unless it was written without a time. -/
theorem latest_relayed {now : ℚ} {l : List (Action C P)} (h : Run (Mapper.step rd pb) Any (Mapper.new now) l s)
    {got : ℚ} {c : C} {w key : String} {earliest : Option Int} {i : Nat} {e : LatestMitmDataEntry (Option P)}
    (hread : (got, Event.returned c (.requestLatest w key earliest) (some i) (.latest (some e))) ∈ s.record) :
    ∃ time d value raw receiver location, time ≤ got ∧
      (time, Event.called d (.updateLatest w key value raw receiver location)) ∈ s.record ∧
      e = relayed pb value raw receiver location ∧
      ∀ t ∈ earliest, t ≠ 0 → sentTimestamp receiver = 0 ∨ t < sentTimestamp receiver := by
  have hrecorded := (relaying_run h).1
  obtain ⟨sent, request, hgot⟩ := hrecorded.results _ _ _ _ _ hread
  rcases hgot.latest with ⟨_, hnone⟩ | ⟨served, server, reply, _, hserved, hmem, hresult⟩
  · cases hnone
  obtain ⟨pre, post, hsplit⟩ := List.append_of_mem hmem
  have hrelaying : server.store.WellFormed ∧ Relaying pb pre server :=
    served_earlier h (I := fun record server => server.store.WellFormed ∧ Relaying pb record server)
      (fun _ _ hrun => ⟨(relaying_run hrun).2.1.store, (relaying_run hrun).2.2⟩) hsplit
  cases hanswer : answersRequest (server.handler.requestLatest w key none) (earliest.map .int) with
  | none =>
    rw [hanswer] at hresult
    cases hresult
  | some stored =>
    rw [hanswer] at hresult
    obtain ⟨m, hm, hresult⟩ := hresult
    cases hresult
    obtain ⟨hstored, hlater⟩ := answersRequest_eq_some hanswer
    obtain ⟨time, d, value, raw, receiver, location, hcalled, hcarried⟩ := hrelaying.2.latest hrelaying.1 hstored
    refine ⟨time, d, value, raw, receiver, location, ?_, ?_, transform_carried hcarried hm, ?_⟩
    · have hsorted := hrecorded.sorted
      rw [hsplit] at hsorted
      exact ((List.pairwise_append.mp hsorted).2.2 _ hcalled _ List.mem_cons_self).trans hserved
    · rw [hsplit]
      exact List.mem_append_left _ hcalled
    · intro t ht hne
      obtain rfl : earliest = some t := ht
      rcases hlater (.int t) rfl with hzero | hzero | hlt
      · exact absurd (Int.cast_eq_zero.mp hzero) hne
      · rw [hcarried.retrieval] at hzero
        exact .inl (Int.cast_eq_zero.mp hzero)
      · rw [hcarried.retrieval] at hlt
        exact .inr hlt

/-- Two GMOs that the threads of the server take the wrong way round, and a worker that reads them. -/
def swap : List (Action String (List Int)) :=
  [.call "receiver" (.updateLatest "a" gmoKey [1, 2] (some (.float (197 / 2))) (some (.int 98)) none),
    .call "receiver" (.updateLatest "a" gmoKey [3] (some (.int 99)) (some (.int 99)) (some ⟨1, 2⟩)),
    .take 0, .take 1, .thread 1, .thread 1, .thread 1, .thread 0, .thread 1, .thread 0, .thread 1, .thread 1,
    .thread 0, .thread 1, .thread 1, .thread 0, .thread 0, .thread 1, .thread 1, .thread 1, .answer 0, .answer 1,
    .wait 1, .call "core" (.requestLatest "a" gmoKey none), .take 2, .serve, .answer 2,
    .call "core" (.requestLatest "a" gmoKey (some 98)), .take 3, .serve, .answer 3]

def swappedMapper : Mapper String (List Int) := after (Mapper.step cellsOnly plain) Any (.new 100) swap

/-- The second of the GMOs, as it is read. -/
def secondGmo : LatestMitmDataEntry (Option (List Int)) := ⟨some ⟨1, 2⟩, .int 99, .int 99, some [3]⟩

theorem latest_relayed_swapped :
    ∃ time d value raw receiver location, time ≤ 101 ∧
      (time, Event.called d (.updateLatest "a" gmoKey value raw receiver location)) ∈ swappedMapper.record ∧
      secondGmo = relayed plain value raw receiver location ∧
      ∀ t ∈ some 98, t ≠ 0 → sentTimestamp receiver = 0 ∨ t < sentTimestamp receiver :=
  latest_relayed (.of_after (by decide +kernel))
    (mem_returns.mp (by decide +kernel :
      (101, "core", .requestLatest "a" gmoKey (some 98), some 3, .latest (some secondGmo)) ∈
        returns swappedMapper.record))

end MapADroid.Mitm.Grpc
