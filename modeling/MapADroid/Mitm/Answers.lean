import MapADroid.Mitm.Calls

/- What the calls of the clients return.

   A call that waits gets what the server made of its request, or an error (`Got`). An
   answer given without a request is one that the client got before, less than its time
   ago (`Keeping`). So the level, the visits and the quests that a client is told are those
   in the store at a time while a request of this client was under way (`answers_recent`). -/
namespace MapADroid.Mitm.Grpc
open Lib

variable {C P : Type}

/-! ## What a request came to -/

/-- At time `t` the call got `result` for its request `i`, which it sent at `ts`: the request failed, or
this is what the server made of it. -/
structure Got (pb : Protobuf P) (record : List (ℚ × Event C P)) (t : ℚ) (c : C) (call : Call P) (i : Nat)
    (result : Result P) (ts : ℚ) (request : Request P) : Prop where
  called : (ts, .called c call) ∈ record
  sent : (ts, .sent i c request) ∈ record
  asked : MitmMapperClient.request pb call = some request
  le : ts ≤ t
  came : ((t, .failed i) ∈ record ∧ ∃ client, (MitmMapperClient.failed t client call).1 = result) ∨
    ∃ t0 server response client, ts ≤ t0 ∧ t0 ≤ t ∧
      (t0, Event.served i server (some response)) ∈ record ∧ (server.handle pb request).1 = some response ∧
      (MitmMapperClient.answered pb t client call response).1 = result

/-- Request `i` was sent at `ts`; if it was served, this was its reply. -/
structure Asked (pb : Protobuf P) (record : List (ℚ × Event C P)) (now : ℚ) (i : Nat) (rpc : Rpc C P) (ts : ℚ) :
    Prop where
  called : (ts, .called rpc.client rpc.call) ∈ record
  sent : (ts, .sent i rpc.client rpc.request) ∈ record
  asked : MitmMapperClient.request pb rpc.call = some rpc.request
  le : ts ≤ now
  served : ∀ reply, rpc.reply = some reply → ∃ t0 server, ts ≤ t0 ∧ t0 ≤ now ∧
    (t0, Event.served i server reply) ∈ record ∧ (server.handle pb rpc.request).1 = reply

/-- The record tells where every request and every result came from, and is in the order of the clock. -/
structure Recorded (pb : Protobuf P) (s : Mapper C P) : Prop where
  rpcs : ∀ (i : Nat) (rpc : Rpc C P), s.rpcs[i]? = some rpc → ∃ ts, Asked pb s.record s.now i rpc ts
  results : ∀ t c call i result, (t, Event.returned c call (some i) result) ∈ s.record →
    ∃ ts request, Got pb s.record t c call i result ts request
  le_now : ∀ e ∈ s.record, e.1 ≤ s.now
  sorted : s.record.Pairwise fun e f => e.1 ≤ f.1

variable {pb : Protobuf P} {s t : Mapper C P} {record record' : List (ℚ × Event C P)}

theorem Got.grow {time ts : ℚ} {c : C} {call : Call P} {i : Nat} {result : Result P} {request : Request P}
    (h : Got pb record time c call i result ts request) (hsub : record ⊆ record') :
    Got pb record' time c call i result ts request where
  called := hsub h.called
  sent := hsub h.sent
  asked := h.asked
  le := h.le
  came := by
    rcases h.came with ⟨hfailed, hresult⟩ | ⟨t0, server, response, client, hts, ht0, hserved, hrest⟩
    · exact .inl ⟨hsub hfailed, hresult⟩
    · exact .inr ⟨t0, server, response, client, hts, ht0, hsub hserved, hrest⟩

theorem Asked.grow {now now' ts : ℚ} {i : Nat} {rpc new : Rpc C P} (h : Asked pb record now i rpc ts)
    (hsub : record ⊆ record') (hnow : now ≤ now') (hclient : new.client = rpc.client) (hcall : new.call = rpc.call)
    (hreq : new.request = rpc.request) (hreply : new.reply = rpc.reply) : Asked pb record' now' i new ts where
  called := hclient ▸ hcall ▸ hsub h.called
  sent := hclient ▸ hreq ▸ hsub h.sent
  asked := hcall ▸ hreq ▸ h.asked
  le := h.le.trans hnow
  served reply hr := by
    obtain ⟨t0, server, hts, ht0, hserved, hhandle⟩ := h.served reply (hreply ▸ hr)
    exact ⟨t0, server, hts, ht0.trans hnow, hsub hserved, hreq ▸ hhandle⟩

theorem record_log (s : Mapper C P) (events : List (Event C P)) : s.record ⊆ (s.log events).record :=
  List.subset_append_left _ _

theorem mem_log {s : Mapper C P} {events : List (Event C P)} {e : ℚ × Event C P} :
    e ∈ (s.log events).record ↔ e ∈ s.record ∨ e.1 = s.now ∧ e.2 ∈ events := by
  simp only [Mapper.log, List.mem_append, List.mem_map]
  constructor
  · rintro (h | ⟨x, hx, rfl⟩)
    · exact .inl h
    · exact .inr ⟨rfl, hx⟩
  · rintro (h | ⟨h1, h2⟩)
    · exact .inl h
    · exact .inr ⟨e.2, h2, by rw [← h1]⟩

theorem Recorded.new (now : ℚ) : Recorded pb (Mapper.new now : Mapper C P) where
  rpcs i rpc hi := by simp [Mapper.new] at hi
  results t c call i result h := by cases h
  le_now e he := by cases he
  sorted := .nil

/-- A step that leaves the clock alone. -/
theorem Recorded.grow (h : Recorded pb s) (events : List (Event C P)) (hnow : t.now = s.now)
    (hrecord : t.record = (s.log events).record)
    (hrpcs : ∀ (i : Nat) (rpc : Rpc C P), t.rpcs[i]? = some rpc → ∃ ts, Asked pb t.record t.now i rpc ts)
    (hresults : ∀ c call i result, Event.returned c call (some i) result ∈ events →
      ∃ ts request, Got pb t.record s.now c call i result ts request) : Recorded pb t where
  rpcs := hrpcs
  results time c call i result hmem := by
    rw [hrecord, mem_log] at hmem
    rcases hmem with hold | ⟨htime, hnew⟩
    · obtain ⟨ts, request, hgot⟩ := h.results time c call i result hold
      exact ⟨ts, request, hgot.grow (hrecord ▸ record_log s events)⟩
    · obtain rfl : time = s.now := htime
      exact hresults c call i result hnew
  le_now e he := by
    rw [hrecord, mem_log] at he
    rw [hnow]
    rcases he with hold | ⟨htime, _⟩
    · exact h.le_now e hold
    · exact htime.le
  sorted := by
    rw [hrecord]
    refine List.pairwise_append.mpr ⟨h.sorted, ?_, ?_⟩
    · exact List.pairwise_map.mpr (List.pairwise_of_forall fun _ _ => le_refl _)
    · intro e he f hf
      obtain ⟨_, _, rfl⟩ := List.mem_map.mp hf
      exact h.le_now e he

variable [DecidableEq C] {rd : PayloadReader P} {a : Action C P}

theorem recorded_step (h : Recorded pb s) (hs : s.step rd pb a = some t) : Recorded pb t := by
  cases step_cases hs with
  | @wait time htime =>
    have hle : s.now ≤ s.now + time := by linarith
    refine ⟨fun i rpc hi => ?_, h.results, fun e he => (h.le_now e he).trans hle, h.sorted⟩
    obtain ⟨ts, hasked⟩ := h.rpcs i rpc hi
    exact ⟨ts, hasked.grow (List.Subset.refl _) hle rfl rfl rfl rfl⟩
  | @called d call begun client hbegin =>
    refine h.grow (begun.events d call s.rpcs.length) rfl rfl ?_ ?_
    · intro j rpc hj
      rcases rpcs_call hj with hj | ⟨request, rfl, rfl, rfl⟩
      · obtain ⟨ts, hasked⟩ := h.rpcs j rpc hj
        exact ⟨ts, hasked.grow (record_log _ _) le_rfl rfl rfl rfl rfl⟩
      · refine ⟨s.now, ?_, ?_, MitmMapperClient.request_of_begin (congrArg Prod.fst hbegin), le_rfl,
        fun reply hreply => by cases hreply⟩
        · exact mem_log.mpr (.inr ⟨rfl, by simp [Begun.events]⟩)
        · exact mem_log.mpr (.inr ⟨rfl, by simp [Begun.events]⟩)
    · intro c call' i result hmem
      cases begun <;> simp [Begun.events] at hmem
  | @taken i d call request waiting worker hloop hi hworker =>
    exact ⟨h.rpcs, h.results, h.le_now, h.sorted⟩
  | created hloop => exact ⟨h.rpcs, h.results, h.le_now, h.sorted⟩
  | @served i d call request waiting reply server _ ha hi hhandle =>
    refine h.grow [.served i s.server reply] rfl rfl ?_ ?_
    · intro j rpc hj
      rcases rpcs_set hi hj with ⟨rfl, rfl⟩ | ⟨_, hj⟩
      · obtain ⟨ts, hasked⟩ := h.rpcs i _ hi
        refine ⟨ts, record_log _ _ hasked.called, record_log _ _ hasked.sent, hasked.asked, hasked.le, ?_⟩
        intro reply' hreply
        cases hreply
        refine ⟨s.now, s.server, hasked.le, le_rfl, ?_, by rw [hhandle]⟩
        exact mem_log.mpr (.inr ⟨rfl, List.mem_singleton_self _⟩)
      · obtain ⟨ts, hasked⟩ := h.rpcs j rpc hj
        exact ⟨ts, hasked.grow (record_log _ _) le_rfl rfl rfl rfl rfl⟩
    · intro c call' j result hmem
      cases List.mem_singleton.mp hmem
  | @went j updates server hserver =>
    refine h.grow (updates.map .updated) rfl rfl ?_ ?_
    · intro i rpc hi
      obtain ⟨ts, hasked⟩ := h.rpcs i rpc hi
      exact ⟨ts, hasked.grow (record_log _ _) le_rfl rfl rfl rfl rfl⟩
    · intro c call' i result hmem
      simp at hmem
  | @answered i d call request response result client hi hrest =>
    refine h.grow [.returned d call (some i) result] rfl rfl ?_ ?_
    · intro j rpc hj
      rcases rpcs_set hi hj with ⟨rfl, rfl⟩ | ⟨_, hj⟩
      · obtain ⟨ts, hasked⟩ := h.rpcs i _ hi
        exact ⟨ts, hasked.grow (record_log _ _) le_rfl rfl rfl rfl rfl⟩
      · obtain ⟨ts, hasked⟩ := h.rpcs j rpc hj
        exact ⟨ts, hasked.grow (record_log _ _) le_rfl rfl rfl rfl rfl⟩
    · intro c call' j result' hmem
      cases List.mem_singleton.mp hmem
      obtain ⟨ts, hasked⟩ := h.rpcs i _ hi
      obtain ⟨t0, server, hts, ht0, hserved, hhandle⟩ := hasked.served _ rfl
      refine ⟨ts, request, record_log _ _ hasked.called, record_log _ _ hasked.sent, hasked.asked, hasked.le, .inr ?_⟩
      exact ⟨t0, server, response, s.clients d, hts, ht0, record_log _ _ hserved, hhandle, by rw [hrest]⟩
  | @failed i d call request reply result client hi hrest =>
    refine h.grow [.failed i, .returned d call (some i) result] rfl rfl ?_ ?_
    · intro j rpc hj
      rcases rpcs_set hi hj with ⟨rfl, rfl⟩ | ⟨_, hj⟩
      · obtain ⟨ts, hasked⟩ := h.rpcs i _ hi
        exact ⟨ts, hasked.grow (record_log _ _) le_rfl rfl rfl rfl rfl⟩
      · obtain ⟨ts, hasked⟩ := h.rpcs j rpc hj
        exact ⟨ts, hasked.grow (record_log _ _) le_rfl rfl rfl rfl rfl⟩
    · intro c call' j result' hmem
      rw [List.mem_pair] at hmem
      rcases hmem with hmem | hmem
      · cases hmem
      · cases hmem
        obtain ⟨ts, hasked⟩ := h.rpcs i _ hi
        refine ⟨ts, request, record_log _ _ hasked.called, record_log _ _ hasked.sent, hasked.asked, hasked.le,
          .inl ⟨?_, ?_⟩⟩
        · exact mem_log.mpr (.inr ⟨rfl, List.mem_cons_self⟩)
        · exact ⟨s.clients d, congrArg Prod.fst hrest⟩

/-! ## Answers that are given again -/

/-- How long a client gives an answer again; only for the calls that ask for what the store has of a worker besides
the latest data. -/
def Call.ttl : Call P → Option ℚ
  | .getLevel _ => some 60
  | .getPokeStopVisits _ => some 30
  | .getQuestsHeld _ => some 1
  | .getInjectionStatus _ | .getLastKnownLocation _ => some 0
  | .setLevel _ _ | .setPokestopVisits _ _ | .updateLatest _ _ _ _ _ _ | .requestLatest _ _ _
  | .setInjectionStatus _ _ | .setQuestsHeld _ _ => none

/-- The client keeps the same answers. -/
def SameKept (client client' : MitmMapperClient) : Prop :=
  client'.levels = client.levels ∧ client'.visits = client.visits ∧ client'.quests = client.quests

/-- What a call does to the answers its client keeps. -/
structure Ends (now : ℚ) (client client' : MitmMapperClient) (call : Call P) (result : Result P) : Prop where
  levels : client'.levels = client.levels ∨ ∃ w level, call = .getLevel w ∧ result = .number level ∧
    client'.levels = client.levels.keep now 60 w level
  visits : client'.visits = client.visits ∨ ∃ w visits, call = .getPokeStopVisits w ∧ result = .number visits ∧
    client'.visits = client.visits.keep now 30 w visits
  quests : client'.quests = client.quests ∨ ∃ w quests, call = .getQuestsHeld w ∧ result = .quests quests ∧
    client'.quests = client.quests.keep now 1 w quests

theorem ends_answered (pb : Protobuf P) (now : ℚ) (client : MitmMapperClient) (call : Call P) (response : Response P) :
    Ends now client (client.answered pb now call response).2 call (client.answered pb now call response).1 := by
  unfold MitmMapperClient.answered
  split
  case h_2 w visited => exact ⟨.inl rfl, .inr ⟨w, visited, rfl, rfl, rfl⟩, .inl rfl⟩
  case h_3 w level => exact ⟨.inr ⟨w, level, rfl, rfl, rfl⟩, .inl rfl, .inl rfl⟩
  case h_6 w questsHeld => exact ⟨.inl rfl, .inl rfl, .inr ⟨w, questsHeld.map (·.map Subtype.val), rfl, rfl, rfl⟩⟩
  all_goals exact ⟨.inl rfl, .inl rfl, .inl rfl⟩

theorem ends_failed (now : ℚ) (client : MitmMapperClient) (call : Call P) :
    Ends now client (client.failed now call).2 call (client.failed now call).1 := by
  cases call with
  | getLevel w => exact ⟨.inr ⟨w, client.lastLevel w, rfl, rfl, rfl⟩, .inl rfl, .inl rfl⟩
  | getPokeStopVisits w => exact ⟨.inl rfl, .inr ⟨w, client.lastVisits w, rfl, rfl, rfl⟩, .inl rfl⟩
  | getQuestsHeld w => exact ⟨.inl rfl, .inl rfl, .inr ⟨w, none, rfl, rfl, rfl⟩⟩
  | _ => exact ⟨.inl rfl, .inl rfl, .inl rfl⟩

theorem sameKept_begin (pb : Protobuf P) (now : ℚ) (client : MitmMapperClient) (call : Call P) :
    SameKept client (client.begin pb now call).2 := by
  cases call with
  | setLevel w level =>
    simp only [MitmMapperClient.begin, MitmMapperClient.setLevel]
    split <;> exact ⟨rfl, rfl, rfl⟩
  | setPokestopVisits w visits =>
    simp only [MitmMapperClient.begin, MitmMapperClient.setPokestopVisits]
    split <;> exact ⟨rfl, rfl, rfl⟩
  | getPokeStopVisits w | getLevel w | getQuestsHeld w =>
    simp only [MitmMapperClient.begin]
    split <;> exact ⟨rfl, rfl, rfl⟩
  | _ => exact ⟨rfl, rfl, rfl⟩

/-- The client got the result for a request of such a call, and keeps it until `expires`. -/
def Kept (record : List (ℚ × Event C P)) (c : C) (call : Call P) (result : Result P) (ttl expires : ℚ) : Prop :=
  ∃ i t, (t, Event.returned c call (some i) result) ∈ record ∧ expires = t + ttl

/-- The answers that clients keep are ones they got, and so are those they gave again. -/
structure Keeping (s : Mapper C P) : Prop where
  levels : ∀ c, (s.clients c).levels.Keeps fun w level => Kept s.record c (.getLevel w) (.number level) 60
  visits : ∀ c, (s.clients c).visits.Keeps fun w visits => Kept s.record c (.getPokeStopVisits w) (.number visits) 30
  quests : ∀ c, (s.clients c).quests.Keeps fun w quests => Kept s.record c (.getQuestsHeld w) (.quests quests) 1
  results : ∀ t c call result ttl, (t, Event.returned c call none result) ∈ s.record → call.ttl = some ttl →
    ∃ i got, (got, Event.returned c call (some i) result) ∈ s.record ∧ got ≤ t ∧ t < got + ttl

omit [DecidableEq C] in
theorem Kept.grow {c : C} {call : Call P} {result : Result P} {ttl expires : ℚ}
    (h : Kept record c call result ttl expires) (hsub : record ⊆ record') : Kept record' c call result ttl expires := by
  obtain ⟨i, time, hmem, hexpires⟩ := h
  exact ⟨i, time, hsub hmem, hexpires⟩

omit [DecidableEq C] in
theorem Keeping.new (now : ℚ) : Keeping (Mapper.new now : Mapper C P) where
  levels _ := .empty
  visits _ := .empty
  quests _ := .empty
  results t c call result ttl h := by cases h

omit [DecidableEq C] in
/-- A step after which every client keeps answers it got. -/
theorem Keeping.grow (h : Keeping s) (events : List (Event C P)) (hrecord : t.record = (s.log events).record)
    (hends : ∀ c, SameKept (s.clients c) (t.clients c) ∨ ∃ call i result,
      Event.returned c call (some i) result ∈ events ∧
      Ends s.now (s.clients c) (t.clients c) call result)
    (hresults : ∀ c call result ttl, Event.returned c call none result ∈ events → call.ttl = some ttl →
      ∃ i got, (got, Event.returned c call (some i) result) ∈ s.record ∧ got ≤ s.now ∧ s.now < got + ttl) :
    Keeping t := by
  have hsub : s.record ⊆ t.record := hrecord ▸ record_log s events
  have hnew : ∀ {c call i result}, Event.returned c call (some i) result ∈ events →
      (s.now, Event.returned c call (some i) result) ∈ t.record := fun hmem => hrecord ▸ mem_log.mpr (.inr ⟨rfl, hmem⟩)
  constructor
  · intro c
    have hold := (h.levels c).mono fun _ _ _ hk => Kept.grow hk hsub
    rcases hends c with ⟨hsame, -, -⟩ | ⟨call, i, result, hmem, hend⟩
    · exact hsame ▸ hold
    · rcases hend.levels with hsame | ⟨w, level, rfl, rfl, hkeep⟩
      · exact hsame ▸ hold
      · exact hkeep ▸ hold.keep ⟨i, s.now, hnew hmem, rfl⟩
  · intro c
    have hold := (h.visits c).mono fun _ _ _ hk => Kept.grow hk hsub
    rcases hends c with ⟨-, hsame, -⟩ | ⟨call, i, result, hmem, hend⟩
    · exact hsame ▸ hold
    · rcases hend.visits with hsame | ⟨w, visits, rfl, rfl, hkeep⟩
      · exact hsame ▸ hold
      · exact hkeep ▸ hold.keep ⟨i, s.now, hnew hmem, rfl⟩
  · intro c
    have hold := (h.quests c).mono fun _ _ _ hk => Kept.grow hk hsub
    rcases hends c with ⟨-, -, hsame⟩ | ⟨call, i, result, hmem, hend⟩
    · exact hsame ▸ hold
    · rcases hend.quests with hsame | ⟨w, quests, rfl, rfl, hkeep⟩
      · exact hsame ▸ hold
      · exact hkeep ▸ hold.keep ⟨i, s.now, hnew hmem, rfl⟩
  · intro time c call result ttl hmem httl
    rw [hrecord, mem_log] at hmem
    rcases hmem with hold | ⟨htime, hmem⟩
    · obtain ⟨i, got, hgot, hle, hlt⟩ := h.results time c call result ttl hold httl
      exact ⟨i, got, hsub hgot, hle, hlt⟩
    · obtain rfl : time = s.now := htime
      obtain ⟨i, got, hgot, hle, hlt⟩ := hresults c call result ttl hmem httl
      exact ⟨i, got, hsub hgot, hle, hlt⟩

omit [DecidableEq C] in
/-- An answer given without a request is one that is kept. -/
theorem Keeping.returned (h : Keeping s) {c : C} {call : Call P} {result : Result P} {client : MitmMapperClient}
    {ttl : ℚ}
    (hbegin : (s.clients c).begin pb s.now call = (.returned result, client)) (httl : call.ttl = some ttl) :
    ∃ expires, Kept s.record c call result ttl expires ∧ s.now < expires := by
  cases call with
  | getLevel w =>
    simp only [MitmMapperClient.begin] at hbegin
    split at hbegin
    · next level hfind =>
      cases hbegin
      cases httl
      exact (h.levels c).find? hfind
    · cases hbegin
  | getPokeStopVisits w =>
    simp only [MitmMapperClient.begin] at hbegin
    split at hbegin
    · next visits hfind =>
      cases hbegin
      cases httl
      exact (h.visits c).find? hfind
    · cases hbegin
  | getQuestsHeld w =>
    simp only [MitmMapperClient.begin] at hbegin
    split at hbegin
    · next quests hfind =>
      cases hbegin
      cases httl
      exact (h.quests c).find? hfind
    · cases hbegin
  | getInjectionStatus w | getLastKnownLocation w => cases hbegin
  | _ => cases httl

theorem sameKept_setClient (s : Mapper C P) (d : C) {client : MitmMapperClient}
    (h : SameKept (s.clients d) client) (c : C) :
    SameKept (s.clients c) ((s.setClient d client).clients c) := by
  simp only [Mapper.setClient, Function.update_apply]
  split
  · next hd => exact hd ▸ h
  · exact ⟨rfl, rfl, rfl⟩

theorem ends_setClient {events : List (Event C P)} {d : C} {call : Call P} {i : Nat} {result : Result P}
    {client : MitmMapperClient} (hmem : Event.returned d call (some i) result ∈ events)
    (h : Ends s.now (s.clients d) client call result) (c : C) :
    SameKept (s.clients c) ((s.setClient d client).clients c) ∨ ∃ call i result,
      Event.returned c call (some i) result ∈ events ∧
        Ends s.now (s.clients c) ((s.setClient d client).clients c) call result := by
  by_cases hd : c = d
  · subst hd
    refine .inr ⟨call, i, result, hmem, ?_⟩
    simp only [Mapper.setClient, Function.update_self]
    exact h
  · refine .inl ?_
    simp only [Mapper.setClient, Function.update_of_ne hd]
    exact ⟨rfl, rfl, rfl⟩

theorem keeping_step (h : Keeping s) (hrecorded : Recorded pb s) (hs : s.step rd pb a = some t) : Keeping t := by
  cases step_cases hs with
  | wait htime => exact ⟨h.levels, h.visits, h.quests, h.results⟩
  | @called d call begun client hbegin =>
    refine h.grow (begun.events d call s.rpcs.length) rfl (fun c => .inl ?_) ?_
    · refine sameKept_setClient s d ?_ c
      have hsame := sameKept_begin pb s.now (s.clients d) call
      rw [hbegin] at hsame
      exact hsame
    · intro c call' result ttl hmem httl
      cases begun with
      | returned result' =>
        simp only [Begun.events, List.mem_pair, reduceCtorEq, false_or] at hmem
        cases hmem
        obtain ⟨expires, ⟨i, got, hgot, rfl⟩, hlt⟩ := h.returned hbegin httl
        exact ⟨i, got, hgot, hrecorded.le_now _ hgot, hlt⟩
      | raised => simp [Begun.events] at hmem
      | sent request => simp [Begun.events] at hmem
  | taken hloop hi hworker => exact ⟨h.levels, h.visits, h.quests, h.results⟩
  | created hloop => exact ⟨h.levels, h.visits, h.quests, h.results⟩
  | @served i d call request waiting reply server _ ha hi hhandle =>
    refine h.grow [.served i s.server reply] rfl (fun c => .inl ⟨rfl, rfl, rfl⟩) ?_
    intro c call' result ttl hmem
    cases List.mem_singleton.mp hmem
  | @went j updates server hserver =>
    refine h.grow (updates.map .updated) rfl (fun c => .inl ⟨rfl, rfl, rfl⟩) ?_
    intro c call' result ttl hmem
    simp at hmem
  | @answered i d call request response result client hi hrest =>
    refine h.grow [.returned d call (some i) result] rfl (ends_setClient (List.mem_singleton_self _) ?_) ?_
    · have hends := ends_answered pb s.now (s.clients d) call response
      rw [hrest] at hends
      exact hends
    · intro c call' result' ttl hmem
      cases List.mem_singleton.mp hmem
  | @failed i d call request reply result client hi hrest =>
    refine h.grow [.failed i, .returned d call (some i) result] rfl
      (ends_setClient (List.mem_pair.mpr (.inr rfl)) ?_) ?_
    · have hends := ends_failed s.now (s.clients d) call
      rw [hrest] at hends
      exact hends
    · intro c call' result' ttl hmem
      simp at hmem

/-! ## What is asked for -/

/-- What the store itself answers to such a call; no quests are no answer. -/
def answer (m : MitmDataHandler P) : Call P → Result P
  | .getLevel w => .number (m.getLevel w)
  | .getPokeStopVisits w => .number (m.getPokeStopVisits w)
  | .getInjectionStatus w => .flag (m.getInjectionStatus w)
  | .getLastKnownLocation w => .location (m.getLastKnownLocation w)
  | .getQuestsHeld w => .quests (match m.getQuestsHeld w with | some [] => none | questsHeld => questsHeld)
  | .setLevel _ _ | .setPokestopVisits _ _ | .updateLatest _ _ _ _ _ _ | .requestLatest _ _ _
  | .setInjectionStatus _ _ | .setQuestsHeld _ _ => .nothing

theorem map_val_of_mapM_field {p : Int → Prop} [DecidablePred p] {l : List Int} {fields : List { i : Int // p i }}
    (h : l.mapM field = some fields) : fields.map Subtype.val = l := by
  induction l generalizing fields with
  | nil =>
    cases h
    rfl
  | cons i l ih =>
    rw [List.mapM_cons] at h
    obtain ⟨f, hf, h⟩ := Option.bind_eq_some_iff.mp h
    obtain ⟨rest, hrest, h⟩ := Option.bind_eq_some_iff.mp h
    cases h
    rw [List.map_cons, field_eq_some.mp hf, ih hrest]

/-- A call that gets the reply to its request answers what is in the store. -/
theorem answered_eq_answer {now : ℚ} {client : MitmMapperClient} {call : Call P} {ttl : ℚ} {request : Request P}
    {server : MitmMapperServer P} {response : Response P} (httl : call.ttl = some ttl)
    (hrequest : MitmMapperClient.request pb call = some request)
    (hhandle : (server.handle pb request).1 = some response) :
    (client.answered pb now call response).1 = answer server.handler call := by
  cases call with
  | getLevel w =>
    cases hrequest
    obtain ⟨level, hlevel, rfl⟩ := Option.map_eq_some_iff.mp hhandle
    exact congrArg Result.number (field_eq_some.mp hlevel)
  | getPokeStopVisits w =>
    cases hrequest
    obtain ⟨visits, hvisits, rfl⟩ := Option.map_eq_some_iff.mp hhandle
    exact congrArg Result.number (field_eq_some.mp hvisits)
  | getQuestsHeld w =>
    cases hrequest
    simp only [MitmMapperServer.handle, MitmMapperServer.getQuestsHeld] at hhandle
    rw [answer]
    cases hheld : server.handler.getQuestsHeld w with
    | none =>
      rw [hheld] at hhandle
      cases hhandle
      rfl
    | some quests =>
      cases quests with
      | nil =>
        rw [hheld] at hhandle
        cases hhandle
        rfl
      | cons q quests =>
        rw [hheld] at hhandle
        obtain ⟨ids, hids, rfl⟩ := Option.map_eq_some_iff.mp hhandle
        exact congrArg (Result.quests ∘ some) (map_val_of_mapM_field hids)
  | getInjectionStatus w | getLastKnownLocation w =>
    cases hrequest
    cases hhandle
    rfl
  | _ => cases httl

/-- In every run, whatever clients are told of the level, the visits, the quests, the injection or the location of a
worker is what they got less than the time of such an answer ago, for a request that failed, or what the store had
while this request was under way. -/
theorem answers_recent {now : ℚ} {l : List (Action C P)} (h : Run (Mapper.step rd pb) Any (Mapper.new now) l s)
    {time ttl : ℚ} {c : C} {call : Call P} {rpc : Option Nat} {result : Result P}
    (hreturned : (time, Event.returned c call rpc result) ∈ s.record) (httl : call.ttl = some ttl) :
    ∃ i got, got ≤ time ∧ time ≤ got + ttl ∧ (got, Event.returned c call (some i) result) ∈ s.record ∧
      ((got, Event.failed i) ∈ s.record ∨ ∃ sent served request server reply, sent ≤ served ∧ served ≤ got ∧
        (sent, Event.sent i c request) ∈ s.record ∧ (served, Event.served i server reply) ∈ s.record ∧
        result = answer server.handler call) := by
  obtain ⟨hrecorded, hkeeping⟩ := h.invariant (I := fun s => Recorded pb s ∧ Keeping s) ⟨.new now, .new now⟩
    fun _ _ _ hi _ hs => ⟨recorded_step hi.1 hs, keeping_step hi.2 hi.1 hs⟩
  have hpos : 0 ≤ ttl := by
    cases call <;> cases httl <;> norm_num
  have hcame : ∀ i got, (got, Event.returned c call (some i) result) ∈ s.record →
      (got, Event.failed i) ∈ s.record ∨ ∃ sent served request server reply, sent ≤ served ∧ served ≤ got ∧
        (sent, Event.sent i c request) ∈ s.record ∧ (served, Event.served i server reply) ∈ s.record ∧
        result = answer server.handler call := by
    intro i got hgot
    obtain ⟨ts, request, hgot⟩ := hrecorded.results got c call i result hgot
    rcases hgot.came with ⟨hfailed, _⟩ | ⟨t0, server, response, client, hts, ht0, hserved, hhandle, hresult⟩
    · exact .inl hfailed
    · refine .inr ⟨ts, t0, request, server, _, hts, ht0, hgot.sent, hserved, ?_⟩
      rw [← hresult]
      exact answered_eq_answer httl hgot.asked hhandle
  cases rpc with
  | some i => exact ⟨i, time, le_rfl, by linarith, hreturned, hcame i time hreturned⟩
  | none =>
    obtain ⟨i, got, hgot, hle, hlt⟩ := hkeeping.results time c call result ttl hreturned httl
    exact ⟨i, got, hle, hlt.le, hgot, hcame i got hgot⟩

/-- A core that asks for a level twice. -/
def askedMapper : Mapper String (List Int) :=
  after (Mapper.step cellsOnly plain) Any (.new 0)
    [.call "receiver" (.setLevel "a" 30), .take 0, .serve, .serve, .call "core" (.getLevel "a"), .take 1, .serve,
      .wait 2, .answer 1, .call "receiver" (.setLevel "a" 31), .take 2, .serve, .wait 50,
      .call "core" (.getLevel "a")]

theorem answers_recent_asked :
    ∃ i got, got ≤ 52 ∧ 52 ≤ got + 60 ∧
      (got, Event.returned "core" (.getLevel "a") (some i) (.number 30)) ∈ askedMapper.record ∧
      ((got, Event.failed i) ∈ askedMapper.record ∨ ∃ sent served request server reply, sent ≤ served ∧ served ≤ got ∧
        (sent, Event.sent i "core" request) ∈ askedMapper.record ∧
        (served, Event.served i server reply) ∈ askedMapper.record ∧
          .number 30 = answer server.handler (.getLevel "a")) :=
  answers_recent (.of_after (by decide +kernel))
    (mem_returns.mp (by decide +kernel :
      (52, "core", .getLevel "a", none, .number 30) ∈ returns askedMapper.record)) rfl

end MapADroid.Mitm.Grpc
