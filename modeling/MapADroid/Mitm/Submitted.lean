import MapADroid.Mitm.Calls

/- The level and the pokestop visits of a worker behind gRPC.

   A client submits a value only if it is not the one it was last told to set, zero at
   first, whatever became of that one (`values_submitted`): a submission that failed is not
   repeated, and a client that only ever resets the level never submits it. If a single
   client sets the value, one call after the other and none of them failing, the store has
   the value set last (`value_kept`), unless data of the worker that a thread, or the loop of the
   server, did not find are made while it makes some itself: it replaces them. -/
namespace MapADroid.Mitm.Grpc
open Lib

variable {C P : Type}

/-- The two values a client keeps to submit changes only. -/
inductive Setter where
  | level
  | pokestopVisits
  deriving DecidableEq

namespace Setter

/-- The value a call sets of a worker. -/
def ofCall (k : Setter) (w : String) (call : Call P) : Option Int :=
  match k, call with
  | .level, .setLevel worker v => if worker = w then some v else none
  | .pokestopVisits, .setPokestopVisits worker v => if worker = w then some v else none
  | _, _ => none

/-- The value a request submits of a worker. -/
def ofRequest (k : Setter) (w : String) (request : Request P) : Option Int :=
  match k, request with
  | .level, .setLevel worker v => if worker = w then some v.val else none
  | .pokestopVisits, .setPokestopVisits worker v => if worker = w then some v.val else none
  | _, _ => none

/-- The value a client was last told to set. -/
def last (k : Setter) (client : MitmMapperClient) (w : String) : Int :=
  match k with
  | .level => client.lastLevel w
  | .pokestopVisits => client.lastVisits w

/-- The value in the data of a worker. -/
def ofPlayer (k : Setter) (p : PlayerData P) : Int :=
  match k with
  | .level => p.level
  | .pokestopVisits => p.pokeStopVisits

/-- The value in the store. -/
def stored (k : Setter) (m : MitmDataHandler P) (w : String) : Int := k.ofPlayer (m.player w)

end Setter

/-- The value fits into its field. -/
def Fits (v : Int) : Prop := -2 ^ 31 ≤ v ∧ v < 2 ^ 31

instance (v : Int) : Decidable (Fits v) := inferInstanceAs (Decidable (_ ∧ _))

/-- The values that differ from the one before, `v` before the first. -/
def changes (v : Int) (l : List Int) : List Int := (l.destutter' (· ≠ ·) v).tail

/-- The value a call submits. -/
def Begun.submits (k : Setter) (w : String) : Begun P → List Int
  | .sent request => (k.ofRequest w request).toList
  | _ => []

theorem destutter'_snoc (l : List Int) (v x : Int) :
    (l ++ [x]).destutter' (· ≠ ·) v = l.destutter' (· ≠ ·) v ++ if l.getLastD v = x then [] else [x] := by
  induction l generalizing v with
  | nil =>
    rw [List.nil_append, List.destutter'_singleton, List.destutter'_nil, List.getLastD_nil]
    by_cases h : v = x
    · simp [h]
    · simp [h]
  | cons y l ih =>
    rw [List.cons_append, List.destutter'_cons, List.destutter'_cons, List.getLastD_cons]
    by_cases h : v = y
    · simp only [h, ne_eq, not_true_eq_false, if_false]
      exact ih y
    · simp only [ne_eq, h, not_false_eq_true, if_true, List.cons_append]
      rw [ih y]

theorem changes_snoc (v : Int) (l : List Int) (x : Int) :
    changes v (l ++ [x]) = changes v l ++ if l.getLastD v = x then [] else [x] := by
  rw [changes, destutter'_snoc, List.tail_append_of_ne_nil (List.destutter'_ne_nil l _), changes]

/-! ## What a call does to the values -/

theorem submits_ofRequest {v : Int} {w worker : String} (k : Setter) (f : Int32Field → Request P)
    (hf : ∀ i, k.ofRequest w (f i) = if worker = w then some i.val else none) :
    (Begun.ofRequest ((field v).map f)).submits k w = if worker = w ∧ Fits v then [v] else [] := by
  unfold field
  by_cases hv : -2 ^ 31 ≤ v ∧ v < 2 ^ 31
  · have hfits : Fits v := hv
    simp only [dif_pos hv, Option.map_some, Begun.ofRequest, Begun.submits, hf]
    by_cases hw : worker = w
    · simp [hw, hfits]
    · simp [hw]
  · have hfits : ¬Fits v := hv
    rw [dif_neg hv, if_neg fun h => hfits h.2]
    rfl

/-- A request submits the value that its call sets. -/
theorem ofRequest_eq_ofCall {pb : Protobuf P} {call : Call P} {request : Request P}
    (h : MitmMapperClient.request pb call = some request) (k : Setter) (w : String) :
    k.ofRequest w request = k.ofCall w call := by
  cases call with
  | setLevel worker level =>
    obtain ⟨l, hl, rfl⟩ := Option.map_eq_some_iff.mp h
    cases k <;> simp [Setter.ofRequest, Setter.ofCall, field_eq_some.mp hl]
  | setPokestopVisits worker visits =>
    obtain ⟨v, hv, rfl⟩ := Option.map_eq_some_iff.mp h
    cases k <;> simp [Setter.ofRequest, Setter.ofCall, field_eq_some.mp hv]
  | updateLatest worker key value raw receiver location =>
    simp only [MitmMapperClient.request, MitmMapperClient.updateLatest, Option.bind_eq_bind,
      Option.bind_eq_some_iff] at h
    obtain ⟨_, _, _, _, _, _, h⟩ := h
    cases h
    cases k <;> rfl
  | requestLatest worker key earliest =>
    simp only [MitmMapperClient.request, MitmMapperClient.requestLatest, Option.bind_eq_bind,
      Option.bind_eq_some_iff] at h
    obtain ⟨_, _, h⟩ := h
    cases h
    cases k <;> rfl
  | setQuestsHeld worker questsHeld =>
    simp only [MitmMapperClient.request, MitmMapperClient.setQuestsHeld] at h
    split at h
    · cases h; cases k <;> rfl
    · cases h; cases k <;> rfl
    · obtain ⟨_, _, rfl⟩ := Option.map_eq_some_iff.mp h
      cases k <;> rfl
  | _ => cases h; cases k <;> rfl

/-- A setter: the value is the last one, and is submitted if it was not before. -/
theorem begin_setter (pb : Protobuf P) (now : ℚ) (client : MitmMapperClient) {call : Call P} {k : Setter} {w : String}
    {v : Int} (h : k.ofCall w call = some v) :
    k.last (client.begin pb now call).2 w = v ∧
      (client.begin pb now call).1.submits k w = if k.last client w ≠ v ∧ Fits v then [v] else [] := by
  cases k with
  | level =>
    cases call with
    | setLevel worker level =>
      simp only [Setter.ofCall, Option.ite_none_right_eq_some, Option.some.injEq] at h
      obtain ⟨rfl, rfl⟩ := h
      simp only [MitmMapperClient.begin, MitmMapperClient.setLevel, Setter.last]
      by_cases hsame : client.lastLevel worker = level
      · simp [hsame, Begun.submits]
      · rw [if_neg hsame]
        refine ⟨(Dict.getD_get?_insert ..).trans (if_pos rfl), ?_⟩
        rw [submits_ofRequest .level (.setLevel worker) fun _ => rfl]
        simp [hsame]
    | _ => cases h
  | pokestopVisits =>
    cases call with
    | setPokestopVisits worker visits =>
      simp only [Setter.ofCall, Option.ite_none_right_eq_some, Option.some.injEq] at h
      obtain ⟨rfl, rfl⟩ := h
      simp only [MitmMapperClient.begin, MitmMapperClient.setPokestopVisits, Setter.last]
      by_cases hsame : client.lastVisits worker = visits
      · simp [hsame, Begun.submits]
      · rw [if_neg hsame]
        refine ⟨(Dict.getD_get?_insert ..).trans (if_pos rfl), ?_⟩
        rw [submits_ofRequest .pokestopVisits (.setPokestopVisits worker) fun _ => rfl]
        simp [hsame]
    | _ => cases h

/-- A call that does not set the value of the worker. -/
theorem begin_unset (pb : Protobuf P) (now : ℚ) (client : MitmMapperClient) {call : Call P} {k : Setter} {w : String}
    (h : k.ofCall w call = none) :
    k.last (client.begin pb now call).2 w = k.last client w ∧ (client.begin pb now call).1.submits k w = [] := by
  constructor
  · cases call with
    | setLevel worker level =>
      simp only [MitmMapperClient.begin, MitmMapperClient.setLevel]
      split
      · rfl
      · cases k with
        | level =>
          have hw : w ≠ worker := by
            rintro rfl
            simp [Setter.ofCall] at h
          exact (Dict.getD_get?_insert ..).trans (if_neg hw)
        | pokestopVisits => rfl
    | setPokestopVisits worker visits =>
      simp only [MitmMapperClient.begin, MitmMapperClient.setPokestopVisits]
      split
      · rfl
      · cases k with
        | level => rfl
        | pokestopVisits =>
          have hw : w ≠ worker := by
            rintro rfl
            simp [Setter.ofCall] at h
          exact (Dict.getD_get?_insert ..).trans (if_neg hw)
    | getPokeStopVisits worker | getLevel worker | getQuestsHeld worker =>
      simp only [MitmMapperClient.begin]
      split <;> rfl
    | _ => rfl
  · cases hbegun : (client.begin pb now call).1 with
    | sent request =>
      rw [Begun.submits, ofRequest_eq_ofCall (MitmMapperClient.request_of_begin hbegun), h]
      rfl
    | _ => rfl

/-! ## What the other steps do to them -/

theorem last_answered (pb : Protobuf P) (k : Setter) (now : ℚ) (client : MitmMapperClient) (call : Call P)
    (response : Response P) (w : String) : k.last (client.answered pb now call response).2 w = k.last client w := by
  unfold MitmMapperClient.answered
  split <;> cases k <;> rfl

theorem last_failed (k : Setter) (now : ℚ) (client : MitmMapperClient) (call : Call P) (w : String) :
    k.last (client.failed now call).2 w = k.last client w := by
  unfold MitmMapperClient.failed
  split <;> cases k <;> rfl

theorem stored_assign (k : Setter) {server : MitmMapperServer P} (h : server.store.WellFormed) {worker : String}
    (hworker : (server.store.workerData.get? worker).isSome = true) (f : PlayerData P → PlayerData P) (w : String) :
    k.stored (server.assign worker f).handler w =
      if w = worker then k.ofPlayer (f (server.handler.player w)) else k.stored server.handler w := by
  unfold Setter.stored
  rw [MitmMapperServer.player_assign h hworker, apply_ite k.ofPlayer]

/-- Serving a request stores the value it submits. -/
theorem stored_handle (pb : Protobuf P) (k : Setter) {server : MitmMapperServer P} (h : server.store.WellFormed)
    {request : Request P}
    (hworker : ∀ worker, request.worker? = some worker → (server.store.workerData.get? worker).isSome = true)
    (w : String) :
    k.stored (server.handle pb request).2.handler w = (k.ofRequest w request).getD (k.stored server.handler w) := by
  cases request with
  | setLevel worker level =>
    refine (stored_assign k h (hworker worker rfl) _ w).trans ?_
    by_cases hw : w = worker
    · subst hw
      cases k <;> simp [Setter.ofRequest, Setter.ofPlayer, Setter.stored]
    · cases k <;> simp [Setter.ofRequest, hw, Ne.symm hw]
  | setPokestopVisits worker visits =>
    refine (stored_assign k h (hworker worker rfl) _ w).trans ?_
    by_cases hw : w = worker
    · subst hw
      cases k <;> simp [Setter.ofRequest, Setter.ofPlayer, Setter.stored]
    · cases k <;> simp [Setter.ofRequest, hw, Ne.symm hw]
  | setInjected worker isInjected =>
    refine (stored_assign k h (hworker worker rfl) _ w).trans ?_
    split
    · next hw => subst hw; cases k <;> rfl
    · cases k <;> rfl
  | setQuestsHeld worker questsHeld =>
    refine (stored_assign k h (hworker worker rfl) _ w).trans ?_
    split
    · next hw => subst hw; cases k <;> rfl
    · cases k <;> rfl
  | _ => cases k <;> rfl

/-- A thread keeps them, unless it makes new data of a worker that has some. -/
theorem stored_goOn {rd : PayloadReader P} (k : Setter) {store : Store P} (h : store.WellFormed) (u : Update P)
    (place : Place P) {w : String}
    (hspared : place.creates = true → u.worker = w → store.workerData.get? w = none) :
    k.stored (place.goOn rd store u).2.handler w = k.stored store.handler w := by
  rcases Place.goOn_store rd store u place with heq | ⟨hcreates, heq⟩ | ⟨r, f, _, heq, hkeeps⟩
  · rw [heq]
  · rw [heq, Setter.stored, h.player_create (hspared hcreates)]
    rfl
  · have hsame : ∀ p, k.ofPlayer (f p) = k.ofPlayer p := by
      intro p
      cases k
      · exact (hkeeps p).1
      · exact (hkeeps p).2
    rw [heq, Setter.stored, Setter.stored, Store.player_handler, Store.player_handler, Store.modify_workerData]
    cases store.workerData.get? w with
    | none => rfl
    | some r' =>
      show k.ofPlayer ((store.modify r f).heap r') = k.ofPlayer (store.heap r')
      rw [Store.modify_heap]
      split
      · exact hsame _
      · rfl

/-! ## What a client was told and what it submitted -/

variable [DecidableEq C]

/-- The value of the worker that the client is told to set. -/
def Event.calledValue (k : Setter) (c : C) (w : String) : Event C P → Option Int
  | .called d call => if d = c then k.ofCall w call else none
  | _ => none

/-- The value of the worker that the client submits. -/
def Event.submittedValue (k : Setter) (c : C) (w : String) : Event C P → Option Int
  | .sent _ d request => if d = c then k.ofRequest w request else none
  | _ => none

def calledValues (k : Setter) (c : C) (w : String) (record : List (ℚ × Event C P)) : List Int :=
  record.filterMap fun e => e.2.calledValue k c w

def submittedValues (k : Setter) (c : C) (w : String) (record : List (ℚ × Event C P)) : List Int :=
  record.filterMap fun e => e.2.submittedValue k c w

variable {rd : PayloadReader P} {pb : Protobuf P} {s t : Mapper C P} {a : Action C P} {k : Setter} {c : C} {w : String}

theorem calledValues_log (s : Mapper C P) (events : List (Event C P)) :
    calledValues k c w (s.log events).record =
      calledValues k c w s.record ++ events.filterMap (·.calledValue k c w) := by
  simp [calledValues, Mapper.log, List.filterMap_map]

theorem submittedValues_log (s : Mapper C P) (events : List (Event C P)) :
    submittedValues k c w (s.log events).record =
      submittedValues k c w s.record ++ events.filterMap (·.submittedValue k c w) := by
  simp [submittedValues, Mapper.log, List.filterMap_map]

theorem events_calledValue (d : C) (call : Call P) (i : Nat) (begun : Begun P) :
    (begun.events d call i).filterMap (·.calledValue k c w) = if d = c then (k.ofCall w call).toList else [] := by
  by_cases hd : d = c
  · cases hcall : k.ofCall w call <;> cases begun <;> simp [Begun.events, Event.calledValue, hd, hcall]
  · cases begun <;> simp [Begun.events, Event.calledValue, hd]

theorem events_submittedValue (d : C) (call : Call P) (i : Nat) (begun : Begun P) :
    (begun.events d call i).filterMap (·.submittedValue k c w) = if d = c then begun.submits k w else [] := by
  by_cases hd : d = c
  · cases begun with
    | sent request =>
      cases hreq : k.ofRequest w request <;> simp [Begun.events, Event.submittedValue, Begun.submits, hd, hreq]
    | _ => simp [Begun.events, Event.submittedValue, Begun.submits]
  · cases begun <;> simp [Begun.events, Event.submittedValue, hd]

theorem updated_calledValue (updates : List (Update P)) :
    (updates.map (.updated : Update P → Event C P)).filterMap (·.calledValue k c w) = [] := by
  simp [Event.calledValue]

theorem updated_submittedValue (updates : List (Update P)) :
    (updates.map (.updated : Update P → Event C P)).filterMap (·.submittedValue k c w) = [] := by
  simp [Event.submittedValue]

/-- The client knows what it was told last, and has submitted what changed. -/
structure Submitting (k : Setter) (c : C) (w : String) (s : Mapper C P) : Prop where
  last : k.last (s.clients c) w = (calledValues k c w s.record).getLastD 0
  submitted : submittedValues k c w s.record = (changes 0 (calledValues k c w s.record)).filter Fits

theorem Submitting.new (now : ℚ) : Submitting k c w (Mapper.new now : Mapper C P) where
  last := by cases k <;> rfl
  submitted := rfl

/-- A step that calls nothing. -/
theorem Submitting.keep (h : Submitting k c w s) (hlast : k.last (t.clients c) w = k.last (s.clients c) w)
    (hcalled : calledValues k c w t.record = calledValues k c w s.record)
    (hsubmitted : submittedValues k c w t.record = submittedValues k c w s.record) : Submitting k c w t where
  last := by rw [hlast, hcalled, h.last]
  submitted := by rw [hsubmitted, hcalled, h.submitted]

theorem last_setClient (s : Mapper C P) (d : C) {client : MitmMapperClient}
    (h : k.last client w = k.last (s.clients d) w) :
    k.last ((s.setClient d client).clients c) w = k.last (s.clients c) w := by
  simp only [Mapper.setClient, Function.update_apply]
  split
  · next hd => rw [h, hd]
  · rfl

theorem submitting_step (h : Submitting k c w s) (hs : s.step rd pb a = some t) : Submitting k c w t := by
  cases step_cases hs with
  | wait htime => exact ⟨h.last, h.submitted⟩
  | @called d call begun client hbegin =>
    have hclient : client = ((s.clients d).begin pb s.now call).2 := by rw [hbegin]
    have hbegun : begun = ((s.clients d).begin pb s.now call).1 := by rw [hbegin]
    by_cases hd : d = c
    · subst hd
      cases hcall : k.ofCall w call with
      | none =>
        obtain ⟨hlast, hsubmits⟩ := begin_unset pb s.now (s.clients d) hcall
        rw [← hclient] at hlast
        rw [← hbegun] at hsubmits
        refine h.keep (last_setClient s d hlast) ?_ ?_
        · rw [calledValues_log, events_calledValue, if_pos rfl, hcall]
          exact List.append_nil _
        · rw [submittedValues_log, events_submittedValue, if_pos rfl, hsubmits]
          exact List.append_nil _
      | some v =>
        obtain ⟨hlast, hsubmits⟩ := begin_setter pb s.now (s.clients d) hcall
        rw [← hclient] at hlast
        rw [← hbegun, h.last] at hsubmits
        have hcalled : calledValues k d w (Mapper.log { s.setClient d client with
            rpcs := s.rpcs ++ begun.rpcs d call } (begun.events d call s.rpcs.length)).record =
            calledValues k d w s.record ++ [v] := by
          rw [calledValues_log, events_calledValue, if_pos rfl, hcall]
          rfl
        constructor
        · rw [hcalled, List.getLastD_concat]
          simp only [Mapper.log, Mapper.setClient, Function.update_self]
          exact hlast
        · rw [hcalled, submittedValues_log, events_submittedValue, if_pos rfl, hsubmits, changes_snoc,
          List.filter_append]
          refine congrArg₂ _ h.submitted ?_
          by_cases hsame : (calledValues k d w s.record).getLastD 0 = v
          · simp only [hsame, ne_eq, not_true_eq_false, false_and, if_false, if_true, List.filter_nil]
          · simp only [ne_eq, hsame, not_false_eq_true, true_and, if_false]
            by_cases hfits : Fits v
            · simp [hfits]
            · simp [hfits]
    · refine h.keep ?_ ?_ ?_
      · simp only [Mapper.log, Mapper.setClient, Function.update_of_ne (Ne.symm hd)]
      · rw [calledValues_log, events_calledValue, if_neg hd]
        exact List.append_nil _
      · rw [submittedValues_log, events_submittedValue, if_neg hd]
        exact List.append_nil _
  | taken hloop hi hworker => exact ⟨h.last, h.submitted⟩
  | created hloop => exact ⟨h.last, h.submitted⟩
  | served ha hi hhandle =>
    refine h.keep rfl ?_ ?_
    · exact (calledValues_log _ _).trans (List.append_nil _)
    · exact (submittedValues_log _ _).trans (List.append_nil _)
  | went hserver =>
    refine h.keep rfl ?_ ?_
    · rw [calledValues_log, updated_calledValue]
      exact List.append_nil _
    · rw [submittedValues_log, updated_submittedValue]
      exact List.append_nil _
  | @answered i d call request response result client hi hrest =>
    refine h.keep (last_setClient s d ?_) ?_ ?_
    · have hlast := last_answered pb k s.now (s.clients d) call response w
      rw [hrest] at hlast
      exact hlast
    · exact (calledValues_log _ _).trans (List.append_nil _)
    · exact (submittedValues_log _ _).trans (List.append_nil _)
  | @failed i d call request reply result client hi hrest =>
    refine h.keep (last_setClient s d ?_) ?_ ?_
    · have hlast := last_failed k s.now (s.clients d) call w
      rw [hrest] at hlast
      exact hlast
    · exact (calledValues_log _ _).trans (List.append_nil _)
    · exact (submittedValues_log _ _).trans (List.append_nil _)

/-- In every run a client submits exactly those of the values it was told to set of a worker that differ from the
one before, zero before the first, and fit into the field. -/
theorem values_submitted {now : ℚ} {l : List (Action C P)}
    (h : Run (Mapper.step rd pb) Any (Mapper.new now) l s) (k : Setter) (c : C) (w : String) :
    submittedValues k c w s.record = (changes 0 (calledValues k c w s.record)).filter Fits :=
  (h.invariant (Submitting.new now) fun _ _ _ hs _ => submitting_step hs).submitted

/-- A receiver whose first submission fails, and a core that resets a level it never set. -/
def resetMapper : Mapper String (List Int) :=
  after (Mapper.step cellsOnly plain) Any (.new 0)
    [.call "receiver" (.setLevel "a" 30), .fail 0, .call "receiver" (.setLevel "a" 30),
      .call "receiver" (.setLevel "a" 31), .take 1, .serve, .serve, .answer 1, .call "core" (.setLevel "a" 0)]

theorem values_submitted_reset : submittedValues .level "receiver" "a" resetMapper.record =
    (changes 0 (calledValues .level "receiver" "a" resetMapper.record)).filter Fits :=
  values_submitted (.of_after (by decide +kernel)) .level "receiver" "a"

-- 30 is submitted once though that failed, and the reset not at all: the store keeps 31
example : submittedValues .level "receiver" "a" resetMapper.record = [30, 31] ∧
    submittedValues .level "core" "a" resetMapper.record = [] ∧ resetMapper.server.handler.getLevel "a" = 31 := by
  decide +kernel

/-! ## A value that one client sets -/

/-- No call that sets the value of the worker is under way. -/
def Idle (k : Setter) (w : String) (s : Mapper C P) : Prop :=
  ∀ rpc ∈ s.rpcs, (k.ofCall w rpc.call).isSome → rpc.waiting = false

/-- Only the client `c` sets the value, one call after the other, to what fits the field, and no such call fails. -/
def InTurn (k : Setter) (c : C) (w : String) (s : Mapper C P) : Action C P → Prop
  | .call d call => ∀ v ∈ k.ofCall w call, d = c ∧ Fits v ∧ Idle k w s
  | .fail i => ∀ rpc ∈ s.rpcs[i]?, k.ofCall w rpc.call = none
  | _ => True

instance (k : Setter) (w : String) (s : Mapper C P) : Decidable (Idle k w s) :=
  inferInstanceAs (Decidable (∀ rpc ∈ s.rpcs, _ → _))

instance (k : Setter) (c : C) (w : String) (s : Mapper C P) : (a : Action C P) → Decidable (InTurn k c w s a)
  | .call _ call => inferInstanceAs (Decidable (∀ v ∈ k.ofCall w call, _))
  | .fail i => inferInstanceAs (Decidable (∀ rpc ∈ s.rpcs[i]?, _))
  | .wait _ | .take _ | .serve | .thread _ | .answer _ => isTrue trivial

/-- What is still to be served is the value the client was told last; if nothing is, the store has it. -/
structure Following (k : Setter) (c : C) (w : String) (s : Mapper C P) : Prop where
  set : ∀ (i : Nat) (rpc : Rpc C P) (v : Int), s.rpcs[i]? = some rpc → k.ofRequest w rpc.request = some v →
    k.ofCall w rpc.call = some v
  pending : ∀ (i : Nat) (rpc : Rpc C P) (v : Int), s.rpcs[i]? = some rpc → k.ofRequest w rpc.request = some v →
    rpc.reply = none →
    k.last (s.clients c) w = v ∧ rpc.waiting = true
  stored : (∀ (i : Nat) (rpc : Rpc C P) (v : Int), s.rpcs[i]? = some rpc → k.ofRequest w rpc.request = some v →
    rpc.reply ≠ none) →
    k.stored s.server.handler w = k.last (s.clients c) w

omit [DecidableEq C] in
theorem Following.new (now : ℚ) : Following k c w (Mapper.new now : Mapper C P) where
  set i rpc v hi := by simp [Mapper.new] at hi
  pending i rpc v hi := by simp [Mapper.new] at hi
  stored _ := by cases k <;> rfl

/-- A request that submits the value is one of a call that sets it. -/
theorem ofCall_of_sent {now : ℚ} {client client' : MitmMapperClient} {call : Call P} {request : Request P} {v : Int}
    (hbegin : client.begin pb now call = (.sent request, client')) (hreq : k.ofRequest w request = some v) :
    k.ofCall w call = some v := by
  rw [← ofRequest_eq_ofCall (MitmMapperClient.request_of_begin (congrArg Prod.fst hbegin))]
  exact hreq

omit [DecidableEq C] in
/-- The server has served a request that submits nothing of the worker, or a client got what became of one. -/
theorem Following.keep {i : Nat} {old new : Rpc C P} (h : Following k c w s) (hi : s.rpcs[i]? = some old)
    (hrpcs : t.rpcs = s.rpcs.set i new) (hcall : new.call = old.call) (hreq : new.request = old.request)
    (hlast : k.last (t.clients c) w = k.last (s.clients c) w)
    (hstored : k.stored t.server.handler w = k.stored s.server.handler w)
    (hkept : ∀ v, k.ofRequest w old.request = some v → new.reply = old.reply ∧
      (old.reply = none → new.waiting = old.waiting)) :
    Following k c w t where
  set j rpc v hj hv := by
    rw [hrpcs] at hj
    rcases rpcs_set hi hj with ⟨rfl, rfl⟩ | ⟨_, hj⟩
    · rw [hcall]
      exact h.set i old v hi (hreq ▸ hv)
    · exact h.set j rpc v hj hv
  pending j rpc v hj hv hreply := by
    rw [hlast]
    rw [hrpcs] at hj
    rcases rpcs_set hi hj with ⟨rfl, rfl⟩ | ⟨_, hj⟩
    · rw [hreq] at hv
      obtain ⟨hsame, hwaiting⟩ := hkept v hv
      rw [hsame] at hreply
      rw [hwaiting hreply]
      exact h.pending i old v hi hv hreply
    · exact h.pending j rpc v hj hv hreply
  stored hserved := by
    rw [hlast, hstored]
    refine h.stored fun j rpc v hj hv => ?_
    by_cases hij : i = j
    · subst hij
      cases hi.symm.trans hj
      rw [← (hkept v hv).1]
      refine hserved i new v ?_ (hreq ▸ hv)
      rw [hrpcs, List.getElem?_set, if_pos rfl, if_pos (List.getElem?_eq_some_iff.mp hi).1]
    · refine hserved j rpc v ?_ hv
      rw [hrpcs, List.getElem?_set, if_neg hij]
      exact hj

theorem following_step (h : Following k c w s) (hready : Ready s) (hok : InTurn k c w s a) (hspares : Spares w s a)
    (hs : s.step rd pb a = some t) : Following k c w t := by
  cases step_cases hs with
  | wait htime => exact ⟨h.set, h.pending, h.stored⟩
  | @called d call begun client hbegin =>
    have hclient : client = ((s.clients d).begin pb s.now call).2 := by rw [hbegin]
    cases hcall : k.ofCall w call with
    | none =>
      have hsilent : ∀ request v, begun = .sent request → k.ofRequest w request ≠ some v := by
        intro request v hsent hv
        subst hsent
        rw [ofCall_of_sent hbegin hv] at hcall
        cases hcall
      have hlast : k.last ((s.setClient d client).clients c) w = k.last (s.clients c) w := by
        refine last_setClient s d ?_
        rw [hclient]
        exact (begin_unset pb s.now (s.clients d) hcall).1
      constructor
      · intro j rpc v hj hv
        rcases rpcs_call hj with hj | ⟨request, hsent, _, rfl⟩
        · exact h.set j rpc v hj hv
        · exact absurd hv (hsilent request v hsent)
      · intro j rpc v hj hv hreply
        rcases rpcs_call hj with hj | ⟨request, hsent, _, rfl⟩
        · obtain ⟨hpending, hwaiting⟩ := h.pending j rpc v hj hv hreply
          exact ⟨hlast.trans hpending, hwaiting⟩
        · exact absurd hv (hsilent request v hsent)
      · intro hserved
        refine (h.stored fun j rpc v hj hv => hserved j rpc v ?_ hv).trans hlast.symm
        exact (List.getElem?_append_left (List.getElem?_eq_some_iff.mp hj).1).trans hj
    | some v =>
      obtain ⟨rfl, hfits, hidle⟩ := hok v hcall
      obtain ⟨hlast, hsubmits⟩ := begin_setter pb s.now (s.clients d) hcall
      rw [← hclient] at hlast
      rw [hbegin] at hsubmits
      have hnew : k.last ((s.setClient d client).clients d) w = v := by
        simp only [Mapper.setClient, Function.update_self]
        exact hlast
      -- whatever was submitted before has been served: no call that sets the value is under way
      have hserved : ∀ (j : Nat) (rpc : Rpc C P) (u : Int), s.rpcs[j]? = some rpc →
        k.ofRequest w rpc.request = some u → rpc.reply ≠ none := by
        intro j rpc u hj hu hreply
        have hset := hidle rpc (List.mem_of_getElem? hj) (by rw [h.set j rpc u hj hu]; rfl)
        rw [(h.pending j rpc u hj hu hreply).2] at hset
        cases hset
      constructor
      · intro j rpc u hj hu
        rcases rpcs_call hj with hj | ⟨request, rfl, _, rfl⟩
        · exact h.set j rpc u hj hu
        · exact ofCall_of_sent hbegin hu
      · intro j rpc u hj hu hreply
        rcases rpcs_call hj with hj | ⟨request, rfl, _, rfl⟩
        · exact absurd hreply (hserved j rpc u hj hu)
        · have hv : some v = some u := hcall.symm.trans (ofCall_of_sent hbegin hu)
          exact ⟨hnew.trans (Option.some.inj hv), rfl⟩
      · intro hnone
        refine Eq.trans (h.stored hserved) (Eq.trans ?_ hnew.symm)
        by_contra hchanged
        rw [if_pos ⟨hchanged, hfits⟩] at hsubmits
        cases begun with
        | sent request =>
          have hv : k.ofRequest w request = some v := Option.toList_eq_singleton_iff.mp hsubmits
          exact hnone s.rpcs.length ⟨d, call, request, none, true⟩ v List.getElem?_concat_length hv rfl
        | _ => cases hsubmits
  | taken hloop hi hworker => exact ⟨h.set, h.pending, h.stored⟩
  | @created i worker hloop =>
    refine ⟨h.set, h.pending, fun hserved => Eq.trans ?_ (h.stored hserved)⟩
    have hnone : worker = w → s.server.store.workerData.get? w = none :=
      fun hw => Dict.get?_eq_none_iff.mpr (hspares _ hloop rfl hw)
    exact congrArg k.ofPlayer (hready.store.player_create hnone)
  | @served i d call request waiting reply server _ ha hi hhandle =>
    have hstored := stored_handle pb k hready.store (hready.served ha hi) w
    rw [hhandle] at hstored
    cases hreq : k.ofRequest w request with
    | none =>
      rw [hreq] at hstored
      exact h.keep hi rfl rfl rfl rfl hstored fun v hv => absurd (hreq.symm.trans hv) (by simp)
    | some v =>
      -- the value is stored now, and it is the one the client was told last
      rw [hreq] at hstored
      have hlast := (h.pending i _ v hi hreq rfl).1
      constructor
      · intro j rpc u hj hu
        rcases rpcs_set hi hj with ⟨rfl, rfl⟩ | ⟨_, hj⟩
        · have hset := h.set i _ u hi hu
          exact hset
        · exact h.set j rpc u hj hu
      · intro j rpc u hj hu hreply
        rcases rpcs_set hi hj with ⟨rfl, rfl⟩ | ⟨_, hj⟩
        · cases hreply
        · exact h.pending j rpc u hj hu hreply
      · intro _
        exact hstored.trans hlast.symm
  | @went j updates server hserver =>
    obtain ⟨u, place, hj, _, hstore, _⟩ := MitmMapperServer.goOn_some hserver
    refine ⟨h.set, h.pending, fun hserved => Eq.trans ?_ (h.stored hserved)⟩
    show k.stored server.store.handler w = k.stored s.server.store.handler w
    rw [hstore]
    exact stored_goOn k hready.store u place fun hcreates hw =>
      Dict.get?_eq_none_iff.mpr (hspares _ hj hcreates hw)
  | @answered i d call request response result client hi hrest =>
    have hlast := last_answered pb k s.now (s.clients d) call response w
    rw [hrest] at hlast
    exact h.keep hi rfl rfl rfl (last_setClient s d hlast) rfl fun v _ => ⟨rfl, fun hreply => by cases hreply⟩
  | @failed i d call request reply result client hi hrest =>
    have hlast := last_failed k s.now (s.clients d) call w
    rw [hrest] at hlast
    refine h.keep hi rfl rfl rfl (last_setClient s d hlast) rfl fun v hv => absurd (h.set i _ v hi hv) ?_
    rw [hok _ hi]
    simp

/-- If one client sets a value, in turn, to what fits and without failing, and no data of the worker are replaced,
then the store has the value it was told last, zero before the first, whenever no such call is under way. -/
theorem value_kept {now : ℚ} {l : List (Action C P)} {k : Setter} {c : C} {w : String}
    (h : Run (Mapper.step rd pb) (fun s a => InTurn k c w s a ∧ Spares w s a) (Mapper.new now) l s)
    (hidle : Idle k w s) : k.stored s.server.handler w = (calledValues k c w s.record).getLastD 0 := by
  have hfollowing : Ready s ∧ Following k c w s := h.invariant (I := fun s => Ready s ∧ Following k c w s)
    ⟨.new now, .new now⟩
    fun _ _ _ hf hok hs => ⟨ready_step hf.1 hs, following_step hf.2 hf.1 hok.1 hok.2 hs⟩
  have hlast : k.last (s.clients c) w = _ :=
    (h.invariant (Submitting.new now) fun _ _ _ hsub _ hs => submitting_step hsub hs).last
  rw [← hlast]
  refine hfollowing.2.stored fun i rpc v hi hv hreply => ?_
  have hwaiting := hidle rpc (List.mem_of_getElem? hi) (by rw [hfollowing.2.set i rpc v hi hv]; rfl)
  rw [(hfollowing.2.pending i rpc v hi hv hreply).2] at hwaiting
  cases hwaiting

/-- A level that is raised twice, while a thread updates the data of the worker. -/
def raisedMapper : Mapper String (List Int) :=
  after (Mapper.step cellsOnly plain) (fun s a => InTurn .level "receiver" "a" s a ∧ Spares "a" s a) (.new 0)
    [.call "receiver" (.updateLatest "a" gmoKey [1] none none none), .take 0, .thread 0, .thread 0,
      .call "receiver" (.setLevel "a" 30), .take 1, .thread 0, .serve, .answer 1, .call "core" (.getLevel "a"),
      .call "receiver" (.setLevel "a" 31), .take 3, .serve, .thread 0, .take 2, .serve, .answer 3, .fail 2]

theorem value_kept_raised : Setter.level.stored raisedMapper.server.handler "a" =
    (calledValues .level "receiver" "a" raisedMapper.record).getLastD 0 :=
  value_kept (.of_after (by decide +kernel)) (by decide +kernel)

/-- The thread looks for data of the worker before the level is set, and makes them after. -/
def replacedMapper : Mapper String (List Int) :=
  after (Mapper.step cellsOnly plain) (InTurn .level "receiver" "a") (.new 0)
    [.call "receiver" (.updateLatest "a" gmoKey [1] none none none), .take 0, .thread 0,
      .call "receiver" (.setLevel "a" 30), .take 1, .serve, .serve, .answer 1, .thread 0]

-- the level is lost with the data it was set in
example : calledValues .level "receiver" "a" replacedMapper.record = [30] ∧
    replacedMapper.server.handler.getLevel "a" = 0 := by
  decide +kernel

end MapADroid.Mitm.Grpc
