import Mathlib.Logic.Function.Basic
import Mathlib.Data.List.Destutter
import MapADroid.Lib.Run
import MapADroid.Mitm.Grpc

/- The clients of one `MitmMapperServer`, and the requests between them and it.

   Any number of calls are under way at once. The server takes up requests in any order, one at a
   time, and its threads go on in any order meanwhile; a call may fail while its request has
   not been served, after it was, or before it is, since the client gives up and not the
   server. -/
namespace MapADroid.Mitm.Grpc
open Lib

variable {C P : Type}

/-- A request, the call that sent it, and how far it is. -/
structure Rpc (C P : Type) where
  client : C
  call : Call P
  request : Request P
  /-- What the server made of it, once it was served; `some none` if it has no response. -/
  reply : Option (Option (Response P))
  /-- The call waits for it. -/
  waiting : Bool

/-- What happens. -/
inductive Event (C P : Type) where
  | called (c : C) (call : Call P)
  | sent (i : Nat) (c : C) (request : Request P)
  /-- The request was served, the server being in this state. -/
  | served (i : Nat) (server : MitmMapperServer P) (reply : Option (Response P))
  | updated (u : Update P)
  | failed (i : Nat)
  /-- A call returned, by itself or with what became of a request. -/
  | returned (c : C) (call : Call P) (rpc : Option Nat) (result : Result P)

/-- What calls returned, and when. -/
def returns (record : List (ℚ × Event C P)) : List (ℚ × C × Call P × Option Nat × Result P) :=
  record.filterMap fun e =>
    match e.2 with
    | .returned c call rpc result => some (e.1, c, call, rpc, result)
    | _ => none

/-- Which requests failed, and when. -/
def failures (record : List (ℚ × Event C P)) : List (ℚ × Nat) :=
  record.filterMap fun e =>
    match e.2 with
    | .failed i => some (e.1, i)
    | _ => none

theorem mem_returns {record : List (ℚ × Event C P)} {t : ℚ} {c : C} {call : Call P} {rpc : Option Nat}
    {result : Result P} :
    (t, c, call, rpc, result) ∈ returns record ↔ (t, Event.returned c call rpc result) ∈ record := by
  simp only [returns, List.mem_filterMap]
  constructor
  · rintro ⟨⟨u, e⟩, he, h⟩
    cases e <;> cases h
    exact he
  · intro h
    exact ⟨_, h, rfl⟩

theorem mem_failures {record : List (ℚ × Event C P)} {t : ℚ} {i : Nat} :
    (t, i) ∈ failures record ↔ (t, Event.failed i) ∈ record := by
  simp only [failures, List.mem_filterMap]
  constructor
  · rintro ⟨⟨u, e⟩, he, h⟩
    cases e <;> cases h
    exact he
  · intro h
    exact ⟨_, h, rfl⟩

/-- The request that the loop of the server has taken up. -/
structure Taken where
  rpc : Nat
  worker : String
  /-- There were no data of the worker. -/
  missing : Bool
  deriving DecidableEq

/-- The clients, the server and every request there was; the record is no part of the program. -/
structure Mapper (C P : Type) where
  now : ℚ
  clients : C → MitmMapperClient
  server : MitmMapperServer P
  loop : Option Taken
  rpcs : List (Rpc C P)
  record : List (ℚ × Event C P)

inductive Action (C P : Type) where
  | wait (time : ℚ)
  | call (c : C) (call : Call P)
  /-- The server takes up a request, and looks whether it has data of the worker. -/
  | take (i : Nat)
  /-- It makes data of the worker, or serves the request. -/
  | serve
  /-- A thread of the server goes on. -/
  | thread (j : Nat)
  | answer (i : Nat)
  | fail (i : Nat)

/-- The request of a call that waits. -/
def Begun.rpcs (c : C) (call : Call P) : Begun P → List (Rpc C P)
  | .sent request => [⟨c, call, request, none, true⟩]
  | _ => []

/-- What happens when a call begins, its request in place `i`. -/
def Begun.events (c : C) (call : Call P) (i : Nat) : Begun P → List (Event C P)
  | .returned result => [.called c call, .returned c call none result]
  | .raised => [.called c call]
  | .sent request => [.called c call, .sent i c request]

namespace Mapper

def new (now : ℚ) : Mapper C P := ⟨now, fun _ => .new, .new, none, [], []⟩

def log (s : Mapper C P) (events : List (Event C P)) : Mapper C P :=
  { s with record := s.record ++ events.map fun e => (s.now, e) }

/-- The server answers request `i`. -/
def handle (pb : Protobuf P) (s : Mapper C P) (i : Nat) : Option (Mapper C P) :=
  match s.rpcs[i]? with
  | some ⟨c, call, request, none, waiting⟩ =>
    let (reply, server) := s.server.handle pb request
    some (log { s with server, loop := none, rpcs := s.rpcs.set i ⟨c, call, request, some reply, waiting⟩ }
      [.served i s.server reply])
  | _ => none

def take (pb : Protobuf P) (s : Mapper C P) (i : Nat) : Option (Mapper C P) :=
  match s.loop, s.rpcs[i]? with
  | none, some ⟨_, _, request, none, _⟩ =>
    match request.worker? with
    | none => s.handle pb i
    | some worker => some { s with loop := some ⟨i, worker, (s.server.store.workerData.get? worker).isNone⟩ }
  | _, _ => none

def serve (pb : Protobuf P) (s : Mapper C P) : Option (Mapper C P) :=
  match s.loop with
  | none => none
  | some ⟨i, worker, true⟩ => some { s with
      server := { s.server with store := s.server.store.create worker }
      loop := some ⟨i, worker, false⟩ }
  | some ⟨i, _, false⟩ => s.handle pb i

def thread (rd : PayloadReader P) (s : Mapper C P) (j : Nat) : Option (Mapper C P) :=
  (s.server.goOn rd j).map fun (updates, server) => log { s with server } (updates.map .updated)

variable [DecidableEq C]

def setClient (s : Mapper C P) (c : C) (client : MitmMapperClient) : Mapper C P :=
  { s with clients := Function.update s.clients c client }

def call (pb : Protobuf P) (s : Mapper C P) (c : C) (call : Call P) : Mapper C P :=
  let (begun, client) := (s.clients c).begin pb s.now call
  log { s.setClient c client with rpcs := s.rpcs ++ begun.rpcs c call } (begun.events c call s.rpcs.length)

/-- The response to request `i` arrives. -/
def answer (pb : Protobuf P) (s : Mapper C P) (i : Nat) : Option (Mapper C P) :=
  match s.rpcs[i]? with
  | some ⟨c, call, request, some (some response), true⟩ =>
    let (result, client) := (s.clients c).answered pb s.now call response
    some (log { s.setClient c client with rpcs := s.rpcs.set i ⟨c, call, request, some (some response), false⟩ }
      [.returned c call (some i) result])
  | _ => none

/-- Request `i` fails for the call that waits for it. -/
def fail (s : Mapper C P) (i : Nat) : Option (Mapper C P) :=
  match s.rpcs[i]? with
  | some ⟨c, call, request, reply, true⟩ =>
    let (result, client) := (s.clients c).failed s.now call
    some (log { s.setClient c client with rpcs := s.rpcs.set i ⟨c, call, request, reply, false⟩ }
      [.failed i, .returned c call (some i) result])
  | _ => none

def step (rd : PayloadReader P) (pb : Protobuf P) (s : Mapper C P) : Action C P → Option (Mapper C P)
  | .wait time => if 0 ≤ time then some { s with now := s.now + time } else none
  | .call c call => some (s.call pb c call)
  | .take i => s.take pb i
  | .serve => s.serve pb
  | .thread j => s.thread rd j
  | .answer i => s.answer pb i
  | .fail i => s.fail i

end Mapper

/-! ## The requests -/

/-- The requests, or the threads, after the one in place `i` went on. -/
theorem rpcs_set {α : Type} {l : List α} {i j : Nat} {old new x : α} (hi : l[i]? = some old)
    (hj : (l.set i new)[j]? = some x) : i = j ∧ x = new ∨ i ≠ j ∧ l[j]? = some x := by
  rw [List.getElem?_set] at hj
  split at hj
  · next hij =>
    rw [if_pos (hij ▸ (List.getElem?_eq_some_iff.mp hi).1)] at hj
    exact .inl ⟨hij, (Option.some.inj hj).symm⟩
  · next hij => exact .inr ⟨hij, hj⟩

/-- The requests after a call began. -/
theorem rpcs_call {rpcs : List (Rpc C P)} {begun : Begun P} {d : C} {call : Call P} {j : Nat} {rpc : Rpc C P}
    (hj : (rpcs ++ begun.rpcs d call)[j]? = some rpc) :
    rpcs[j]? = some rpc ∨ ∃ request, begun = .sent request ∧ j = rpcs.length ∧
      rpc = ⟨d, call, request, none, true⟩ := by
  rw [List.getElem?_append] at hj
  split at hj
  · exact .inl hj
  · next hlt =>
    cases begun with
    | sent request =>
      rw [Begun.rpcs, List.getElem?_singleton, Option.ite_none_right_eq_some] at hj
      exact .inr ⟨request, rfl, by omega, (Option.some.inj hj.2).symm⟩
    | _ => cases hj

/-! ## The steps -/

/-- What a step does. -/
inductive Step [DecidableEq C] (rd : PayloadReader P) (pb : Protobuf P) (s : Mapper C P) :
    Action C P → Mapper C P → Prop where
  | wait {time : ℚ} (h : 0 ≤ time) : Step rd pb s (.wait time) { s with now := s.now + time }
  | called {c : C} {call : Call P} {begun : Begun P} {client : MitmMapperClient}
      (h : (s.clients c).begin pb s.now call = (begun, client)) :
      Step rd pb s (.call c call)
        (Mapper.log { s.setClient c client with rpcs := s.rpcs ++ begun.rpcs c call }
          (begun.events c call s.rpcs.length))
  | taken {i : Nat} {c : C} {call : Call P} {request : Request P} {waiting : Bool} {worker : String}
      (hloop : s.loop = none) (hi : s.rpcs[i]? = some ⟨c, call, request, none, waiting⟩)
      (hworker : request.worker? = some worker) :
      Step rd pb s (.take i)
        { s with loop := some ⟨i, worker, (s.server.store.workerData.get? worker).isNone⟩ }
  | created {i : Nat} {worker : String} (hloop : s.loop = some ⟨i, worker, true⟩) :
      Step rd pb s .serve { s with
        server := { s.server with store := s.server.store.create worker }
        loop := some ⟨i, worker, false⟩ }
  | served {i : Nat} {c : C} {call : Call P} {request : Request P} {waiting : Bool}
      {reply : Option (Response P)} {server : MitmMapperServer P} {a : Action C P}
      (ha : a = .take i ∧ request.worker? = none ∨ ∃ worker, a = .serve ∧ s.loop = some ⟨i, worker, false⟩)
      (hi : s.rpcs[i]? = some ⟨c, call, request, none, waiting⟩)
      (h : s.server.handle pb request = (reply, server)) :
      Step rd pb s a
        (Mapper.log { s with server, loop := none, rpcs := s.rpcs.set i ⟨c, call, request, some reply, waiting⟩ }
          [.served i s.server reply])
  | went {j : Nat} {updates : List (Update P)} {server : MitmMapperServer P}
      (h : s.server.goOn rd j = some (updates, server)) :
      Step rd pb s (.thread j) (Mapper.log { s with server } (updates.map .updated))
  | answered {i : Nat} {c : C} {call : Call P} {request : Request P} {response : Response P} {result : Result P}
      {client : MitmMapperClient} (hi : s.rpcs[i]? = some ⟨c, call, request, some (some response), true⟩)
      (h : (s.clients c).answered pb s.now call response = (result, client)) :
      Step rd pb s (.answer i)
        (Mapper.log { s.setClient c client with rpcs := s.rpcs.set i ⟨c, call, request, some (some response), false⟩ }
          [.returned c call (some i) result])
  | failed {i : Nat} {c : C} {call : Call P} {request : Request P} {reply : Option (Option (Response P))}
      {result : Result P} {client : MitmMapperClient} (hi : s.rpcs[i]? = some ⟨c, call, request, reply, true⟩)
      (h : (s.clients c).failed s.now call = (result, client)) :
      Step rd pb s (.fail i)
        (Mapper.log { s.setClient c client with rpcs := s.rpcs.set i ⟨c, call, request, reply, false⟩ }
          [.failed i, .returned c call (some i) result])

variable [DecidableEq C] {rd : PayloadReader P} {pb : Protobuf P} {s t : Mapper C P} {a : Action C P}

theorem step_cases (h : s.step rd pb a = some t) : Step rd pb s a t := by
  cases a with
  | wait time =>
    simp only [Mapper.step] at h
    split at h
    · next htime =>
      cases h
      exact .wait htime
    · cases h
  | call c call =>
    cases h
    exact .called rfl
  | take i =>
    simp only [Mapper.step, Mapper.take] at h
    split at h
    · next c call request waiting hloop hi =>
      split at h
      · next hworker =>
        simp only [Mapper.handle, hi] at h
        cases h
        exact .served (.inl ⟨rfl, hworker⟩) hi rfl
      · next worker hworker =>
        cases h
        exact .taken hloop hi hworker
    · cases h
  | serve =>
    simp only [Mapper.step, Mapper.serve] at h
    split at h
    · cases h
    · next hloop =>
      cases h
      exact .created hloop
    · next i worker hloop =>
      simp only [Mapper.handle] at h
      split at h
      · next c call request waiting hi =>
        cases h
        exact .served (.inr ⟨worker, rfl, hloop⟩) hi rfl
      · cases h
  | thread j =>
    simp only [Mapper.step, Mapper.thread] at h
    obtain ⟨⟨updates, server⟩, hserver, rfl⟩ := Option.map_eq_some_iff.mp h
    exact .went hserver
  | answer i =>
    simp only [Mapper.step, Mapper.answer] at h
    split at h
    · next c call request response hi =>
      cases h
      exact .answered hi rfl
    · cases h
  | fail i =>
    simp only [Mapper.step, Mapper.fail] at h
    split at h
    · next c call request reply hi =>
      cases h
      exact .failed hi rfl
    · cases h

/-! ## The server in a run -/

/-- A thread has an object of its worker, and the loop has found or made the data it uses. -/
structure Ready (s : Mapper C P) : Prop where
  store : s.server.store.WellFormed
  threads : ∀ (j : Nat) (thread : Thread P) (r : Ref), s.server.threads[j]? = some thread →
    thread.place.ref? = some r → r.worker = thread.update.worker ∧ r.made < s.server.store.next
  taken : ∀ taken, s.loop = some taken → ∃ rpc, s.rpcs[taken.rpc]? = some rpc ∧
    rpc.request.worker? = some taken.worker ∧
    (taken.missing = false → (s.server.store.workerData.get? taken.worker).isSome = true)

omit [DecidableEq C] in
theorem Ready.new (now : ℚ) : Ready (Mapper.new now : Mapper C P) where
  store := .empty
  threads j thread r hj := by simp [Mapper.new, MitmMapperServer.new] at hj
  taken taken h := by cases h

omit [DecidableEq C] in
/-- The data of the worker of the request that is served are there. -/
theorem Ready.served {i : Nat} {c : C} {call : Call P} {request : Request P} {waiting : Bool} (h : Ready s)
    (ha : a = .take i ∧ request.worker? = none ∨ ∃ worker, a = .serve ∧ s.loop = some ⟨i, worker, false⟩)
    (hi : s.rpcs[i]? = some ⟨c, call, request, none, waiting⟩) :
    ∀ worker, request.worker? = some worker → (s.server.store.workerData.get? worker).isSome = true := by
  intro worker hworker
  rcases ha with ⟨_, hnone⟩ | ⟨found, _, hloop⟩
  · rw [hnone] at hworker
    cases hworker
  · obtain ⟨rpc, hrpc, hfound, hpresent⟩ := h.taken _ hloop
    obtain rfl := Option.some.inj (hi.symm.trans hrpc)
    obtain rfl := Option.some.inj (hfound.symm.trans hworker)
    exact hpresent rfl

omit [DecidableEq C] in
/-- A step of the clients. -/
theorem Ready.keep (h : Ready s) (hserver : t.server = s.server) (hloop : t.loop = s.loop)
    (hrpcs : ∀ (i : Nat) (rpc : Rpc C P), s.rpcs[i]? = some rpc → ∃ rpc', t.rpcs[i]? = some rpc' ∧
      rpc'.call = rpc.call ∧ rpc'.request = rpc.request) : Ready t where
  store := hserver ▸ h.store
  threads := hserver ▸ h.threads
  taken taken htaken := by
    obtain ⟨rpc, hrpc, hworker, hpresent⟩ := h.taken taken (hloop ▸ htaken)
    obtain ⟨rpc', hrpc', _, hrequest⟩ := hrpcs _ _ hrpc
    exact ⟨rpc', hrpc', hrequest ▸ hworker, hserver ▸ hpresent⟩

omit [DecidableEq C] in
/-- A request that went on is still there. -/
theorem rpcs_set_kept {rpcs : List (Rpc C P)} {i : Nat} {old new : Rpc C P} (hi : rpcs[i]? = some old)
    (hcall : new.call = old.call) (hrequest : new.request = old.request) (j : Nat) (rpc : Rpc C P)
    (hj : rpcs[j]? = some rpc) :
    ∃ rpc', (rpcs.set i new)[j]? = some rpc' ∧ rpc'.call = rpc.call ∧ rpc'.request = rpc.request := by
  by_cases hij : i = j
  · subst hij
    obtain rfl := Option.some.inj (hi.symm.trans hj)
    exact ⟨new, by rw [List.getElem?_set_self (List.getElem?_eq_some_iff.mp hi).1], hcall, hrequest⟩
  · exact ⟨rpc, by rw [List.getElem?_set_ne hij, hj], rfl, rfl⟩

omit [DecidableEq C] in
/-- And so is every request when a call begins. -/
theorem rpcs_append_kept (rpcs new : List (Rpc C P)) (j : Nat) (rpc : Rpc C P) (hj : rpcs[j]? = some rpc) :
    ∃ rpc', (rpcs ++ new)[j]? = some rpc' ∧ rpc'.call = rpc.call ∧ rpc'.request = rpc.request :=
  ⟨rpc, (List.getElem?_append_left (List.getElem?_eq_some_iff.mp hj).1).trans hj, rfl, rfl⟩

theorem ready_step (h : Ready s) (hs : s.step rd pb a = some t) : Ready t := by
  cases step_cases hs with
  | wait htime => exact h.keep rfl rfl fun i rpc hi => ⟨rpc, hi, rfl, rfl⟩
  | called hbegin => exact h.keep rfl rfl (rpcs_append_kept _ _)
  | @taken i c call request waiting worker hloop hi hworker =>
    refine ⟨h.store, h.threads, fun taken htaken => ?_⟩
    cases htaken
    refine ⟨_, hi, hworker, fun hpresent => ?_⟩
    have hnone : (s.server.store.workerData.get? worker).isNone = false := hpresent
    rw [Option.isNone_eq_false_iff] at hnone
    exact hnone
  | @created i worker hloop =>
    refine ⟨h.store.create worker, fun j thread r hj hr => ?_, fun taken htaken => ?_⟩
    · obtain ⟨hworker, hmade⟩ := h.threads j thread r hj hr
      exact ⟨hworker, Nat.lt_succ_of_lt hmade⟩
    · cases htaken
      obtain ⟨rpc, hrpc, hworker, _⟩ := h.taken _ hloop
      exact ⟨rpc, hrpc, hworker, fun _ => by rw [Store.create_get?_self]; rfl⟩
  | @served i c call request waiting reply server _ ha hi hhandle =>
    obtain rfl : server = (s.server.handle pb request).2 := by rw [hhandle]
    obtain ⟨hdata, hnext⟩ := s.server.handle_store pb request
    refine ⟨?_, fun j thread r hj hr => ?_, fun taken htaken => by cases htaken⟩
    · intro w r hr
      have hr : (s.server.handle pb request).2.store.workerData.get? w = some r := hr
      rw [hdata] at hr
      obtain ⟨hworker, hmade⟩ := h.store w r hr
      exact ⟨hworker, hmade.trans_eq hnext.symm⟩
    · have hj : (s.server.handle pb request).2.threads[j]? = some thread := hj
      have hold : s.server.threads[j]? = some thread → r.worker = thread.update.worker ∧
          r.made < (s.server.handle pb request).2.store.next := by
        intro hj
        obtain ⟨hworker, hmade⟩ := h.threads j thread r hj hr
        exact ⟨hworker, hmade.trans_eq hnext.symm⟩
      rcases s.server.handle_threads pb request with hsame | ⟨worker, key, data, _, hnew⟩
      · exact hold (hsame ▸ hj)
      · rw [hnew, List.getElem?_append] at hj
        split at hj
        · exact hold hj
        · -- a new thread has no object
          rw [List.getElem?_singleton, Option.ite_none_right_eq_some] at hj
          obtain ⟨_, hthread⟩ := hj
          cases hthread
          cases hr
  | @went j updates server hserver =>
    obtain ⟨u, place, hj, rfl, hstore, hthreads⟩ := MitmMapperServer.goOn_some hserver
    have hfound : ∀ r, place.ref? = some r → r.worker = u.worker ∧ r.made < s.server.store.next :=
      fun r hr => h.threads j ⟨u, place⟩ r hj hr
    have hwf : server.store.WellFormed ∧ s.server.store.next ≤ server.store.next ∧
        ∀ w, (s.server.store.workerData.get? w).isSome = true → (server.store.workerData.get? w).isSome = true := by
      rw [hstore]
      rcases Place.goOn_store rd s.server.store u place with heq | ⟨_, heq⟩ | ⟨r, f, _, heq, _⟩
      · rw [heq]
        exact ⟨h.store, le_rfl, fun _ hw => hw⟩
      · rw [heq]
        refine ⟨h.store.create _, Nat.le_succ _, fun w hw => ?_⟩
        by_cases hworker : w = u.worker
        · rw [hworker, Store.create_get?_self]
          rfl
        · rw [Store.create_get?_of_ne _ hworker]
          exact hw
      · rw [heq]
        exact ⟨h.store, le_rfl, fun _ hw => hw⟩
    obtain ⟨hstore', hnext, hpresent⟩ := hwf
    refine ⟨hstore', fun i thread r hi hr => ?_, fun taken htaken => ?_⟩
    · have hi : server.threads[i]? = some thread := hi
      rw [hthreads] at hi
      rcases rpcs_set hj hi with ⟨_, rfl⟩ | ⟨_, hi⟩
      · rcases Place.goOn_ref? hr with hr | hr
        · obtain ⟨hworker, hmade⟩ := hfound r hr
          exact ⟨hworker, hmade.trans_le hnext⟩
        · obtain ⟨hworker, hmade⟩ := h.store _ r hr
          exact ⟨hworker, hmade.trans_le hnext⟩
      · obtain ⟨hworker, hmade⟩ := h.threads i thread r hi hr
        exact ⟨hworker, hmade.trans_le hnext⟩
    · obtain ⟨rpc, hrpc, hworker, hthere⟩ := h.taken taken htaken
      exact ⟨rpc, hrpc, hworker, fun hmissing => hpresent _ (hthere hmissing)⟩
  | answered hi hrest => exact h.keep rfl rfl (rpcs_set_kept hi rfl rfl)
  | failed hi hrest => exact h.keep rfl rfl (rpcs_set_kept hi rfl rfl)

/-- No new data are made of the worker where there are some: nobody has made them since it was looked. -/
def Spares (w : String) (s : Mapper C P) : Action C P → Prop
  | .serve => ∀ taken ∈ s.loop, taken.missing = true → taken.worker = w → w ∉ s.server.store.workerData.keys
  | .thread j => ∀ thread ∈ s.server.threads[j]?, thread.place.creates = true → thread.update.worker = w →
    w ∉ s.server.store.workerData.keys
  | _ => True

instance (w : String) (s : Mapper C P) : (a : Action C P) → Decidable (Spares w s a)
  | .serve => inferInstanceAs (Decidable (∀ taken ∈ s.loop, _ → _ → _))
  | .thread j => inferInstanceAs (Decidable (∀ thread ∈ s.server.threads[j]?, _ → _ → _))
  | .wait _ | .call _ _ | .take _ | .answer _ | .fail _ => isTrue trivial

end MapADroid.Mitm.Grpc
