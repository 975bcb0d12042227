import MapADroid.Mitm.Equivalence

/- `ReceiveProtosEndpoint`: what a received proto does to the store of the latest data.

   The endpoint passes the timestamp of the proto, which is the device's, as
   `timestamp_received_raw`, and its own clock as `timestamp_received_receiver`. The
   stores keep them as `timestamp_received` and `timestamp_of_data_retrieval`, so the
   two fields have each other's meaning, and both checks look at the time MAD received
   the data: a proto that is uploaded late is handed out as if it were fresh
   (`late_upload_handed_out`).

   What is handed out is fresh by device time exactly while protos arrive in the order
   of their device timestamps and none is older than its reception (`fresh_iff`). -/
namespace MapADroid.Mitm
open Lib

variable {P : Type}

/-- A proto as received; `payload` is `none` where there is none. -/
structure Proto (P : Type) where
  type : Option Int
  timestamp : Option Timestamp
  payload : Option P
  lat : Option ℚ
  lng : Option ℚ
  questsHeld : Option (List Int)

/-- One call of `__handle_proto_data_dict`: its arguments, what the clock reads, and whether
`_handle_fort_search_proto` raises. -/
structure Reception (P : Type) where
  origin : String
  data : Proto P
  timeHandled : Int
  timeReceived : Int
  fortSearchRaises : Bool

/-- `mitm_ignore_pre_boot` and the time of the start. -/
structure ReceiverConfig where
  mitmIgnorePreBoot : Bool
  startupTime : Int

/-- The types that are not trash. -/
def protoTypes : List Int := [106, 102, 101, 104, 4, 156, 145, 1405]

/-- Payloads that are not processed. -/
def discards (rd : PayloadReader P) (type : Int) (payload : P) : Bool :=
  if type = 106 then !rd.hasCells payload
  else if type = 102 then rd.status payload ≠ some 1
  else if type = 1405 then !rd.hasRoutes payload
  else if type = 101 then rd.result payload = 2
  else false

/-- The location of the data, `0, 0` where it is out of range. -/
def locationOfData (d : Proto P) : Location ℚ :=
  let lat := d.lat.getD 0
  let lng := d.lng.getD 0
  if lat > 90 ∨ lat < -90 ∨ lng > 180 ∨ lng < -180 then ⟨0, 0⟩ else ⟨lat, lng⟩

/-- The timestamp of the device. -/
def Reception.timestamp (r : Reception P) : Timestamp := r.data.timestamp.getD (.int r.timeHandled)

/-- `__handle_proto_data_dict` of a proto of this type: the operations on the mapper. There are none
where the proto is ignored, and none after the place an exception is raised. -/
def handleProtoOfType (cfg : ReceiverConfig) (rd : PayloadReader P) (r : Reception P) (type : Int) :
    List (Operation P) :=
  if type = 0 then []
  else if cfg.mitmIgnorePreBoot ∧ r.timestamp.val < cfg.startupTime then []
  else if type ∉ protoTypes then []
  else
    match r.data.payload with
    | none =>
      -- a missing payload raises where it is first looked at
      if type ∈ [106, 102, 1405, 101] then [] else [.setQuestsHeld r.origin r.data.questsHeld]
    | some payload =>
      if discards rd type payload then []
      else if type = 101 ∧ r.fortSearchRaises then []
      else
        [.setQuestsHeld r.origin r.data.questsHeld,
          .updateLatest r.origin (toString type) payload r.timestamp (.int r.timeReceived)
            (some (locationOfData r.data))]

/-- `__handle_proto_data_dict`. -/
def handleProtoDataDict (cfg : ReceiverConfig) (rd : PayloadReader P) (r : Reception P) : List (Operation P) :=
  match r.data.type with
  | none => []
  | some type => handleProtoOfType cfg rd r type

/-- The operations of a sequence of received protos. -/
def received (cfg : ReceiverConfig) (rd : PayloadReader P) (rs : List (Reception P)) : List (Operation P) :=
  rs.flatMap (handleProtoDataDict cfg rd)

/-- `RedisMitmMapper` after these protos. -/
def redisAfter (cfg : ReceiverConfig) (rd : PayloadReader P) (rs : List (Reception P)) : Redis P :=
  (received cfg rd rs).foldl (Redis.apply rd) .empty

/-- `MitmDataHandler` after these protos. -/
def memoryAfter (cfg : ReceiverConfig) (rd : PayloadReader P) (rs : List (Reception P)) : MitmDataHandler P :=
  (received cfg rd rs).foldl (MitmDataHandler.apply rd) .empty

/-- The entry an operation offers for a worker and a key. -/
def Operation.offer (worker key : String) : Operation P → Option (LatestMitmDataEntry P)
  | .updateLatest w k value raw receiver location =>
    if w = worker ∧ k = key then some ⟨location, raw, receiver, value⟩ else none
  | .setLevel _ _ | .setPokestopVisits _ _ | .setQuestsHeld _ _ | .setInjectionStatus _ _ => none

/-- The entries made of the protos received for a worker and a key, in order. Of each, the device's
timestamp is in `timestampReceived`, the time of reception in `timestampOfDataRetrieval`. -/
def offers (cfg : ReceiverConfig) (rd : PayloadReader P) (worker key : String) (rs : List (Reception P)) :
    List (LatestMitmDataEntry P) := (received cfg rd rs).filterMap (Operation.offer worker key)

/-- What is handed out is fresh by device time: data older than asked for is not, and the entry stored
has the largest timestamp of a device so far. -/
structure Fresh (request : Option Timestamp → Option (LatestMitmDataEntry P))
    (offered : List (LatestMitmDataEntry P)) : Prop where
  fresher : ∀ t : Timestamp, 0 < t.val → ∀ e ∈ request (some t), t.val < e.timestampReceived.val
  newest : ∀ e ∈ request none, ∀ e' ∈ offered, e'.timestampReceived.val ≤ e.timestampReceived.val

/-- No device timestamp is smaller than one before or than the time of reception, which is not
before the epoch. -/
def InOrder (offered : List (LatestMitmDataEntry P)) : Prop :=
  offered.Pairwise (fun e e' => e.timestampReceived.val ≤ e'.timestampReceived.val) ∧
    ∀ e ∈ offered, 0 < e.timestampOfDataRetrieval.val ∧
      e.timestampOfDataRetrieval.val ≤ e.timestampReceived.val

/-! ## The stored entry -/

/-- The entry stored after another is offered. -/
def keep (stored : Option (LatestMitmDataEntry P)) (e : LatestMitmDataEntry P) :
    Option (LatestMitmDataEntry P) :=
  if ignoresUpdate stored e.timestampOfDataRetrieval then stored else some e

theorem latest_apply (rd : PayloadReader P) (skips : Bool) (moves : List Int → List Int → Bool)
    (d : WorkerData P) (op : Operation P) (key : String) :
    (d.apply rd skips moves op).latest key =
      (op.offer op.worker key).elim (d.latest key) (keep (d.latest key)) := by
  cases op with
  | setLevel | setPokestopVisits | setQuestsHeld | setInjectionStatus => rfl
  | updateLatest worker k value raw receiver location =>
    -- what is done with the cells of a GMO leaves the entries as they are
    have hstored : ((d.update rd skips moves k value raw receiver location).latest) =
        if ignoresUpdate (d.latest k) receiver then d.latest
        else Function.update d.latest k (some ⟨location, raw, receiver, value⟩) := by
      rw [WorkerData.update]
      cases ignoresUpdate (d.latest k) receiver with
      | true =>
        simp only [if_true, WorkerData.located]
        split
        · cases rd.cells value with
          | none => rfl
          | some ids => simp only [apply_ite WorkerData.latest, ite_self]
        · rfl
      | false =>
        simp only [Bool.false_eq_true, if_false, WorkerData.located]
        split
        · cases rd.cells value with
          | none => rfl
          | some ids => simp only [apply_ite WorkerData.latest, ite_self]
        · rfl
    refine (congrFun hstored key).trans ?_
    simp only [Operation.offer, Operation.worker]
    by_cases hk : k = key
    · subst hk
      simp only [and_self, if_true, Option.elim_some, keep]
      split
      · rfl
      · exact Function.update_self _ _ _
    · simp only [hk, and_false, if_false, Option.elim_none]
      split
      · rfl
      · exact Function.update_of_ne (Ne.symm hk) _ _

theorem offer_of_ne {op : Operation P} {worker : String} (h : worker ≠ op.worker) (key : String) :
    op.offer worker key = none := by
  cases op with
  | setLevel | setPokestopVisits | setQuestsHeld | setInjectionStatus => rfl
  | updateLatest w k value raw receiver location =>
    exact if_neg fun hw => h hw.1.symm

/-- What a store answers after some operations, if it keeps what each offers. -/
theorem foldl_keep {σ : Type} (apply : σ → Operation P → σ) (request : σ → Option (LatestMitmDataEntry P))
    {worker key : String}
    (h : ∀ s op, request (apply s op) = (op.offer worker key).elim (request s) (keep (request s)))
    (ops : List (Operation P)) (s : σ) :
    request (ops.foldl apply s) = (ops.filterMap (Operation.offer worker key)).foldl keep (request s) := by
  induction ops generalizing s with
  | nil => rfl
  | cons op ops ih =>
    rw [List.foldl_cons, ih, h]
    cases ho : op.offer worker key with
    | none => rw [List.filterMap_cons_none ho]; rfl
    | some e => rw [List.filterMap_cons_some ho]; rfl

/-- The entry stored after these are offered, one after another. -/
def kept (offered : List (LatestMitmDataEntry P)) : Option (LatestMitmDataEntry P) := offered.foldl keep none

theorem latestData_redisAfter (cfg : ReceiverConfig) (rd : PayloadReader P) (rs : List (Reception P))
    (worker key : String) :
    ((redisAfter cfg rd rs).data worker).latest key = kept (offers cfg rd worker key rs) := by
  refine foldl_keep (Redis.apply rd) (fun s => (s.data worker).latest key) (fun s op => ?_)
    (received cfg rd rs) .empty
  rw [data_redis]
  split
  · next h => rw [h, latest_apply]
  · next h => rw [offer_of_ne h, Option.elim_none]

theorem latestData_memoryAfter (cfg : ReceiverConfig) (rd : PayloadReader P) (rs : List (Reception P))
    (worker key : String) :
    ((memoryAfter cfg rd rs).player worker).data.latest key = kept (offers cfg rd worker key rs) := by
  refine foldl_keep (MitmDataHandler.apply rd) (fun m => (m.player worker).data.latest key)
    (fun m op => ?_) (received cfg rd rs) .empty
  rw [data_memory]
  split
  · next h => rw [h, latest_apply]
  · next h => rw [offer_of_ne h, Option.elim_none]

theorem mem_of_kept {l : List (LatestMitmDataEntry P)} {e : LatestMitmDataEntry P} (h : kept l = some e) :
    e ∈ l := by
  induction l using List.reverseRecOn generalizing e with
  | nil => cases h
  | append_singleton l x ih =>
    have hkeep : keep (kept l) x = some e := by simpa [kept] using h
    rw [keep] at hkeep
    split at hkeep
    · exact List.mem_append_left _ (ih hkeep)
    · cases hkeep; exact List.mem_append_right _ (List.mem_singleton_self _)

/-- An entry received after the others, not at the epoch, is the one stored. -/
theorem kept_append {l : List (LatestMitmDataEntry P)} {x : LatestMitmDataEntry P}
    (hpos : 0 < x.timestampOfDataRetrieval.val)
    (hle : ∀ e ∈ l, e.timestampOfDataRetrieval.val ≤ x.timestampOfDataRetrieval.val) :
    kept (l ++ [x]) = some x := by
  have hkeep : kept (l ++ [x]) = keep (kept l) x := by simp [kept]
  rw [hkeep, keep]
  cases hk : kept l with
  | none => rfl
  | some e =>
    have htruthy : x.timestampOfDataRetrieval.truthy = true := Timestamp.truthy_eq_true.mpr hpos.ne'
    have hnot : ¬ x.timestampOfDataRetrieval.val < e.timestampOfDataRetrieval.val :=
      not_lt.mpr (hle e (mem_of_kept hk))
    simp [ignoresUpdate, htruthy, hnot]

/-! ## Fresh by device time -/

/-- The entries have a whole number of seconds as the time of reception, in order. -/
structure Received (offered : List (LatestMitmDataEntry P)) : Prop where
  int : ∀ e ∈ offered, ∃ i, e.timestampOfDataRetrieval = .int i
  sorted : offered.Pairwise fun e e' => e.timestampOfDataRetrieval.val ≤ e'.timestampOfDataRetrieval.val

/-- An entry with a device timestamp after its reception is handed out only for older times. -/
theorem answers_fresh {e e' : LatestMitmDataEntry P} {i : Int} (hi : e.timestampOfDataRetrieval = .int i)
    (hpos : 0 < e.timestampOfDataRetrieval.val)
    (hle : e.timestampOfDataRetrieval.val ≤ e.timestampReceived.val) {t : Timestamp} (ht : 0 < t.val)
    (h : answersRequest (some e) (some t) = some e') : t.val < e'.timestampReceived.val := by
  have htruthy : t.truthy = true := Timestamp.truthy_eq_true.mpr ht.ne'
  have hetruthy : e.timestampOfDataRetrieval.truthy = true := Timestamp.truthy_eq_true.mpr hpos.ne'
  simp only [answersRequest, htruthy, hetruthy, Bool.true_and] at h
  split at h
  · cases h
  · next hlt =>
    cases h
    rw [decide_eq_true_iff, not_le, hi] at hlt
    have hval : t.val < (Timestamp.int i).val := Timestamp.val_lt_of_toInt_lt ht hlt
    exact hval.trans_le (hi ▸ hle)

/-- An entry with a device timestamp before its reception is handed out for a time not older. -/
theorem exists_answers {e : LatestMitmDataEntry P} {i : Int} (hi : e.timestampOfDataRetrieval = .int i)
    (hpos : 0 < e.timestampOfDataRetrieval.val)
    (hlt : e.timestampReceived.val < e.timestampOfDataRetrieval.val) :
    ∃ t : Timestamp, 0 < t.val ∧ answersRequest (some e) (some t) = some e ∧
      e.timestampReceived.val ≤ t.val := by
  have hi1 : (1 : ℚ) ≤ (i : ℚ) := by
    have h0 : (0 : ℚ) < (i : ℚ) := by rw [hi] at hpos; exact hpos
    exact_mod_cast Int.add_one_le_of_lt (Int.cast_pos.mp h0)
  have hanswer : ∀ t : Timestamp, 0 < t.val → t.val < i → answersRequest (some e) (some t) = some e := by
    intro t h0 ht
    have hint : t.toInt < i := Timestamp.toInt_lt_of_val_lt h0.le ht
    have hnot : ¬ (e.timestampOfDataRetrieval.toInt ≤ t.toInt) := by
      rw [hi]
      exact not_le.mpr hint
    simp [answersRequest, hnot]
  by_cases hd : 0 < e.timestampReceived.val
  · exact ⟨e.timestampReceived, hd, hanswer _ hd (by rw [hi] at hlt; exact hlt), le_refl _⟩
  · refine ⟨.float (1 / 2), by norm_num [Timestamp.val], hanswer _ (by norm_num [Timestamp.val]) ?_, ?_⟩
    · show (1 / 2 : ℚ) < i
      linarith
    · show e.timestampReceived.val ≤ (1 / 2 : ℚ)
      linarith

/-- Fresh after the last of these is offered, in order before: exactly if the last is in order. -/
theorem fresh_append {l : List (LatestMitmDataEntry P)} {x : LatestMitmDataEntry P}
    (hr : Received (l ++ [x])) (hpos : 0 < x.timestampOfDataRetrieval.val) :
    Fresh (answersRequest (kept (l ++ [x]))) (l ++ [x]) ↔
      x.timestampOfDataRetrieval.val ≤ x.timestampReceived.val ∧
        ∀ e ∈ l, e.timestampReceived.val ≤ x.timestampReceived.val := by
  have hle := (List.pairwise_append.mp hr.sorted).2.2
  have hkept : kept (l ++ [x]) = some x :=
    kept_append hpos fun e he => hle e he x (List.mem_singleton_self x)
  obtain ⟨i, hi⟩ := hr.int x (List.mem_append_right _ (List.mem_singleton_self x))
  rw [hkept]
  constructor
  · intro hf
    refine ⟨not_lt.mp fun hlt => ?_, fun e he => hf.newest x rfl e (List.mem_append_left _ he)⟩
    obtain ⟨t, ht0, hans, ht⟩ := exists_answers hi hpos hlt
    exact absurd (hf.fresher t ht0 x hans) (not_lt.mpr ht)
  · intro h
    refine ⟨fun t ht e' he' => answers_fresh hi hpos h.1 ht he', fun e he e' he' => ?_⟩
    have hex : e = x := by
      rw [answersRequest_none] at he
      exact (Option.some.inj he).symm
    rw [hex]
    rcases List.mem_append.mp he' with he' | he'
    · exact h.2 e' he'
    · exact le_of_eq (by rw [List.mem_singleton.mp he'])

theorem inOrder_append {l : List (LatestMitmDataEntry P)} {x : LatestMitmDataEntry P} :
    InOrder (l ++ [x]) ↔ InOrder l ∧ (0 < x.timestampOfDataRetrieval.val ∧
      x.timestampOfDataRetrieval.val ≤ x.timestampReceived.val ∧
        ∀ e ∈ l, e.timestampReceived.val ≤ x.timestampReceived.val) := by
  simp only [InOrder, List.pairwise_append, List.mem_append, List.mem_singleton, or_imp, forall_and,
    List.pairwise_singleton, forall_eq]
  tauto

theorem fresh_nil : Fresh (answersRequest (kept ([] : List (LatestMitmDataEntry P)))) [] where
  fresher _ _ _ he := by cases he
  newest _ he := by cases he

/-- In order, so fresh after each. -/
theorem fresh_of_inOrder {l : List (LatestMitmDataEntry P)} (hr : Received l) (h : InOrder l) :
    Fresh (answersRequest (kept l)) l := by
  induction l using List.reverseRecOn with
  | nil => exact fresh_nil
  | append_singleton l x _ =>
    obtain ⟨_, hpos, hx⟩ := inOrder_append.mp h
    exact (fresh_append hr hpos).mpr hx

theorem Received.initial {l l' : List (LatestMitmDataEntry P)} (h : Received l') (hl : l <+: l') : Received l :=
  ⟨fun e he => h.int e (hl.subset he), h.sorted.sublist hl.sublist⟩

/-- Fresh after each, so in order. -/
theorem inOrder_of_fresh {l : List (LatestMitmDataEntry P)} (hr : Received l)
    (hpos : ∀ e ∈ l, 0 < e.timestampOfDataRetrieval.val)
    (h : ∀ pre, pre <+: l → Fresh (answersRequest (kept pre)) pre) : InOrder l := by
  induction l using List.reverseRecOn with
  | nil => exact ⟨List.Pairwise.nil, fun _ he => by cases he⟩
  | append_singleton l x ih =>
    have hl : l <+: l ++ [x] := List.prefix_append l [x]
    have hx : 0 < x.timestampOfDataRetrieval.val :=
      hpos x (List.mem_append_right _ (List.mem_singleton_self x))
    refine inOrder_append.mpr ⟨?_, hx, (fresh_append hr hx).mp (h _ (List.prefix_refl _))⟩
    exact ih (hr.initial hl) (fun e he => hpos e (List.mem_append_left _ he))
      fun pre hpre => h pre (hpre.trans hl)

/-! ## Sequences of protos -/

/-- A proto offers an entry with the time it was received at, or none. -/
theorem offers_singleton (cfg : ReceiverConfig) (rd : PayloadReader P) (worker key : String) (r : Reception P) :
    offers cfg rd worker key [r] = [] ∨
      ∃ e, offers cfg rd worker key [r] = [e] ∧ e.timestampOfDataRetrieval = .int r.timeReceived := by
  have hone : offers cfg rd worker key [r] =
      (handleProtoDataDict cfg rd r).filterMap (Operation.offer worker key) := by
    simp [offers, received]
  rw [hone, handleProtoDataDict]
  split
  · exact .inl rfl
  · next type _ =>
    rw [handleProtoOfType]
    split
    · exact .inl rfl
    split
    · exact .inl rfl
    split
    · exact .inl rfl
    cases r.data.payload with
    | none =>
      refine .inl ?_
      dsimp only
      split
      · rfl
      · rfl
    | some payload =>
      dsimp only
      split
      · exact .inl rfl
      split
      · exact .inl rfl
      -- the proto is passed on to the mapper
      by_cases hkey : r.origin = worker ∧ toString type = key
      · refine .inr ⟨⟨some (locationOfData r.data), r.timestamp, .int r.timeReceived, payload⟩, ?_, rfl⟩
        simp only [List.filterMap_cons, Operation.offer, if_pos hkey, List.filterMap_nil]
      · refine .inl ?_
        simp only [List.filterMap_cons, Operation.offer, if_neg hkey, List.filterMap_nil]

theorem offers_append (cfg : ReceiverConfig) (rd : PayloadReader P) (worker key : String)
    (rs rs' : List (Reception P)) :
    offers cfg rd worker key (rs ++ rs') = offers cfg rd worker key rs ++ offers cfg rd worker key rs' := by
  simp [offers, received]

theorem mem_offers {cfg : ReceiverConfig} {rd : PayloadReader P} {worker key : String}
    {rs : List (Reception P)} {e : LatestMitmDataEntry P} (h : e ∈ offers cfg rd worker key rs) :
    ∃ r ∈ rs, e.timestampOfDataRetrieval = .int r.timeReceived := by
  induction rs using List.reverseRecOn with
  | nil => cases h
  | append_singleton rs r ih =>
    rw [offers_append, List.mem_append] at h
    rcases h with h | h
    · obtain ⟨r', hr', he⟩ := ih h
      exact ⟨r', List.mem_append_left _ hr', he⟩
    · refine ⟨r, List.mem_append_right _ (List.mem_singleton_self r), ?_⟩
      rcases offers_singleton cfg rd worker key r with hnil | ⟨e', he', hret⟩
      · rw [hnil] at h; cases h
      · rw [he', List.mem_singleton] at h
        rw [h, hret]

theorem received_offers (cfg : ReceiverConfig) (rd : PayloadReader P) (worker key : String)
    {rs : List (Reception P)} (hclock : rs.Pairwise fun r r' => r.timeReceived ≤ r'.timeReceived) :
    Received (offers cfg rd worker key rs) := by
  refine ⟨fun e he => ?_, ?_⟩
  · obtain ⟨r, _, hr⟩ := mem_offers he
    exact ⟨_, hr⟩
  · induction rs using List.reverseRecOn with
    | nil => exact List.Pairwise.nil
    | append_singleton rs r ih =>
      rw [List.pairwise_append] at hclock
      rw [offers_append, List.pairwise_append]
      refine ⟨ih hclock.1, ?_, fun e he e' he' => ?_⟩
      · rcases offers_singleton cfg rd worker key r with hnil | ⟨x, hx, _⟩
        · rw [hnil]; exact List.Pairwise.nil
        · rw [hx]; exact List.pairwise_singleton _ _
      · obtain ⟨r', hr', he⟩ := mem_offers he
        obtain ⟨r'', hr'', he'⟩ := mem_offers he'
        rw [he, he', List.mem_singleton.mp hr'']
        exact Int.cast_le.mpr (hclock.2.2 r' hr' r (List.mem_singleton_self r))

/-- What was offered so far at some point was offered by the protos received so far. -/
theorem exists_receptions {cfg : ReceiverConfig} {rd : PayloadReader P} {worker key : String}
    {rs : List (Reception P)} {pre : List (LatestMitmDataEntry P)} (h : pre <+: offers cfg rd worker key rs) :
    ∃ rs', rs' <+: rs ∧ offers cfg rd worker key rs' = pre := by
  induction rs using List.reverseRecOn with
  | nil => exact ⟨[], List.prefix_refl _, (List.prefix_nil.mp h).symm⟩
  | append_singleton rs r ih =>
    have hsmaller : pre <+: offers cfg rd worker key rs →
        ∃ rs', rs' <+: rs ++ [r] ∧ offers cfg rd worker key rs' = pre := by
      intro hpre
      obtain ⟨rs', hrs', hoff⟩ := ih hpre
      exact ⟨rs', hrs'.trans (List.prefix_append rs [r]), hoff⟩
    rcases offers_singleton cfg rd worker key r with hnil | ⟨e, he, _⟩
    · rw [offers_append, hnil, List.append_nil] at h
      exact hsmaller h
    · rw [offers_append, he] at h
      rcases List.prefix_concat_iff.mp h with heq | hpre
      · exact ⟨rs ++ [r], List.prefix_refl _, by rw [offers_append, he, heq]⟩
      · exact hsmaller hpre

/-- What either store hands out of these protos is fresh by device time. -/
structure StoresFresh (cfg : ReceiverConfig) (rd : PayloadReader P) (worker key : String)
    (rs : List (Reception P)) : Prop where
  redis : Fresh ((redisAfter cfg rd rs).requestLatest worker key) (offers cfg rd worker key rs)
  memory : Fresh ((memoryAfter cfg rd rs).requestLatest worker key) (offers cfg rd worker key rs)

theorem storesFresh_iff (cfg : ReceiverConfig) (rd : PayloadReader P) (worker key : String)
    (rs : List (Reception P)) :
    StoresFresh cfg rd worker key rs ↔
      Fresh (answersRequest (kept (offers cfg rd worker key rs))) (offers cfg rd worker key rs) := by
  have hredis : (redisAfter cfg rd rs).requestLatest worker key =
      answersRequest (kept (offers cfg rd worker key rs)) := by
    rw [← latestData_redisAfter]
    rfl
  have hmemory : (memoryAfter cfg rd rs).requestLatest worker key =
      answersRequest (kept (offers cfg rd worker key rs)) := by
    rw [← latestData_memoryAfter]
    rfl
  constructor
  · intro h
    exact hredis ▸ h.redis
  · intro h
    exact ⟨hredis ▸ h, hmemory ▸ h⟩

/-- What is handed out is fresh by device time after every proto if they are in order of it and
uploaded at once; with a clock after the epoch, only then. -/
theorem fresh_iff (cfg : ReceiverConfig) (rd : PayloadReader P) (worker key : String) (rs : List (Reception P))
    (hclock : rs.Pairwise fun r r' => r.timeReceived ≤ r'.timeReceived) :
    (InOrder (offers cfg rd worker key rs) → ∀ pre, pre <+: rs → StoresFresh cfg rd worker key pre) ∧
      ((∀ r ∈ rs, 0 < r.timeReceived) → (∀ pre, pre <+: rs → StoresFresh cfg rd worker key pre) →
        InOrder (offers cfg rd worker key rs)) := by
  have hr := received_offers cfg rd worker key hclock
  constructor
  · intro h pre hpre
    obtain ⟨post, rfl⟩ := hpre
    have hoff : offers cfg rd worker key pre <+: offers cfg rd worker key (pre ++ post) := by
      rw [offers_append]
      exact List.prefix_append _ _
    refine (storesFresh_iff cfg rd worker key pre).mpr (fresh_of_inOrder (hr.initial hoff) ?_)
    exact ⟨h.1.sublist hoff.sublist, fun e he => h.2 e (hoff.subset he)⟩
  · intro hpos h
    refine inOrder_of_fresh hr (fun e he => ?_) fun pre hpre => ?_
    · obtain ⟨r, hmem, hret⟩ := mem_offers he
      rw [hret]
      exact Int.cast_pos.mpr (hpos r hmem)
    · obtain ⟨rs', hrs', rfl⟩ := exists_receptions hpre
      exact (storesFresh_iff cfg rd worker key rs').mp (h rs' hrs')

/-- A GMO of device `a` with this timestamp, received at `time`. -/
def gmoReceived (timestamp time : Int) : Reception (List Int) where
  origin := "a"
  data := ⟨some 106, some (.int timestamp), some [1], none, none, none⟩
  timeHandled := time
  timeReceived := time
  fortSearchRaises := false

/-- A receiver that takes protos of any time. -/
def anyTime : ReceiverConfig := ⟨false, 0⟩

theorem fresh_at_once : StoresFresh anyTime cellsOnly "a" gmoKey [gmoReceived 100 100, gmoReceived 110 110] :=
  (fresh_iff anyTime cellsOnly "a" gmoKey [gmoReceived 100 100, gmoReceived 110 110] (by decide)).1
    (by unfold InOrder; decide +kernel) _ (List.prefix_refl _)

/-- Data the device got at 5 and uploads at 100 is handed out to a worker that waits for newer data
than of 50. -/
theorem late_upload_handed_out : ¬ ∀ rs : List (Reception (List Int)),
    rs.Pairwise (fun r r' => r.timeReceived ≤ r'.timeReceived) →
      StoresFresh anyTime cellsOnly "a" gmoKey rs := by
  intro h
  have hlate := (h [gmoReceived 5 100] (by decide)).redis.fresher (.int 50) (by decide +kernel)
    ⟨some ⟨0, 0⟩, .int 5, .int 100, [1]⟩ (by decide +kernel)
  revert hlate
  decide +kernel

end MapADroid.Mitm
