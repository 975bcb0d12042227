import MapADroid.Websocket.ClientEntry

/- Which call gets which message.

   The ids are the numbers of the requests modulo 100000. While no call lives through
   100000 requests issued after its own (`FewInBetween`), the unfinished calls have
   different ids, and the table of entries has exactly theirs (`Correlated`); so what a
   call returns was delivered under its own id while it was waiting for it
   (`correlated`). -/
namespace MapADroid.Websocket
open Lib

namespace ClientEntry

/-- The number and the id of a call that has not finished. -/
def unfinished (s : ClientEntry) (c : Call) : Option (Nat × Int) := (s.pc c).unfinished

/-- A request is issued only while fewer than 100000, itself included, were issued after that of any
call that has not finished. -/
def FewInBetween (s : ClientEntry) : Action → Prop
  | .start _ true => ∀ d n k, s.unfinished d = some (n, k) → s.issued + 1 - n < 100000
  | _ => True

structure Correlated (s : ClientEntry) : Prop where
  counter : s.messageIdCounter = s.issued % 100000
  id : ∀ c n k, s.unfinished c = some (n, k) → n ≤ s.issued ∧ s.issued - n < 100000 ∧ k = (n % 100000 : Nat)
  distinct : ∀ c d n k k', s.unfinished c = some (n, k) → s.unfinished d = some (n, k') → c = d
  table : ∀ k c, s.receivedMessages.get? k = some c ↔ ∃ n, s.unfinished c = some (n, k)

/-! ## Unfinished calls -/

theorem unfinished_setPc (s : ClientEntry) (c : Call) (pc : Pc) (d : Call) :
    (s.setPc c pc).unfinished d = if d = c then pc.unfinished else s.unfinished d := by
  simp only [unfinished, setPc, Function.update_apply]
  split
  · rfl
  · rfl

theorem unfinished_finish (s : ClientEntry) (c : Call) (k : Int) (pc : Pc) (d : Call) :
    (s.finish c k pc).unfinished d = if d = c then pc.unfinished else s.unfinished d :=
  unfinished_setPc s c pc d

theorem unfinished_start (s : ClientEntry) (c d : Call) :
    (s.start c).unfinished d =
      if d = c then some (s.issued + 1, (getNewMessageId s.messageIdCounter : Int)) else s.unfinished d :=
  unfinished_setPc s c (.sending _ _) d

theorem getNewMessageId_mod (n : Nat) : getNewMessageId (n % 100000) = (n + 1) % 100000 := by
  unfold getNewMessageId
  have hlt : (n % 100000 + 1) % 100000 < 100000 := Nat.mod_lt _ (by omega)
  rw [if_neg (by omega)]
  omega

theorem correlated_init : Correlated init where
  counter := rfl
  id _ _ _ h := by cases h
  distinct _ _ _ _ _ h := by cases h
  table k c := by
    constructor
    · intro h; cases h
    · intro h; obtain ⟨n, hn⟩ := h; cases hn

/-- Unfinished calls with the same id are the same call. -/
theorem Correlated.unique {s : ClientEntry} (h : Correlated s) {c d : Call} {n m : Nat} {k : Int}
    (hc : s.unfinished c = some (n, k)) (hd : s.unfinished d = some (m, k)) : c = d := by
  obtain ⟨hn, hn', hk⟩ := h.id c n k hc
  obtain ⟨hm, hm', hk'⟩ := h.id d m k hd
  have hnm : n = m := by
    have hmod : n % 100000 = m % 100000 := by rw [hk] at hk'; exact_mod_cast hk'
    omega
  subst hnm
  exact h.distinct c d n k k hc hd

/-- What a step that issues no request and ends no call leaves as it is. -/
theorem Correlated.same {s t : ClientEntry} (h : Correlated s)
    (hcounter : t.messageIdCounter = s.messageIdCounter) (hissued : t.issued = s.issued)
    (htable : t.receivedMessages = s.receivedMessages) (hpc : ∀ c, t.unfinished c = s.unfinished c) :
    Correlated t where
  counter := by rw [hcounter, hissued, h.counter]
  id c n k hc := by rw [hissued]; exact h.id c n k (hpc c ▸ hc)
  distinct c d n k k' hc hd := h.distinct c d n k k' (hpc c ▸ hc) (hpc d ▸ hd)
  table k c := by rw [htable, hpc c]; exact h.table k c

/-- A call that ends takes its entry with it. -/
theorem Correlated.finish {s : ClientEntry} (h : Correlated s) {c : Call} {n : Nat} {k : Int}
    (hc : s.unfinished c = some (n, k)) {pc : Pc} (hpc : pc.unfinished = none) :
    Correlated (s.finish c k pc) := by
  have hother : ∀ d n' k', (s.finish c k pc).unfinished d = some (n', k') →
      d ≠ c ∧ s.unfinished d = some (n', k') := by
    intro d n' k' hd
    rw [unfinished_finish] at hd
    split at hd
    · rw [hpc] at hd; cases hd
    · next hne => exact ⟨hne, hd⟩
  refine ⟨h.counter, fun d n' k' hd => h.id d n' k' (hother d n' k' hd).2, ?_, fun k' d => ?_⟩
  · intro d e n' k' k'' hd he
    exact h.distinct d e n' k' k'' (hother d n' k' hd).2 (hother e n' k'' he).2
  · show (s.receivedMessages.erase k).get? k' = some d ↔ _
    rw [Dict.get?_erase, unfinished_finish]
    by_cases hdc : d = c
    · -- the entry of the call itself is gone
      subst hdc
      rw [if_pos rfl, hpc]
      constructor
      · intro hget
        split at hget
        · cases hget
        · next hk =>
          obtain ⟨m, hm⟩ := (h.table k' d).mp hget
          rw [hc] at hm
          cases hm
          exact absurd rfl hk
      · intro hex; obtain ⟨_, hx⟩ := hex; cases hx
    · rw [if_neg hdc, ← h.table k' d]
      by_cases hk : k' = k
      · subst hk
        rw [if_pos rfl]
        constructor
        · intro hget; cases hget
        · intro hget
          obtain ⟨m, hm⟩ := (h.table k' d).mp hget
          exact absurd (h.unique hm hc) hdc
      · rw [if_neg hk]

/-- A new request gets an id no unfinished call has. -/
theorem Correlated.start {s : ClientEntry} (h : Correlated s) {c : Call} (hidle : s.unfinished c = none)
    (hfew : ∀ d n k, s.unfinished d = some (n, k) → s.issued + 1 - n < 100000) :
    Correlated (s.start c) := by
  have hid : getNewMessageId s.messageIdCounter = (s.issued + 1) % 100000 := by
    rw [h.counter, getNewMessageId_mod]
  have hcases : ∀ d n k, (s.start c).unfinished d = some (n, k) →
      d = c ∧ n = s.issued + 1 ∧ k = ((s.issued + 1) % 100000 : Nat) ∨
        d ≠ c ∧ s.unfinished d = some (n, k) := by
    intro d n k hd
    rw [unfinished_start, hid] at hd
    split at hd
    · next hdc => cases hd; exact .inl ⟨hdc, rfl, rfl⟩
    · next hdc => exact .inr ⟨hdc, hd⟩
  refine ⟨hid, fun d n k hd => ?_, fun d e n k k' hd he => ?_, fun k d => ?_⟩
  · show n ≤ s.issued + 1 ∧ s.issued + 1 - n < 100000 ∧ _
    rcases hcases d n k hd with ⟨_, hn, hk⟩ | ⟨_, hd⟩
    · subst hn
      exact ⟨by omega, by omega, hk⟩
    · obtain ⟨hn, _, hk⟩ := h.id d n k hd
      exact ⟨by omega, hfew d n k hd, hk⟩
  · rcases hcases d n k hd with ⟨hdc, hn, _⟩ | ⟨_, hd⟩
    · rcases hcases e n k' he with ⟨hec, _⟩ | ⟨_, he⟩
      · rw [hdc, hec]
      · have := (h.id e n k' he).1
        omega
    · rcases hcases e n k' he with ⟨_, hn, _⟩ | ⟨_, he⟩
      · have := (h.id d n k hd).1
        omega
      · exact h.distinct d e n k k' hd he
  · show (s.receivedMessages.insert (getNewMessageId s.messageIdCounter : Int) c).get? k = some d ↔ _
    rw [Dict.get?_insert, unfinished_start, hid]
    by_cases hk : k = ((s.issued + 1) % 100000 : Nat)
    · subst hk
      rw [if_pos rfl]
      by_cases hdc : d = c
      · subst hdc
        simp
      · -- another call with the new id would be 100000 requests old
        rw [if_neg hdc]
        constructor
        · intro hcd; exact absurd (Option.some.inj hcd).symm hdc
        · intro hex
          obtain ⟨n, hn⟩ := hex
          obtain ⟨hle, _, hk⟩ := h.id d n _ hn
          have hlt := hfew d n _ hn
          have hmod : (s.issued + 1) % 100000 = n % 100000 := by exact_mod_cast hk
          omega
    · rw [if_neg hk]
      by_cases hdc : d = c
      · subst hdc
        rw [if_pos rfl, h.table, hidle]
        constructor
        · intro hex; obtain ⟨_, hx⟩ := hex; cases hx
        · intro hex; obtain ⟨_, hx⟩ := hex; cases hx; exact absurd rfl hk
      · rw [if_neg hdc]
        exact h.table k d

/-! ## Steps -/

theorem Correlated.setPc {s : ClientEntry} (h : Correlated s) {c : Call} {pc : Pc}
    (hpc : pc.unfinished = s.unfinished c) : Correlated (s.setPc c pc) := by
  refine h.same rfl rfl rfl fun d => ?_
  rw [unfinished_setPc]
  split
  · next hd => rw [hpc, hd]
  · rfl

theorem step_correlated {int : List Char → Option Int} {s t : ClientEntry} {a : Action} (h : Correlated s)
    (hfew : FewInBetween s a) (hs : step int s a = some t) : Correlated t := by
  cases a with
  | start c accepted =>
    simp only [step] at hs
    split at hs
    · next hpc =>
      have hidle : s.unfinished c = none := by rw [unfinished, hpc]; rfl
      cases accepted with
      | true => cases hs; exact h.start hidle hfew
      | false => cases hs; exact h.setPc hidle.symm
    · cases hs
  | sent c =>
    simp only [step] at hs
    split at hs
    · next n k hpc =>
      cases hs
      exact h.setPc (by rw [unfinished, hpc]; rfl)
    · cases hs
  | sendFails c =>
    simp only [step] at hs
    split at hs
    · next n k hpc =>
      cases hs
      exact h.finish (n := n) (by rw [unfinished, hpc]; rfl) rfl
    · cases hs
  | receive m =>
    simp only [step] at hs
    split at hs
    · next k response _ =>
      cases hs
      unfold setMessageResponse
      split
      · exact h.same rfl rfl rfl fun _ => rfl
      · exact h
    · cases hs; exact h
  | wake c =>
    simp only [step] at hs
    split at hs
    · next n k response hpc _ =>
      cases hs
      have hreset : Correlated { s with failCounter := 0 } := h.same rfl rfl rfl fun _ => rfl
      exact hreset.finish (n := n) (by rw [unfinished, hpc]; rfl) rfl
    · cases hs
  | timeout c =>
    simp only [step] at hs
    split at hs
    · next n k hpc =>
      cases hs
      have hunfinished : s.unfinished c = some (n, k) := by rw [unfinished, hpc]; rfl
      have hcounted : Correlated { s with failCounter := s.failCounter + 1 } :=
        h.same rfl rfl rfl fun _ => rfl
      unfold timeout
      dsimp only
      split
      · exact hcounted.setPc hunfinished.symm
      · exact hcounted.finish hunfinished rfl
    · cases hs
  | closed c =>
    simp only [step] at hs
    split at hs
    · next n k hpc =>
      cases hs
      exact h.finish (n := n) (by rw [unfinished, hpc]; rfl) rfl
    · cases hs
  | cancel c =>
    simp only [step] at hs
    split at hs
    · next n k hpc =>
      cases hs
      exact h.finish hpc rfl
    · cases hs

/-! ## Where a message comes from -/

/-- Response `m` was received under id `k` while `c` was the unfinished call with that id. -/
def Delivered (int : List Char → Option Int) (l : List Action) (c : Call) (k : Int) (m : Message) : Prop :=
  ∃ l₁ msg l₂ s₁, l = l₁ ++ .receive msg :: l₂ ∧ Run (step int) FewInBetween init l₁ s₁ ∧
    onMessage int msg = some (k, m) ∧ ∀ d, (∃ n, s₁.unfinished d = some (n, k)) ↔ d = c

theorem Delivered.snoc {int : List Char → Option Int} {l : List Action} {c : Call} {k : Int} {m : Message}
    (h : Delivered int l c k m) (a : Action) : Delivered int (l ++ [a]) c k m := by
  obtain ⟨l₁, msg, l₂, s₁, rfl, hrun, hmsg, honly⟩ := h
  exact ⟨l₁, msg, l₂ ++ [a], s₁, by simp, hrun, hmsg, honly⟩

/-- The messages in the entries of unfinished calls, and those returned, were delivered. -/
structure Origin (int : List Char → Option Int) (l : List Action) (s : ClientEntry) : Prop where
  entry : ∀ c n k m, s.unfinished c = some (n, k) → s.message c = some m → Delivered int l c k m
  returned : ∀ c k m, s.pc c = .returned k (some m) → Delivered int l c k m

/-- A step that puts no message into an entry, and lets no call return one not in its entry. -/
theorem Origin.frame {int : List Char → Option Int} {l : List Action} {s t : ClientEntry} (h : Origin int l s)
    (a : Action)
    (hentry : ∀ c n k m, t.unfinished c = some (n, k) → t.message c = some m →
      s.unfinished c = some (n, k) ∧ s.message c = some m)
    (hreturned : ∀ c k m, t.pc c = .returned k (some m) → s.pc c = .returned k (some m) ∨
      ∃ n, s.unfinished c = some (n, k) ∧ s.message c = some m) :
    Origin int (l ++ [a]) t where
  entry c n k m hc hm := by
    obtain ⟨hc', hm'⟩ := hentry c n k m hc hm
    exact (h.entry c n k m hc' hm').snoc a
  returned c k m hpc := by
    rcases hreturned c k m hpc with hpc | ⟨n, hc, hm⟩
    · exact (h.returned c k m hpc).snoc a
    · exact (h.entry c n k m hc hm).snoc a

/-- A call moves on without a response. -/
theorem Origin.setPc {int : List Char → Option Int} {l : List Action} {s t : ClientEntry} (h : Origin int l s)
    (a : Action) {c : Call} {pc : Pc} (hmessage : t.message = s.message)
    (hpc : t.pc = Function.update s.pc c pc)
    (hsame : pc.unfinished = none ∨ pc.unfinished = s.unfinished c)
    (hnone : ∀ k m, pc ≠ .returned k (some m)) : Origin int (l ++ [a]) t := by
  refine h.frame a (fun d n k m hd hm => ?_) fun d k m hd => ?_
  · rw [hmessage] at hm
    refine ⟨?_, hm⟩
    rw [unfinished, hpc, Function.update_apply] at hd
    split at hd
    · next hdc =>
      subst hdc
      rcases hsame with hsame | hsame
      · rw [hsame] at hd; cases hd
      · rw [← hsame]; exact hd
    · exact hd
  · rw [hpc, Function.update_apply] at hd
    split at hd
    · exact absurd hd (hnone k m)
    · exact .inl hd

theorem Origin.start {int : List Char → Option Int} {l : List Action} {s : ClientEntry} (h : Origin int l s)
    (a : Action) (c : Call) : Origin int (l ++ [a]) (s.start c) := by
  refine h.frame a (fun d n k m hd hm => ?_) fun d k m hd => ?_
  · by_cases hdc : d = c
    · -- the entry of the new call is empty
      subst hdc
      have hnone : (s.start d).message d = none := Function.update_self _ _ _
      rw [hnone] at hm
      cases hm
    · rw [unfinished_start, if_neg hdc] at hd
      have hsame : (s.start c).message d = s.message d := Function.update_of_ne hdc _ _
      exact ⟨hd, hsame ▸ hm⟩
  · have hpc : (s.start c).pc d = if d = c then .sending (s.issued + 1) (getNewMessageId s.messageIdCounter)
        else s.pc d := Function.update_apply _ _ _ _
    rw [hpc] at hd
    split at hd
    · cases hd
    · exact .inl hd

/-- A message goes into the entry of the one call that has its id. -/
theorem Origin.receive {int : List Char → Option Int} {l : List Action} {s : ClientEntry} (h : Origin int l s)
    (hs : Correlated s) (hrun : Run (step int) FewInBetween init l s) {msg : Message} {k : Int} {m : Message}
    (hmsg : onMessage int msg = some (k, m)) :
    Origin int (l ++ [.receive msg]) (s.setMessageResponse k m) := by
  unfold setMessageResponse
  split
  · next c hget =>
    obtain ⟨n, hc⟩ := (hs.table k c).mp hget
    have hdelivered : Delivered int (l ++ [.receive msg]) c k m := by
      refine ⟨l, msg, [], s, rfl, hrun, hmsg, fun d => ⟨fun hd => ?_, fun hd => ⟨n, hd ▸ hc⟩⟩⟩
      obtain ⟨n', hd⟩ := hd
      exact hs.unique hd hc
    refine ⟨fun d n' k' m' hd hm => ?_, fun d k' m' hd => (h.returned d k' m' hd).snoc _⟩
    have hd' : s.unfinished d = some (n', k') := hd
    have hm' : Function.update s.message c (some m) d = some m' := hm
    by_cases hdc : d = c
    · subst hdc
      rw [hc] at hd'
      cases hd'
      rw [Function.update_self] at hm'
      cases hm'
      exact hdelivered
    · rw [Function.update_of_ne hdc] at hm'
      exact (h.entry d n' k' m' hd' hm').snoc _
  · exact h.frame _ (fun _ _ _ _ hd hm => ⟨hd, hm⟩) fun _ _ _ hd => .inl hd

theorem step_origin {int : List Char → Option Int} {l : List Action} {s t : ClientEntry} {a : Action}
    (h : Origin int l s) (hs : Correlated s) (hrun : Run (step int) FewInBetween init l s)
    (hstep : step int s a = some t) : Origin int (l ++ [a]) t := by
  cases a with
  | start c accepted =>
    simp only [step] at hstep
    split at hstep
    · cases accepted with
      | true => cases hstep; exact h.start _ c
      | false => cases hstep; exact h.setPc _ rfl rfl (.inl rfl) fun _ _ hne => by cases hne
    · cases hstep
  | sent c =>
    simp only [step] at hstep
    split at hstep
    · next n k hpc =>
      cases hstep
      exact h.setPc _ rfl rfl (.inr (by rw [unfinished, hpc]; rfl)) fun _ _ hne => by cases hne
    · cases hstep
  | sendFails c | closed c | cancel c =>
    simp only [step] at hstep
    split at hstep
    · cases hstep
      exact h.setPc _ rfl rfl (.inl rfl) fun _ _ hne => by cases hne
    · cases hstep
  | receive msg =>
    simp only [step] at hstep
    split at hstep
    · next k m hmsg => cases hstep; exact h.receive hs hrun hmsg
    · cases hstep
      exact h.frame _ (fun _ _ _ _ hd hm => ⟨hd, hm⟩) fun _ _ _ hd => .inl hd
  | wake c =>
    simp only [step] at hstep
    split at hstep
    · next n k response hpc hm =>
      cases hstep
      have hc : s.unfinished c = some (n, k) := by rw [unfinished, hpc]; rfl
      refine h.frame _ (fun d n' k' m' hd hm' => ⟨?_, hm'⟩) fun d k' m' hd => ?_
      · rw [unfinished_finish] at hd
        split at hd
        · cases hd
        · exact hd
      · have hpc' : Function.update s.pc c (.returned k (some response)) d = .returned k' (some m') := hd
        rw [Function.update_apply] at hpc'
        split at hpc'
        · -- the call returns what is in its entry
          next hdc =>
          subst hdc
          cases hpc'
          exact .inr ⟨n, hc, hm⟩
        · exact .inl hpc'
    · cases hstep
  | timeout c =>
    simp only [step] at hstep
    split at hstep
    · next n k hpc =>
      cases hstep
      unfold timeout
      dsimp only
      split
      · exact h.setPc _ rfl rfl (.inr (by rw [unfinished, hpc]; rfl)) fun _ _ hne => by cases hne
      · exact h.setPc _ rfl rfl (.inl rfl) fun _ _ hne => by cases hne
    · cases hstep

/-! ## Runs -/

theorem run_correlated {int : List Char → Option Int} {l : List Action} {t : ClientEntry}
    (h : Run (step int) FewInBetween init l t) : Correlated t :=
  h.invariant correlated_init fun _ _ _ hi hfew hs => step_correlated hi hfew hs

theorem run_origin {int : List Char → Option Int} {l : List Action} {t : ClientEntry}
    (h : Run (step int) FewInBetween init l t) : Origin int l t := by
  induction h with
  | nil => exact ⟨fun _ _ _ _ hc => (by cases hc), fun _ _ _ hc => (by cases hc)⟩
  | snoc hrun _ hs ih => exact step_origin ih (run_correlated hrun) hrun hs

/-- In every state reached: the table has exactly the ids of the unfinished calls, no two of which have
the same, and a response a call has returned was delivered under its id, which no other call had,
while it had not finished. -/
theorem correlated {int : List Char → Option Int} {l : List Action} {t : ClientEntry}
    (h : Run (step int) FewInBetween init l t) :
    (∀ k, k ∈ t.receivedMessages.keys ↔ ∃ c n, t.unfinished c = some (n, k)) ∧
      (∀ c d n m k, t.unfinished c = some (n, k) → t.unfinished d = some (m, k) → c = d) ∧
      ∀ c k m, t.pc c = .returned k (some m) → Delivered int l c k m := by
  have hinv := run_correlated h
  refine ⟨fun k => ?_, fun c d n m k hc hd => hinv.unique hc hd, (run_origin h).returned⟩
  rw [Dict.mem_keys_iff]
  exact exists_congr fun c => hinv.table k c

/-! ## A run with two requests -/

/-- `int` of a text of one digit. -/
def digit : List Char → Option Int
  | [c] => if c.isDigit then some (c.toNat - 48 : Nat) else none
  | _ => none

/-- Fewer than 100000 requests in all. -/
def Few (s : ClientEntry) (_ : Action) : Prop := s.issued + 1 < 100000

instance (s : ClientEntry) (a : Action) : Decidable (Few s a) := inferInstanceAs (Decidable (_ < _))

theorem Few.inBetween {s : ClientEntry} {a : Action} (h : Few s a) : FewInBetween s a := by
  unfold FewInBetween
  split
  · intro d n k _
    exact Nat.lt_of_le_of_lt (Nat.sub_le _ _) h
  · trivial

/-- The second of two requests is answered first, the answer to it is sent twice, and the first times
out before its answer is there. -/
def answeredLate : List Action :=
  [.start 0 true, .start 1 true, .sent 0, .sent 1, .receive (.text ['2', ';', 'b']),
    .receive (.text ['2', ';', 'c']), .wake 1, .timeout 0, .receive (.text ['1', ';', 'a'])]

theorem correlated_answeredLate :
    ((after (step digit) Few init answeredLate).pc 0, (after (step digit) Few init answeredLate).pc 1) =
        (.returned 1 none, .returned 2 (some (.text ['c']))) ∧
      Delivered digit answeredLate 1 2 (.text ['c']) := by
  have hrun : Run (step digit) FewInBetween init answeredLate (after (step digit) Few init answeredLate) :=
    (Run.of_after (by decide)).mono fun _ _ h => h.inBetween
  have hpc : (after (step digit) Few init answeredLate).pc 1 = .returned 2 (some (.text ['c'])) := by decide
  exact ⟨by decide, (correlated hrun).2.2 1 2 (.text ['c']) hpc⟩

end ClientEntry

end MapADroid.Websocket
