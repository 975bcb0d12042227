import MapADroid.Lib.Trace
import MapADroid.Updater.Requeue

/- The order in which the sub jobs of a job are executed.

   The record of a run says which sub job of which job was started, which succeeded,
   when a job was given up after its last attempt and when its device was gone
   (`Event`). The starts of a job's first sub job cut the record into rounds.

   A round has to be a prefix of the job's list of sub jobs, and all of it when the
   first sub job is started again (`Chained`). `restart_job` sets the index back after
   every successful sub job of a redone job, not after its last: such a job starts over
   with sub jobs left (`redo_starts_over`). Where a redone job is restarted after its last
   sub job only, and a task takes no job that another one has (`SafeChain`), every job
   keeps to its list (`chain_order`). -/
namespace MapADroid.Updater
open Lib

/-- What a step tells about the sub jobs of a job. -/
inductive Event where
  | started (id : String) (i : Nat)
  | succeeded (id : String) (i : Nat)
  /-- A sub job had its last attempt. -/
  | exhausted (id : String)
  | notConnected (id : String)
  deriving DecidableEq, Repr

/-- The job an event is about. -/
def Event.job : Event → String
  | started id _ => id
  | succeeded id _ => id
  | exhausted id => id
  | notConnected id => id

/-- A round of the job starts. -/
def isFirst (id : String) (e : Event) : Bool := e = .started id 0

/-- The sub jobs of the job that succeeded, in order. -/
def successes (id : String) : List Event → List Nat
  | [] => []
  | .succeeded j i :: es => if j = id then i :: successes id es else successes id es
  | _ :: es => successes id es

/-- No sub job of the job had its last attempt, and its device stayed connected. -/
def Undisturbed (id : String) (es : List Event) : Prop :=
  .exhausted id ∉ es ∧ .notConnected id ∉ es

/-- Once the first of `n` sub jobs succeeded, all of them did. -/
def Complete (id : String) (n : Nat) (es : List Event) : Prop :=
  Undisturbed id es → successes id es ≠ [] → successes id es = List.range n

/-- In every round the sub jobs succeed in the order of the list, and no round starts
before the one before it is complete. -/
def Chained (id : String) (n : Nat) : List Event → Prop :=
  Segmented (isFirst id) (fun round => successes id round <+: List.range n) (Complete id n)

/-! ## One job -/

theorem successes_append (id : String) (es fs : List Event) :
    successes id (es ++ fs) = successes id es ++ successes id fs := by
  induction es with
  | nil => rfl
  | cons e es ih =>
    cases e with
    | succeeded j i =>
      by_cases hj : j = id
      · simp [successes, hj, ih]
      · simp [successes, hj, ih]
    | _ => exact ih

theorem Undisturbed.init {id : String} {es fs : List Event} (h : Undisturbed id (es ++ fs)) :
    Undisturbed id es :=
  ⟨fun hm => h.1 (List.mem_append_left _ hm), fun hm => h.2 (List.mem_append_left _ hm)⟩

theorem range_prefix {k n : Nat} (h : k ≤ n) : List.range k <+: List.range n := by
  have htake : (List.range n).take k = List.range k := by rw [List.take_range, Nat.min_eq_left h]
  rw [← htake]
  exact List.take_prefix k _

/-- What is said about other jobs starts no round. -/
theorem since_others {id : String} {es fs : List Event} (hfs : ∀ e ∈ fs, e.job ≠ id) :
    since (isFirst id) (es ++ fs) = since (isFirst id) es ++ fs := by
  induction fs using List.reverseRecOn with
  | nil => simp
  | append_singleton fs e ih =>
    have he : isFirst id e = false := by
      have hne : e ≠ .started id 0 := by
        rintro rfl
        exact hfs (.started id 0) (by simp) rfl
      simp [isFirst, hne]
    have hrest := ih fun x hx => hfs x (by simp [hx])
    rw [← List.append_assoc, since_quiet he, hrest, List.append_assoc]

theorem successes_others {id : String} {fs : List Event} (hfs : ∀ e ∈ fs, e.job ≠ id) :
    successes id fs = [] := by
  induction fs with
  | nil => rfl
  | cons e fs ih =>
    have hrest := ih fun x hx => hfs x (List.mem_cons_of_mem _ hx)
    cases e with
    | succeeded j i =>
      have hj : j ≠ id := hfs _ List.mem_cons_self
      simp [successes, hj, hrest]
    | _ => exact hrest

/-- The sub jobs that succeeded in the round the job is in. -/
def done (id : String) (es : List Event) : List Nat := successes id (since (isFirst id) es)

theorem done_others {id : String} {es fs : List Event} (hfs : ∀ e ∈ fs, e.job ≠ id) :
    done id (es ++ fs) = done id es := by
  unfold done
  rw [since_others hfs, successes_append, successes_others hfs, List.append_nil]

/-- Where a job stands: its list has `n` sub jobs, and the next one is `index` if it is in
the queue or at a task. -/
structure Stands (id : String) (n index : Nat) (present : Prop) (es : List Event) : Prop where
  done : ∃ k, k ≤ n ∧ done id es = List.range k
  index : present → index = (Updater.done id es).length ∨
    index = 0 ∧ Complete id n (since (isFirst id) es)
  chained : Chained id n es

namespace Stands

variable {id : String} {n index : Nat} {present : Prop} {es : List Event}

theorem weaken (h : Stands id n index present es) {present' : Prop} (hp : present' → present) :
    Stands id n index present' es :=
  ⟨h.done, fun hp' => h.index (hp hp'), h.chained⟩

/-- A job nothing has been said about. -/
theorem silent (hes : ∀ e ∈ es, e.job ≠ id) : Stands id n 0 present es := by
  have hdone : Updater.done id es = [] :=
    successes_others fun e he => hes e ((List.rtakeWhile_suffix _ _).subset he)
  refine ⟨⟨0, Nat.zero_le n, hdone⟩, fun _ => Or.inl (by rw [hdone]; rfl), ?_⟩
  intro pre m seg post hsplit hm
  have hmem : m ∈ es := by rw [hsplit]; simp
  obtain rfl : m = .started id 0 := by simpa [isFirst] using hm
  exact absurd rfl (hes _ hmem)

/-- What is said about another job, or about a failure, is not about the sub jobs that
succeeded. -/
theorem note (h : Stands id n index present es) {e : Event} (hfirst : isFirst id e = false)
    (hnot : successes id [e] = []) : Stands id n index present (es ++ [e]) := by
  have hsince : since (isFirst id) (es ++ [e]) = since (isFirst id) es ++ [e] := since_quiet hfirst
  have hdone : Updater.done id (es ++ [e]) = Updater.done id es := by
    unfold Updater.done
    rw [hsince, successes_append, hnot, List.append_nil]
  obtain ⟨k, hk, hrange⟩ := h.done
  refine ⟨⟨k, hk, hdone.trans hrange⟩, ?_, ?_⟩
  · intro hp
    rw [hdone]
    rcases h.index hp with hi | ⟨hi, hcomplete⟩
    · exact Or.inl hi
    · refine Or.inr ⟨hi, ?_⟩
      intro hclean hne
      rw [hsince] at hclean hne ⊢
      rw [successes_append, hnot, List.append_nil] at hne ⊢
      exact hcomplete hclean.init hne
  · refine h.chained.snoc ?_ ?_
    · show Updater.done id (es ++ [e]) <+: List.range n
      rw [hdone, hrange]
      exact range_prefix hk
    · intro hm
      rw [hfirst] at hm
      cases hm

/-- What happens to other jobs. -/
theorem others (h : Stands id n index present es) {fs : List Event} (hfs : ∀ e ∈ fs, e.job ≠ id) :
    Stands id n index present (es ++ fs) := by
  induction fs using List.reverseRecOn with
  | nil => rw [List.append_nil]; exact h
  | append_singleton fs e ih =>
    have hrest := ih fun x hx => hfs x (by simp [hx])
    have he : e.job ≠ id := hfs e (by simp)
    rw [← List.append_assoc]
    apply hrest.note
    · have hne : e ≠ .started id 0 := by
        rintro rfl
        exact he rfl
      simp [isFirst, hne]
    · exact successes_others (by simpa using he)

/-- The next sub job is started. -/
theorem start (h : Stands id n index present es) (hp : present) :
    Stands id n index present (es ++ [.started id index]) ∧
      Updater.done id (es ++ [.started id index]) = List.range index := by
  obtain ⟨k, hk, hrange⟩ := h.done
  have hlen : (Updater.done id es).length = k := by rw [hrange, List.length_range]
  by_cases h0 : index = 0
  · -- The first sub job: a new round.
    subst h0
    have hfirst : isFirst id (.started id 0) = true := by simp [isFirst]
    have hdone : Updater.done id (es ++ [.started id 0]) = [] := by
      unfold Updater.done
      rw [since_mark hfirst]
      rfl
    refine ⟨⟨⟨0, Nat.zero_le n, hdone⟩, fun _ => Or.inl (by rw [hdone]; rfl), ?_⟩, hdone⟩
    apply h.chained.snoc
    · show Updater.done id (es ++ [.started id 0]) <+: List.range n
      rw [hdone]
      exact List.nil_prefix
    · intro _
      rcases h.index hp with hi | ⟨_, hcomplete⟩
      · have hk0 : k = 0 := by omega
        intro _ hne
        exact absurd (hrange.trans (by rw [hk0]; rfl)) hne
      · exact hcomplete
  · -- A later one: the round goes on where it is.
    have hfirst : isFirst id (.started id index) = false := by simp [isFirst, h0]
    have hstands := h.note hfirst rfl
    have hdone : Updater.done id (es ++ [.started id index]) = Updater.done id es := by
      unfold Updater.done
      rw [since_quiet hfirst, successes_append]
      exact List.append_nil _
    refine ⟨hstands, ?_⟩
    rcases h.index hp with hi | ⟨hi, _⟩
    · rw [hdone, hrange, hi, hlen]
    · exact absurd hi h0

/-- The sub job that runs succeeds, and the index moves on. -/
theorem succeed (h : Stands id n index present es) (hdone : Updater.done id es = List.range index)
    (hlt : index < n) : Stands id n (index + 1) present (es ++ [.succeeded id index]) := by
  have hfirst : isFirst id (.succeeded id index) = false := by simp [isFirst]
  have hnext : Updater.done id (es ++ [.succeeded id index]) = List.range (index + 1) := by
    unfold Updater.done at hdone ⊢
    rw [since_quiet hfirst, successes_append, hdone, List.range_succ]
    simp [successes]
  -- A success starts no round, so the round it is in only has to stay a prefix.
  refine ⟨⟨index + 1, hlt, hnext⟩, fun _ => Or.inl (by rw [hnext, List.length_range]), ?_⟩
  apply h.chained.snoc
  · show Updater.done id (es ++ [.succeeded id index]) <+: List.range n
    rw [hnext]
    exact range_prefix hlt
  · intro hm
    rw [hfirst] at hm
    cases hm

/-- The whole list is done where the index is at its end. -/
theorem complete (h : Stands id n index present es) (hp : present) (hlast : n ≤ index) :
    Complete id n (since (isFirst id) es) := by
  obtain ⟨k, hk, hrange⟩ := h.done
  rcases h.index hp with hi | ⟨_, hcomplete⟩
  · intro _ _
    have hlen : (Updater.done id es).length = k := by rw [hrange, List.length_range]
    obtain rfl : k = n := by omega
    exact hrange
  · exact hcomplete

/-- After a whole round the chain may start over. -/
theorem again (h : Stands id n index present es) (hp : present) (hlast : n ≤ index) {present' : Prop} :
    Stands id n 0 present' es :=
  ⟨h.done, fun _ => Or.inr ⟨rfl, h.complete hp hlast⟩, h.chained⟩

/-- After a disturbance the chain may start over. -/
theorem reset (h : Stands id n index present es) {present' : Prop}
    (hdis : ¬ Undisturbed id (since (isFirst id) es)) : Stands id n 0 present' es :=
  ⟨h.done, fun _ => Or.inr ⟨rfl, fun hclean => absurd hclean hdis⟩, h.chained⟩

end Stands

end MapADroid.Updater
