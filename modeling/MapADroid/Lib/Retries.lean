import MapADroid.Lib.Trace

/- Work in stages, each of which is tried a limited number of times.

   An item stands at a stage with a counter of the attempts since it got there. It is put
   back into a queue after each of them: to wait, with the counter one higher, or at the
   next stage. As long as it is only tried with a counter below `k` and at one of its `n`
   stages, no stage is tried more than `k` times, and each iteration that is no wait takes
   from the `budget` of the item (`Ledger.retried`). -/
namespace Lib.Retries

/-- Where an item stands. -/
structure Stand where
  stage : Nat
  counter : Nat
  deriving DecidableEq, Repr

/-- What happens to an item. -/
inductive Occurrence where
  /-- It begins at the first stage. -/
  | entered
  | started (stage : Nat)
  | requeued (waits : Bool) (p : Stand)
  /-- It is done with. -/
  | processed
  deriving DecidableEq, Repr

def isEntered : Occurrence → Bool
  | .entered => true
  | _ => false

def isStarted : Occurrence → Bool
  | .started _ => true
  | _ => false

/-- Where an item stands after its events. -/
def stand (es : List Occurrence) : Stand :=
  es.foldl (fun p e => match e with
    | .entered => ⟨0, 0⟩
    | .requeued _ q => q
    | _ => p) ⟨0, 0⟩

/-- The attempts that are left with at most `k` at each of the `n` stages. -/
def budget (k n : Nat) (p : Stand) : Nat := k * (n - p.stage) - p.counter

/-- An item that is put back waits, or has used up an attempt or a stage. -/
def Pays (k n : Nat) (p q : Stand) (waits : Bool) : Prop :=
  if waits then q = p
  else (q.stage = p.stage ∧ q.counter = p.counter + 1 ∨ q.stage = p.stage + 1) ∧ budget k n q < budget k n p

/-- What holds of the events of an item since it entered. -/
structure Bounded (k n : Nat) (es : List Occurrence) : Prop where
  each : ∀ i, es.count (.started i) ≤ k
  total : es.countP isStarted ≤ k * n
  pays : ∀ pre waits q post, es = pre ++ .requeued waits q :: post → Pays k n (stand pre) q waits

/-- From each entering until the item is done with or enters again. -/
def Retried (k n : Nat) (es : List Occurrence) : Prop :=
  ∀ pre seg post, es = pre ++ .entered :: (seg ++ post) → .entered ∉ seg → .processed ∉ seg → Bounded k n seg

/-- The most there can be of attempts at stage `i`, of an item with `c` attempts at its own. -/
def spent (k n stage c i : Nat) : Nat :=
  if i < stage then k else if i = stage ∧ stage < n then c else 0

/-- The events since an item entered, with `pending` of its attempts not counted yet. -/
structure Spent (k n : Nat) (p : Stand) (pending : Nat) (es : List Occurrence) : Prop where
  stand : stand es = p
  stage : p.stage ≤ n
  counter : p.counter + pending ≤ k
  each : ∀ i, es.count (.started i) ≤ spent k n p.stage (p.counter + pending) i
  total : es.countP isStarted ≤ k * p.stage + es.count (.started p.stage)
  pays : ∀ pre waits q post, es = pre ++ .requeued waits q :: post → Pays k n (Retries.stand pre) q waits

variable {k n pending : Nat} {p : Stand} {es : List Occurrence}

theorem stand_snoc (es : List Occurrence) (e : Occurrence) :
    stand (es ++ [e]) = match e with
      | .entered => ⟨0, 0⟩
      | .requeued _ q => q
      | _ => stand es := by
  unfold stand
  rw [List.foldl_concat]

theorem budget_attempt {q : Stand} (hp : p.stage < n) (hcounter : p.counter < k) (hstage : q.stage = p.stage)
    (hq : q.counter = p.counter + 1) : budget k n q < budget k n p := by
  have hk : k ≤ k * (n - p.stage) := Nat.le_mul_of_pos_right k (by omega)
  unfold budget
  rw [hstage, hq]
  omega

theorem budget_advance {q : Stand} (hp : p.stage < n) (hcounter : p.counter < k) (hstage : q.stage = p.stage + 1) :
    budget k n q < budget k n p := by
  have hmul : k * (n - p.stage) = k * (n - (p.stage + 1)) + k := by
    rw [← Nat.mul_succ]
    congr 1
    omega
  unfold budget
  rw [hstage, hmul]
  omega

theorem spent_mono (stage i : Nat) {c d : Nat} (h : c ≤ d) : spent k n stage c i ≤ spent k n stage d i := by
  unfold spent
  split
  · exact Nat.le_refl k
  split
  · exact h
  · exact Nat.le_refl 0

namespace Spent

theorem bounded (h : Spent k n p pending es) : Bounded k n es where
  each i := by
    have heach := h.each i
    have hcounter := h.counter
    unfold spent at heach
    split at heach
    · exact heach
    split at heach <;> omega
  total := by
    have htotal := h.total
    have heach := h.each p.stage
    have hcounter := h.counter
    have hstage := h.stage
    unfold spent at heach
    rw [if_neg (Nat.lt_irrefl _)] at heach
    rcases Nat.lt_or_eq_of_le hstage with hlt | heq
    · -- The attempts at the current stage fill it up at most.
      rw [if_pos ⟨rfl, hlt⟩] at heach
      calc es.countP isStarted ≤ k * p.stage + k := by omega
        _ = k * (p.stage + 1) := (Nat.mul_succ k p.stage).symm
        _ ≤ k * n := Nat.mul_le_mul_left k hlt
    · rw [if_neg (by omega)] at heach
      rw [← heq]
      omega
  pays := h.pays

theorem enter (k n : Nat) : Spent k n ⟨0, 0⟩ 0 [] where
  stand := rfl
  stage := Nat.zero_le n
  counter := Nat.zero_le k
  each i := Nat.zero_le _
  total := Nat.zero_le _
  pays pre waits q post h := by simp at h

/-- What the events show of the items that were put back, after one event more. -/
theorem pays_snoc (h : Spent k n p pending es) {e : Occurrence}
    (he : ∀ waits q, e = .requeued waits q → Pays k n p q waits) {pre post : List Occurrence} {waits : Bool} {q : Stand}
    (hes : es ++ [e] = pre ++ .requeued waits q :: post) : Pays k n (Retries.stand pre) q waits := by
  rcases snoc_eq_cons hes with ⟨mid, hmid, _⟩ | ⟨rfl, he', _⟩
  · exact h.pays pre waits q mid hmid
  · rw [h.stand]
    exact he waits q he'

/-- An attempt. -/
theorem start (h : Spent k n p 0 es) (hstage : p.stage < n) (hcounter : p.counter < k) :
    Spent k n p 1 (es ++ [.started p.stage]) where
  stand := by rw [stand_snoc]; exact h.stand
  stage := h.stage
  counter := hcounter
  each i := by
    have heach := h.each i
    rw [List.count_append, List.count_singleton]
    unfold spent at heach ⊢
    by_cases hi : i = p.stage
    · subst hi
      simp only [Nat.lt_irrefl, hstage, and_self, if_true, if_false, beq_self_eq_true] at heach ⊢
      omega
    · have hne : (Occurrence.started p.stage == Occurrence.started i) = false := by simp [Ne.symm hi]
      simpa [hne, hi] using heach
  total := by
    have htotal := h.total
    simp only [List.countP_append, List.countP_singleton, isStarted, List.count_append, List.count_singleton,
      beq_self_eq_true, if_true]
    omega
  pays pre waits q post hes := h.pays_snoc (by intro waits q he; cases he) hes

/-- An attempt that failed, or was not made. -/
theorem fail (h : Spent k n p pending es) (hpending : pending ≤ 1) (hstage : p.stage < n) (hcounter : p.counter < k) :
    Spent k n ⟨p.stage, p.counter + 1⟩ 0 (es ++ [.requeued false ⟨p.stage, p.counter + 1⟩]) where
  stand := stand_snoc es _
  stage := h.stage
  counter := hcounter
  each i := by
    calc (es ++ [Occurrence.requeued false ⟨p.stage, p.counter + 1⟩]).count (.started i)
      _ = es.count (.started i) := by simp [List.count_append]
      _ ≤ spent k n p.stage (p.counter + pending) i := h.each i
      _ ≤ spent k n p.stage (p.counter + 1 + 0) i := spent_mono _ _ (by omega)
  total := by
    have htotal := h.total
    simpa [List.count_append, List.count_singleton, isStarted] using htotal
  pays pre waits q post hes := by
    refine h.pays_snoc ?_ hes
    intro waits q he
    obtain ⟨rfl, rfl⟩ := Occurrence.requeued.inj he
    exact ⟨.inl ⟨rfl, rfl⟩, budget_attempt hstage hcounter rfl rfl⟩

/-- An attempt that succeeded. -/
theorem advance (h : Spent k n p pending es) (hstage : p.stage < n) (hcounter : p.counter < k) {c : Nat} (hc : c ≤ k) :
    Spent k n ⟨p.stage + 1, c⟩ 0 (es ++ [.requeued false ⟨p.stage + 1, c⟩]) where
  stand := stand_snoc es _
  stage := hstage
  counter := hc
  each i := by
    have heach := h.each i
    have hle := h.bounded.each i
    rw [List.count_append, List.count_singleton]
    simp only [show (Occurrence.requeued false ⟨p.stage + 1, c⟩ == Occurrence.started i) = false from rfl] at heach ⊢
    unfold spent at heach ⊢
    by_cases hi : i < p.stage + 1
    · simpa [hi] using hle
    · rw [if_neg (by omega), if_neg (by omega)] at heach
      simp only [Bool.false_eq_true, if_false]
      omega
  total := by
    have htotal := h.total
    have hle := h.bounded.each p.stage
    simp only [List.countP_append, List.countP_singleton, isStarted, Bool.false_eq_true, if_false, Nat.mul_succ]
    omega
  pays pre waits q post hes := by
    refine h.pays_snoc ?_ hes
    intro waits q he
    obtain ⟨rfl, rfl⟩ := Occurrence.requeued.inj he
    exact ⟨.inr rfl, budget_advance hstage hcounter rfl⟩

/-- The item waits, or is done with. -/
theorem pass (h : Spent k n p pending es) {e : Occurrence} (he : e = .requeued true p ∨ e = .processed) :
    Spent k n p pending (es ++ [e]) where
  stand := by
    rw [stand_snoc]
    rcases he with rfl | rfl
    · rfl
    · exact h.stand
  stage := h.stage
  counter := h.counter
  each i := by
    have heach := h.each i
    rcases he with rfl | rfl <;> simpa [List.count_append, List.count_singleton] using heach
  total := by
    have htotal := h.total
    rcases he with rfl | rfl <;> simpa [List.count_append, List.count_singleton, isStarted] using htotal
  pays pre waits q post hes := by
    refine h.pays_snoc ?_ hes
    intro waits q hq
    rcases he with rfl | rfl
    · obtain ⟨rfl, rfl⟩ := Occurrence.requeued.inj hq
      exact rfl
    · cases hq

end Spent

/-! ## The whole record -/

/-- The events of an item that stands at `p`: every stretch of them is bounded, and the open one is `Spent`. -/
structure Ledger (k n : Nat) (p : Stand) (pending : Nat) (es : List Occurrence) : Prop where
  segments : Segmented isEntered (Bounded k n) (fun _ => True) es
  spent : Spent k n p pending (since isEntered es)

namespace Ledger

theorem first (k n : Nat) : Ledger k n ⟨0, 0⟩ 0 [.entered] where
  segments := .start .entered (Spent.enter k n).bounded
  spent := .enter k n

theorem enter (h : Ledger k n p pending es) : Ledger k n ⟨0, 0⟩ 0 (es ++ [.entered]) := by
  have hsince : since isEntered (es ++ [.entered]) = [] := since_mark rfl
  refine ⟨h.segments.snoc ?_ fun _ => trivial, ?_⟩
  · rw [hsince]
    exact (Spent.enter k n).bounded
  · rw [hsince]
    exact .enter k n

theorem snoc (h : Ledger k n p pending es) {e : Occurrence} (he : isEntered e = false) {q : Stand} {pending' : Nat}
    (hspent : Spent k n q pending' (since isEntered es ++ [e])) : Ledger k n q pending' (es ++ [e]) := by
  rw [← since_quiet he] at hspent
  exact ⟨h.segments.snoc hspent.bounded fun _ => trivial, hspent⟩

theorem retried (h : Ledger k n p pending es) : Retried k n es := by
  intro pre seg post hes hentered _
  refine (h.segments pre .entered seg post hes rfl ?_).1
  intro e he
  cases e with
  | entered => exact absurd he hentered
  | _ => rfl

end Ledger

end Lib.Retries
