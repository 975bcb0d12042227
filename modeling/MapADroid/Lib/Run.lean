import Mathlib.Order.Lattice
import Mathlib.Data.List.Pairwise

/- Runs of a labelled transition system given by a partial step function.

   `step s a` is the state after label `a`, or `none` where `a` cannot happen.
   A label carries every choice the environment makes (whose turn it is, what a
   clock reads, how a call ends), so the step is a function and a run is a list
   of labels. `Run step ok s l t` is such a run from `s` to `t` in which every
   label also meets `ok` in the state it was taken in: `ok` is where a theorem
   says which runs it is about.

   In a system with a clock (`timed`) an action reads the clock a number of times on its way,
   and a step also says when the action has ended. The readings are in order, none before
   the clock, and the clock goes on to the end of the action. -/
namespace Lib

variable {σ α ε : Type}

/-- A run from the first state to the last, its labels oldest first. -/
inductive Run (step : σ → α → Option σ) (ok : σ → α → Prop) : σ → List α → σ → Prop where
  | nil (s : σ) : Run step ok s [] s
  | snoc {s t u : σ} {l : List α} {a : α} :
      Run step ok s l t → ok t a → step t a = some u → Run step ok s (l ++ [a]) u

/-- No restriction on the steps of a run. -/
def Any (_ : σ) (_ : α) : Prop := True

instance (s : σ) (a : α) : Decidable (Any s a) := isTrue trivial

/-- The state after the labels of `l`, if they can all be taken and meet `ok`. -/
def exec (step : σ → α → Option σ) (ok : σ → α → Prop) [∀ s a, Decidable (ok s a)] :
    σ → List α → Option σ
  | s, [] => some s
  | s, a :: l => if ok s a then (step s a).bind (exec step ok · l) else none

/-- The state executing `l` ends in, `s` itself if `l` cannot be executed. -/
def after (step : σ → α → Option σ) (ok : σ → α → Prop) [∀ s a, Decidable (ok s a)] (s : σ)
    (l : List α) : σ := (exec step ok s l).getD s

namespace Run

variable {step : σ → α → Option σ} {ok ok' : σ → α → Prop} {s t u : σ} {l m : List α}

/-- A property of the first state that every admitted step keeps holds of the last. -/
theorem invariant {I : σ → Prop} (h : Run step ok s l t) (h0 : I s)
    (hstep : ∀ t a u, I t → ok t a → step t a = some u → I u) : I t := by
  induction h with
  | nil => exact h0
  | snoc _ ha hs ih => exact hstep _ _ _ ih ha hs

theorem append (h : Run step ok s l t) (h' : Run step ok t m u) : Run step ok s (l ++ m) u := by
  induction h' with
  | nil => simpa using h
  | snoc _ ha hs ih => rw [← List.append_assoc]; exact snoc ih ha hs

theorem mono (h : Run step ok s l t) (hok : ∀ t a, ok t a → ok' t a) : Run step ok' s l t := by
  induction h with
  | nil => exact nil _
  | snoc _ ha hs ih => exact snoc ih (hok _ _ ha) hs

/-- Steps admitted in the states of an invariant. -/
theorem mono_of_invariant {I : σ → Prop} (h : Run step ok s l t) (h0 : I s)
    (hstep : ∀ t a u, I t → ok t a → step t a = some u → I u) (hok : ∀ t a, I t → ok t a → ok' t a) :
    Run step ok' s l t := by
  induction h with
  | nil => exact nil _
  | snoc hrun ha hs ih => exact snoc ih (hok _ _ (hrun.invariant h0 hstep) ha) hs

theorem cons {a : α} (ha : ok s a) (hs : step s a = some t) (h : Run step ok t l u) :
    Run step ok s (a :: l) u :=
  append (snoc (nil s) ha hs) h

/-- Steps that can always be taken, one for each element of a list. -/
theorem foldl {β : Type} {f : σ → β → σ} {label : β → α} (h : ∀ s b, step s (label b) = some (f s b)) :
    ∀ (l : List β) (s : σ), Run step Any s (l.map label) (l.foldl f s)
  | [], s => nil s
  | b :: l, s => cons trivial (h s b) (foldl h l (f s b))

/-- An executed list of labels is a run. -/
theorem of_exec [∀ s a, Decidable (ok s a)] :
    ∀ {l : List α} {s : σ}, exec step ok s l = some t → Run step ok s l t
  | [], s, h => by
    rw [exec, Option.some.injEq] at h
    exact h ▸ nil s
  | a :: l, s, h => by
    rw [exec] at h
    split at h
    · next ha =>
      obtain ⟨s', hs, hl⟩ := Option.bind_eq_some_iff.mp h
      exact cons ha hs (of_exec hl)
    · cases h

theorem of_after [∀ s a, Decidable (ok s a)] (h : (exec step ok s l).isSome) :
    Run step ok s l (after step ok s l) := by
  obtain ⟨t, ht⟩ := Option.isSome_iff_exists.mp h
  have hafter : after step ok s l = t := by simp [after, ht]
  exact hafter ▸ of_exec ht

end Run

theorem step_after {step : σ → α → Option σ} {ok : σ → α → Prop} [∀ s a, Decidable (ok s a)] {s : σ}
    {a : α} (ha : ok s a) (h : (step s a).isSome) : step s a = some (after step ok s [a]) := by
  obtain ⟨t, ht⟩ := Option.isSome_iff_exists.mp h
  simp [after, exec, ha, ht]

/-! ## History variables -/

/-- The system with a record of what its steps emitted, oldest first. -/
def recording (step : σ → α → Option σ) (emit : σ → α → List ε) :
    σ × List ε → α → Option (σ × List ε) :=
  fun p a => (step p.1 a).map fun t => (t, p.2 ++ emit p.1 a)

theorem recording_some {step : σ → α → Option σ} {emit : σ → α → List ε} {p q : σ × List ε}
    {a : α} (h : recording step emit p a = some q) :
    step p.1 a = some q.1 ∧ q.2 = p.2 ++ emit p.1 a := by
  unfold recording at h
  obtain ⟨t, ht, rfl⟩ := Option.map_eq_some_iff.mp h
  exact ⟨ht, rfl⟩

theorem Run.unrecorded {step : σ → α → Option σ} {emit : σ → α → List ε} {ok : σ × List ε → α → Prop}
    {p q : σ × List ε} {l : List α} (h : Run (recording step emit) ok p l q) : Run step Any p.1 l q.1 := by
  induction h with
  | nil => exact .nil _
  | snoc _ _ hs ih => exact .snoc ih trivial (recording_some hs).1

/-! ## Clocks -/

section Timed

variable {τ : Type} [LinearOrder τ]

/-- The system with a clock: an action and the moment it ends, its readings in between. -/
def timed (step : σ → α → Option σ) (readings : α → List τ) : σ × τ → α × τ → Option (σ × τ) :=
  fun p a =>
    if (p.2 :: (readings a.1 ++ [a.2])).Pairwise (· ≤ ·) then (step p.1 a.1).map fun s => (s, a.2) else none

variable {step : σ → α → Option σ} {readings : α → List τ} {p q : σ × τ} {a : α × τ}

theorem timed_some (h : timed step readings p a = some q) : step p.1 a.1 = some q.1 ∧ q.2 = a.2 ∧
    (p.2 :: (readings a.1 ++ [a.2])).Pairwise (· ≤ ·) := by
  unfold timed at h
  split at h
  · next hsorted =>
    obtain ⟨s, hs, rfl⟩ := Option.map_eq_some_iff.mp h
    exact ⟨hs, rfl, hsorted⟩
  · cases h

/-- The clock does not go back. -/
theorem timed_le (h : timed step readings p a = some q) : p.2 ≤ q.2 := by
  obtain ⟨_, hclock, hsorted⟩ := timed_some h
  rw [hclock]
  exact (List.pairwise_cons.mp hsorted).1 a.2 (by simp)

/-- A reading is no earlier than the clock before the action, and no later than the one after it. -/
theorem timed_reading (h : timed step readings p a = some q) {x : τ} (hx : x ∈ readings a.1) : p.2 ≤ x ∧ x ≤ q.2 := by
  obtain ⟨_, hclock, hsorted⟩ := timed_some h
  obtain ⟨hfirst, hrest⟩ := List.pairwise_cons.mp hsorted
  refine ⟨hfirst x (by simp [hx]), ?_⟩
  rw [hclock]
  exact (List.pairwise_append.mp hrest).2.2 x hx a.2 (by simp)

end Timed

end Lib
