import Mathlib.Data.List.Basic

/- Leases: who was given what, and until when.

   A history lists, oldest first, that a client was given an item and that a client gave
   up what it had. A client holds the last item it was given (`Held`). A history is
   `Exclusive` if no item is given to a client while another holds it; it stays so if
   an item is only given while no other client holds it (`Exclusive.given`).

   A client that only watches a value (optimistic locking) remembers the version it began to
   watch it at, reads it, and writes only if the version is still the one remembered: then
   the value is still the one it read, whatever others did in between. -/
namespace Lib

variable {δ α : Type}

inductive Lease (δ α : Type) where
  | given (d : δ) (x : α)
  | ended (d : δ)
  deriving DecidableEq

/-- The lease of `x` to `d` ends here. -/
def Lease.Ends (d : δ) (x : α) : Lease δ α → Prop
  | .given d' y => d' = d ∧ y ≠ x
  | .ended d' => d' = d

/-- Client `d` was given `x` and has it still. -/
def Held (l : List (Lease δ α)) (d : δ) (x : α) : Prop :=
  ∃ l₁ l₂, l = l₁ ++ .given d x :: l₂ ∧ ∀ e ∈ l₂, ¬ e.Ends d x

/-- What a client was given is given to another only after its lease ended. -/
def Exclusive (l : List (Lease δ α)) : Prop :=
  ∀ l₁ l₂ l₃ d d' x, l = l₁ ++ .given d x :: (l₂ ++ .given d' x :: l₃) → d ≠ d' → ∃ e ∈ l₂, e.Ends d x

theorem not_held_nil (d : δ) (x : α) : ¬ Held [] d x := by
  intro h
  obtain ⟨l₁, l₂, h, _⟩ := h
  cases l₁ with
  | nil => cases h
  | cons => cases h

/-- A history is held on to up to its last event, or the last event is the giving. -/
theorem held_append_singleton {l : List (Lease δ α)} {e : Lease δ α} {d : δ} {x : α} (h : Held (l ++ [e]) d x) :
    e = .given d x ∨ Held l d x ∧ ¬ e.Ends d x := by
  obtain ⟨l₁, l₂, heq, hkeeps⟩ := h
  rcases List.eq_nil_or_concat l₂ with hl₂ | ⟨l₂', e', hl₂⟩
  · subst hl₂
    exact .inl (List.head_eq_of_cons_eq (List.append_inj' heq rfl).2)
  · rw [List.concat_eq_append] at hl₂
    subst hl₂
    rw [← List.cons_append, ← List.append_assoc] at heq
    obtain ⟨hl, he⟩ := List.append_inj' heq rfl
    obtain rfl : e = e' := List.head_eq_of_cons_eq he
    exact .inr ⟨⟨l₁, l₂', hl, fun e' he' => hkeeps e' (List.mem_append_left _ he')⟩, hkeeps e (by simp)⟩

theorem held_ended {l : List (Lease δ α)} {d e : δ} {x : α} (h : Held (l ++ [.ended d]) e x) :
    e ≠ d ∧ Held l e x := by
  rcases held_append_singleton h with hne | ⟨hheld, hends⟩
  · cases hne
  · exact ⟨fun hed => hends hed.symm, hheld⟩

theorem held_given {l : List (Lease δ α)} {d e : δ} {x y : α} (h : Held (l ++ [.given d x]) e y) :
    e = d ∧ y = x ∨ e ≠ d ∧ Held l e y := by
  rcases held_append_singleton h with heq | ⟨hheld, hends⟩
  · cases heq
    exact .inl ⟨rfl, rfl⟩
  · by_cases hed : e = d
    · by_cases hyx : y = x
      · exact .inl ⟨hed, hyx⟩
      · exact absurd ⟨hed.symm, Ne.symm hyx⟩ hends
    · exact .inr ⟨hed, hheld⟩

theorem exclusive_nil : Exclusive ([] : List (Lease δ α)) := by
  intro l₁ l₂ l₃ d d' x h
  have hmem : Lease.given d x ∈ ([] : List (Lease δ α)) := by rw [h]; simp
  cases hmem

/-- An event that is not a giving, or the giving of an item no other client holds. -/
theorem Exclusive.append_singleton {l : List (Lease δ α)} {e : Lease δ α} (h : Exclusive l)
    (hfree : ∀ d' x, e = .given d' x → ∀ d, Held l d x → d = d') : Exclusive (l ++ [e]) := by
  intro l₁ l₂ l₃ d d' x heq hne
  rcases List.eq_nil_or_concat l₃ with hl₃ | ⟨l₃', e', hl₃⟩
  · subst hl₃
    rw [← List.cons_append, ← List.append_assoc] at heq
    obtain ⟨hl, he⟩ := List.append_inj' heq rfl
    by_contra hkeeps
    refine hne (hfree d' x (List.head_eq_of_cons_eq he) d ⟨l₁, l₂, hl, fun e₂ he₂ hends => ?_⟩)
    exact hkeeps ⟨e₂, he₂, hends⟩
  · rw [List.concat_eq_append] at hl₃
    subst hl₃
    rw [← List.cons_append, ← List.append_assoc, ← List.cons_append, ← List.append_assoc] at heq
    obtain ⟨hl, _⟩ := List.append_inj' heq rfl
    exact h l₁ l₂ l₃' d d' x (by rw [hl]; simp) hne

theorem Exclusive.ended {l : List (Lease δ α)} (h : Exclusive l) (d : δ) : Exclusive (l ++ [.ended d]) :=
  h.append_singleton fun _ _ he => by cases he

theorem Exclusive.given {l : List (Lease δ α)} (h : Exclusive l) {d : δ} {x : α}
    (hfree : ∀ e, Held l e x → e = d) : Exclusive (l ++ [.given d x]) := by
  refine h.append_singleton fun d' y heq => ?_
  cases heq
  exact hfree

/-! ## Watched values -/

/-- A value with a version that every write of it increments. -/
structure Watched (α : Type) where
  value : α
  version : Nat

namespace Watched

def write (w : Watched α) (a : α) : Watched α := ⟨a, w.version + 1⟩

/-- The value read since version `v` was remembered has `p`, unless it was written in between. -/
structure Seen (w : Watched α) (v : Nat) (p : α → Prop) : Prop where
  le : v ≤ w.version
  value : w.version = v → p w.value

theorem Seen.read {w : Watched α} {v : Nat} {p : α → Prop} (hv : v ≤ w.version) (hp : p w.value) : w.Seen v p :=
  ⟨hv, fun _ => hp⟩

theorem Seen.write {w : Watched α} {v : Nat} {p : α → Prop} (h : w.Seen v p) (a : α) : (w.write a).Seen v p where
  le := Nat.le_succ_of_le h.le
  value heq := by
    have hle := h.le
    have hsucc : w.version + 1 = v := heq
    omega

end Watched

end Lib
