import Mathlib.Algebra.Order.Group.Nat
import Mathlib.Data.List.Basic
import Mathlib.Data.List.Perm.Basic

/- Lists cut into pieces of one length.

   The pieces are slices at the multiples of the length, as many as it takes, the last one
   as long as what is left. Put together in order they are the list; put together in any
   order they are the list exactly if any two of them can be swapped
   (`flatten_perm_iff`). -/
namespace Lib

variable {α : Type}

/-- The slices `l[i * size : (i + 1) * size]`, for the `i` below the quotient rounded up. -/
def chunks (size : Nat) (l : List α) : List (List α) :=
  (List.range ((l.length + size - 1) / size)).map fun i => (l.drop (i * size)).take size

theorem flatten_slices (size n : Nat) (l : List α) :
    ((List.range n).map fun i => (l.drop (i * size)).take size).flatten = l.take (n * size) := by
  induction n with
  | zero => simp
  | succ n ih => rw [List.range_succ, List.map_append, List.flatten_append, ih, Nat.succ_mul, List.take_add]; simp

/-- The pieces put together are the list. -/
theorem flatten_chunks {size : Nat} (h : 0 < size) (l : List α) : (chunks size l).flatten = l := by
  rw [chunks, flatten_slices]
  apply List.take_of_length_le
  have hdiv := Nat.div_add_mod (l.length + size - 1) size
  have hmod := Nat.mod_lt (l.length + size - 1) h
  rw [Nat.mul_comm]
  omega

/-- Lists can be put together in any order exactly if any two of them can be swapped. -/
theorem flatten_perm_iff {ls : List (List α)} :
    (∀ ls' : List (List α), ls'.Perm ls → ls'.flatten = ls.flatten) ↔
      ls.Pairwise fun a b => a ++ b = b ++ a := by
  constructor
  · intro h
    induction ls with
    | nil => exact .nil
    | cons a ls ih =>
      apply List.Pairwise.cons
      · intro b hb
        -- With `a` and `b` in front of the rest, in both orders.
        obtain ⟨rest, hrest⟩ : ∃ rest, ls.Perm (b :: rest) := by
          obtain ⟨l, r, rfl⟩ := List.append_of_mem hb
          exact ⟨l ++ r, List.perm_middle⟩
        have hab := h (a :: b :: rest) (hrest.symm.cons a)
        have hba := h (b :: a :: rest) ((List.Perm.swap a b rest).trans (hrest.symm.cons a))
        have heq : (a ++ b) ++ rest.flatten = (b ++ a) ++ rest.flatten := by
          simpa using hab.trans hba.symm
        exact List.append_cancel_right heq
      · apply ih
        intro ls' hperm
        have hcons := h (a :: ls') (hperm.cons a)
        rw [List.flatten_cons, List.flatten_cons] at hcons
        exact List.append_cancel_left hcons
  · intro h ls' hperm
    induction hperm with
    | nil => rfl
    | cons a _ ih =>
      rw [List.flatten_cons, List.flatten_cons, ih (List.pairwise_cons.mp h).2]
    | swap a b l =>
      have hswap := (List.pairwise_cons.mp h).1 b (by simp)
      simp only [List.flatten_cons, ← List.append_assoc, hswap]
    | trans hperm₁ hperm₂ ih₁ ih₂ =>
      have hmiddle := hperm₂.symm.pairwise h (fun {a b} hab => hab.symm)
      exact (ih₁ hmiddle).trans (ih₂ h)

end Lib
