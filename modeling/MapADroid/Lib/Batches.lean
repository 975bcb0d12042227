import Mathlib.Order.Lattice
import Mathlib.Order.Defs.LinearOrder
import Mathlib.Data.List.Pairwise

/- A sorted sequence cut into consecutive batches, of which only the last element of
   each is kept, and of these the least.

   What is kept is the last element of the first batch that is not empty. The least
   element of the sequence is the first element of that batch, so the two agree exactly
   if the batch has one value only. -/
namespace Lib

variable {τ : Type}

/-- The first batch with an element. -/
def firstBatch (bs : List (List τ)) : Option (List τ) := bs.find? (!·.isEmpty)

@[simp] theorem firstBatch_nil_cons (bs : List (List τ)) : firstBatch ([] :: bs) = firstBatch bs := rfl

@[simp] theorem firstBatch_cons_cons (t : τ) (b : List τ) (bs : List (List τ)) :
    firstBatch ((t :: b) :: bs) = some (t :: b) := rfl

variable [LinearOrder τ]

theorem foldl_merge_le (t : τ) : ∀ l : List (Option τ), (∀ o ∈ l, ∀ u ∈ o, t ≤ u) →
    l.foldl (Option.merge min) (some t) = some t
  | [], _ => rfl
  | none :: l, h => foldl_merge_le t l fun o ho => h o (List.mem_cons_of_mem _ ho)
  | some u :: l, h => by
    have hu : min t u = t := min_eq_left (h (some u) List.mem_cons_self u rfl)
    rw [List.foldl_cons]
    show l.foldl (Option.merge min) (some (min t u)) = some t
    rw [hu]
    exact foldl_merge_le t l fun o ho => h o (List.mem_cons_of_mem _ ho)

/-- The least of the batches' last elements is the last element of the first batch. -/
theorem foldl_merge_getLast : ∀ bs : List (List τ), bs.flatten.Pairwise (· ≤ ·) →
    (bs.map List.getLast?).foldl (Option.merge min) none = (firstBatch bs).bind List.getLast?
  | [], _ => rfl
  | [] :: bs, h => foldl_merge_getLast bs h
  | (t :: b) :: bs, h => by
    rw [List.flatten_cons, List.pairwise_append] at h
    have hlast : (t :: b).getLast? = some ((t :: b).getLast (List.cons_ne_nil t b)) :=
      List.getLast?_eq_some_getLast _
    rw [firstBatch_cons_cons, List.map_cons, List.foldl_cons, hlast]
    show (bs.map List.getLast?).foldl (Option.merge min) (some _) = (t :: b).getLast?
    rw [hlast]
    refine foldl_merge_le _ _ fun o ho u hu => ?_
    obtain ⟨b', hb', rfl⟩ := List.mem_map.mp ho
    exact h.2.2 _ (List.getLast_mem _) u (List.mem_flatten.mpr ⟨b', hb', List.mem_of_getLast? hu⟩)

/-- The least element of a sorted sequence is the first element of the first batch. -/
theorem min?_flatten : ∀ bs : List (List τ), bs.flatten.Pairwise (· ≤ ·) →
    bs.flatten.min? = (firstBatch bs).bind List.head?
  | [], _ => rfl
  | [] :: bs, h => min?_flatten bs h
  | (_ :: _) :: _, h => List.min?_eq_head? (h.imp min_eq_left)

theorem getLast?_eq_head?_iff : ∀ b : List τ, b.Pairwise (· ≤ ·) →
    (b.getLast? = b.head? ↔ ∀ t ∈ b, ∀ u ∈ b, t = u)
  | [], _ => by simp
  | t :: b, h => by
    have hlast : (t :: b).getLast? = some ((t :: b).getLast (List.cons_ne_nil t b)) :=
      List.getLast?_eq_some_getLast _
    rw [hlast, List.head?_cons, Option.some.injEq]
    constructor
    · intro heq
      -- every element lies between the first and the last
      have hall : ∀ u ∈ t :: b, u = t := by
        intro u hu
        have hge : t ≤ u := h.rel_head hu
        have hle : u ≤ (t :: b).getLast (List.cons_ne_nil t b) := h.rel_getLast hu
        exact le_antisymm (heq ▸ hle) hge
      intro u hu v hv
      rw [hall u hu, hall v hv]
    · intro hall
      exact hall _ (List.getLast_mem _) _ List.mem_cons_self

/-- The batches keep the least element exactly if the first batch has one value only. -/
theorem foldl_merge_getLast_eq_min?_iff (bs : List (List τ)) (h : bs.flatten.Pairwise (· ≤ ·)) :
    (bs.map List.getLast?).foldl (Option.merge min) none = bs.flatten.min? ↔
      ∀ b, firstBatch bs = some b → ∀ t ∈ b, ∀ u ∈ b, t = u := by
  rw [foldl_merge_getLast bs h, min?_flatten bs h]
  cases hb : firstBatch bs with
  | none => simp
  | some b =>
    have hmem : b ∈ bs := List.mem_of_find?_eq_some hb
    have hsorted : b.Pairwise (· ≤ ·) := h.sublist (List.sublist_flatten_of_mem hmem)
    simpa using getLast?_eq_head?_iff b hsorted

end Lib
