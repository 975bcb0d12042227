import Mathlib.Algebra.Order.BigOperators.Group.Multiset
import Mathlib.Data.Sym.Sym2
import MapADroid.Lib.Multigraph

/- Walks given by the vertices they visit, and how long they are.

   The legs of a walk are edges like any other, so that a walk uses edges of a graph is a
   matter of counting (`between`). A walk that joins no two vertices more often than the
   edges do is no longer than all of them together (`walkLength_le_sum`), and leaving
   vertices out makes no walk longer where the triangle inequality holds
   (`walkLength_sublist`). -/
namespace Lib.Multigraph

variable {ε α M : Type}

/-! ## The legs of a walk -/

/-- The steps from each vertex of the walk to the next. -/
def legs (l : List α) : List (α × α) := l.zip l.tail

@[simp] theorem legs_nil : legs ([] : List α) = [] := rfl

@[simp] theorem legs_singleton (a : α) : legs [a] = [] := rfl

@[simp] theorem legs_cons_cons (a b : α) (l : List α) : legs (a :: b :: l) = (a, b) :: legs (b :: l) := rfl

/-- A walk goes on where it got to. -/
theorem legs_append {l : List α} {a : α} (h : l.getLast? = some a) (m : List α) :
    legs (l ++ m) = legs l ++ legs (a :: m) := by
  induction l with
  | nil => cases h
  | cons x l ih =>
    cases l with
    | nil =>
      rw [List.getLast?_singleton, Option.some.injEq] at h
      rw [h, legs_singleton, List.nil_append, List.singleton_append]
    | cons y l =>
      rw [List.getLast?_cons_cons] at h
      have hrest := ih h
      rw [List.cons_append] at hrest
      simp only [List.cons_append, legs_cons_cons, hrest]

theorem between_append [DecidableEq α] {ends : ε → α × α} (E F : List ε) (a b : α) :
    between ends (E ++ F) a b = between ends E a b + between ends F a b := List.countP_append

/-! ## Lengths -/

section
variable [AddCommMonoid M] (d : α → α → M)

/-- The distances from each vertex of the walk to the next, summed up. -/
def walkLength (l : List α) : M := ((legs l).map fun leg => d leg.1 leg.2).sum

@[simp] theorem walkLength_nil : walkLength d [] = 0 := rfl

@[simp] theorem walkLength_singleton (a : α) : walkLength d [a] = 0 := rfl

@[simp] theorem walkLength_cons_cons (a b : α) (l : List α) :
    walkLength d (a :: b :: l) = d a b + walkLength d (b :: l) := by
  simp [walkLength]

variable {d} [PartialOrder M] [IsOrderedAddMonoid M]

/-- Leaving out vertices after the first one. -/
theorem walkLength_cons_sublist {P : α → Prop} (hnonneg : ∀ a b, P a → P b → 0 ≤ d a b)
    (htriangle : ∀ a b c, P a → P b → P c → d a c ≤ d a b + d b c) {l l' : List α} (h : l'.Sublist l) {a : α}
    (ha : P a) (hl : ∀ x ∈ l, P x) : walkLength d (a :: l') ≤ walkLength d (a :: l) := by
  induction h generalizing a with
  | slnil => exact le_rfl
  | @cons l' l b h ih =>
    have hb := hl b List.mem_cons_self
    have hrest := ih hb fun x hx => hl x (List.mem_cons_of_mem b hx)
    rw [walkLength_cons_cons]
    cases l' with
    | nil =>
      rw [walkLength_singleton] at hrest ⊢
      exact add_nonneg (hnonneg a b ha hb) hrest
    | cons c l' =>
      have hc := hl c (List.mem_cons_of_mem b (h.subset List.mem_cons_self))
      calc walkLength d (a :: c :: l')
          = d a c + walkLength d (c :: l') := walkLength_cons_cons d a c l'
        _ ≤ d a b + d b c + walkLength d (c :: l') := add_le_add_left (htriangle a b c ha hb hc) _
        _ = d a b + walkLength d (b :: c :: l') := by rw [walkLength_cons_cons, add_assoc]
        _ ≤ d a b + walkLength d (b :: l) := add_le_add_right hrest _
  | @cons_cons l' l b h ih =>
    have hrest := ih (hl b List.mem_cons_self) fun x hx => hl x (List.mem_cons_of_mem b hx)
    rw [walkLength_cons_cons, walkLength_cons_cons]
    exact add_le_add_right hrest _

/-- **Short cuts**: a walk that leaves out vertices is no longer. -/
theorem walkLength_sublist {P : α → Prop} (hnonneg : ∀ a b, P a → P b → 0 ≤ d a b)
    (htriangle : ∀ a b c, P a → P b → P c → d a c ≤ d a b + d b c) {l l' : List α} (h : l'.Sublist l)
    (hl : ∀ x ∈ l, P x) : walkLength d l' ≤ walkLength d l := by
  induction h with
  | slnil => exact le_rfl
  | @cons l' l b h ih =>
    have hrest := fun x hx => hl x (List.mem_cons_of_mem b hx)
    cases l with
    | nil => simpa using ih hrest
    | cons c l =>
      calc walkLength d l' ≤ walkLength d (c :: l) := ih hrest
        _ ≤ d b c + walkLength d (c :: l) :=
          le_add_of_nonneg_left (hnonneg b c (hl b List.mem_cons_self) (hrest c List.mem_cons_self))
        _ = walkLength d (b :: c :: l) := (walkLength_cons_cons d b c l).symm
  | @cons_cons l' l b h ih =>
    exact walkLength_cons_sublist hnonneg htriangle h (hl b List.mem_cons_self)
      fun x hx => hl x (List.mem_cons_of_mem b hx)

/-! ## Walks along edges -/

variable [DecidableEq α] {ends : ε → α × α}

theorem count_pairs (E : List ε) (a b : α) :
    Multiset.count s(a, b) (E.map fun e => s((ends e).1, (ends e).2)) = between ends E a b := by
  rw [Multiset.coe_count, List.count_eq_countP, List.countP_map, between]
  apply List.countP_congr
  intro e _
  simp only [Function.comp_apply, beq_iff_eq, decide_eq_true_eq, Sym2.eq_iff, Joins, Prod.ext_iff]

/-- **A walk along the edges** that uses each of them at most once is no longer than all of them. -/
theorem walkLength_le_sum (hsymm : ∀ a b, d a b = d b a) {E : List ε} (hnonneg : ∀ e ∈ E, 0 ≤ d (ends e).1 (ends e).2)
    {l : List α} (h : ∀ a b, between id (legs l) a b ≤ between ends E a b) :
    walkLength d l ≤ (E.map fun e => d (ends e).1 (ends e).2).sum := by
  let pairs : Multiset (Sym2 α) := ↑(E.map fun e => s((ends e).1, (ends e).2))
  let walked : Multiset (Sym2 α) := ↑((legs l).map fun leg => s(leg.1, leg.2))
  let length : Sym2 α → M := Sym2.lift ⟨d, hsymm⟩
  have hle : walked ≤ pairs := by
    rw [Multiset.le_iff_count]
    intro p
    induction p with
    | _ a b =>
      calc walked.count s(a, b) = between id (legs l) a b := @count_pairs _ _ _ id (legs l) a b
        _ ≤ between ends E a b := h a b
        _ = pairs.count s(a, b) := (count_pairs E a b).symm
  obtain ⟨unused, hunused⟩ := Multiset.le_iff_exists_add.mp hle
  have hrest : 0 ≤ (unused.map length).sum := by
    apply Multiset.sum_nonneg
    intro x hx
    obtain ⟨p, hp, rfl⟩ := Multiset.mem_map.mp hx
    have hmem : p ∈ pairs := hunused ▸ Multiset.mem_add.mpr (.inr hp)
    obtain ⟨e, he, rfl⟩ := List.mem_map.mp (Multiset.mem_coe.mp hmem)
    exact hnonneg e he
  calc walkLength d l = (walked.map length).sum := by simp [walkLength, walked, length, Function.comp_def]
    _ ≤ (walked.map length).sum + (unused.map length).sum := le_add_of_nonneg_right hrest
    _ = (pairs.map length).sum := by rw [hunused, Multiset.map_add, Multiset.sum_add]
    _ = (E.map fun e => d (ends e).1 (ends e).2).sum := by simp [pairs, length, Function.comp_def]

end

end Lib.Multigraph
