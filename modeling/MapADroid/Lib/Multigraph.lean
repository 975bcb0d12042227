import Mathlib.Logic.Relation
import Mathlib.Algebra.BigOperators.Ring.Nat

/- Undirected multigraphs given by a list of edges.

   `ends e` are the two vertices of the edge `e`; two edges may have the same ends.
   A path from one side of a cut to the other has an edge across it
   (`Reach.crosses`), and the number of vertices of odd degree is even
   (`even_length_of_odd_degree`). -/
namespace Lib.Multigraph

variable {ε α : Type} {ends : ε → α × α} {E E' : List ε} {a b c : α}

/-- The ends of `e` are `a` and `b`, in one of the two orders. -/
def Joins (ends : ε → α × α) (e : ε) (a b : α) : Prop := ends e = (a, b) ∨ ends e = (b, a)

instance [DecidableEq α] (e : ε) (a b : α) : Decidable (Joins ends e a b) :=
  inferInstanceAs (Decidable (_ ∨ _))

theorem Joins.symm {e : ε} (h : Joins ends e a b) : Joins ends e b a := Or.symm h

theorem joins_comm {e : ε} : Joins ends e a b ↔ Joins ends e b a := or_comm

theorem joins_ends (e : ε) : Joins ends e (ends e).1 (ends e).2 := .inl rfl

/-! ## Paths -/

/-- A path of edges of `E` leads from the first vertex to the second. -/
def Reach (ends : ε → α × α) (E : List ε) : α → α → Prop :=
  Relation.ReflTransGen fun a b => ∃ e ∈ E, Joins ends e a b

namespace Reach

theorem of_joins {e : ε} (he : e ∈ E) (h : Joins ends e a b) : Reach ends E a b := .single ⟨e, he, h⟩

theorem symm (h : Reach ends E a b) : Reach ends E b a := by
  induction h with
  | refl => exact .refl
  | tail _ hstep ih =>
    obtain ⟨e, he, hj⟩ := hstep
    exact Relation.ReflTransGen.head ⟨e, he, hj.symm⟩ ih

theorem trans (h : Reach ends E a b) (h' : Reach ends E b c) : Reach ends E a c :=
  Relation.ReflTransGen.trans h h'

theorem mono (hE : E ⊆ E') (h : Reach ends E a b) : Reach ends E' a b := by
  refine Relation.ReflTransGen.mono ?_ _ _ h
  intro x y hxy
  obtain ⟨e, he, hj⟩ := hxy
  exact ⟨e, hE he, hj⟩

/-- A path from a vertex that meets `P` to one that does not has an edge between such two. -/
theorem crosses {P : α → Prop} (h : Reach ends E a b) (ha : P a) (hb : ¬ P b) :
    ∃ e ∈ E, ∃ x y, Joins ends e x y ∧ P x ∧ ¬ P y := by
  induction h with
  | refl => exact absurd ha hb
  | @tail x y _ hstep ih =>
    by_cases hx : P x
    · obtain ⟨e, he, hj⟩ := hstep
      exact ⟨e, he, x, y, hj, hx, hb⟩
    · exact ih hx

end Reach

/-! ## Counting edges -/

variable [DecidableEq α]

/-- How many edges of `E` join `a` and `b`. -/
def between (ends : ε → α × α) (E : List ε) (a b : α) : Nat := E.countP fun e => Joins ends e a b

/-- How often `v` is an end of an edge of `E`. -/
def degree (ends : ε → α × α) (E : List ε) (v : α) : Nat :=
  E.countP (fun e => (ends e).1 = v) + E.countP fun e => (ends e).2 = v

theorem between_comm (E : List ε) (a b : α) : between ends E a b = between ends E b a := by
  unfold between
  apply List.countP_congr
  intro e _
  simp only [decide_eq_true_eq]
  exact joins_comm

@[simp] theorem between_nil (a b : α) : between ends [] a b = 0 := rfl

theorem between_cons (e : ε) (E : List ε) (a b : α) :
    between ends (e :: E) a b = between ends E a b + if Joins ends e a b then 1 else 0 := by
  simp [between, List.countP_cons]

theorem between_pos {e : ε} (he : e ∈ E) (h : Joins ends e a b) : 0 < between ends E a b :=
  List.countP_pos_iff.mpr ⟨e, he, by simpa using h⟩

@[simp] theorem degree_nil (v : α) : degree ends [] v = 0 := rfl

theorem degree_cons (e : ε) (E : List ε) (v : α) :
    degree ends (e :: E) v =
      degree ends E v + ((if (ends e).1 = v then 1 else 0) + if (ends e).2 = v then 1 else 0) := by
  simp only [degree, List.countP_cons, decide_eq_true_eq]
  omega

theorem sum_degree {s : Finset α} (h : ∀ e ∈ E, (ends e).1 ∈ s ∧ (ends e).2 ∈ s) :
    ∑ v ∈ s, degree ends E v = 2 * E.length := by
  induction E with
  | nil => simp
  | cons e E ih =>
    obtain ⟨hfst, hsnd⟩ := h e List.mem_cons_self
    have hrest := ih fun f hf => h f (List.mem_cons_of_mem _ hf)
    simp only [degree_cons, Finset.sum_add_distrib, Finset.sum_ite_eq, hfst, hsnd, if_true, hrest,
      List.length_cons]
    omega

theorem mem_of_degree_pos {v : α} (h : 0 < degree ends E v) :
    v ∈ E.map (fun e => (ends e).1) ++ E.map fun e => (ends e).2 := by
  rw [List.mem_append, List.mem_map, List.mem_map]
  rcases Nat.add_pos_iff_pos_or_pos.mp h with h | h
  · obtain ⟨e, he, hv⟩ := List.countP_pos_iff.mp h
    exact .inl ⟨e, he, by simpa using hv⟩
  · obtain ⟨e, he, hv⟩ := List.countP_pos_iff.mp h
    exact .inr ⟨e, he, by simpa using hv⟩

/-- **Handshake**: the vertices of odd degree are even in number. -/
theorem even_length_of_odd_degree {l : List α} (hl : l.Nodup) (h : ∀ v, v ∈ l ↔ Odd (degree ends E v)) :
    Even l.length := by
  let s := (E.map (fun e => (ends e).1) ++ E.map fun e => (ends e).2).toFinset
  have hs : ∀ e ∈ E, (ends e).1 ∈ s ∧ (ends e).2 ∈ s := by
    intro e he
    simp only [s, List.mem_toFinset, List.mem_append, List.mem_map]
    exact ⟨.inl ⟨e, he, rfl⟩, .inr ⟨e, he, rfl⟩⟩
  have hodd : l.toFinset = s.filter fun v => Odd (degree ends E v) := by
    ext v
    rw [List.mem_toFinset, Finset.mem_filter, h]
    refine ⟨fun hv => ⟨?_, hv⟩, fun hv => hv.2⟩
    exact List.mem_toFinset.mpr (mem_of_degree_pos hv.pos)
  rw [← List.toFinset_card_of_nodup hl, hodd, ← Finset.even_sum_iff_even_card_odd, sum_degree hs]
  exact even_two_mul _

end Lib.Multigraph
