/- The parity of what the edges of a closed walk do.

   A walk is the list of the points it visits, a cycle goes back to its first point. `f`
   says which edges count. A chord walked in both directions counts twice, so the parity
   of a cycle is that of the two cycles a chord splits it into (`cycleXor_split`); edges
   that count exactly where they change sides count an even number of times
   (`cycleXor_of_sides`). -/
namespace Lib

variable {α : Type} {f : α → α → Bool}

/-- Whether an odd number of edges of the walk from `a` on through `l` count. -/
def walkXor (f : α → α → Bool) : α → List α → Bool
  | _, [] => false
  | a, b :: l => f a b ^^ walkXor f b l

/-- Whether an odd number of edges of the cycle count. -/
def cycleXor (f : α → α → Bool) : List α → Bool
  | [] => false
  | a :: l => walkXor f a (l ++ [a])

theorem walkXor_append (a b : α) (l l' : List α) :
    walkXor f a (l ++ b :: l') = (walkXor f a (l ++ [b]) ^^ walkXor f b l') := by
  induction l generalizing a with
  | nil => simp [walkXor]
  | cons c l ih => simp only [List.cons_append, walkXor, ih c, Bool.xor_assoc]

/-- A chord between two points of a cycle splits it in two. -/
theorem cycleXor_split (hsymm : ∀ a b, f a b = f b a) (a b : α) (l l' : List α) :
    cycleXor f (a :: (l ++ b :: l')) = (cycleXor f (a :: (l ++ [b])) ^^ cycleXor f (b :: (l' ++ [a]))) := by
  have hwhole : cycleXor f (a :: (l ++ b :: l')) = (walkXor f a (l ++ [b]) ^^ walkXor f b (l' ++ [a])) := by
    rw [cycleXor, List.append_assoc, List.cons_append, walkXor_append]
  have hleft : cycleXor f (a :: (l ++ [b])) = (walkXor f a (l ++ [b]) ^^ f b a) := by
    rw [cycleXor, List.append_assoc, List.cons_append, walkXor_append]
    simp [walkXor]
  have hright : cycleXor f (b :: (l' ++ [a])) = (walkXor f b (l' ++ [a]) ^^ f a b) := by
    rw [cycleXor, List.append_assoc, List.cons_append, walkXor_append]
    simp [walkXor]
  rw [hwhole, hleft, hright, hsymm b a]
  cases walkXor f a (l ++ [b]) <;> cases walkXor f b (l' ++ [a]) <;> cases f a b <;> rfl

/-- Edges that count where they change sides: a walk counts as its ends do. -/
theorem walkXor_of_sides (side : α → Bool) {a : α} {l : List α}
    (h : ∀ x ∈ a :: l, ∀ y ∈ a :: l, f x y = (side x ^^ side y)) :
    walkXor f a l = (side a ^^ side (l.getLast?.getD a)) := by
  induction l generalizing a with
  | nil => simp [walkXor]
  | cons b l ih =>
    have hrest := ih fun x hx y hy => h x (List.mem_cons_of_mem a hx) y (List.mem_cons_of_mem a hy)
    have hedge : f a b = (side a ^^ side b) := h a List.mem_cons_self b (by simp)
    rw [walkXor, hrest, hedge, List.getLast?_cons, Option.getD_some]
    cases side a <;> cases side b <;> simp

/-- A cycle changes sides an even number of times. -/
theorem cycleXor_of_sides (side : α → Bool) {l : List α}
    (h : ∀ x ∈ l, ∀ y ∈ l, f x y = (side x ^^ side y)) : cycleXor f l = false := by
  cases l with
  | nil => rfl
  | cons a l =>
    have hmem : ∀ x ∈ a :: (l ++ [a]), x ∈ a :: l := by
      intro x hx
      rw [← List.cons_append] at hx
      rcases List.mem_append.mp hx with hx | hx
      · exact hx
      · rw [List.mem_singleton.mp hx]
        exact List.mem_cons_self
    rw [cycleXor, walkXor_of_sides side fun x hx y hy => h x (hmem x hx) y (hmem y hy)]
    simp

/-- No edge counts. -/
theorem cycleXor_eq_false {l : List α} (h : ∀ x ∈ l, ∀ y ∈ l, f x y = false) : cycleXor f l = false :=
  cycleXor_of_sides (fun _ => false) h

end Lib
