import MapADroid.Lib.Dict

/- Totals of a measure over a list or the values of a dictionary.

   Replacing one element changes the total by what the new one measures less what the
   old one measured. Both are stated as sums on each side, so that they hold of natural
   numbers. -/
namespace Lib

variable {α κ υ : Type}

/-- The measures of the elements, summed. -/
def total (m : α → Nat) : List α → Nat
  | [] => 0
  | a :: l => m a + total m l

@[simp] theorem total_nil (m : α → Nat) : total m [] = 0 := rfl

@[simp] theorem total_cons (m : α → Nat) (a : α) (l : List α) : total m (a :: l) = m a + total m l := rfl

@[simp] theorem total_append (m : α → Nat) (l l' : List α) :
    total m (l ++ l') = total m l + total m l' := by
  induction l with
  | nil => simp
  | cons a l ih =>
    rw [List.cons_append, total_cons, ih, total_cons]
    omega

theorem total_map {β : Type} (m : β → Nat) (f : α → β) (l : List α) :
    total m (l.map f) = total (fun a => m (f a)) l := by
  induction l with
  | nil => rfl
  | cons a l ih => rw [List.map_cons, total_cons, ih, total_cons]

theorem total_eq_zero {m : α → Nat} {l : List α} (h : ∀ a ∈ l, m a = 0) : total m l = 0 := by
  induction l with
  | nil => rfl
  | cons a l ih => rw [total_cons, h a (by simp), ih fun b hb => h b (by simp [hb])]

theorem total_le_length {m : α → Nat} (h : ∀ a, m a ≤ 1) (l : List α) : total m l ≤ l.length := by
  induction l with
  | nil => exact Nat.le_refl 0
  | cons a l ih =>
    have ha := h a
    rw [total_cons, List.length_cons]
    omega

theorem total_set {m : α → Nat} {l : List α} {i : Nat} {a : α} (h : l[i]? = some a) (b : α) :
    total m (l.set i b) + m a = total m l + m b := by
  induction l generalizing i with
  | nil => cases h
  | cons c l ih =>
    cases i with
    | zero =>
      obtain rfl : c = a := by simpa using h
      rw [List.set_cons_zero, total_cons, total_cons]
      omega
    | succ i =>
      have hl := ih (by simpa using h)
      rw [List.set_cons_succ, total_cons, total_cons]
      omega

namespace Dict

/-- The measures of the values, summed. -/
def total (m : υ → Nat) (d : Dict κ υ) : Nat := Lib.total (fun i => m i.2) d.items

theorem total_values (m : υ → Nat) (d : Dict κ υ) : Lib.total m (d.items.map Prod.snd) = d.total m :=
  total_map m Prod.snd d.items

variable [DecidableEq κ]

theorem total_insert (m : υ → Nat) (d : Dict κ υ) (k : κ) (v : υ) :
    (d.insert k v).total m + ((d.get? k).map m).getD 0 = d.total m + m v := by
  obtain ⟨items, hnodup⟩ := d
  simp only [total, insert, get?]
  clear hnodup
  induction items with
  | nil => simp [assign, find]
  | cons i items ih =>
    obtain ⟨k', v'⟩ := i
    by_cases hk : k' = k
    · simp only [assign, find, hk, if_true, total_cons, Option.map_some, Option.getD_some]
      omega
    · simp only [assign, find, hk, if_false, total_cons]
      omega

end Dict

end Lib
