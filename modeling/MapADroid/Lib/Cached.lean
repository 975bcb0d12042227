import MapADroid.Lib.Dict
import Mathlib.Algebra.Order.Ring.Rat

/- Answers that are kept for a while.

   An answer is given again until it expires. What is said of the answers that are kept is
   carried along a run by `Keeps`: of the key, the answer, and the time at which it expires. -/
namespace Lib

variable {κ υ : Type} [DecidableEq κ]

/-- The answers kept, and when each expires. -/
abbrev Cached (κ υ : Type) := Dict κ (υ × ℚ)

namespace Cached

/-- The answer kept for `k`, where it has not expired. -/
def find? (c : Cached κ υ) (now : ℚ) (k : κ) : Option υ :=
  match c.get? k with
  | some (a, expires) => if now < expires then some a else none
  | none => none

/-- `a` is kept for the time `ttl`. -/
def keep (c : Cached κ υ) (now ttl : ℚ) (k : κ) (a : υ) : Cached κ υ := c.insert k (a, now + ttl)

/-- Every answer that is kept meets `P`. -/
def Keeps (P : κ → υ → ℚ → Prop) (c : Cached κ υ) : Prop :=
  ∀ k a expires, c.get? k = some (a, expires) → P k a expires

variable {P Q : κ → υ → ℚ → Prop} {c : Cached κ υ} {now ttl : ℚ} {k : κ} {a : υ}

theorem find?_eq_some_iff :
    c.find? now k = some a ↔ ∃ expires, c.get? k = some (a, expires) ∧ now < expires := by
  unfold find?
  cases h : c.get? k with
  | none => simp
  | some kept =>
    obtain ⟨b, expires⟩ := kept
    simp [and_comm]

theorem Keeps.empty : Keeps P (Dict.empty : Cached κ υ) := by
  intro k a expires h
  simp at h

theorem Keeps.mono (h : Keeps P c) (hPQ : ∀ k a expires, P k a expires → Q k a expires) : Keeps Q c :=
  fun k a expires hget => hPQ k a expires (h k a expires hget)

theorem Keeps.keep (h : Keeps P c) (ha : P k a (now + ttl)) : Keeps P (c.keep now ttl k a) := by
  intro j b expires hget
  rcases Dict.get?_insert_eq_some_iff.mp hget with ⟨rfl, hkept⟩ | ⟨_, hold⟩
  · cases hkept
    exact ha
  · exact h j b expires hold

/-- An answer that is given again meets `P` of a time still to come. -/
theorem Keeps.find? (h : Keeps P c) (hfind : c.find? now k = some a) : ∃ expires, P k a expires ∧ now < expires := by
  obtain ⟨expires, hget, hlt⟩ := find?_eq_some_iff.mp hfind
  exact ⟨expires, h k a expires hget, hlt⟩

end Cached

end Lib
