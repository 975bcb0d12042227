import Mathlib.Data.List.Basic
import Mathlib.Logic.Function.Iterate

/- Loops that take one group after another off a set of keys.

   `rounds round empty` runs `round` until nothing is left; it has no result where a
   round fails or the fuel runs out. If every round takes a group that is not empty and
   consists of keys that are left, and leaves exactly the others (`Peels`), the loop
   ends within as many rounds as there are keys, and the groups are a partition of them
   (`Peels.partition`). `attempt` is one turn of a loop that goes on with what it has where
   a round fails; then it never has to (`Peels.attempts_end`). -/
namespace Lib

variable {σ γ ι : Type}

/-- The groups taken until nothing is left. -/
def rounds (round : σ → Option (γ × σ)) (empty : σ → Bool) : Nat → σ → Option (List γ)
  | 0, s => if empty s then some [] else none
  | n + 1, s =>
    if empty s then some []
    else match round s with
      | none => none
      | some (c, t) => (rounds round empty n t).map (c :: ·)

/-- The states rounds start in, from `s` on. -/
inductive Reached (round : σ → Option (γ × σ)) (empty : σ → Bool) (s : σ) : σ → Prop where
  | refl : Reached round empty s s
  | round {t u : σ} {c : γ} : Reached round empty s t → empty t = false →
      round t = some (c, u) → Reached round empty s u

theorem Reached.head {round : σ → Option (γ × σ)} {empty : σ → Bool} {s t u : σ} {c : γ}
    (hs : empty s = false) (hround : round s = some (c, t)) (h : Reached round empty t u) :
    Reached round empty s u := by
  induction h with
  | refl => exact .round .refl hs hround
  | round _ hempty hnext ih => exact .round ih hempty hnext

/-- A group that was taken was taken by a round of a reached state. -/
theorem rounds_reached {round : σ → Option (γ × σ)} {empty : σ → Bool} {n : Nat} {s : σ}
    {cs : List γ} (h : rounds round empty n s = some cs) {c : γ} (hc : c ∈ cs) :
    ∃ t u, Reached round empty s t ∧ empty t = false ∧ round t = some (c, u) := by
  induction n generalizing s cs with
  | zero =>
    unfold rounds at h
    split at h
    · cases h; cases hc
    · cases h
  | succ n ih =>
    unfold rounds at h
    split at h
    · cases h; cases hc
    next hempty =>
    split at h
    · cases h
    next d t hround =>
    obtain ⟨ds, hds, rfl⟩ := Option.map_eq_some_iff.mp h
    have hs : empty s = false := by simpa using hempty
    rcases List.mem_cons.mp hc with rfl | hc
    · exact ⟨s, t, .refl, hs, hround⟩
    · obtain ⟨t', u, hreach, hleft, hnext⟩ := ih hds hc
      exact ⟨t', u, hreach.head hs hround, hleft, hnext⟩

/-- Every round takes some of the keys that are left, and no more. -/
structure Peels [DecidableEq ι] (round : σ → Option (γ × σ)) (empty : σ → Bool) (keys : σ → List ι)
    (group : γ → List ι) (I : σ → Prop) : Prop where
  empty : ∀ s, empty s = true ↔ keys s = []
  round : ∀ s, I s → keys s ≠ [] → ∃ c t, round s = some (c, t) ∧ I t ∧ group c ≠ [] ∧
    group c ⊆ keys s ∧ keys t = (keys s).filter fun x => x ∉ group c

variable [DecidableEq ι] {round : σ → Option (γ × σ)} {empty : σ → Bool} {keys : σ → List ι}
  {group : γ → List ι} {I : σ → Prop}

theorem filter_length_lt {l g : List ι} (hne : g ≠ []) (hsub : g ⊆ l) :
    (l.filter fun x => x ∉ g).length < l.length := by
  obtain ⟨x, hx⟩ := List.exists_mem_of_ne_nil g hne
  exact List.length_filter_lt_length_iff_exists.mpr ⟨x, hsub hx, by simpa using hx⟩

/-- The loop ends, and the groups are disjoint and are together the keys. -/
theorem Peels.partition (h : Peels round empty keys group I) {n : Nat} {s : σ} (hs : I s)
    (hn : (keys s).length ≤ n) :
    ∃ cs, rounds round empty n s = some cs ∧
      cs.Pairwise (fun c d => ∀ x ∈ group c, x ∉ group d) ∧
      ∀ x, x ∈ keys s ↔ ∃ c ∈ cs, x ∈ group c := by
  induction n generalizing s with
  | zero =>
    have hnil : keys s = [] := List.eq_nil_of_length_eq_zero (by omega)
    have hempty : empty s = true := (h.empty s).mpr hnil
    exact ⟨[], by simp [rounds, hempty], List.Pairwise.nil, by simp [hnil]⟩
  | succ n ih =>
    by_cases hkeys : keys s = []
    · have hempty : empty s = true := (h.empty s).mpr hkeys
      exact ⟨[], by simp [rounds, hempty], List.Pairwise.nil, by simp [hkeys]⟩
    obtain ⟨c, t, hround, ht, hne, hsub, hleft⟩ := h.round s hs hkeys
    have hempty : empty s = false := by
      rw [← Bool.not_eq_true, h.empty s]
      exact hkeys
    have hlt := filter_length_lt hne hsub
    obtain ⟨cs, hcs, hdisj, hcover⟩ := ih ht (by rw [hleft]; omega)
    refine ⟨c :: cs, by simp [rounds, hempty, hround, hcs], ?_, ?_⟩
    · apply List.Pairwise.cons _ hdisj
      intro d hd x hxc hxd
      -- What a later round takes was left by this one.
      have hx := (hcover x).mpr ⟨d, hd, hxd⟩
      rw [hleft, List.mem_filter] at hx
      simp [hxc] at hx
    · intro x
      constructor
      · intro hx
        by_cases hxc : x ∈ group c
        · exact ⟨c, List.mem_cons_self, hxc⟩
        · obtain ⟨d, hd, hxd⟩ := (hcover x).mp (by rw [hleft]; simp [hx, hxc])
          exact ⟨d, List.mem_cons_of_mem _ hd, hxd⟩
      · rintro ⟨d, hd, hxd⟩
        rcases List.mem_cons.mp hd with rfl | hd
        · exact hsub hxd
        · have hx := (hcover x).mpr ⟨d, hd, hxd⟩
          rw [hleft] at hx
          exact List.mem_of_mem_filter hx

/-- The invariant holds wherever a round starts. -/
theorem Peels.reached (h : Peels round empty keys group I) {s t : σ} (hs : I s)
    (hreach : Reached round empty s t) : I t := by
  induction hreach with
  | refl => exact hs
  | @round t u c _ hempty hround ih =>
    have hkeys : keys t ≠ [] := by
      rw [Ne, ← h.empty t, hempty]
      simp
    obtain ⟨c', u', hround', hu, _⟩ := h.round t ih hkeys
    rw [hround] at hround'
    cases hround'
    exact hu

/-- One turn of the loop; where a round fails, the next one starts with the same. -/
def attempt (round : σ → Option (γ × σ)) (empty : σ → Bool) (s : σ) : σ :=
  if empty s then s else ((round s).map Prod.snd).getD s

/-- A turn keeps the invariant, and leaves fewer keys. -/
theorem Peels.attempt (h : Peels round empty keys group I) {s : σ} (hs : I s) :
    I (attempt round empty s) ∧ (keys (attempt round empty s)).length ≤ (keys s).length - 1 := by
  unfold Lib.attempt
  by_cases hkeys : keys s = []
  · rw [if_pos ((h.empty s).mpr hkeys), hkeys]
    exact ⟨hs, Nat.le_refl _⟩
  · obtain ⟨c, t, hround, ht, hne, hsub, hleft⟩ := h.round s hs hkeys
    have hlt := filter_length_lt hne hsub
    rw [if_neg fun hempty => hkeys ((h.empty s).mp hempty), hround]
    refine ⟨ht, ?_⟩
    show (keys t).length ≤ (keys s).length - 1
    rw [hleft]
    omega

/-- Turn after turn, until nothing is left. -/
theorem Peels.attempts (h : Peels round empty keys group I) {s : σ} (hs : I s) (n : Nat) :
    I ((Lib.attempt round empty)^[n] s) ∧ (keys ((Lib.attempt round empty)^[n] s)).length ≤ (keys s).length - n := by
  induction n with
  | zero => exact ⟨hs, Nat.le_refl _⟩
  | succ n ih =>
    obtain ⟨hn, hlength⟩ := ih
    obtain ⟨hnext, hless⟩ := h.attempt hn
    rw [Function.iterate_succ_apply']
    exact ⟨hnext, by omega⟩

/-- The loop ends within as many turns as there are keys. -/
theorem Peels.attempts_end (h : Peels round empty keys group I) {s : σ} (hs : I s) {n : Nat}
    (hn : (keys s).length ≤ n) : keys ((Lib.attempt round empty)^[n] s) = [] := by
  have hlength := (h.attempts hs n).2
  exact List.eq_nil_of_length_eq_zero (by omega)

end Lib
