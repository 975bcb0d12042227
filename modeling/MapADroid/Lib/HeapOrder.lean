import MapADroid.Lib.Heapq
import Mathlib.Logic.Equiv.Basic

/- The order of `heapq`.

   A heap has no item smaller than its parent. Sifting an item up in a list whose other
   items below its position are in order moves it to a leaf, along the smaller children,
   and back towards the position; on the way down every item but the one that is moved
   is in order (`Sinking`), on the way back it is only out of order with its parent
   (`Rising`). So `heapify` makes a heap of any list, and what is left after `heappop`
   is a heap again. -/
namespace Lib.Heapq

variable {α : Type} {lt : α → α → Bool}

/-- `lt` compares by some key: what is not smaller is a total preorder. -/
structure Weak (lt : α → α → Bool) : Prop where
  asymm : ∀ {a b}, lt a b = true → lt b a = false
  trans : ∀ {a b c}, lt b a = false → lt c b = false → lt c a = false

/-- The item at `i` is not smaller than the one at `j`, if both are there. -/
def LeAt (lt : α → α → Bool) (l : List α) (j i : Nat) : Prop := ∀ x ∈ l[j]?, ∀ y ∈ l[i]?, lt y x = false

/-- No item is smaller than its parent, if that is at `s` or after it. -/
def HeapFrom (lt : α → α → Bool) (s : Nat) (l : List α) : Prop :=
  ∀ i, 0 < i → s ≤ (i - 1) / 2 → LeAt lt l ((i - 1) / 2) i

def IsHeap (lt : α → α → Bool) (l : List α) : Prop := HeapFrom lt 0 l

theorem isHeap_iff {l : List α} :
    IsHeap lt l ↔ ∀ i < l.length, 0 < i → LeAt lt l ((i - 1) / 2) i := by
  constructor
  · intro h i _ hi
    exact h i hi (Nat.zero_le _)
  · intro h i hi _
    by_cases hlength : i < l.length
    · exact h i hlength hi
    · intro x _ y hy
      rw [List.getElem?_eq_none (by omega)] at hy
      cases hy

instance (l : List α) (j i : Nat) : Decidable (LeAt lt l j i) :=
  inferInstanceAs (Decidable (∀ x ∈ l[j]?, ∀ y ∈ l[i]?, lt y x = false))

instance (l : List α) : Decidable (IsHeap lt l) := decidable_of_iff _ isHeap_iff.symm

/-- `p` is in the subtree of `pos`. -/
inductive Below (pos : Nat) : Nat → Prop where
  | root : Below pos pos
  | child {c : Nat} (hc : 0 < c) (h : Below pos ((c - 1) / 2)) : Below pos c

theorem Below.le {pos p : Nat} (h : Below pos p) : pos ≤ p := by
  induction h with
  | root => exact Nat.le_refl _
  | child hc _ ih => omega

theorem Below.parent {pos p : Nat} (h : Below pos p) (hne : p ≠ pos) : 0 < p ∧ Below pos ((p - 1) / 2) := by
  cases h with
  | root => exact absurd rfl hne
  | child hc h => exact ⟨hc, h⟩

/-! ## Comparing positions -/

theorem LeAt.trans (hlt : Weak lt) {l : List α} {i j k : Nat} (h : LeAt lt l i j) (h' : LeAt lt l j k)
    (hj : j < l.length) : LeAt lt l i k := by
  intro x hx z hz
  have hy : l[j] ∈ l[j]? := List.getElem?_eq_getElem hj
  exact hlt.trans (h x hx _ hy) (h' _ hy z hz)

theorem getElem?_swap {l : List α} {p q : Nat} (hp : p < l.length) (hq : q < l.length) (i : Nat) :
    (l.swap p q)[i]? = l[Equiv.swap p q i]? := by
  rw [List.swap_eq_of_lt hp hq, Equiv.swap_apply_def]
  by_cases hiq : i = q
  · subst hiq
    rw [List.getElem?_set_self (by rw [List.length_set]; exact hq)]
    by_cases hip : i = p
    · subst hip
      rw [if_pos rfl, List.getElem?_eq_getElem hp]
    · rw [if_neg hip, if_pos rfl, List.getElem?_eq_getElem hp]
  · rw [List.getElem?_set_ne fun h => hiq h.symm]
    by_cases hip : i = p
    · subst hip
      rw [List.getElem?_set_self hp, if_pos rfl, List.getElem?_eq_getElem hq]
    · rw [List.getElem?_set_ne fun h => hip h.symm, if_neg hip, if_neg hiq]

theorem leAt_swap {l : List α} {p q : Nat} (hp : p < l.length) (hq : q < l.length) (j i : Nat) :
    LeAt lt (l.swap p q) j i ↔ LeAt lt l (Equiv.swap p q j) (Equiv.swap p q i) := by
  unfold LeAt
  rw [getElem?_swap hp hq, getElem?_swap hp hq]

/-- The first item of a heap is a smallest one. -/
theorem IsHeap.first (hlt : Weak lt) {l : List α} (h : IsHeap lt l) (i : Nat) : LeAt lt l 0 i := by
  induction i using Nat.strongRecOn with
  | ind i ih =>
    by_cases hi : i = 0
    · subst hi
      intro x hx y hy
      rw [Option.mem_unique hx hy]
      by_contra hlt'
      have hself : lt y y = true := by simpa using hlt'
      exact absurd (hlt.asymm hself) (by rw [hself]; simp)
    · by_cases hlength : (i - 1) / 2 < l.length
      · exact (ih ((i - 1) / 2) (by omega)).trans hlt (h i (by omega) (Nat.zero_le _)) hlength
      · intro x hx y hy
        have hnone : l[i]? = none := List.getElem?_eq_none (by omega)
        rw [hnone] at hy
        cases hy

/-! ## Towards the root -/

/-- The item at `p` is on its way up: only its order with its parent is open. -/
structure Rising (lt : α → α → Bool) (pos p : Nat) (l : List α) : Prop where
  below : Below pos p
  length : p < l.length
  edges : ∀ i, 0 < i → pos ≤ (i - 1) / 2 → i ≠ p → LeAt lt l ((i - 1) / 2) i
  grand : p ≠ pos → ∀ i, 0 < i → (i - 1) / 2 = p → LeAt lt l ((p - 1) / 2) i

/-- The item changes places with its parent. -/
theorem Rising.swap (hlt : Weak lt) {pos p : Nat} {l : List α} (h : Rising lt pos p l) (hp : pos < p)
    (hsmall : ∀ x ∈ l[p]?, ∀ y ∈ l[(p - 1) / 2]?, lt x y = true) :
    Rising lt pos ((p - 1) / 2) (l.swap p ((p - 1) / 2)) := by
  obtain ⟨hpos, hparent⟩ := h.below.parent (by omega)
  have hq : (p - 1) / 2 < p := by omega
  have hle := hparent.le
  have hlength := h.length
  have hitem : LeAt lt l p ((p - 1) / 2) := fun x hx y hy => hlt.asymm (hsmall x hx y hy)
  refine ⟨hparent, by rw [List.length_swap]; omega, fun i hi hpi hne => ?_, fun hne i hi hpi => ?_⟩
  · rw [leAt_swap h.length (by omega)]
    by_cases hip : i = p
    · rw [hip, Equiv.swap_apply_left, Equiv.swap_apply_right]
      exact hitem
    · rw [Equiv.swap_apply_of_ne_of_ne hip hne]
      by_cases hchild : (i - 1) / 2 = p
      · rw [hchild, Equiv.swap_apply_left]
        exact h.grand (by omega) i hi hchild
      · by_cases hsibling : (i - 1) / 2 = (p - 1) / 2
        · have hedge := h.edges i hi hpi hip
          rw [hsibling] at hedge
          rw [hsibling, Equiv.swap_apply_right]
          exact hitem.trans hlt hedge (by omega)
        · rw [Equiv.swap_apply_of_ne_of_ne hchild hsibling]
          exact h.edges i hi hpi hip
  · obtain ⟨hqpos, hqparent⟩ := hparent.parent hne
    have hqle := hqparent.le
    have hedge : LeAt lt l (((p - 1) / 2 - 1) / 2) ((p - 1) / 2) := h.edges _ hqpos hqle (by omega)
    rw [leAt_swap h.length (by omega), Equiv.swap_apply_of_ne_of_ne (by omega) (by omega)]
    by_cases hip : i = p
    · rw [hip, Equiv.swap_apply_left]
      exact hedge
    · rw [Equiv.swap_apply_of_ne_of_ne hip (by omega)]
      have hchild := h.edges i hi (by omega) hip
      rw [hpi] at hchild
      exact hedge.trans hlt hchild (by omega)

theorem siftdown_heapFrom (hlt : Weak lt) {pos : Nat} (fuel : Nat) {p : Nat} {l : List α} (h : Rising lt pos p l)
    (hfuel : p ≤ fuel) : HeapFrom lt pos (siftdown lt pos fuel p l) := by
  have hstop : (∀ {i}, i = p → 0 < i → pos ≤ (i - 1) / 2 → LeAt lt l ((i - 1) / 2) i) → HeapFrom lt pos l := by
    intro hp i hi hpi
    by_cases hip : i = p
    · exact hp hip hi hpi
    · exact h.edges i hi hpi hip
  induction fuel generalizing p l with
  | zero => exact hstop fun hip hi _ => by omega
  | succ fuel ih =>
    have hlength := h.length
    have hle := h.below.le
    have hitem : l[p]? = some l[p] := List.getElem?_eq_getElem hlength
    have hup : (p - 1) / 2 < l.length := by omega
    have hparent : l[(p - 1) / 2]? = some l[(p - 1) / 2] := List.getElem?_eq_getElem hup
    simp only [siftdown, hitem, hparent]
    split
    · next hswap =>
      have hsmall : ∀ x ∈ l[p]?, ∀ y ∈ l[(p - 1) / 2]?, lt x y = true := by
        intro x hx y hy
        rw [hitem] at hx
        rw [hparent] at hy
        cases hx
        cases hy
        exact hswap.2
      have hnext := h.swap hlt hswap.1 hsmall
      refine ih hnext (by omega) fun hp i hi hpi => ?_
      by_cases hip : i = (p - 1) / 2
      · exact hp hip hi hpi
      · exact hnext.edges i hi hpi hip
    · next hswap =>
      refine hstop fun hip hi hpi => ?_
      subst hip
      intro x hx y hy
      rw [hitem] at hy
      rw [hparent] at hx
      cases hx
      cases hy
      by_contra hsmall
      exact hswap ⟨by omega, by simpa using hsmall⟩

/-! ## Towards the leaves -/

/-- The item at `p` is on its way down: its order with its parent and its children is open. -/
structure Sinking (lt : α → α → Bool) (pos p : Nat) (l : List α) : Prop where
  below : Below pos p
  length : p < l.length
  edges : ∀ i, 0 < i → pos ≤ (i - 1) / 2 → i ≠ p → (i - 1) / 2 ≠ p → LeAt lt l ((i - 1) / 2) i
  grand : p ≠ pos → ∀ i, 0 < i → (i - 1) / 2 = p → LeAt lt l ((p - 1) / 2) i

/-- At a leaf the item turns back. -/
theorem Sinking.rising {pos p : Nat} {l : List α} (h : Sinking lt pos p l) (hleaf : l.length ≤ 2 * p + 1) :
    Rising lt pos p l := by
  refine ⟨h.below, h.length, fun i hi hpi hne => ?_, h.grand⟩
  by_cases hchild : (i - 1) / 2 = p
  · intro x hx y hy
    have hnone : l[i]? = none := List.getElem?_eq_none (by omega)
    rw [hnone] at hy
    cases hy
  · exact h.edges i hi hpi hne hchild

/-- A smaller child is a child in the list, and not greater than the other one. -/
theorem smallerChild_some (hlt : Weak lt) {p c : Nat} {l : List α} (h : smallerChild lt p l = some c) :
    0 < c ∧ (c - 1) / 2 = p ∧ c < l.length ∧ ∀ i, 0 < i → (i - 1) / 2 = p → i ≠ c → LeAt lt l c i := by
  simp only [smallerChild] at h
  split at h
  · cases h
  · next left hleft hright =>
    cases h
    obtain ⟨hlength, _⟩ := List.getElem?_eq_some_iff.mp hleft
    refine ⟨by omega, by omega, hlength, fun i hi hpi hne x hx y hy => ?_⟩
    rw [show i = 2 * p + 1 + 1 by omega, hright] at hy
    cases hy
  · next left right hleft hright =>
    obtain ⟨hl, _⟩ := List.getElem?_eq_some_iff.mp hleft
    obtain ⟨hr, _⟩ := List.getElem?_eq_some_iff.mp hright
    split at h
    · next hsmaller =>
      cases h
      refine ⟨by omega, by omega, hl, fun i hi hpi hne x hx y hy => ?_⟩
      rw [hleft] at hx
      rw [show i = 2 * p + 1 + 1 by omega, hright] at hy
      cases hx
      cases hy
      exact hlt.asymm hsmaller
    · next hsmaller =>
      cases h
      refine ⟨by omega, by omega, hr, fun i hi hpi hne x hx y hy => ?_⟩
      rw [hright] at hx
      rw [show i = 2 * p + 1 by omega, hleft] at hy
      cases hx
      cases hy
      simpa using hsmaller

theorem smallerChild_none {p : Nat} {l : List α} (h : smallerChild lt p l = none) : l.length ≤ 2 * p + 1 := by
  simp only [smallerChild] at h
  split at h
  · next hleft => exact List.getElem?_eq_none_iff.mp hleft
  · cases h
  · split at h
    · cases h
    · cases h

/-- The item changes places with its smaller child. -/
theorem Sinking.swap {pos p c : Nat} {l : List α} (h : Sinking lt pos p l) (hc : 0 < c) (hpc : (c - 1) / 2 = p)
    (hlength : c < l.length) (hsmall : ∀ i, 0 < i → (i - 1) / 2 = p → i ≠ c → LeAt lt l c i) :
    Sinking lt pos c (l.swap p c) := by
  have hle := h.below.le
  refine ⟨.child hc (hpc ▸ h.below), by rw [List.length_swap]; exact hlength, fun i hi hpi hne hchild => ?_,
    fun hne i hi hpi => ?_⟩
  · rw [leAt_swap h.length hlength]
    by_cases hip : i = p
    · rw [hip, Equiv.swap_apply_left, Equiv.swap_apply_of_ne_of_ne (by omega) (by omega)]
      exact h.grand (by omega) c hc hpc
    · rw [Equiv.swap_apply_of_ne_of_ne hip hne]
      by_cases hsibling : (i - 1) / 2 = p
      · rw [hsibling, Equiv.swap_apply_left]
        exact hsmall i hi hsibling hne
      · rw [Equiv.swap_apply_of_ne_of_ne hsibling hchild]
        exact h.edges i hi hpi hip hsibling
  · rw [leAt_swap h.length hlength, hpc, Equiv.swap_apply_left,
      Equiv.swap_apply_of_ne_of_ne (show i ≠ p by omega) (show i ≠ c by omega)]
    have hedge := h.edges i hi (by omega) (by omega) (by omega)
    rw [hpi] at hedge
    exact hedge

theorem sink_rising (hlt : Weak lt) {pos : Nat} (fuel : Nat) {p : Nat} {l : List α} (h : Sinking lt pos p l)
    (hfuel : l.length - p ≤ fuel) : Rising lt pos (sink lt fuel p l).1 (sink lt fuel p l).2 := by
  induction fuel generalizing p l with
  | zero =>
    have hlength := h.length
    omega
  | succ fuel ih =>
    unfold sink
    split
    · next hleaf => exact h.rising (smallerChild_none hleaf)
    · next c hsome =>
      obtain ⟨hc, hpc, hlength, hsmall⟩ := smallerChild_some hlt hsome
      refine ih (h.swap hc hpc hlength hsmall) ?_
      rw [List.length_swap]
      omega

/-! ## The operations -/

/-- Sifting an item up brings it in order with all that are below it. -/
theorem siftup_heapFrom (hlt : Weak lt) {pos : Nat} {l : List α} (h : HeapFrom lt (pos + 1) l) (hpos : pos < l.length) :
    HeapFrom lt pos (siftup lt pos l) := by
  have hsinking : Sinking lt pos pos l :=
    ⟨.root, hpos, fun i hi hpi _ hne => h i hi (by omega), fun hne => absurd rfl hne⟩
  have hrising := sink_rising hlt l.length hsinking (by omega)
  exact siftdown_heapFrom hlt _ hrising (Nat.le_refl _)

/-- `heapify` makes a heap. -/
theorem heapify_isHeap (hlt : Weak lt) (x : List α) : IsHeap lt (heapify lt x) := by
  unfold heapify
  have hleaves : HeapFrom lt (x.length / 2) x := by
    intro i hi hpi y hy z hz
    have hnone : x[i]? = none := List.getElem?_eq_none (by omega)
    rw [hnone] at hz
    cases hz
  have hrange : x.length / 2 ≤ x.length := Nat.div_le_self _ _
  revert hleaves hrange
  generalize x.length / 2 = n
  intro hleaves hrange
  induction n generalizing x with
  | zero => exact hleaves
  | succ n ih =>
    rw [List.range_succ, List.reverse_append, List.reverse_singleton, List.singleton_append, List.foldl_cons]
    refine ih (siftup lt n x) (siftup_heapFrom hlt hleaves (by omega)) ?_
    rw [(siftup_perm n x).length_eq]
    omega

/-- `heappop` takes a smallest item off a heap, and a heap is left. -/
theorem heappop_isHeap (hlt : Weak lt) {l rest : List α} {x : α} (h : IsHeap lt l) (hpop : heappop lt l = some (x, rest)) :
    IsHeap lt rest ∧ ∀ y ∈ l, lt y x = false := by
  match l, hpop with
  | [a], hpop =>
    cases hpop
    refine ⟨fun i _ _ y _ z hz => (by cases hz), fun y hy => ?_⟩
    rw [List.mem_singleton.mp hy]
    exact h.first hlt 0 x rfl x rfl
  | a :: b :: m, hpop =>
    cases hpop
    constructor
    · refine siftup_heapFrom hlt (fun i hi hpi => ?_) (by simp)
      -- after the first position the items are those of the heap
      have hsame : ∀ {j : Nat} {y : α}, 1 ≤ j →
          y ∈ ((b :: m).getLast (List.cons_ne_nil b m) :: (b :: m).dropLast)[j]? → y ∈ (x :: b :: m)[j]? := by
        intro j y hj hy
        obtain ⟨k, rfl⟩ : ∃ k, j = k + 1 := ⟨j - 1, by omega⟩
        rw [List.getElem?_cons_succ, List.getElem?_dropLast] at hy
        rw [List.getElem?_cons_succ]
        split at hy
        · exact hy
        · cases hy
      exact fun y hy z hz => h i hi (Nat.zero_le _) y (hsame hpi hy) z (hsame hi hz)
    · intro y hy
      obtain ⟨i, hi⟩ := List.mem_iff_getElem?.mp hy
      exact h.first hlt i x rfl y hi

/-- All items of a heap, popped one after the other. -/
def drain (lt : α → α → Bool) : Nat → List α → List α
  | 0, _ => []
  | fuel + 1, heap =>
    match heappop lt heap with
    | none => []
    | some (x, rest) => x :: drain lt fuel rest

theorem heappop_eq_none {l : List α} (h : heappop lt l = none) : l = [] := by
  cases l with
  | nil => rfl
  | cons a l =>
    cases l with
    | nil => cases h
    | cons b l => cases h

theorem drain_perm (fuel : Nat) {l : List α} (hfuel : l.length ≤ fuel) : (drain lt fuel l).Perm l := by
  induction fuel generalizing l with
  | zero =>
    rw [List.eq_nil_of_length_eq_zero (Nat.le_zero.mp hfuel)]
    exact List.Perm.refl _
  | succ fuel ih =>
    unfold drain
    split
    · next hpop =>
      rw [heappop_eq_none hpop]
    · next x rest hpop =>
      have hperm := heappop_perm hpop
      have hlength := hperm.length_eq
      rw [List.length_cons] at hlength
      exact ((ih (by omega)).cons x).trans hperm.symm

/-- The items of a heap are popped in order. -/
theorem drain_sorted (hlt : Weak lt) (fuel : Nat) {l : List α} (h : IsHeap lt l) (hfuel : l.length ≤ fuel) :
    (drain lt fuel l).Pairwise fun x y => lt y x = false := by
  induction fuel generalizing l with
  | zero => exact List.Pairwise.nil
  | succ fuel ih =>
    unfold drain
    split
    · exact List.Pairwise.nil
    · next x rest hpop =>
      have hperm := heappop_perm hpop
      obtain ⟨hrest, hleast⟩ := heappop_isHeap hlt h hpop
      have hlength := hperm.length_eq
      rw [List.length_cons] at hlength
      refine List.Pairwise.cons (fun y hy => ?_) (ih hrest (by omega))
      have hy' : y ∈ rest := (drain_perm fuel (by omega)).mem_iff.mp hy
      exact hleast y (hperm.mem_iff.mpr (List.mem_cons_of_mem x hy'))

end Lib.Heapq
