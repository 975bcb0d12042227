import Mathlib.Data.List.Perm.Basic

/- Python's `heapq` on lists.

   The item that is sifted is swapped along its path, where the library moves the others
   and writes it once at the end; the lists that result are the same. Everything here
   permutes. -/
namespace Lib.Heapq

variable {α : Type} (lt : α → α → Bool)

/-- `_siftdown`: the item at `pos` moves towards the root, not past `startpos`. A
position is at least halved, so `pos` is fuel enough. -/
def siftdown (startpos : Nat) : Nat → Nat → List α → List α
  | 0, _, heap => heap
  | fuel + 1, pos, heap =>
    let parentpos := (pos - 1) / 2
    match heap[pos]?, heap[parentpos]? with
    | some newitem, some parent =>
      if startpos < pos ∧ lt newitem parent then
        siftdown startpos fuel parentpos (heap.swap pos parentpos)
      else heap
    | _, _ => heap

/-- The smaller of the children of `pos`, the right one if they are equal. -/
def smallerChild (pos : Nat) (heap : List α) : Option Nat :=
  let childpos := 2 * pos + 1
  match heap[childpos]?, heap[childpos + 1]? with
  | none, _ => none
  | some _, none => some childpos
  | some left, some right => if lt left right then some childpos else some (childpos + 1)

/-- The first loop of `_siftup`: the smaller child moves up until the item is at a leaf. -/
def sink : Nat → Nat → List α → Nat × List α
  | 0, pos, heap => (pos, heap)
  | fuel + 1, pos, heap =>
    match smallerChild lt pos heap with
    | none => (pos, heap)
    | some childpos => sink fuel childpos (heap.swap pos childpos)

/-- `_siftup`. -/
def siftup (pos : Nat) (heap : List α) : List α :=
  let leaf := sink lt heap.length pos heap
  siftdown lt pos leaf.1 leaf.1 leaf.2

/-- `heapify`. -/
def heapify (x : List α) : List α :=
  (List.range (x.length / 2)).reverse.foldl (fun heap i => siftup lt i heap) x

/-- `heappop`; `none` is the `IndexError` of an empty list. -/
def heappop : List α → Option (α × List α)
  | [] => none
  | [lastelt] => some (lastelt, [])
  | returnitem :: x :: rest =>
    let lastelt := (x :: rest).getLast (List.cons_ne_nil x rest)
    some (returnitem, siftup lt 0 (lastelt :: (x :: rest).dropLast))

variable {lt}

theorem siftdown_perm (startpos fuel pos : Nat) (heap : List α) :
    (siftdown lt startpos fuel pos heap).Perm heap := by
  induction fuel generalizing pos heap with
  | zero => exact List.Perm.refl _
  | succ fuel ih =>
    unfold siftdown
    simp only
    split
    · split
      · exact (ih _ _).trans (List.swap_perm _ _ _)
      · exact List.Perm.refl _
    · exact List.Perm.refl _

theorem sink_perm (fuel pos : Nat) (heap : List α) : (sink lt fuel pos heap).2.Perm heap := by
  induction fuel generalizing pos heap with
  | zero => exact List.Perm.refl _
  | succ fuel ih =>
    unfold sink
    split
    · exact List.Perm.refl _
    · exact (ih _ _).trans (List.swap_perm _ _ _)

theorem siftup_perm (pos : Nat) (heap : List α) : (siftup lt pos heap).Perm heap :=
  (siftdown_perm _ _ _ _).trans (sink_perm _ _ _)

theorem heapify_perm (x : List α) : (heapify lt x).Perm x := by
  unfold heapify
  generalize (List.range (x.length / 2)).reverse = positions
  induction positions generalizing x with
  | nil => exact List.Perm.refl _
  | cons i positions ih =>
    rw [List.foldl_cons]
    exact (ih _).trans (siftup_perm i x)

/-- What is popped and what is left make up the heap. -/
theorem heappop_perm {heap rest : List α} {x : α} (h : heappop lt heap = some (x, rest)) :
    heap.Perm (x :: rest) := by
  match heap, h with
  | [lastelt], h =>
    simp only [heappop, Option.some.injEq, Prod.mk.injEq] at h
    obtain ⟨rfl, rfl⟩ := h
    exact List.Perm.refl _
  | a :: b :: l, h =>
    simp only [heappop, Option.some.injEq, Prod.mk.injEq] at h
    obtain ⟨rfl, rfl⟩ := h
    apply List.Perm.cons
    have hsplit := List.dropLast_concat_getLast (List.cons_ne_nil b l)
    have hlast : ((b :: l).dropLast ++ [(b :: l).getLast (List.cons_ne_nil b l)]).Perm
        ((b :: l).getLast (List.cons_ne_nil b l) :: (b :: l).dropLast) := List.perm_append_comm
    rw [hsplit] at hlast
    exact hlast.trans (siftup_perm 0 _).symm

end Lib.Heapq
