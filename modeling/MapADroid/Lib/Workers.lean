import Mathlib.Data.List.Nodup
import Mathlib.Logic.Function.Basic

/- Workers that share a queue and a set of resources.

   A worker takes the first item of the queue, and hands it back or drops it; items
   enter the queue from outside. As long as only items that are nowhere yet enter, no
   item is ever in two places (`WorkQueue.AtMostOnce`).

   Each item belongs to one resource, its `key`. A worker that starts on an item
   reserves the resource for it, and ends by releasing the reservation or by leaving it
   to the item. As long as a resource is only reserved again once no worker is on the
   item it is reserved for, the workers' resources are pairwise different and each is
   reserved for the item its worker is on (`Reservations.Exclusive`). -/
namespace Lib

variable {ω ι κ : Type} [DecidableEq ω]

/-- Who has `x` after `w` was given `o`: `w` itself, or another who had it before. -/
theorem update_eq_some {f : ω → Option ι} {v w : ω} {x : ι} {o : Option ι}
    (h : Function.update f w o v = some x) : (v = w ∧ o = some x) ∨ (v ≠ w ∧ f v = some x) := by
  by_cases hv : v = w
  · subst hv; rw [Function.update_self] at h; exact Or.inl ⟨rfl, h⟩
  · rw [Function.update_of_ne hv] at h; exact Or.inr ⟨hv, h⟩

/-- Who has `x` after `w` let go of its own. -/
theorem update_none_eq_some {f : ω → Option ι} {v w : ω} {x : ι}
    (h : Function.update f w none v = some x) : v ≠ w ∧ f v = some x := by
  rcases update_eq_some h with ⟨_, hx⟩ | h
  · cases hx
  · exact h

theorem nodup_append_singleton {l : List ι} {x : ι} (h : l.Nodup) (hx : x ∉ l) :
    (l ++ [x]).Nodup := by
  rw [List.nodup_append]
  refine ⟨h, List.nodup_singleton x, ?_⟩
  intro a ha b hb hab
  rw [List.mem_singleton] at hb
  exact hx (hb ▸ hab ▸ ha)

/-! ## The queue -/

/-- A queue, and the item each worker is at. -/
structure WorkQueue (ω ι : Type) where
  queue : List ι
  held : ω → Option ι

namespace WorkQueue

/-- `x` is neither in the queue nor at a worker. -/
def Absent (q : WorkQueue ω ι) (x : ι) : Prop := x ∉ q.queue ∧ ∀ w, q.held w ≠ some x

/-- An item enters from outside. -/
def enqueue (q : WorkQueue ω ι) (x : ι) : WorkQueue ω ι := ⟨q.queue ++ [x], q.held⟩

/-- What the workers do. -/
inductive Move : WorkQueue ω ι → WorkQueue ω ι → Prop where
  | stay (q : WorkQueue ω ι) : Move q q
  | take {q : WorkQueue ω ι} {w : ω} {x : ι} {rest : List ι} (hq : q.queue = x :: rest) :
      Move q ⟨rest, Function.update q.held w (some x)⟩
  | handBack {q : WorkQueue ω ι} {w : ω} {x : ι} (hw : q.held w = some x) :
      Move q ⟨q.queue ++ [x], Function.update q.held w none⟩
  | drop {q : WorkQueue ω ι} (w : ω) : Move q ⟨q.queue, Function.update q.held w none⟩

/-- No item is twice in the queue, at two workers, or in the queue and at a worker. -/
structure AtMostOnce (q : WorkQueue ω ι) : Prop where
  queue : q.queue.Nodup
  apart : ∀ {w x}, q.held w = some x → x ∉ q.queue
  held : ∀ {v w x}, q.held v = some x → q.held w = some x → v = w

/-- Workers do not make items. -/
theorem Move.absent {q q' : WorkQueue ω ι} (h : Move q q') {x : ι} (hx : q.Absent x) :
    q'.Absent x := by
  obtain ⟨hqueue, hheld⟩ := hx
  cases h with
  | stay => exact ⟨hqueue, hheld⟩
  | @take w y rest hcons =>
    rw [hcons, List.mem_cons, not_or] at hqueue
    refine ⟨hqueue.2, ?_⟩
    intro v hv
    rcases update_eq_some hv with ⟨_, hy⟩ | ⟨_, hv⟩
    · rw [Option.some.injEq] at hy
      exact hqueue.1 hy.symm
    · exact hheld v hv
  | @handBack w y hw =>
    refine ⟨?_, fun v hv => hheld v (update_none_eq_some hv).2⟩
    intro hmem
    rcases List.mem_append.mp hmem with hmem | hmem
    · exact hqueue hmem
    · rw [List.mem_singleton] at hmem
      exact hheld w (hmem ▸ hw)
  | drop w => exact ⟨hqueue, fun v hv => hheld v (update_none_eq_some hv).2⟩

omit [DecidableEq ω] in
theorem AtMostOnce.enqueue {q : WorkQueue ω ι} (hq : q.AtMostOnce) {x : ι} (habs : q.Absent x) :
    (q.enqueue x).AtMostOnce := by
  refine ⟨nodup_append_singleton hq.queue habs.1, ?_, hq.held⟩
  intro w y hw hy
  rcases List.mem_append.mp hy with hy | hy
  · exact hq.apart hw hy
  · rw [List.mem_singleton] at hy
    exact habs.2 w (hy ▸ hw)

theorem Move.atMostOnce {q q' : WorkQueue ω ι} (h : Move q q') (hq : q.AtMostOnce) :
    q'.AtMostOnce := by
  cases h with
  | stay => exact hq
  | @take w x rest hcons =>
    have hnodup := hq.queue
    rw [hcons, List.nodup_cons] at hnodup
    have hsub : ∀ {y}, y ∈ rest → y ∈ q.queue := fun hy => hcons ▸ List.mem_cons_of_mem _ hy
    have hx : x ∈ q.queue := hcons ▸ List.mem_cons_self
    refine ⟨hnodup.2, ?_, ?_⟩
    · intro v y hv hy
      rcases update_eq_some hv with ⟨_, hxy⟩ | ⟨_, hv⟩
      · rw [Option.some.injEq] at hxy
        exact hnodup.1 (hxy ▸ hy)
      · exact hq.apart hv (hsub hy)
    · intro u v y hu hv
      rcases update_eq_some hu with ⟨hu, hxy⟩ | ⟨_, hu⟩ <;>
        rcases update_eq_some hv with ⟨hv, hxy'⟩ | ⟨_, hv⟩
      · rw [hu, hv]
      · rw [Option.some.injEq] at hxy
        exact absurd (hxy ▸ hx) (hq.apart hv)
      · rw [Option.some.injEq] at hxy'
        exact absurd (hxy' ▸ hx) (hq.apart hu)
      · exact hq.held hu hv
  | @handBack w x hw =>
    refine ⟨nodup_append_singleton hq.queue (hq.apart hw), ?_, ?_⟩
    · intro v y hv hy
      obtain ⟨hvw, hv⟩ := update_none_eq_some hv
      rcases List.mem_append.mp hy with hy | hy
      · exact hq.apart hv hy
      · rw [List.mem_singleton] at hy
        exact hvw (hq.held hv (hy ▸ hw))
    · intro u v y hu hv
      exact hq.held (update_none_eq_some hu).2 (update_none_eq_some hv).2
  | drop w =>
    refine ⟨hq.queue, ?_, ?_⟩
    · intro v y hv
      exact hq.apart (update_none_eq_some hv).2
    · intro u v y hu hv
      exact hq.held (update_none_eq_some hu).2 (update_none_eq_some hv).2

omit [DecidableEq ω] in
theorem Absent.enqueue_of_ne {q : WorkQueue ω ι} {x y : ι} (h : q.Absent x) (hy : y ≠ x) : (q.enqueue y).Absent x := by
  refine ⟨fun hmem => ?_, h.2⟩
  rcases List.mem_append.mp hmem with hmem | hmem
  · exact h.1 hmem
  · exact hy (List.mem_singleton.mp hmem).symm

/-! ### One item -/

section Once
variable [DecidableEq ι]

/-- The item is in one place at most. -/
structure Once (q : WorkQueue ω ι) (x : ι) : Prop where
  queue : q.queue.count x ≤ 1
  apart : ∀ {w}, q.held w = some x → x ∉ q.queue
  held : ∀ {v w}, q.held v = some x → q.held w = some x → v = w

omit [DecidableEq ω] in
theorem Absent.once {q : WorkQueue ω ι} {x : ι} (h : q.Absent x) : q.Once x where
  queue := by
    rw [List.count_eq_zero_of_not_mem h.1]
    exact Nat.zero_le 1
  apart hw := absurd hw (h.2 _)
  held hv := absurd hv (h.2 _)

omit [DecidableEq ω] in
theorem Absent.enqueue_once {q : WorkQueue ω ι} {x : ι} (h : q.Absent x) : (q.enqueue x).Once x where
  queue := by
    show (q.queue ++ [x]).count x ≤ 1
    rw [List.count_append, List.count_eq_zero_of_not_mem h.1]
    simp
  apart hw := absurd hw (h.2 _)
  held hv := absurd hv (h.2 _)

omit [DecidableEq ω] in
theorem Once.enqueue_of_ne {q : WorkQueue ω ι} {x y : ι} (h : q.Once x) (hy : y ≠ x) : (q.enqueue y).Once x where
  queue := by
    show (q.queue ++ [y]).count x ≤ 1
    rw [List.count_append, List.count_singleton, if_neg (by simpa using hy)]
    exact h.queue
  apart hw hmem := by
    rcases List.mem_append.mp hmem with hmem | hmem
    · exact h.apart hw hmem
    · exact hy (List.mem_singleton.mp hmem).symm
  held := h.held

theorem Move.once {q q' : WorkQueue ω ι} (h : Move q q') {x : ι} (hq : q.Once x) : q'.Once x := by
  cases h with
  | stay => exact hq
  | @take w y rest hcons =>
    have hcount := hq.queue
    rw [hcons, List.count_cons] at hcount
    have hsub : ∀ {z}, z ∈ rest → z ∈ q.queue := fun hz => hcons ▸ List.mem_cons_of_mem _ hz
    -- Whoever takes the item leaves none in the queue, and nobody else had it.
    have hlast : y = x → x ∉ rest := by
      rintro rfl hmem
      have hpos := List.count_pos_iff.mpr hmem
      simp only [beq_self_eq_true, if_true] at hcount
      omega
    have hsole : ∀ {v}, y = x → q.held v ≠ some x := by
      rintro v rfl hv
      exact hq.apart hv (hcons ▸ List.mem_cons_self)
    refine ⟨Nat.le_trans (Nat.le_add_right _ _) hcount, ?_, ?_⟩
    · intro v hv
      rcases update_eq_some hv with ⟨_, hxy⟩ | ⟨_, hv⟩
      · exact hlast (Option.some.inj hxy)
      · exact fun hmem => hq.apart hv (hsub hmem)
    · intro u v hu hv
      rcases update_eq_some hu with ⟨hu, hxy⟩ | ⟨_, hu⟩ <;>
        rcases update_eq_some hv with ⟨hv, hxy'⟩ | ⟨_, hv⟩
      · rw [hu, hv]
      · exact absurd hv (hsole (Option.some.inj hxy))
      · exact absurd hu (hsole (Option.some.inj hxy'))
      · exact hq.held hu hv
  | @handBack w y hw =>
    refine ⟨?_, ?_, ?_⟩
    · show (q.queue ++ [y]).count x ≤ 1
      rw [List.count_append, List.count_singleton]
      split
      · next hy =>
        obtain rfl : y = x := by simpa using hy
        simp [List.count_eq_zero_of_not_mem (hq.apart hw)]
      · exact hq.queue
    · intro v hv hmem
      obtain ⟨hvw, hv⟩ := update_none_eq_some hv
      rcases List.mem_append.mp hmem with hmem | hmem
      · exact hq.apart hv hmem
      · rw [List.mem_singleton] at hmem
        exact hvw (hq.held hv (hmem ▸ hw))
    · intro u v hu hv
      exact hq.held (update_none_eq_some hu).2 (update_none_eq_some hv).2
  | drop w =>
    refine ⟨hq.queue, fun hv => hq.apart (update_none_eq_some hv).2, ?_⟩
    intro u v hu hv
    exact hq.held (update_none_eq_some hu).2 (update_none_eq_some hv).2

end Once

end WorkQueue

/-! ## The resources -/

/-- What each resource is reserved for, and the item each worker is on. -/
structure Reservations (ω ι κ : Type) where
  reserved : κ → Option ι
  owner : ω → Option ι

namespace Reservations

variable [DecidableEq κ]

inductive Move (key : ι → κ) : Reservations ω ι κ → Reservations ω ι κ → Prop where
  | stay (t : Reservations ω ι κ) : Move key t t
  | acquire {t : Reservations ω ι κ} (w : ω) {x : ι}
      (free : ∀ y, t.reserved (key x) = some y → ∀ v, t.owner v ≠ some y) :
      Move key t ⟨Function.update t.reserved (key x) (some x), Function.update t.owner w (some x)⟩
  | leave {t : Reservations ω ι κ} (w : ω) :
      Move key t ⟨t.reserved, Function.update t.owner w none⟩
  | release {t : Reservations ω ι κ} {w : ω} {x : ι} (own : t.owner w = some x) :
      Move key t ⟨Function.update t.reserved (key x) none, Function.update t.owner w none⟩

structure Exclusive (key : ι → κ) (t : Reservations ω ι κ) : Prop where
  reserved : ∀ {w x}, t.owner w = some x → t.reserved (key x) = some x
  apart : ∀ {v w x y}, t.owner v = some x → t.owner w = some y → key x = key y → v = w

theorem Move.exclusive {key : ι → κ} {t t' : Reservations ω ι κ} (h : Move key t t')
    (ht : t.Exclusive key) : t'.Exclusive key := by
  cases h with
  | stay => exact ht
  | @acquire w x free =>
    -- Whoever is on an item of this resource would be on the item it is reserved for.
    have hother : ∀ v y, t.owner v = some y → key y ≠ key x := by
      intro v y hv hk
      have hres := ht.reserved hv
      rw [hk] at hres
      exact free y hres v hv
    refine ⟨?_, ?_⟩
    · intro v y hv
      rcases update_eq_some hv with ⟨_, hy⟩ | ⟨_, hv⟩
      · rw [Option.some.injEq] at hy
        subst hy; exact Function.update_self _ _ _
      · exact (Function.update_of_ne (hother v y hv) _ _).trans (ht.reserved hv)
    · intro u v y z hu hv hk
      rcases update_eq_some hu with ⟨hu, hy⟩ | ⟨_, hu⟩ <;>
        rcases update_eq_some hv with ⟨hv, hz⟩ | ⟨_, hv⟩
      · rw [hu, hv]
      · rw [Option.some.injEq] at hy
        exact absurd (hk.symm.trans (congrArg key hy.symm)) (hother v z hv)
      · rw [Option.some.injEq] at hz
        exact absurd (hk.trans (congrArg key hz.symm)) (hother u y hu)
      · exact ht.apart hu hv hk
  | leave w =>
    refine ⟨?_, ?_⟩
    · intro v y hv
      exact ht.reserved (update_none_eq_some hv).2
    · intro u v y z hu hv hk
      exact ht.apart (update_none_eq_some hu).2 (update_none_eq_some hv).2 hk
  | @release w x own =>
    refine ⟨?_, ?_⟩
    · intro v y hv
      obtain ⟨hvw, hv⟩ := update_none_eq_some hv
      have hk : key y ≠ key x := fun hk => hvw (ht.apart hv own hk)
      exact (Function.update_of_ne hk _ _).trans (ht.reserved hv)
    · intro u v y z hu hv hk
      exact ht.apart (update_none_eq_some hu).2 (update_none_eq_some hv).2 hk

end Reservations

end Lib
