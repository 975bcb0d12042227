import Mathlib.Algebra.Order.BigOperators.Group.List
import Mathlib.Data.Finset.Card
import MapADroid.Lib.Multigraph

/- Spanning trees of a multigraph, and the trees that grow to a lightest one.

   A list of edges is acyclic if none of them joins two vertices the others connect. With
   each of its edges there is a component less (`Acyclic.exists_rep`), so that a tree has
   one edge less than vertices (`IsSpanningTree.length`). A forest is promising if every
   tree can be replaced by one that has the forest in it and weighs no more. A lightest
   edge between two of its components keeps it so (`Promising.add`): it is exchanged for
   an edge of the tree that leads from one to the other. -/
namespace Lib.Multigraph

variable {ε α : Type} {ends : ε → α × α} {E E' R pre post : List ε} {e : ε} {a b : α}

/-! ## Paths with and without an edge -/

namespace Reach

theorem ends_of_mem (he : e ∈ E) : Reach ends E (ends e).1 (ends e).2 := .of_joins he (joins_ends e)

/-- A path can be walked on other edges if each of its steps can. -/
theorem subst (h : Reach ends E a b) (hE : ∀ e ∈ E, Reach ends E' (ends e).1 (ends e).2) : Reach ends E' a b := by
  induction h with
  | refl => exact .refl
  | tail _ hstep ih =>
    obtain ⟨e, he, hj⟩ := hstep
    have hends := hE e he
    rcases hj with hj | hj
    · rw [hj] at hends
      exact ih.trans hends
    · rw [hj] at hends
      exact ih.trans hends.symm

/-- Two vertices are connected without the edge `e`, or each of them is connected to one of its ends. -/
theorem without (h : Reach ends (pre ++ e :: post) a b) :
    Reach ends (pre ++ post) a b ∨
      ∃ x y, Joins ends e x y ∧ Reach ends (pre ++ post) a x ∧ Reach ends (pre ++ post) y b := by
  induction h with
  | refl => exact .inl .refl
  | @tail x y _ hstep ih =>
    obtain ⟨f, hf, hj⟩ := hstep
    have hf : f = e ∨ f ∈ pre ++ post := by
      simp only [List.mem_append, List.mem_cons] at hf ⊢
      tauto
    rcases ih with hax | ⟨x', y', hj', hax', hy'x⟩
    · rcases hf with rfl | hf
      · exact .inr ⟨x, y, hj, hax, .refl⟩
      · exact .inl (hax.trans (.of_joins hf hj))
    · rcases hf with rfl | hf
      · have hcases : x' = x ∧ y' = y ∨ x' = y ∧ y' = x := by
          unfold Joins at hj hj'
          grind
        rcases hcases with ⟨rfl, rfl⟩ | ⟨rfl, rfl⟩
        · exact .inr ⟨x', y', hj', hax', .refl⟩
        · exact .inl hax'
      · exact .inr ⟨x', y', hj', hax', hy'x.trans (.of_joins hf hj)⟩

/-- If the edges of `R` help to connect `a` and `b`, then an edge from `a` to `b` can stand
    for one of them that leads out of a component of `E`. -/
theorem exchange (h : Reach ends (E ++ R) a b) (hnot : ¬ Reach ends E a b) (he : Joins ends e a b) :
    ∃ pre f post, R = pre ++ f :: post ∧ ¬ Reach ends E (ends f).1 (ends f).2 ∧
      Reach ends ((E ++ [e]) ++ (pre ++ post)) (ends f).1 (ends f).2 := by
  induction R with
  | nil => exact absurd (by simpa using h) hnot
  | cons f R ih =>
    by_cases hR : Reach ends (E ++ R) a b
    · obtain ⟨pre, g, post, rfl, hg, hreach⟩ := ih hR
      refine ⟨f :: pre, g, post, rfl, hg, hreach.mono ?_⟩
      intro x hx
      simp only [List.mem_append, List.mem_cons] at hx ⊢
      tauto
    · -- Without `f` there is no path: it is the one to exchange.
      refine ⟨[], f, R, rfl, ?_, ?_⟩
      · intro hf
        apply hR
        apply h.subst
        intro g hg
        rcases List.mem_append.mp hg with hg | hg
        · exact .ends_of_mem (List.mem_append_left _ hg)
        · rcases List.mem_cons.mp hg with rfl | hg
          · exact hf.mono (List.subset_append_left _ _)
          · exact .ends_of_mem (List.mem_append_right _ hg)
      · obtain ⟨x, y, hj, hax, hyb⟩ := h.without.resolve_left hR
        have hsub : E ++ R ⊆ (E ++ [e]) ++ ([] ++ R) := by
          intro g hg
          simp only [List.nil_append, List.mem_append] at hg ⊢
          tauto
        have hab : Reach ends ((E ++ [e]) ++ ([] ++ R)) a b := .of_joins (by simp) he
        have hxy : Reach ends ((E ++ [e]) ++ ([] ++ R)) x y :=
          (hax.mono hsub).symm.trans (hab.trans (hyb.mono hsub).symm)
        rcases hj with hj | hj
        · rw [hj]
          exact hxy
        · rw [hj]
          exact hxy.symm

end Reach

/-! ## Trees -/

/-- No edge joins two vertices that the other edges connect. -/
def Acyclic (ends : ε → α × α) (E : List ε) : Prop :=
  ∀ pre e post, E = pre ++ e :: post → ¬ Reach ends (pre ++ post) (ends e).1 (ends e).2

namespace Acyclic

theorem nil : Acyclic ends ([] : List ε) := by
  intro pre e post h
  simp at h

theorem add (h : Acyclic ends E) (hnot : ¬ Reach ends E (ends e).1 (ends e).2) : Acyclic ends (E ++ [e]) := by
  intro pre f post heq hreach
  rcases List.eq_nil_or_concat post with rfl | ⟨post, g, rfl⟩
  · obtain ⟨rfl, hef⟩ := List.append_inj' heq rfl
    obtain rfl : e = f := by simpa using hef
    exact hnot (by simpa using hreach)
  · rw [List.concat_eq_append, ← List.cons_append, ← List.append_assoc] at heq
    obtain ⟨rfl, heg⟩ := List.append_inj' heq rfl
    obtain rfl : e = g := by simpa using heg
    rw [List.concat_eq_append, ← List.append_assoc] at hreach
    rcases hreach.without with hf | ⟨x, y, hj, hx, hy⟩
    · exact h pre f post rfl (by simpa using hf)
    · have hsub : pre ++ post ++ [] ⊆ pre ++ f :: post := by
        intro g hg
        simp only [List.append_nil, List.mem_append, List.mem_cons] at hg ⊢
        tauto
      have hf : Reach ends (pre ++ f :: post) (ends f).1 (ends f).2 := .ends_of_mem (by simp)
      have hxy : Reach ends (pre ++ f :: post) x y := (hx.mono hsub).symm.trans (hf.trans (hy.mono hsub).symm)
      rcases hj with hj | hj
      · rw [hj] at hnot
        exact hnot hxy
      · rw [hj] at hnot
        exact hnot hxy.symm

theorem of_add (h : Acyclic ends (E ++ [e])) : Acyclic ends E ∧ ¬ Reach ends E (ends e).1 (ends e).2 := by
  constructor
  · rintro pre f post rfl hreach
    apply h pre f (post ++ [e]) (by simp)
    apply hreach.mono
    rw [← List.append_assoc]
    exact List.subset_append_left _ _
  · simpa using h E e [] (by simp)

variable [DecidableEq α] {V : Finset α}

/-- The names of components, after the ends of an edge got the same one. -/
def merge (rep : α → α) (ends : ε → α × α) (e : ε) (x : α) : α :=
  if rep x = rep (ends e).1 then rep (ends e).2 else rep x

theorem merge_eq_iff {rep : α → α} (hrep : ∀ x y, rep x = rep y ↔ Reach ends E x y) (x y : α) :
    merge rep ends e x = merge rep ends e y ↔ Reach ends (E ++ [e]) x y := by
  have hold : ∀ {x y}, rep x = rep y → Reach ends (E ++ [e]) x y := fun heq =>
    ((hrep _ _).mp heq).mono (List.subset_append_left _ _)
  have he : Reach ends (E ++ [e]) (ends e).1 (ends e).2 := .ends_of_mem (by simp)
  unfold merge
  constructor
  · intro heq
    by_cases hx : rep x = rep (ends e).1 <;> by_cases hy : rep y = rep (ends e).1
    · exact hold (hx.trans hy.symm)
    · simp only [hx, hy, if_true, if_false] at heq
      exact (hold hx).trans (he.trans (hold heq))
    · simp only [hx, hy, if_true, if_false] at heq
      exact (hold heq).trans (he.symm.trans (hold hy.symm))
    · simp only [hx, hy, if_false] at heq
      exact hold heq
  · intro hreach
    rcases hreach.without with hxy | ⟨a, b, hj, hxa, hby⟩
    · have hxy : rep x = rep y := (hrep x y).mpr (by simpa using hxy)
      simp only [hxy]
    · -- The path uses the edge: its parts stay in the components of the ends.
      have hxa : rep x = rep a := (hrep x a).mpr (by simpa using hxa)
      have hby : rep b = rep y := (hrep b y).mpr (by simpa using hby)
      rcases hj with hj | hj <;> simp [hxa, ← hby, hj]

/-- The name of one component is given up. -/
theorem image_merge {rep : α → α} (hne : rep (ends e).1 ≠ rep (ends e).2) (hv : (ends e).2 ∈ V) :
    V.image (merge rep ends e) = (V.image rep).erase (rep (ends e).1) := by
  ext z
  simp only [Finset.mem_image, Finset.mem_erase, merge]
  constructor
  · rintro ⟨x, hx, rfl⟩
    split
    · exact ⟨hne.symm, (ends e).2, hv, rfl⟩
    · next hx' => exact ⟨hx', x, hx, rfl⟩
  · rintro ⟨hz, x, hx, rfl⟩
    exact ⟨x, hx, if_neg hz⟩

/-- The components of an acyclic graph can be named by vertices, and with each edge there is one less. -/
theorem exists_rep (h : Acyclic ends E) (hV : ∀ e ∈ E, (ends e).1 ∈ V ∧ (ends e).2 ∈ V) :
    ∃ rep : α → α, (∀ x y, rep x = rep y ↔ Reach ends E x y) ∧ (V.image rep).card + E.length = V.card := by
  induction E using List.reverseRecOn with
  | nil =>
    refine ⟨id, ?_, by simp⟩
    intro x y
    constructor
    · rintro rfl
      exact .refl
    · intro hxy
      induction hxy with
      | refl => rfl
      | tail _ hstep _ => simp at hstep
  | append_singleton E e ih =>
    obtain ⟨hacyclic, hnot⟩ := h.of_add
    obtain ⟨rep, hrep, hcard⟩ := ih hacyclic fun f hf => hV f (List.mem_append_left _ hf)
    obtain ⟨hu, hv⟩ := hV e (by simp)
    have hne : rep (ends e).1 ≠ rep (ends e).2 := fun heq => hnot ((hrep _ _).mp heq)
    refine ⟨merge rep ends e, merge_eq_iff hrep, ?_⟩
    have hmem : rep (ends e).1 ∈ V.image rep := Finset.mem_image_of_mem _ hu
    have hpos := Finset.card_pos.mpr ⟨_, hmem⟩
    rw [image_merge hne hv, Finset.card_erase_of_mem hmem, List.length_append, List.length_singleton]
    omega

end Acyclic

/-- The edges `E` connect the vertices `V`. -/
def Connects (ends : ε → α × α) (V : Finset α) (E : List ε) : Prop := ∀ a ∈ V, ∀ b ∈ V, Reach ends E a b

/-- `T` is a tree of edges of `G` that connects the vertices `V`. -/
structure IsSpanningTree (ends : ε → α × α) (G : ε → Prop) (V : Finset α) (T : List ε) : Prop where
  edges : ∀ e ∈ T, G e
  acyclic : Acyclic ends T
  connected : Connects ends V T

variable {G : ε → Prop} {V : Finset α} {T : List ε}

theorem IsSpanningTree.length [DecidableEq α] (h : IsSpanningTree ends G V T) (hV : V.Nonempty)
    (hG : ∀ e, G e → (ends e).1 ∈ V ∧ (ends e).2 ∈ V) : T.length + 1 = V.card := by
  obtain ⟨rep, hrep, hcard⟩ := h.acyclic.exists_rep fun e he => hG e (h.edges e he)
  obtain ⟨a, ha⟩ := hV
  have himage : V.image rep = {rep a} := by
    ext z
    rw [Finset.mem_image, Finset.mem_singleton]
    constructor
    · rintro ⟨x, hx, rfl⟩
      exact (hrep x a).mpr (h.connected x hx a ha)
    · rintro rfl
      exact ⟨a, ha, rfl⟩
  rw [himage, Finset.card_singleton] at hcard
  omega

/-! ## Lightest trees -/

section
variable {M : Type} [AddCommMonoid M] [PartialOrder M] {weight : ε → M}

/-- Whatever edges of `G` connect `V`, there are as many that do, weigh no more and have `E` among them. -/
def Promising (ends : ε → α × α) (weight : ε → M) (G : ε → Prop) (V : Finset α) (E : List ε) : Prop :=
  ∀ T, (∀ e ∈ T, G e) → Connects ends V T →
    ∃ R, (∀ e ∈ R, G e) ∧ Connects ends V (E ++ R) ∧ (E ++ R).length = T.length ∧
      ((E ++ R).map weight).sum ≤ (T.map weight).sum

namespace Promising

theorem nil : Promising ends weight G V [] := fun T hT hconn => ⟨T, hT, hconn, rfl, le_rfl⟩

/-- **The cut property**: a lightest of the edges that join two components can be added. -/
theorem add [IsOrderedAddMonoid M] (h : Promising ends weight G V E) (hu : (ends e).1 ∈ V) (hv : (ends e).2 ∈ V)
    (hnot : ¬ Reach ends E (ends e).1 (ends e).2)
    (hmin : ∀ f, G f → ¬ Reach ends E (ends f).1 (ends f).2 → weight e ≤ weight f) :
    Promising ends weight G V (E ++ [e]) := by
  intro T hT hconn
  obtain ⟨R, hR, hconnR, hlen, hsum⟩ := h T hT hconn
  obtain ⟨pre, f, post, rfl, hf, hreach⟩ := (hconnR _ hu _ hv).exchange hnot (joins_ends e)
  have hle : weight e ≤ weight f := hmin f (hR f (by simp)) hf
  refine ⟨pre ++ post, ?_, ?_, ?_, ?_⟩
  · intro g hg
    apply hR
    simp only [List.mem_append, List.mem_cons] at hg ⊢
    tauto
  · -- A path that used `f` goes around it on the edges left.
    intro a ha b hb
    apply (hconnR a ha b hb).subst
    intro g hg
    by_cases heq : g = f
    · exact heq ▸ hreach
    · apply Reach.ends_of_mem
      simp only [List.mem_append, List.mem_cons] at hg ⊢
      tauto
  · rw [← hlen]
    simp only [List.length_append, List.length_cons, List.length_nil]
    omega
  · calc ((E ++ [e] ++ (pre ++ post)).map weight).sum
        = weight e + ((E.map weight).sum + ((pre.map weight).sum + (post.map weight).sum)) := by
          simp only [List.map_append, List.sum_append, List.map_cons, List.map_nil, List.sum_cons, List.sum_nil,
            add_zero]
          ac_rfl
      _ ≤ weight f + ((E.map weight).sum + ((pre.map weight).sum + (post.map weight).sum)) := by
          gcongr
      _ = ((E ++ (pre ++ f :: post)).map weight).sum := by
          simp only [List.map_append, List.sum_append, List.map_cons, List.sum_cons]
          ac_rfl
      _ ≤ (T.map weight).sum := hsum

/-- A promising forest with as many edges as a tree weighs no more. -/
theorem sum_le (h : Promising ends weight G V E) (hT : ∀ e ∈ T, G e) (hconn : Connects ends V T)
    (hlen : T.length = E.length) : (E.map weight).sum ≤ (T.map weight).sum := by
  obtain ⟨R, _, _, hlenR, hsum⟩ := h T hT hconn
  have hR : R = [] := by
    rw [List.length_append, hlen] at hlenR
    exact List.length_eq_zero_iff.mp (by omega)
  rw [hR, List.append_nil] at hsum
  exact hsum

end Promising

end

end Lib.Multigraph
