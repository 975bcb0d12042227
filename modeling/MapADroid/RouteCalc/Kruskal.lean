import Mathlib.Algebra.Order.Monoid.WithTop
import MapADroid.Lib.Spanning
import MapADroid.RouteCalc.SpanningTree

/- The tree of `minimum_spanning_tree` is a lightest spanning tree.

   The loop meets the edges sorted by weight and takes those between two subtrees of the
   union-find. The subtrees are the components of the tree found so far (`Forest.Spans`),
   so what it takes keeps the tree acyclic, and it is a lightest edge between two
   components: all edges before it lie within one (`Forest.Lightest.add`). -/
namespace MapADroid.RouteCalc
open Lib Lib.Multigraph

variable {C K : Type} {graph : Graph K} {rep : Nat → Nat} {done : List (K ×ₗ Nat ×ₗ Nat)} {n : Nat}

/-- `e` is an edge of the graph, with its weight there. -/
def Graph.IsEdge (graph : Graph K) (e : Edge K) : Prop := ∃ w, graph.weight e.u e.v = some w ∧ e.weight = w

theorem isEdge_iff {e : Edge K} :
    graph.IsEdge e ↔ ∃ w : K, e.weight = w ∧ toLex (w, toLex (e.u, e.v)) ∈ graph.edges := by
  simp only [Graph.IsEdge, mem_edges, and_comm]

/-! ## One turn of the loop -/

/-- The subtrees are the components of the tree. -/
theorem Forest.Spans.reach_iff {forest : Forest K} (h : forest.Spans rep done) {x y : Nat} :
    Reach Edge.ends forest.tree x y ↔ rep x = rep y := by
  refine ⟨fun hreach => ?_, h.connected x y⟩
  induction hreach with
  | refl => rfl
  | tail _ hstep ih =>
    obtain ⟨e, he, hj⟩ := hstep
    obtain ⟨w, hw⟩ := h.fromDone e he
    have hends : rep e.u = rep e.v := h.together w e.u e.v hw
    rcases hj with hj | hj
    · obtain ⟨rfl, rfl⟩ := Prod.mk.inj hj
      exact ih.trans hends
    · obtain ⟨rfl, rfl⟩ := Prod.mk.inj hj
      exact ih.trans hends.symm

/-- The edge is taken if its ends are in different subtrees. -/
theorem Forest.add_tree {forest forest' : Forest K} (h : forest.subtrees.Represents rep) {w : K} {u v : Nat}
    (hadd : forest.add (toLex (w, toLex (u, v))) = some forest') :
    forest'.tree = if rep u = rep v then forest.tree else forest.tree ++ [⟨u, v, w⟩] := by
  obtain ⟨s₁, hu, h₁, _⟩ := h.getItem_represents u
  obtain ⟨s₂, hv, h₂, _⟩ := h₁.getItem_represents v
  by_cases heq : rep u = rep v
  · have hforest : (⟨forest.tree, s₂⟩ : Forest K) = forest' := by simpa [Forest.add, hu, hv, heq] using hadd
    rw [if_pos heq, ← hforest]
  · obtain ⟨s₃, rep', hunion, _, _⟩ := h₂.union_represents heq
    have hforest : (⟨forest.tree ++ [⟨u, v, w⟩], s₃⟩ : Forest K) = forest' := by
      simpa [Forest.add, hu, hv, heq, hunion] using hadd
    rw [if_neg heq, ← hforest]

theorem connects_of_complete {tree : List (Edge K)}
    (hreach : ∀ u v w, graph.weight u v = some w → Reach Edge.ends tree u v)
    (hcomplete : ∀ u v, u < n → v < n → u ≠ v → ∃ w, graph.weight u v = some w) :
    Connects Edge.ends (Finset.range n) tree := by
  intro u hu v hv
  by_cases heq : u = v
  · exact heq ▸ .refl
  · obtain ⟨w, hw⟩ := hcomplete u v (Finset.mem_range.mp hu) (Finset.mem_range.mp hv) heq
    exact hreach u v w hw

variable [LinearOrder K] [AddCommMonoid K]

/-- After the edges `done` of a graph on `n` vertices: the tree can grow to a lightest one. -/
structure Forest.Lightest (graph : Graph K) (n : Nat) (forest : Forest K) (rep : Nat → Nat)
    (done : List (K ×ₗ Nat ×ₗ Nat)) : Prop extends forest.Spans rep done where
  edges : ∀ e ∈ forest.tree, graph.IsEdge e
  acyclic : Acyclic Edge.ends forest.tree
  promising : Promising Edge.ends Edge.weight graph.IsEdge (Finset.range n) forest.tree

variable [IsOrderedAddMonoid K] {forest : Forest K}

namespace Forest.Lightest

/-- The next edge between two subtrees is as light as any other between two. -/
theorem add (h : forest.Lightest graph n rep done) {w : K} {u v : Nat} (hw : graph.weight u v = some w)
    (hu : u < n) (hv : v < n) (hmin : ∀ e, graph.IsEdge e → rep e.u ≠ rep e.v → (w : WithTop K) ≤ e.weight) :
    ∃ forest' rep', forest.add (toLex (w, toLex (u, v))) = some forest' ∧
      forest'.Lightest graph n rep' (done ++ [toLex (w, toLex (u, v))]) := by
  obtain ⟨forest', rep', hadd, hspans⟩ := h.toSpans.add w u v
  have htree := Forest.add_tree h.represents hadd
  refine ⟨forest', rep', hadd, { toSpans := hspans, edges := ?_, acyclic := ?_, promising := ?_ }⟩
  all_goals
    rw [htree]
    by_cases heq : rep u = rep v
  · rw [if_pos heq]
    exact h.edges
  · rw [if_neg heq]
    intro e he
    rcases List.mem_append.mp he with he | he
    · exact h.edges e he
    · obtain rfl := List.mem_singleton.mp he
      exact ⟨w, hw, rfl⟩
  · rw [if_pos heq]
    exact h.acyclic
  · rw [if_neg heq]
    exact h.acyclic.add (e := (⟨u, v, w⟩ : Edge K)) fun hreach => heq (h.reach_iff.mp hreach)
  · rw [if_pos heq]
    exact h.promising
  · rw [if_neg heq]
    apply h.promising.add (e := (⟨u, v, w⟩ : Edge K)) (Finset.mem_range.mpr hu) (Finset.mem_range.mpr hv)
    · exact fun hreach => heq (h.reach_iff.mp hreach)
    · intro e he hnot
      exact hmin e he fun hsame => hnot (h.reach_iff.mpr hsame)

theorem foldlM (edges : List (K ×ₗ Nat ×ₗ Nat)) (h : forest.Lightest graph n rep done)
    (hall : ∀ e, e ∈ done ++ edges ↔ e ∈ graph.edges) (hsorted : edges.Pairwise (· ≤ ·))
    (hn : ∀ {u v w}, graph.weight u v = some w → u < n ∧ v < n) :
    ∃ forest' rep', edges.foldlM Forest.add forest = some forest' ∧
      forest'.Lightest graph n rep' (done ++ edges) := by
  induction edges generalizing forest rep done with
  | nil => exact ⟨forest, rep, rfl, by simpa using h⟩
  | cons edge edges ih =>
    obtain ⟨hfirst, hrest⟩ := List.pairwise_cons.mp hsorted
    obtain ⟨w, u, v, rfl⟩ : ∃ w u v, edge = toLex (w, toLex (u, v)) := ⟨_, _, _, rfl⟩
    have hw : graph.weight u v = some w := mem_edges.mp ((hall _).mp (by simp))
    -- An edge between two subtrees is not done, and those to come are sorted.
    have hmin : ∀ e, graph.IsEdge e → rep e.u ≠ rep e.v → (w : WithTop K) ≤ e.weight := by
      intro e he hne
      obtain ⟨w', hweight, hmem⟩ := isEdge_iff.mp he
      rw [hweight, WithTop.coe_le_coe]
      rcases List.mem_append.mp ((hall _).mpr hmem) with hdone | hcoming
      · exact absurd (h.together _ _ _ hdone) hne
      · rcases List.mem_cons.mp hcoming with heq | hcoming
        · exact (congrArg (fun x => (ofLex x).1) heq).ge
        · exact Prod.Lex.monotone_fst _ _ (hfirst _ hcoming)
    obtain ⟨forest₁, rep₁, hadd, h₁⟩ := h.add hw (hn hw).1 (hn hw).2 hmin
    obtain ⟨forest', rep', hfold, h'⟩ := ih h₁ (by rwa [List.append_assoc]) hrest
    refine ⟨forest', rep', ?_, by simpa using h'⟩
    rw [List.foldlM_cons]
    exact Option.bind_eq_some_iff.mpr ⟨forest₁, hadd, hfold⟩

end Forest.Lightest

/-! ## The tree -/

/-- The tree of the graph on the points of `data` is a spanning tree, with one edge less than there are
points, and no spanning tree weighs less. -/
theorem minimumSpanningTree_lightest (getLength : C → C → C → C → K) (data : List (C × C)) (hdata : data ≠ []) :
    ∃ tree, minimumSpanningTree (buildGraph getLength data) = some tree ∧ tree.length + 1 = data.length ∧
      IsSpanningTree Edge.ends (buildGraph getLength data).IsEdge (Finset.range data.length) tree ∧
      ∀ T, IsSpanningTree Edge.ends (buildGraph getLength data).IsEdge (Finset.range data.length) T →
        (tree.map Edge.weight).sum ≤ (T.map Edge.weight).sum := by
  let graph := buildGraph getLength data
  have hn : ∀ {u v w}, graph.weight u v = some w → u < data.length ∧ v < data.length := fun hw =>
    (buildGraph_weight.mp hw).lt
  have hcomplete : ∀ u v, u < data.length → v < data.length → u ≠ v → ∃ w, graph.weight u v = some w := by
    intro u v hu hv hne
    obtain ⟨w, hw⟩ := exists_isLength getLength hu hv hne
    exact ⟨w, buildGraph_weight.mpr hw⟩
  have hstart : (⟨[], UnionFind.init⟩ : Forest K).Lightest graph data.length id [] := by
    refine ⟨⟨UnionFind.init_represents, ?_, by simp, by simp⟩, by simp, Acyclic.nil, Promising.nil⟩
    intro x y hxy
    obtain rfl : x = y := hxy
    exact .refl
  obtain ⟨forest, rep, hfold, h⟩ := hstart.foldlM (graph.edges.insertionSort (· ≤ ·)) (by simp)
    (List.pairwise_insertionSort _ _) hn
  have hspanning : IsSpanningTree Edge.ends graph.IsEdge (Finset.range data.length) forest.tree := by
    refine ⟨h.edges, h.acyclic, connects_of_complete ?_ hcomplete⟩
    intro u v w hw
    exact h.connected u v (h.together w u v (by simpa using mem_edges.mpr hw))
  have hlength : ∀ T, IsSpanningTree Edge.ends graph.IsEdge (Finset.range data.length) T →
      T.length + 1 = data.length := by
    intro T hT
    have hpos := List.length_pos_iff.mpr hdata
    rw [hT.length ⟨0, Finset.mem_range.mpr hpos⟩, Finset.card_range]
    intro e he
    obtain ⟨w, hw, _⟩ := he
    exact ⟨Finset.mem_range.mpr (hn hw).1, Finset.mem_range.mpr (hn hw).2⟩
  refine ⟨forest.tree, by simp [minimumSpanningTree, graph, hfold], hlength _ hspanning, hspanning, ?_⟩
  -- The tree is promising, and every other one has as many edges.
  intro T hT
  have htree := hlength _ hspanning
  have hother := hlength T hT
  exact h.promising.sum_le hT.edges hT.connected (by omega)

/-- Lengths along a grid. -/
def alongGrid (a b c d : Int) : Nat := (a - c).natAbs + (b - d).natAbs

def corners : List (Int × Int) := [(0, 0), (3, 0), (0, 3)]

theorem minimumSpanningTree_lightest_corners :
    ∃ tree, minimumSpanningTree (buildGraph alongGrid corners) = some tree ∧ tree.length + 1 = corners.length ∧
      IsSpanningTree Edge.ends (buildGraph alongGrid corners).IsEdge (Finset.range corners.length) tree ∧
      ∀ T, IsSpanningTree Edge.ends (buildGraph alongGrid corners).IsEdge (Finset.range corners.length) T →
        (tree.map Edge.weight).sum ≤ (T.map Edge.weight).sum :=
  minimumSpanningTree_lightest alongGrid corners (by simp [corners])

end MapADroid.RouteCalc
