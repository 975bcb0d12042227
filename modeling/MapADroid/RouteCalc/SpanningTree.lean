import MapADroid.RouteCalc.Quick

/- The graph of the quick route calculation, and the tree that spans it.

   `build_graph` weighs every pair of different points, and nothing else
   (`buildGraph_weight`). `Forest.Spans` is what the loop over the sorted edges keeps:
   the subtrees of the union-find are connected by edges of the tree, and the ends of
   every edge met so far are in one subtree. At its end the tree connects whatever an
   edge of the graph connects (`minimumSpanningTree_spans`). -/
namespace MapADroid.RouteCalc
open Lib Lib.Multigraph

variable {C K : Type} {graph : Graph K} {u v : Nat} {w : K}

/-! ## The graph -/

theorem setWeight_weight (graph : Graph K) (a b : Nat) (l : K) (u v : Nat) :
    (setWeight graph a b l).weight u v = if u = a ∧ v = b then some l else graph.weight u v := by
  unfold Graph.weight setWeight
  rw [Dict.get?_insert]
  by_cases hu : u = a
  · subst hu
    by_cases hv : v = b
    · simp [hv]
    · cases hrow : graph.get? u with
      | none => simp [hv, Dict.get?_insert]
      | some row => simp [hv, Dict.get?_insert]
  · simp [hu]

/-- `w` is the length from the point `u` to another point `v`. -/
def IsLength (getLength : C → C → C → C → K) (data : List (C × C)) (u v : Nat) (w : K) : Prop :=
  u ≠ v ∧ ∃ p q, data[u]? = some p ∧ data[v]? = some q ∧ w = getLength p.1 p.2 q.1 q.2

section
variable {getLength : C → C → C → C → K} {data : List (C × C)}

theorem IsLength.lt (h : IsLength getLength data u v w) : u < data.length ∧ v < data.length := by
  obtain ⟨_, p, q, hp, hq, _⟩ := h
  exact ⟨(List.getElem?_eq_some_iff.mp hp).1, (List.getElem?_eq_some_iff.mp hq).1⟩

theorem IsLength.unique {w' : K} (h : IsLength getLength data u v w) (h' : IsLength getLength data u v w') :
    w = w' := by
  obtain ⟨_, p, q, hp, hq, hw⟩ := h
  obtain ⟨_, p', q', hp', hq', hw'⟩ := h'
  obtain rfl : p = p' := Option.some.inj (hp.symm.trans hp')
  obtain rfl : q = q' := Option.some.inj (hq.symm.trans hq')
  exact hw.trans hw'.symm

theorem exists_isLength (getLength : C → C → C → C → K) (hu : u < data.length) (hv : v < data.length) (hne : u ≠ v) :
    ∃ w, IsLength getLength data u v w :=
  ⟨_, hne, data[u], data[v], List.getElem?_eq_getElem hu, List.getElem?_eq_getElem hv, rfl⟩

/-- One turn of the inner loop of `build_graph`, for the pair of indices it is at. -/
def buildStep (getLength : C → C → C → C → K) (data : List (C × C)) (graph : Graph K)
    (p : Fin data.length × Fin data.length) : Graph K :=
  if p.1 = p.2 then graph
  else setWeight graph p.1 p.2 (getLength data[p.1].1 data[p.1].2 data[p.2].1 data[p.2].2)

theorem buildGraph_eq_foldl : buildGraph getLength data =
    ((List.finRange data.length).flatMap fun i => (List.finRange data.length).map (i, ·)).foldl
      (buildStep getLength data) Dict.empty := by
  simp only [List.foldl_flatMap, List.foldl_map]
  rfl

theorem buildStep_sound {p : Fin data.length × Fin data.length}
    (h : ∀ u v w, graph.weight u v = some w → IsLength getLength data u v w) :
    ∀ u v w, (buildStep getLength data graph p).weight u v = some w → IsLength getLength data u v w := by
  intro u v w hw
  unfold buildStep at hw
  split at hw
  · exact h u v w hw
  · next hne =>
    rw [setWeight_weight] at hw
    split at hw
    · next huv =>
      obtain ⟨rfl, rfl⟩ := huv
      exact ⟨fun heq => hne (Fin.ext heq), data[p.1], data[p.2], by simp, by simp, (Option.some.inj hw).symm⟩
    · exact h u v w hw

theorem buildStep_isSome (p : Fin data.length × Fin data.length)
    (h : (graph.weight u v).isSome ∨ u ≠ v ∧ (p.1 : Nat) = u ∧ (p.2 : Nat) = v) :
    ((buildStep getLength data graph p).weight u v).isSome := by
  unfold buildStep
  split
  · next heq =>
    rcases h with h | ⟨hne, hu, hv⟩
    · exact h
    · exact absurd (hu.symm.trans ((congrArg Fin.val heq).trans hv)) hne
  · rw [setWeight_weight]
    split
    · rfl
    · next hne => exact h.resolve_right fun hp => hne ⟨hp.2.1.symm, hp.2.2.symm⟩

theorem foldl_buildStep (pairs : List (Fin data.length × Fin data.length)) (graph : Graph K)
    (h : ∀ u v w, graph.weight u v = some w → IsLength getLength data u v w) :
    (∀ u v w, (pairs.foldl (buildStep getLength data) graph).weight u v = some w → IsLength getLength data u v w) ∧
      ∀ u v, u ≠ v → ((graph.weight u v).isSome ∨ ∃ p ∈ pairs, (p.1 : Nat) = u ∧ (p.2 : Nat) = v) →
        ((pairs.foldl (buildStep getLength data) graph).weight u v).isSome := by
  induction pairs generalizing graph with
  | nil => exact ⟨h, fun u v _ hor => hor.resolve_right (by simp)⟩
  | cons p pairs ih =>
    obtain ⟨hsound, hall⟩ := ih (buildStep getLength data graph p) (buildStep_sound h)
    refine ⟨hsound, ?_⟩
    intro u v hne hor
    apply hall u v hne
    rcases hor with hsome | ⟨q, hq, huv⟩
    · exact .inl (buildStep_isSome p (.inl hsome))
    · rcases List.mem_cons.mp hq with hq | hq
      · exact .inl (buildStep_isSome p (.inr ⟨hne, hq ▸ huv⟩))
      · exact .inr ⟨q, hq, huv⟩

/-- **`build_graph` weighs the pairs of different points by their length.** -/
theorem buildGraph_weight :
    (buildGraph getLength data).weight u v = some w ↔ IsLength getLength data u v w := by
  have hempty : ∀ u v (w : K), Graph.weight Dict.empty u v = some w → IsLength getLength data u v w := by
    intro u v w h
    cases h
  obtain ⟨hsound, hall⟩ := foldl_buildStep
    ((List.finRange data.length).flatMap fun i => (List.finRange data.length).map (i, ·)) Dict.empty hempty
  rw [← buildGraph_eq_foldl] at hsound hall
  refine ⟨hsound u v w, fun h => ?_⟩
  obtain ⟨hu, hv⟩ := h.lt
  obtain ⟨w', hw'⟩ := Option.isSome_iff_exists.mp
    (hall u v h.1 (.inr ⟨(⟨u, hu⟩, ⟨v, hv⟩), by simp, rfl, rfl⟩))
  rw [hw', h.unique (hsound u v w' hw')]

end

/-! ## The spanning tree -/

theorem mem_edges : toLex (w, toLex (u, v)) ∈ graph.edges ↔ graph.weight u v = some w := by
  unfold Graph.edges Graph.weight
  constructor
  · intro h
    obtain ⟨row, hrow, hi⟩ := List.mem_flatMap.mp h
    obtain ⟨i, hmem, heq⟩ := List.mem_map.mp hi
    obtain ⟨rfl, hrest⟩ := Prod.mk.inj (toLex.injective heq)
    obtain ⟨rfl, rfl⟩ := Prod.mk.inj (toLex.injective hrest)
    exact Option.bind_eq_some_iff.mpr ⟨row.2, Dict.get?_eq_some_iff.mpr hrow, Dict.get?_eq_some_iff.mpr hmem⟩
  · intro h
    obtain ⟨row, hrow, hw⟩ := Option.bind_eq_some_iff.mp h
    exact List.mem_flatMap.mpr ⟨(u, row), Dict.get?_eq_some_iff.mp hrow,
      List.mem_map.mpr ⟨(v, w), Dict.get?_eq_some_iff.mp hw, rfl⟩⟩

/-- After the edges `done`: `rep` names the subtrees, which edges of the tree connect. -/
structure Forest.Spans (forest : Forest K) (rep : Nat → Nat) (done : List (K ×ₗ Nat ×ₗ Nat)) : Prop where
  represents : forest.subtrees.Represents rep
  connected : ∀ x y, rep x = rep y → Reach Edge.ends forest.tree x y
  together : ∀ w u v, toLex (w, toLex (u, v)) ∈ done → rep u = rep v
  fromDone : ∀ e ∈ forest.tree, ∃ w, toLex (w, toLex (e.u, e.v)) ∈ done

variable {forest : Forest K} {rep : Nat → Nat} {done : List (K ×ₗ Nat ×ₗ Nat)}

/-- What holds of the ends of the edges met so far and of the next one. -/
theorem forall_ends_append {P : Nat → Nat → Prop} (h : ∀ w u v, toLex (w, toLex (u, v)) ∈ done → P u v)
    (huv : P u v) : ∀ w' x y, toLex (w', toLex (x, y)) ∈ done ++ [toLex (w, toLex (u, v))] → P x y := by
  intro w' x y hmem
  rcases List.mem_append.mp hmem with hmem | hmem
  · exact h w' x y hmem
  · obtain ⟨_, hrest⟩ := Prod.mk.inj (toLex.injective (List.mem_singleton.mp hmem))
    obtain ⟨rfl, rfl⟩ := Prod.mk.inj (toLex.injective hrest)
    exact huv

theorem Forest.Spans.add (h : forest.Spans rep done) (w : K) (u v : Nat) :
    ∃ forest' rep', forest.add (toLex (w, toLex (u, v))) = some forest' ∧
      forest'.Spans rep' (done ++ [toLex (w, toLex (u, v))]) := by
  obtain ⟨s₁, hu, h₁, _⟩ := h.represents.getItem_represents u
  obtain ⟨s₂, hv, h₂, _⟩ := h₁.getItem_represents v
  have hfromDone : ∀ e ∈ forest.tree, ∃ w', toLex (w', toLex (e.u, e.v)) ∈ done ++ [toLex (w, toLex (u, v))] := by
    intro e he
    obtain ⟨w', hw'⟩ := h.fromDone e he
    exact ⟨w', List.mem_append_left _ hw'⟩
  by_cases heq : rep u = rep v
  · exact ⟨⟨forest.tree, s₂⟩, rep, by simp [Forest.add, hu, hv, heq], h₂, h.connected,
      forall_ends_append h.together heq, hfromDone⟩
  · obtain ⟨s₃, rep', hunion, h₃, hrep'⟩ := h₂.union_represents heq
    refine ⟨⟨forest.tree ++ [⟨u, v, w⟩], s₃⟩, rep', by simp [Forest.add, hu, hv, heq, hunion], h₃, ?_, ?_, ?_⟩
    · intro x y hxy
      have hold : ∀ {a b}, rep a = rep b → Reach Edge.ends (forest.tree ++ [⟨u, v, w⟩]) a b := fun hab =>
        (h.connected _ _ hab).mono (List.subset_append_left _ _)
      have huv : Reach Edge.ends (forest.tree ++ [⟨u, v, w⟩]) u v :=
        .of_joins (List.mem_append_right _ (List.mem_singleton_self (⟨u, v, w⟩ : Edge K))) (.inl rfl)
      rcases (hrep' x y).mp hxy with hsame | ⟨hx, hy⟩ | ⟨hx, hy⟩
      · exact hold hsame
      · exact (hold hx).trans (huv.trans (hold hy.symm))
      · exact (hold hx).trans (huv.symm.trans (hold hy.symm))
    · apply forall_ends_append
      · intro w' x y hmem
        exact (hrep' x y).mpr (.inl (h.together w' x y hmem))
      · exact (hrep' u v).mpr (.inr (.inl ⟨rfl, rfl⟩))
    · intro e he
      rcases List.mem_append.mp he with he | he
      · exact hfromDone e he
      · obtain rfl := List.mem_singleton.mp he
        exact ⟨w, by simp⟩

theorem Forest.Spans.foldlM (edges : List (K ×ₗ Nat ×ₗ Nat)) (h : forest.Spans rep done) :
    ∃ forest' rep', edges.foldlM Forest.add forest = some forest' ∧ forest'.Spans rep' (done ++ edges) := by
  induction edges generalizing forest rep done with
  | nil => exact ⟨forest, rep, rfl, by simpa using h⟩
  | cons edge edges ih =>
    obtain ⟨forest₁, rep₁, hadd, h₁⟩ := h.add (ofLex edge).1 (ofLex (ofLex edge).2).1 (ofLex (ofLex edge).2).2
    obtain ⟨forest', rep', hfold, h'⟩ := ih h₁
    refine ⟨forest', rep', ?_, by simpa using h'⟩
    rw [List.foldlM_cons]
    exact Option.bind_eq_some_iff.mpr ⟨forest₁, hadd, hfold⟩

variable [LinearOrder K]

/-- **The tree spans the graph**: its edges are edges of the graph, and it connects the ends
    of every edge of the graph. -/
theorem minimumSpanningTree_spans (graph : Graph K) :
    ∃ tree, minimumSpanningTree graph = some tree ∧
      (∀ e ∈ tree, ∃ w, graph.weight e.u e.v = some w) ∧
      ∀ u v w, graph.weight u v = some w → Reach Edge.ends tree u v := by
  have hstart : Forest.Spans (⟨[], UnionFind.init⟩ : Forest K) id [] := by
    refine ⟨UnionFind.init_represents, ?_, by simp, by simp⟩
    intro x y hxy
    obtain rfl : x = y := hxy
    exact .refl
  obtain ⟨forest, rep, hfold, hspans⟩ := hstart.foldlM (graph.edges.insertionSort (· ≤ ·))
  have hmem : ∀ {e}, e ∈ [] ++ graph.edges.insertionSort (· ≤ ·) ↔ e ∈ graph.edges := by simp
  refine ⟨forest.tree, by simp [minimumSpanningTree, hfold], ?_, ?_⟩
  · intro e he
    obtain ⟨w, hw⟩ := hspans.fromDone e he
    exact ⟨w, mem_edges.mp (hmem.mp hw)⟩
  · intro u v w hw
    exact hspans.connected u v (hspans.together w u v (hmem.mpr (mem_edges.mpr hw)))

end MapADroid.RouteCalc
