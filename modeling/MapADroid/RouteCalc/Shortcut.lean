import Mathlib.Analysis.Complex.Norm
import MapADroid.RouteCalc.Circuit
import MapADroid.RouteCalc.Kruskal
import MapADroid.RouteCalc.Tsp

/- How long the route of the quick calculation is.

   With the matching every vertex has an even number of edges
   (`even_degree_matched`), so the tour walks along the edges of the tree and the matching,
   each at most once (`legs_findEulerianTour`). The route leaves out of the tour what it has
   met before (`Visit.next_sublist`), and where the triangle inequality holds that makes it
   no longer: it is at most as long as the tree and the matching together
   (`tsp_le_matched`). -/
namespace MapADroid.RouteCalc
open Lib Lib.Multigraph

variable {C K : Type}

/-! ## The edges of the matching -/

section
variable [LinearOrder K] {graph : Graph K} {mst matched : List (Edge K)} {oddVert : List Nat} {vertex : Nat}

/-- One turn of the loop of `minimum_weight_matching`. -/
theorem minimumWeightMatching_turn (h : minimumWeightMatching graph mst (oddVert ++ [vertex]) = some matched) :
    ∃ length closest, oddVert.foldlM (closer graph vertex) (⊤, 0) = some (length, closest) ∧ closest ∈ oddVert ∧
      minimumWeightMatching graph (mst ++ [⟨vertex, closest, length⟩]) (oddVert.erase closest) = some matched := by
  rw [minimumWeightMatching_concat] at h
  obtain ⟨⟨length, closest⟩, hfold, h⟩ := Option.bind_eq_some_iff.mp h
  simp only at h
  split at h
  · next hmem => exact ⟨length, closest, hfold, hmem, h⟩
  · cases h

/-- The matching gives each of the vertexes one more edge. -/
theorem degree_minimumWeightMatching (h : minimumWeightMatching graph mst oddVert = some matched) (v : Nat) :
    degree Edge.ends matched v = degree Edge.ends mst v + oddVert.count v := by
  induction hn : oddVert.length using Nat.strong_induction_on generalizing mst oddVert with
  | _ n ih =>
    rcases List.eq_nil_or_concat oddVert with hnil | ⟨rest, vertex, hconcat⟩
    · subst hnil
      rw [minimumWeightMatching, Option.some.injEq] at h
      rw [h, List.count_nil, Nat.add_zero]
    · rw [List.concat_eq_append] at hconcat
      subst hconcat
      obtain ⟨length, closest, _, hclosest, hturn⟩ := minimumWeightMatching_turn h
      rw [List.length_append, List.length_singleton] at hn
      have hshorter : (rest.erase closest).length < n := by
        have hle := List.length_erase_le (a := closest) (l := rest)
        omega
      have hcount : rest.count v = (rest.erase closest).count v + if closest = v then 1 else 0 := by
        rw [(List.perm_cons_erase hclosest).count_eq, List.count_cons]
        simp only [beq_iff_eq]
      have hdegree : degree Edge.ends (mst ++ [⟨vertex, closest, length⟩]) v =
          degree Edge.ends mst v + ((if vertex = v then 1 else 0) + if closest = v then 1 else 0) := by
        have hsingle : degree Edge.ends [(⟨vertex, closest, length⟩ : Edge K)] v =
            (if vertex = v then 1 else 0) + if closest = v then 1 else 0 := by
          rw [degree_cons, degree_nil, Nat.zero_add, Edge.ends]
        rw [← hsingle]
        simp only [degree, List.countP_append]
        omega
      rw [ih _ hshorter hturn rfl, hdegree, List.count_append, hcount, List.count_singleton]
      simp only [beq_iff_eq]
      omega

theorem closer_weight {best next : WithTop K × Nat} {x : Nat} (h : closer graph vertex best x = some next)
    (hbest : vertex = x → ∃ w, graph.weight vertex best.2 = some w ∧ best.1 = w)
    (htop : best.1 = ⊤ ∨ ∃ w, graph.weight vertex best.2 = some w ∧ best.1 = w) :
    ∃ w, graph.weight vertex next.2 = some w ∧ next.1 = w := by
  by_cases hx : vertex = x
  · rw [closer, if_pos hx, Option.some.injEq] at h
    exact h ▸ hbest hx
  · rw [closer, if_neg hx] at h
    obtain ⟨w, hw, h⟩ := Option.bind_eq_some_iff.mp h
    split at h
    · rw [Option.some.injEq] at h
      exact h ▸ ⟨w, hw, rfl⟩
    · next hlt =>
      rw [Option.some.injEq] at h
      rcases htop with htop | hold
      · rw [htop] at hlt
        exact absurd (WithTop.coe_lt_top w) hlt
      · exact h ▸ hold

/-- The length found is that of the edge to the vertex found. -/
theorem foldlM_closer_weight {length : WithTop K} {closest : Nat}
    (h : oddVert.foldlM (closer graph vertex) (⊤, 0) = some (length, closest)) (hvertex : vertex ∉ oddVert)
    (hne : oddVert ≠ []) : ∃ w, graph.weight vertex closest = some w ∧ length = w := by
  have hrest : ∀ (l : List Nat) (best best' : WithTop K × Nat), l.foldlM (closer graph vertex) best = some best' →
      (∃ w, graph.weight vertex best.2 = some w ∧ best.1 = w) →
      ∃ w, graph.weight vertex best'.2 = some w ∧ best'.1 = w := by
    intro l
    induction l with
    | nil =>
      intro best best' hfold hbest
      cases hfold
      exact hbest
    | cons x l ih =>
      intro best best' hfold hbest
      obtain ⟨next, hnext, hfold⟩ := Option.bind_eq_some_iff.mp hfold
      exact ih next best' hfold (closer_weight hnext (fun _ => hbest) (.inr hbest))
  obtain ⟨x, l, rfl⟩ := List.exists_cons_of_ne_nil hne
  obtain ⟨next, hnext, hfold⟩ := Option.bind_eq_some_iff.mp h
  have hx : vertex ≠ x := fun heq => hvertex (heq ▸ List.mem_cons_self)
  exact hrest l next _ hfold (closer_weight hnext (fun heq => absurd heq hx) (.inl rfl))

theorem isEdge_minimumWeightMatching (h : minimumWeightMatching graph mst oddVert = some matched)
    (hnodup : oddVert.Nodup) (hmst : ∀ e ∈ mst, graph.IsEdge e) : ∀ e ∈ matched, graph.IsEdge e := by
  induction hn : oddVert.length using Nat.strong_induction_on generalizing mst oddVert with
  | _ n ih =>
    rcases List.eq_nil_or_concat oddVert with hnil | ⟨rest, vertex, hconcat⟩
    · subst hnil
      rw [minimumWeightMatching, Option.some.injEq] at h
      exact h ▸ hmst
    · rw [List.concat_eq_append] at hconcat
      subst hconcat
      obtain ⟨hrest, _, hdisjoint⟩ := List.nodup_append.mp hnodup
      have hvertex : vertex ∉ rest := fun hmem => hdisjoint vertex hmem vertex (by simp) rfl
      obtain ⟨length, closest, hfold, hclosest, hturn⟩ := minimumWeightMatching_turn h
      rw [List.length_append, List.length_singleton] at hn
      have hshorter : (rest.erase closest).length < n := by
        have hle := List.length_erase_le (a := closest) (l := rest)
        omega
      apply ih _ hshorter hturn (hrest.erase closest) ?_ rfl
      intro e he
      rcases List.mem_append.mp he with he | he
      · exact hmst e he
      · obtain rfl := List.mem_singleton.mp he
        exact foldlM_closer_weight hfold hvertex (List.ne_nil_of_mem hclosest)

/-- What is added to the tree is an edge of the graph. -/
theorem isEdge_minimumSpanningTree {tree : List (Edge K)} (h : minimumSpanningTree graph = some tree) :
    ∀ e ∈ tree, graph.IsEdge e := by
  have hfold : ∀ (edges : List (K ×ₗ Nat ×ₗ Nat)) (forest forest' : Forest K),
      edges.foldlM Forest.add forest = some forest' → (∀ e ∈ edges, e ∈ graph.edges) →
      (∀ e ∈ forest.tree, graph.IsEdge e) → ∀ e ∈ forest'.tree, graph.IsEdge e := by
    intro edges
    induction edges with
    | nil =>
      intro forest forest' hfold _ hforest
      cases hfold
      exact hforest
    | cons edge edges ih =>
      intro forest forest' hfold hedges hforest
      obtain ⟨next, hadd, hfold⟩ := Option.bind_eq_some_iff.mp hfold
      refine ih next forest' hfold (fun e he => hedges e (List.mem_cons_of_mem edge he)) ?_
      obtain ⟨⟨rootU, s₁⟩, _, hadd⟩ := Option.bind_eq_some_iff.mp hadd
      obtain ⟨⟨rootV, s₂⟩, _, hadd⟩ := Option.bind_eq_some_iff.mp hadd
      simp only at hadd
      split at hadd
      · cases hadd
        exact hforest
      · obtain ⟨s₃, _, hadd⟩ := Option.bind_eq_some_iff.mp hadd
        cases hadd
        intro e he
        rcases List.mem_append.mp he with he | he
        · exact hforest e he
        · obtain rfl := List.mem_singleton.mp he
          exact ⟨(ofLex edge).1, mem_edges.mp (hedges edge List.mem_cons_self), rfl⟩
  obtain ⟨forest, hforest, h⟩ := Option.bind_eq_some_iff.mp h
  cases h
  exact hfold _ _ forest hforest (fun e he => (List.mem_insertionSort (r := (· ≤ ·))).mp he) (by simp)

/-- **The vertexes of the tree and the matching are even.** -/
theorem even_degree_matched {tree : List (Edge K)} {shuffle : List Nat → List Nat} (hshuffle : ∀ l, (shuffle l).Perm l)
    (h : minimumWeightMatching graph tree (shuffle (findOddVertexes tree)) = some matched) (v : Nat) :
    Even (degree Edge.ends matched v) := by
  rw [degree_minimumWeightMatching h, (hshuffle _).count_eq]
  by_cases hodd : Odd (degree Edge.ends tree v)
  · rw [List.count_eq_one_of_mem (findOddVertexes_nodup tree) (mem_findOddVertexes.mpr hodd)]
    exact hodd.add_one
  · rw [List.count_eq_zero_of_not_mem (mt mem_findOddVertexes.mp hodd), Nat.add_zero]
    exact Nat.not_odd_iff_even.mp hodd

end

/-! ## The route -/

section
variable [Add K] {graph : Graph K}

/-- The loop over the tour takes some of its vertexes, in their order. -/
theorem Visit.next_sublist {tour : List Nat} {s s' : Visit K} (h : tour.foldlM (Visit.next graph) s = some s') :
    ∃ taken, s'.path = s.path ++ taken ∧ taken.Sublist tour := by
  induction tour generalizing s with
  | nil =>
    cases h
    exact ⟨[], by simp, .slnil⟩
  | cons node tour ih =>
    obtain ⟨s₁, hnext, h⟩ := Option.bind_eq_some_iff.mp h
    obtain ⟨taken, hpath, hsub⟩ := ih h
    obtain ⟨seen, _, hnext⟩ := Option.bind_eq_some_iff.mp hnext
    split at hnext
    · cases hnext
      exact ⟨taken, hpath, hsub.cons node⟩
    · obtain ⟨w, _, hnext⟩ := Option.bind_eq_some_iff.mp hnext
      cases hnext
      exact ⟨node :: taken, by simp [hpath], hsub.cons_cons node⟩

end

/-- Lengths are never negative, the same both ways, and no way over a third point is shorter. -/
structure IsMetric [AddCommMonoid K] [LE K] (getLength : C → C → C → C → K) : Prop where
  nonneg : ∀ x₁ y₁ x₂ y₂, 0 ≤ getLength x₁ y₁ x₂ y₂
  symm : ∀ x₁ y₁ x₂ y₂, getLength x₁ y₁ x₂ y₂ = getLength x₂ y₂ x₁ y₁
  triangle : ∀ x₁ y₁ x₂ y₂ x₃ y₃,
    getLength x₁ y₁ x₃ y₃ ≤ getLength x₁ y₁ x₂ y₂ + getLength x₂ y₂ x₃ y₃

section
variable [AddCommMonoid K]

/-- The length from one point of `data` to another, where there are both. -/
def lengthBetween (getLength : C → C → C → C → K) (data : List (C × C)) (u v : Nat) : K :=
  match data[u]?, data[v]? with
  | some p, some q => getLength p.1 p.2 q.1 q.2
  | _, _ => 0

variable {getLength : C → C → C → C → K} {data : List (C × C)} {u v : Nat}

theorem lengthBetween_eq {p q : C × C} (hp : data[u]? = some p) (hq : data[v]? = some q) :
    lengthBetween getLength data u v = getLength p.1 p.2 q.1 q.2 := by
  rw [lengthBetween, hp, hq]

theorem IsLength.eq_lengthBetween {w : K} (h : IsLength getLength data u v w) : w = lengthBetween getLength data u v := by
  obtain ⟨_, p, q, hp, hq, hw⟩ := h
  rw [hw, lengthBetween_eq hp hq]

/-- The length `tsp` returns is that of the walk. -/
theorem SumsLegs.eq_walkLength {path : List Nat} {length : K} (h : SumsLegs (IsLength getLength data) path length) :
    length = walkLength (lengthBetween getLength data) path := by
  obtain ⟨ws, hlegs, rfl⟩ := h
  rw [← List.sum_eq_foldl, walkLength, legs]
  congr 1
  generalize path.zip path.tail = l at hlegs
  induction hlegs with
  | nil => rfl
  | cons hleg _ ih => rw [List.map_cons, ← hleg.eq_lengthBetween, ← ih]

theorem sum_weight {matched : List (Edge K)} (h : ∀ e ∈ matched, (buildGraph getLength data).IsEdge e) :
    (matched.map Edge.weight).sum = ((matched.map fun e => lengthBetween getLength data e.u e.v).sum : K) := by
  induction matched with
  | nil => rfl
  | cons e matched ih =>
    obtain ⟨w, hw, hweight⟩ := h e List.mem_cons_self
    have hlength := (buildGraph_weight.mp hw).eq_lengthBetween
    rw [List.map_cons, List.map_cons, List.sum_cons, List.sum_cons, ih fun f hf => h f (List.mem_cons_of_mem e hf),
      hweight, hlength, WithTop.coe_add]

variable [LinearOrder K] [IsOrderedAddMonoid K]

/-- For any lengths with a triangle inequality. -/
theorem tsp_le (hmetric : IsMetric getLength) {shuffle : List Nat → List Nat} (hn : 2 ≤ data.length)
    (hshuffle : ∀ l, (shuffle l).Perm l) :
    ∃ length path tree matched, tsp getLength shuffle data = some (length, path) ∧
      minimumSpanningTree (buildGraph getLength data) = some tree ∧
      minimumWeightMatching (buildGraph getLength data) tree (shuffle (findOddVertexes tree)) = some matched ∧
      (length : WithTop K) ≤ (matched.map Edge.weight).sum := by
  obtain ⟨tree, matched, htree, hmatched, hconnects⟩ := exists_matched getLength data hshuffle
  obtain ⟨ep, hep, hall⟩ := findEulerianTour_visits hconnects hn
  obtain ⟨current, rest, rfl⟩ : ∃ current rest, ep = current :: rest :=
    List.exists_cons_of_ne_nil (List.ne_nil_of_mem ((hall 0).mpr (by omega)))
  have hcurrent : current < data.length := (hall current).mp List.mem_cons_self
  have hroom : data.length ≤ (current :: rest).length := by
    have hsub : (List.range data.length).Subperm (current :: rest) :=
      List.subperm_of_subset List.nodup_range fun v hv => (hall v).mpr (List.mem_range.mp hv)
    simpa using hsub.length_le
  have hlt : current < (current :: rest).length := hcurrent.trans_le hroom
  obtain ⟨s, hfold, hs⟩ := (start_visit getLength hcurrent hroom).foldlM rest
    fun v hv => (hall v).mp (List.mem_cons_of_mem current hv)
  refine ⟨s.length, s.path, tree, matched, ?_, htree, hmatched, ?_⟩
  · simp only [tsp, htree, hmatched, hep, Option.bind_eq_bind, Option.bind_some, List.head?_cons, List.tail_cons,
      List.length_replicate, if_pos hlt, hfold]
  have hedges : ∀ e ∈ matched, (buildGraph getLength data).IsEdge e :=
    isEdge_minimumWeightMatching hmatched ((hshuffle _).nodup_iff.mpr (findOddVertexes_nodup tree))
      (isEdge_minimumSpanningTree htree)
  obtain ⟨taken, hpath, hsub⟩ := Visit.next_sublist hfold
  have hsublist : s.path.Sublist (current :: rest) := by
    rw [hpath, List.singleton_append]
    exact hsub.cons_cons current
  have hpoint : ∀ v < data.length, ∃ p, data[v]? = some p := fun v hv => ⟨data[v], List.getElem?_eq_getElem hv⟩
  have hnonneg : ∀ a b, a < data.length → b < data.length → 0 ≤ lengthBetween getLength data a b := by
    intro a b ha hb
    obtain ⟨p, hp⟩ := hpoint a ha
    obtain ⟨q, hq⟩ := hpoint b hb
    rw [lengthBetween_eq hp hq]
    exact hmetric.nonneg _ _ _ _
  have htriangle : ∀ a b c, a < data.length → b < data.length → c < data.length → lengthBetween getLength data a c ≤
      lengthBetween getLength data a b + lengthBetween getLength data b c := by
    intro a b c ha hb hc
    obtain ⟨p, hp⟩ := hpoint a ha
    obtain ⟨q, hq⟩ := hpoint b hb
    obtain ⟨r, hr⟩ := hpoint c hc
    rw [lengthBetween_eq hp hr, lengthBetween_eq hp hq, lengthBetween_eq hq hr]
    exact hmetric.triangle _ _ _ _ _ _
  have hsymm : ∀ a b, lengthBetween getLength data a b = lengthBetween getLength data b a := by
    intro a b
    unfold lengthBetween
    cases data[a]? <;> cases data[b]? <;> simp [hmetric.symm]
  rw [sum_weight hedges, WithTop.coe_le_coe, hs.length.eq_walkLength]
  calc walkLength (lengthBetween getLength data) s.path
      ≤ walkLength (lengthBetween getLength data) (current :: rest) :=
        walkLength_sublist hnonneg htriangle hsublist fun v hv => (hall v).mp hv
    _ ≤ (matched.map fun e => lengthBetween getLength data e.u e.v).sum := by
        have hlegs := legs_findEulerianTour hconnects hn (even_degree_matched hshuffle hmatched) hep
        exact walkLength_le_sum hsymm (fun e he => hnonneg _ _ (hconnects.lt e he).1 (hconnects.lt e he).2) hlegs

end

/-! ## Lengths in the plane -/

/-- `get_length`. -/
noncomputable def getLength (x₁ y₁ x₂ y₂ : ℝ) : ℝ := √((x₁ - x₂) ^ 2 + (y₁ - y₂) ^ 2)

theorem getLength_eq_norm (x₁ y₁ x₂ y₂ : ℝ) : getLength x₁ y₁ x₂ y₂ = ‖(⟨x₁, y₁⟩ : ℂ) - ⟨x₂, y₂⟩‖ := by
  rw [← Complex.dist_eq, Complex.dist_mk]
  rfl

theorem isMetric_getLength : IsMetric getLength where
  nonneg _ _ _ _ := Real.sqrt_nonneg _
  symm x₁ y₁ x₂ y₂ := by
    rw [getLength_eq_norm, getLength_eq_norm, norm_sub_rev]
  triangle x₁ y₁ x₂ y₂ x₃ y₃ := by
    simp only [getLength_eq_norm]
    exact norm_sub_le_norm_sub_add_norm_sub _ _ _

/-- **The quick route is at most as long as the tree and the matching**: for two points or more of the plane and
    however the odd vertexes are shuffled, its length is at most that of the edges of the minimum spanning tree and of
    the matching of its odd vertexes together. -/
theorem tsp_le_matched (shuffle : List Nat → List Nat) (data : List (ℝ × ℝ)) (hn : 2 ≤ data.length)
    (hshuffle : ∀ l, (shuffle l).Perm l) :
    ∃ length path tree matched, tsp getLength shuffle data = some (length, path) ∧
      minimumSpanningTree (buildGraph getLength data) = some tree ∧
      minimumWeightMatching (buildGraph getLength data) tree (shuffle (findOddVertexes tree)) = some matched ∧
      (length : WithTop ℝ) ≤ (matched.map Edge.weight).sum :=
  tsp_le isMetric_getLength hn hshuffle

/-- The corners of a rectangle, and a point met twice. -/
theorem tsp_le_matched_corners :
    ∃ length path tree matched,
      tsp getLength List.reverse [(0, 0), (3, 0), (3, 4), (0, 4), (3, 4)] = some (length, path) ∧
      minimumSpanningTree (buildGraph getLength [(0, 0), (3, 0), (3, 4), (0, 4), (3, 4)]) = some tree ∧
      minimumWeightMatching (buildGraph getLength [(0, 0), (3, 0), (3, 4), (0, 4), (3, 4)]) tree
        (List.reverse (findOddVertexes tree)) = some matched ∧
      (length : WithTop ℝ) ≤ (matched.map Edge.weight).sum :=
  tsp_le_matched List.reverse _ (by simp) List.reverse_perm

end MapADroid.RouteCalc
