import Mathlib.Data.List.Forall2
import Mathlib.Data.List.Perm.Subperm
import MapADroid.RouteCalc.Tour

/- The route of the quick calculation visits every point once.

   The loop over the tour takes a vertex when it meets it first (`Visit.Sound`). With the
   tree spanning all points, the matching of its odd vertexes and the tour of both, the
   route is a permutation of the points whose length is the sum of its legs
   (`tsp_visits_once`). -/
namespace MapADroid.RouteCalc
open Lib Lib.Multigraph

variable {C K : Type}

/-! ## The length of a route -/

/-- `length` sums up the weights of the legs of `path`, from its first to its last. -/
def SumsLegs [Add K] [Zero K] (weighs : Nat → Nat → K → Prop) (path : List Nat) (length : K) : Prop :=
  ∃ ws, List.Forall₂ (fun leg w => weighs leg.1 leg.2 w) (path.zip path.tail) ws ∧ length = ws.foldl (· + ·) 0

theorem zip_tail_concat {path : List Nat} {current : Nat} (h : path.getLast? = some current) (node : Nat) :
    (path ++ [node]).zip (path ++ [node]).tail = path.zip path.tail ++ [(current, node)] := by
  induction path with
  | nil => cases h
  | cons x path ih =>
    cases path with
    | nil =>
      rw [List.getLast?_singleton, Option.some.injEq] at h
      simp [h]
    | cons y path =>
      rw [List.getLast?_cons_cons] at h
      simpa using ih h

theorem SumsLegs.concat [Add K] [Zero K] {weighs : Nat → Nat → K → Prop} {path : List Nat} {length w : K}
    {current node : Nat} (h : SumsLegs weighs path length) (hlast : path.getLast? = some current)
    (hw : weighs current node w) : SumsLegs weighs (path ++ [node]) (length + w) := by
  obtain ⟨ws, hlegs, rfl⟩ := h
  refine ⟨ws ++ [w], ?_, by simp⟩
  rw [zip_tail_concat hlast]
  exact List.rel_append hlegs (.cons hw .nil)

/-! ## The loop over the tour -/

section
variable [Add K] [Zero K] {getLength : C → C → C → C → K} {data : List (C × C)}

/-- After the vertexes `met` of the tour. -/
structure Visit.Sound (getLength : C → C → C → C → K) (data : List (C × C)) (met : List Nat) (s : Visit K) :
    Prop where
  room : data.length ≤ s.visited.length
  visited : ∀ v < data.length, s.visited[v]? = some (decide (v ∈ s.path))
  nodup : s.path.Nodup
  path_lt : ∀ v ∈ s.path, v < data.length
  met : ∀ v, v ∈ s.path ↔ v ∈ met
  current : s.path.getLast? = some s.current
  length : SumsLegs (IsLength getLength data) s.path s.length

variable {s : Visit K} {met : List Nat}

/-- Before the loop, where the tour starts in a point and is as long as there are points. -/
theorem start_visit (getLength : C → C → C → C → K) {current m : Nat} (hcurrent : current < data.length)
    (hroom : data.length ≤ m) :
    Visit.Sound getLength data [current] ⟨[current], (List.replicate m false).set current true, 0, current⟩ := by
  refine ⟨by simpa using hroom, ?_, List.nodup_singleton current, ?_, fun v => Iff.rfl, rfl, ⟨[], .nil, rfl⟩⟩
  · intro v hv
    have hlt : v < (List.replicate m false).length := by
      rw [List.length_replicate]
      exact hv.trans_le hroom
    by_cases heq : v = current
    · rw [heq] at hlt ⊢
      rw [List.getElem?_set_self hlt]
      simp
    · rw [List.getElem?_set_ne (Ne.symm heq), List.getElem?_eq_getElem hlt, List.getElem_replicate]
      simp [heq]
  · intro v hv
    exact List.mem_singleton.mp hv ▸ hcurrent

theorem Visit.Sound.next (h : s.Sound getLength data met) {node : Nat} (hnode : node < data.length) :
    ∃ s', s.next (buildGraph getLength data) node = some s' ∧ s'.Sound getLength data (met ++ [node]) := by
  have hvisited := h.visited node hnode
  by_cases hmem : node ∈ s.path
  · refine ⟨s, by simp [Visit.next, hvisited, hmem], { h with met := ?_ }⟩
    intro v
    rw [List.mem_append, List.mem_singleton, ← h.met]
    refine ⟨.inl, fun hv => ?_⟩
    exact hv.elim id fun heq => heq ▸ hmem
  · have hcurrent : s.current ∈ s.path := List.mem_of_getLast? h.current
    have hne : s.current ≠ node := fun heq => hmem (heq ▸ hcurrent)
    obtain ⟨w, hw⟩ := exists_isLength getLength (h.path_lt _ hcurrent) hnode hne
    have hnext : s.next (buildGraph getLength data) node =
        some ⟨s.path ++ [node], s.visited.set node true, s.length + w, node⟩ := by
      simp [Visit.next, hvisited, hmem, buildGraph_weight.mpr hw]
    refine ⟨_, hnext, ⟨by simpa using h.room, ?_, ?_, ?_, ?_, List.getLast?_concat, h.length.concat h.current hw⟩⟩
    · intro v hv
      have hlt : node < s.visited.length := hnode.trans_le h.room
      by_cases heq : v = node
      · simp [heq, hlt]
      · simp [Ne.symm heq, heq, h.visited v hv]
    · refine List.nodup_append.mpr ⟨h.nodup, List.nodup_singleton node, ?_⟩
      simpa using fun v hv => ne_of_mem_of_not_mem hv hmem
    · intro v hv
      rcases List.mem_append.mp hv with hv | hv
      · exact h.path_lt v hv
      · exact List.mem_singleton.mp hv ▸ hnode
    · intro v
      simp only [List.mem_append, h.met]

theorem Visit.Sound.foldlM (h : s.Sound getLength data met) (tour : List Nat) (htour : ∀ v ∈ tour, v < data.length) :
    ∃ s', tour.foldlM (Visit.next (buildGraph getLength data)) s = some s' ∧
      s'.Sound getLength data (met ++ tour) := by
  induction tour generalizing s met with
  | nil => exact ⟨s, rfl, by simpa using h⟩
  | cons node tour ih =>
    obtain ⟨s₁, hnext, h₁⟩ := h.next (htour node List.mem_cons_self)
    obtain ⟨s', hfold, h'⟩ := ih h₁ fun v hv => htour v (List.mem_cons_of_mem node hv)
    refine ⟨s', ?_, by simpa using h'⟩
    exact Option.bind_eq_some_iff.mpr ⟨s₁, hnext, hfold⟩

end

/-! ## The route -/

section
variable [LinearOrder K] {getLength : C → C → C → C → K} {data : List (C × C)} {shuffle : List Nat → List Nat}

/-- The tree and the matching of its odd vertexes connect all points, however the
    vertexes were shuffled. -/
theorem exists_matched (getLength : C → C → C → C → K) (data : List (C × C)) (hshuffle : ∀ l, (shuffle l).Perm l) :
    ∃ tree matched, minimumSpanningTree (buildGraph getLength data) = some tree ∧
      minimumWeightMatching (buildGraph getLength data) tree (shuffle (findOddVertexes tree)) = some matched ∧
      Connects data.length matched := by
  obtain ⟨tree, htree, hedges, hspans⟩ := minimumSpanningTree_spans (buildGraph getLength data)
  have hlength : ∀ e ∈ tree, e.u ≠ e.v ∧ e.u < data.length ∧ e.v < data.length := by
    intro e he
    obtain ⟨w, hw⟩ := hedges e he
    exact ⟨(buildGraph_weight.mp hw).1, (buildGraph_weight.mp hw).lt⟩
  have hperm := hshuffle (findOddVertexes tree)
  have hodd : ∀ v ∈ shuffle (findOddVertexes tree), v < data.length := by
    intro v hv
    have hdegree := mem_findOddVertexes.mp (hperm.mem_iff.mp hv)
    rcases List.mem_append.mp (mem_of_degree_pos hdegree.pos) with hmem | hmem
    · obtain ⟨e, he, rfl⟩ := List.mem_map.mp hmem
      exact (hlength e he).2.1
    · obtain ⟨e, he, rfl⟩ := List.mem_map.mp hmem
      exact (hlength e he).2.2
  obtain ⟨added, hmatched, hadded⟩ := minimumWeightMatching_some (buildGraph getLength data) tree
    (shuffle (findOddVertexes tree)) (hperm.nodup_iff.mpr (findOddVertexes_nodup tree))
    (hperm.length_eq ▸ even_length_findOddVertexes tree) (by
      intro x hx y hy hne
      obtain ⟨w, hw⟩ := exists_isLength getLength (hodd x hx) (hodd y hy) (Ne.symm hne)
      exact ⟨w, buildGraph_weight.mpr hw⟩)
  refine ⟨tree, tree ++ added, htree, hmatched, ?_, ?_, ?_⟩
  · intro e he
    rcases List.mem_append.mp he with he | he
    · exact (hlength e he).2
    · exact ⟨hodd _ (hadded e he).1, hodd _ (hadded e he).2.1⟩
  · intro e he
    rcases List.mem_append.mp he with he | he
    · exact (hlength e he).1
    · exact Ne.symm (hadded e he).2.2
  · intro a ha b hb
    by_cases hab : a = b
    · exact hab ▸ .refl
    · obtain ⟨w, hw⟩ := exists_isLength getLength ha hb hab
      exact (hspans a b w (buildGraph_weight.mpr hw)).mono (List.subset_append_left _ _)

/-- **The quick route visits every point once**: for two points or more, whatever they
    are and however the odd vertexes are shuffled, `tsp` returns a permutation of them
    and the sum of the lengths of its legs. -/
theorem tsp_visits_once [Add K] [Zero K] (getLength : C → C → C → C → K) (shuffle : List Nat → List Nat)
    (data : List (C × C)) (hn : 2 ≤ data.length) (hshuffle : ∀ l, (shuffle l).Perm l) :
    ∃ length path, tsp getLength shuffle data = some (length, path) ∧ path.Perm (List.range data.length) ∧
      SumsLegs (IsLength getLength data) path length := by
  obtain ⟨tree, matched, htree, hmatched, hconnects⟩ := exists_matched getLength data hshuffle
  obtain ⟨ep, hep, hall⟩ := findEulerianTour_visits hconnects hn
  obtain ⟨current, rest, rfl⟩ : ∃ current rest, ep = current :: rest :=
    List.exists_cons_of_ne_nil (List.ne_nil_of_mem ((hall 0).mpr (by omega)))
  have hcurrent : current < data.length := (hall current).mp List.mem_cons_self
  have hroom : data.length ≤ (current :: rest).length := by
    calc data.length = (List.range data.length).length := List.length_range.symm
      _ ≤ (current :: rest).length := by
        apply List.Subperm.length_le
        apply List.subperm_of_subset List.nodup_range
        intro v hv
        exact (hall v).mpr (List.mem_range.mp hv)
  have hlt : current < (current :: rest).length := hcurrent.trans_le hroom
  obtain ⟨s, hfold, hs⟩ := (start_visit getLength hcurrent hroom).foldlM rest
    fun v hv => (hall v).mp (List.mem_cons_of_mem current hv)
  refine ⟨s.length, s.path, ?_, ?_, hs.length⟩
  · simp only [tsp, htree, hmatched, hep, Option.bind_eq_bind, Option.bind_some, List.head?_cons, List.tail_cons,
      List.length_replicate, if_pos hlt, hfold]
  · rw [List.perm_ext_iff_of_nodup hs.nodup List.nodup_range]
    intro v
    rw [hs.met, List.mem_range]
    exact hall v

/-- Four points on a line, two of them the same. -/
theorem tsp_visits_once_line :
    ∃ length path,
      tsp (fun x₁ y₁ x₂ y₂ => Nat.sqrt ((x₁ - x₂) ^ 2 + (y₁ - y₂) ^ 2 : Int).toNat) List.reverse
        [(0, 0), (3, 4), (0, 0), (-6, -8)] = some (length, path) ∧
      path.Perm (List.range [((0 : Int), (0 : Int)), (3, 4), (0, 0), (-6, -8)].length) ∧
      SumsLegs (IsLength (fun x₁ y₁ x₂ y₂ => Nat.sqrt ((x₁ - x₂) ^ 2 + (y₁ - y₂) ^ 2 : Int).toNat)
        [(0, 0), (3, 4), (0, 0), (-6, -8)]) path length :=
  tsp_visits_once _ List.reverse _ (by decide) List.reverse_perm

end

end MapADroid.RouteCalc
