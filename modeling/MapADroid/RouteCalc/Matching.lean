import MapADroid.RouteCalc.SpanningTree

/- The odd vertexes of the tree, and their matching.

   The vertexes `find_odd_vertexes` collects are those of odd degree
   (`mem_findOddVertexes`), so they are even in number, and the greedy matching, which
   takes two of them at a time, never looks for a partner in an empty list
   (`minimumWeightMatching_some`). The edges it adds join two different odd vertexes. -/
namespace MapADroid.RouteCalc
open Lib Lib.Multigraph

variable {K : Type}

/-! ## Odd vertexes -/

theorem countEdge_get? (tmpG : Dict Nat Nat) (edge : Edge K) (v : Nat) :
    ((countEdge tmpG edge).get? v).getD 0 =
      (tmpG.get? v).getD 0 + ((if edge.ends.1 = v then 1 else 0) + if edge.ends.2 = v then 1 else 0) := by
  rw [countEdge, Dict.getD_modify_pair, Edge.ends]
  simp only [eq_comm (a := v)]
  split <;> split <;> omega

theorem foldl_countEdge (tree : List (Edge K)) (tmpG : Dict Nat Nat) (v : Nat) :
    ((tree.foldl countEdge tmpG).get? v).getD 0 = (tmpG.get? v).getD 0 + degree Edge.ends tree v := by
  induction tree generalizing tmpG with
  | nil => rfl
  | cons edge tree ih =>
    rw [List.foldl_cons, ih, countEdge_get?, degree_cons]
    omega

theorem mem_findOddVertexes {tree : List (Edge K)} {v : Nat} :
    v ∈ findOddVertexes tree ↔ Odd (degree Edge.ends tree v) := by
  have hcount : ((tree.foldl countEdge Dict.empty).get? v).getD 0 = degree Edge.ends tree v := by
    simp [foldl_countEdge]
  rw [← hcount, Nat.odd_iff]
  constructor
  · intro h
    obtain ⟨i, hi, rfl⟩ := List.mem_map.mp h
    obtain ⟨hmem, hodd⟩ := List.mem_filter.mp hi
    rw [Dict.get?_eq_some_iff.mpr hmem]
    simpa using hodd
  · intro h
    cases hc : (tree.foldl countEdge Dict.empty).get? v with
    | none => simp [hc] at h
    | some c =>
      rw [hc] at h
      exact List.mem_map.mpr ⟨(v, c), List.mem_filter.mpr ⟨Dict.get?_eq_some_iff.mp hc, by simpa using h⟩, rfl⟩

theorem findOddVertexes_nodup (tree : List (Edge K)) : (findOddVertexes tree).Nodup :=
  (List.filter_sublist.map Prod.fst).nodup (Dict.keys_nodup _)

theorem even_length_findOddVertexes (tree : List (Edge K)) : Even (findOddVertexes tree).length :=
  even_length_of_odd_degree (findOddVertexes_nodup tree) fun _ => mem_findOddVertexes

/-! ## The closest vertex -/

section
variable [LinearOrder K] {graph : Graph K} {vertex : Nat} {oddVert : List Nat}

theorem foldlM_closer {S : List Nat} (l : List Nat) (best : WithTop K × Nat)
    (hw : ∀ x ∈ l, x ≠ vertex → ∃ w, graph.weight vertex x = some w) (hS : l ⊆ S) (hbest : best.2 ∈ S) :
    ∃ best', l.foldlM (closer graph vertex) best = some best' ∧ best'.2 ∈ S := by
  induction l generalizing best with
  | nil => exact ⟨best, rfl, hbest⟩
  | cons x l ih =>
    have hrest := fun y hy => hw y (List.mem_cons_of_mem x hy)
    have hsub := List.subset_of_cons_subset hS
    have hstep : ∃ next, closer graph vertex best x = some next ∧ next.2 ∈ S := by
      by_cases hx : vertex = x
      · exact ⟨best, by simp [closer, hx], hbest⟩
      · obtain ⟨w, hweight⟩ := hw x List.mem_cons_self (Ne.symm hx)
        by_cases hlt : (w : WithTop K) < best.1
        · exact ⟨(w, x), by simp [closer, hx, hweight, hlt], hS List.mem_cons_self⟩
        · exact ⟨best, by simp [closer, hx, hweight, hlt], hbest⟩
    obtain ⟨next, hnext, hmem⟩ := hstep
    obtain ⟨best', hfold, hmem'⟩ := ih next hrest hsub hmem
    exact ⟨best', Option.bind_eq_some_iff.mpr ⟨next, hnext, hfold⟩, hmem'⟩

/-- Any vertex is closer than none, so the closest of a non-empty list is one of it. -/
theorem exists_closest (hne : oddVert ≠ []) (hvertex : vertex ∉ oddVert)
    (hw : ∀ x ∈ oddVert, x ≠ vertex → ∃ w, graph.weight vertex x = some w) :
    ∃ length closest, oddVert.foldlM (closer graph vertex) (⊤, 0) = some (length, closest) ∧ closest ∈ oddVert := by
  obtain ⟨x, l, rfl⟩ := List.exists_cons_of_ne_nil hne
  have hx : vertex ≠ x := fun heq => hvertex (heq ▸ List.mem_cons_self)
  obtain ⟨w, hweight⟩ := hw x List.mem_cons_self (Ne.symm hx)
  obtain ⟨best, hfold, hmem⟩ := foldlM_closer (S := x :: l) l ((w : WithTop K), x)
    (fun y hy => hw y (List.mem_cons_of_mem x hy)) (List.subset_cons_self x l) List.mem_cons_self
  refine ⟨best.1, best.2, ?_, hmem⟩
  simpa [closer, hx, hweight] using hfold

/-! ## The matching -/

theorem minimumWeightMatching_concat (mst : List (Edge K)) :
    minimumWeightMatching graph mst (oddVert ++ [vertex]) = (do
      let (length, closest) ← oddVert.foldlM (closer graph vertex) (⊤, 0)
      if closest ∈ oddVert then
        minimumWeightMatching graph (mst ++ [⟨vertex, closest, length⟩]) (oddVert.erase closest)
      else none) := by
  cases oddVert with
  | nil => simp [minimumWeightMatching]
  | cons v l =>
    rw [List.cons_append, minimumWeightMatching]
    simp only [← List.cons_append, List.dropLast_concat, List.getLast_append_singleton]

/-- **The matching ends**, if the vertexes are even in number and all of them weighed. -/
theorem minimumWeightMatching_some (graph : Graph K) (mst : List (Edge K)) (oddVert : List Nat) (hnodup : oddVert.Nodup)
    (heven : Even oddVert.length) (hw : ∀ x ∈ oddVert, ∀ y ∈ oddVert, y ≠ x → ∃ w, graph.weight x y = some w) :
    ∃ added, minimumWeightMatching graph mst oddVert = some (mst ++ added) ∧
      ∀ e ∈ added, e.u ∈ oddVert ∧ e.v ∈ oddVert ∧ e.v ≠ e.u := by
  induction hn : oddVert.length using Nat.strong_induction_on generalizing mst oddVert with
  | _ n ih =>
    rcases List.eq_nil_or_concat oddVert with hnil | ⟨rest, vertex, hconcat⟩
    · exact ⟨[], by simp [hnil, minimumWeightMatching], by simp⟩
    · rw [List.concat_eq_append] at hconcat
      subst hconcat
      obtain ⟨hrest, _, hdisjoint⟩ := List.nodup_append.mp hnodup
      have hvertex : vertex ∉ rest := fun hmem => hdisjoint vertex hmem vertex (by simp) rfl
      rw [List.length_append, List.length_singleton] at hn heven
      have hne : rest ≠ [] := by
        intro hnil
        rw [hnil] at heven
        exact Nat.not_even_one heven
      have hsub : ∀ {x}, x ∈ rest → x ∈ rest ++ [vertex] := List.mem_append_left _
      have hlast : vertex ∈ rest ++ [vertex] := by simp
      obtain ⟨length, closest, hfold, hclosest⟩ := exists_closest hne hvertex fun x hx => hw vertex hlast x (hsub hx)
      have hother : closest ≠ vertex := fun heq => hvertex (heq ▸ hclosest)
      -- two vertexes fewer, so still an even number of them
      have hlength : (rest.erase closest).length = rest.length - 1 := List.length_erase_of_mem hclosest
      have hpos : 0 < rest.length := List.length_pos_iff.mpr hne
      have heven' : Even (rest.erase closest).length := by
        rw [hlength]
        rw [Nat.even_iff] at heven ⊢
        omega
      obtain ⟨added, hmatch, hadded⟩ := ih (rest.erase closest).length (by omega) (mst ++ [⟨vertex, closest, length⟩])
        (rest.erase closest) (hrest.erase closest) heven'
        (fun x hx y hy => hw x (hsub (List.mem_of_mem_erase hx)) y (hsub (List.mem_of_mem_erase hy))) rfl
      refine ⟨⟨vertex, closest, length⟩ :: added, ?_, ?_⟩
      · rw [minimumWeightMatching_concat, hfold]
        simp [hclosest, hmatch]
      · intro e he
        rcases List.mem_cons.mp he with he | he
        · subst he
          exact ⟨hlast, hsub hclosest, hother⟩
        · obtain ⟨hu, hv, hneuv⟩ := hadded e he
          exact ⟨hsub (List.mem_of_mem_erase hu), hsub (List.mem_of_mem_erase hv), hneuv⟩

end

end MapADroid.RouteCalc
