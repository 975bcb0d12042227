import MapADroid.RouteCalc.Matching

/- The tour of `find_eulerian_tour` visits every vertex.

   `remove_edge_from_matched_mst` deletes from the list it iterates over, so of two
   parallel edges side by side it deletes one and of others both; the list of edges and
   the neighbours left then no longer count the same edges. `Tour.Sound` is what they
   keep in common: no pair has more edges in the list than half-edges among the
   neighbours (`backed`), and an edge is in the list or has both ends in the tour
   (`walked`). So while edges are left, some vertex of the tour has neighbours left
   (`Sound.exists_open`), every walk takes half-edges away, and once none is left the
   tour meets all that is connected (`findEulerianTour_visits`). -/
namespace MapADroid.RouteCalc
open Lib Lib.Multigraph

variable {K : Type}

/-! ## Removing an edge -/

theorem ends_iff_joins {item : Edge K} {v w : Nat} :
    (item.u = w ∧ item.v = v ∨ item.u = v ∧ item.v = w) ↔ Joins Edge.ends item v w := by
  simp only [Joins, Edge.ends, Prod.mk.injEq]
  exact or_comm

section
variable (v w : Nat) (mst : List (Edge K))

theorem removeEdge_sublist : (removeEdgeFromMatchedMst v w mst).Sublist mst := by
  fun_induction removeEdgeFromMatchedMst v w mst with
  | case1 => exact .slnil
  | case2 item h => exact List.nil_sublist _
  | case3 item h => exact List.Sublist.refl _
  | case4 item next rest h ih => exact (ih.cons_cons next).cons item
  | case5 item next rest h ih => exact ih.cons_cons item

theorem between_removeEdge_le (a b : Nat) :
    between Edge.ends (removeEdgeFromMatchedMst v w mst) a b ≤ between Edge.ends mst a b :=
  (removeEdge_sublist v w mst).countP_le

/-- Only edges between `v` and `w` are removed. -/
theorem mem_removeEdge {e : Edge K} (he : e ∈ mst) (hj : ¬ Joins Edge.ends e v w) :
    e ∈ removeEdgeFromMatchedMst v w mst := by
  fun_induction removeEdgeFromMatchedMst v w mst with
  | case1 => exact he
  | case2 item h =>
    obtain rfl := List.mem_singleton.mp he
    exact absurd (ends_iff_joins.mp h) hj
  | case3 item h => exact he
  | case4 item next rest h ih =>
    rcases List.mem_cons.mp he with he | he
    · exact absurd (ends_iff_joins.mp (he ▸ h)) hj
    · rcases List.mem_cons.mp he with he | he
      · exact he ▸ List.mem_cons_self
      · exact List.mem_cons_of_mem _ (ih he)
  | case5 item next rest h ih =>
    rcases List.mem_cons.mp he with he | he
    · exact he ▸ List.mem_cons_self
    · exact List.mem_cons_of_mem _ (ih he)

/-- At least one of them is removed, if there is one. -/
theorem between_removeEdge :
    between Edge.ends (removeEdgeFromMatchedMst v w mst) v w ≤ between Edge.ends mst v w - 1 := by
  fun_induction removeEdgeFromMatchedMst v w mst with
  | case1 => exact Nat.zero_le _
  | case2 item h => exact Nat.zero_le _
  | case3 item h =>
    have hnot := mt ends_iff_joins.mpr h
    simp [between_cons, hnot]
  | case4 item next rest h ih =>
    have hj := ends_iff_joins.mp h
    have hle := between_removeEdge_le v w rest v w
    simp only [between_cons, hj, if_true]
    omega
  | case5 item next rest h ih =>
    have hnot := mt ends_iff_joins.mpr h
    rw [between_cons item (removeEdgeFromMatchedMst v w (next :: rest)), between_cons item (next :: rest), if_neg hnot]
    exact ih

end

/-- Of two edges side by side one is left, of two apart none. -/
example :
    ((removeEdgeFromMatchedMst 0 1 [⟨0, 1, 5⟩, ⟨1, 0, 5⟩, (⟨1, 2, 3⟩ : Edge Nat)]).map Edge.ends,
      (removeEdgeFromMatchedMst 0 1 [⟨0, 1, 5⟩, ⟨1, 2, 3⟩, (⟨1, 0, 5⟩ : Edge Nat)]).map Edge.ends) =
      ([(1, 0), (1, 2)], [(1, 2)]) := by decide

/-! ## The neighbours left -/

/-- The neighbours left at `v`: the ends of the edges at `v` that were not walked yet. -/
def around (neighbours : Dict Nat (List Nat)) (v : Nat) : List Nat := (neighbours.get? v).getD []

theorem get?_of_around {neighbours : Dict Nat (List Nat)} {v w : Nat} (h : w ∈ around neighbours v) :
    neighbours.get? v = some (around neighbours v) := by
  cases hv : neighbours.get? v with
  | none => simp [around, hv] at h
  | some l => simp [around, hv]

theorem around_insert (neighbours : Dict Nat (List Nat)) (v : Nat) (l : List Nat) (x : Nat) :
    around (neighbours.insert v l) x = if x = v then l else around neighbours x :=
  Dict.getD_get?_insert neighbours v x l []

/-- The neighbours left, at all vertices below `n` together. -/
def halfEdges (n : Nat) (neighbours : Dict Nat (List Nat)) : Nat :=
  ∑ v ∈ Finset.range n, (around neighbours v).length

/-- The edge between `v` and `w` walked. -/
def walkEdge (neighbours : Dict Nat (List Nat)) (v w : Nat) : Dict Nat (List Nat) :=
  (neighbours.insert v ((around neighbours v).erase w)).insert w ((around neighbours w).erase v)

section
variable {neighbours : Dict Nat (List Nat)} {n v w : Nat}

theorem count_walkEdge (hne : v ≠ w) (a b : Nat) :
    (around (walkEdge neighbours v w) a).count b =
      (around neighbours a).count b - if a = v ∧ b = w ∨ a = w ∧ b = v then 1 else 0 := by
  simp only [walkEdge, around_insert]
  by_cases haw : a = w
  · rw [if_pos haw, List.count_erase, haw]
    grind
  · by_cases hav : a = v
    · rw [if_neg haw, if_pos hav, List.count_erase, hav]
      grind
    · simp [haw, hav]

/-- Each end of a walked edge has one neighbour less. -/
theorem length_around_walkEdge (hne : v ≠ w) (hvw : w ∈ around neighbours v) (hwv : v ∈ around neighbours w) (x : Nat) :
    (around neighbours x).length =
      (around (walkEdge neighbours v w) x).length + ((if v = x then 1 else 0) + if w = x then 1 else 0) := by
  simp only [walkEdge, around_insert]
  by_cases hxw : x = w
  · subst hxw
    have hpos := List.length_pos_of_mem hwv
    simp only [if_true, List.length_erase_of_mem hwv, hne, if_false]
    omega
  · by_cases hxv : x = v
    · subst hxv
      have hpos := List.length_pos_of_mem hvw
      simp only [hne, Ne.symm hne, if_true, if_false, List.length_erase_of_mem hvw]
      omega
    · simp [hxw, hxv, Ne.symm hxw, Ne.symm hxv]

/-- Walking an edge takes two half-edges away. -/
theorem halfEdges_walkEdge (hv : v < n) (hw : w < n) (hne : v ≠ w) (hvw : w ∈ around neighbours v)
    (hwv : v ∈ around neighbours w) : halfEdges n (walkEdge neighbours v w) + 2 = halfEdges n neighbours := by
  calc halfEdges n (walkEdge neighbours v w) + 2
      = ∑ x ∈ Finset.range n, ((around (walkEdge neighbours v w) x).length +
          ((if v = x then 1 else 0) + if w = x then 1 else 0)) := by
        simp [halfEdges, Finset.sum_add_distrib, hv, hw]
    _ = halfEdges n neighbours := Finset.sum_congr rfl fun x _ => (length_around_walkEdge hne hvw hwv x).symm

end

/-! ## The walk -/

/-- The edges join different vertexes below `n`, and any two of them. -/
structure Connects (n : Nat) (edges : List (Edge K)) : Prop where
  lt : ∀ e ∈ edges, e.u < n ∧ e.v < n
  loopless : ∀ e ∈ edges, e.u ≠ e.v
  connected : ∀ a < n, ∀ b < n, Reach Edge.ends edges a b

/-- What the walk along `edges` keeps. -/
structure Tour.Sound (n : Nat) (edges : List (Edge K)) (t : Tour K) : Prop where
  known : ∀ v < n, v ∈ t.neighbours.keys
  symm : ∀ a b, (around t.neighbours a).count b = (around t.neighbours b).count a
  loopless : ∀ a, (around t.neighbours a).count a = 0
  lt : ∀ a, ∀ b ∈ around t.neighbours a, b < n
  backed : ∀ a b, between Edge.ends t.mst a b ≤ (around t.neighbours a).count b
  walked : ∀ e ∈ edges, e ∈ t.mst ∨ e.u ∈ t.ep ∧ e.v ∈ t.ep
  ep_lt : ∀ v ∈ t.ep, v < n
  ep_ne : t.ep ≠ []

namespace Tour.Sound

variable {n v w : Nat} {edges : List (Edge K)} {t : Tour K}

theorem mem_around_symm (h : t.Sound n edges) (hw : w ∈ around t.neighbours v) : v ∈ around t.neighbours w := by
  rw [← List.count_pos_iff] at hw ⊢
  exact h.symm v w ▸ hw

theorem get? (h : t.Sound n edges) (hv : v < n) : t.neighbours.get? v = some (around t.neighbours v) := by
  obtain ⟨l, hl⟩ := Dict.mem_keys_iff.mp (h.known v hv)
  simp [around, hl]

theorem ne_of_mem_around (h : t.Sound n edges) (hw : w ∈ around t.neighbours v) : v ≠ w := by
  intro heq
  subst heq
  exact absurd (h.loopless v) (List.count_pos_iff.mpr hw).ne'

theorem pass_eq (h : t.Sound n edges) (hv : v ∈ t.ep) (hw : w ∈ around t.neighbours v) (ind : Nat) :
    t.pass v w ind = some ⟨removeEdgeFromMatchedMst v w t.mst, walkEdge t.neighbours v w,
      t.ep.take ind ++ w :: t.ep.drop ind⟩ := by
  have hne := h.ne_of_mem_around hw
  simp [Tour.pass, h.get? (h.ep_lt v hv), Dict.get?_insert, Ne.symm hne, h.get? (h.lt v w hw), h.mem_around_symm hw,
    walkEdge]

/-- **Walking an edge** keeps the bookkeeping sound. -/
theorem pass (h : t.Sound n edges) (hv : v ∈ t.ep) (hw : w ∈ around t.neighbours v) (ind : Nat) :
    ∃ t', t.pass v w ind = some t' ∧ t'.Sound n edges ∧ w ∈ t'.ep ∧
      halfEdges n t'.neighbours + 2 = halfEdges n t.neighbours := by
  have hvn : v < n := h.ep_lt v hv
  have hwn : w < n := h.lt v w hw
  have hback := h.mem_around_symm hw
  have hne := h.ne_of_mem_around hw
  have hep : ∀ x, x ∈ t.ep.take ind ++ w :: t.ep.drop ind ↔ x = w ∨ x ∈ t.ep := by
    intro x
    rw [List.mem_append, List.mem_cons, or_left_comm, ← List.mem_append, List.take_append_drop]
  refine ⟨_, h.pass_eq hv hw ind, ⟨?_, ?_, ?_, ?_, ?_, ?_, ?_, ?_⟩, (hep w).mpr (.inl rfl),
    halfEdges_walkEdge hvn hwn hne hw hback⟩
  · intro x hx
    exact Dict.mem_keys_insert.mpr (.inr (Dict.mem_keys_insert.mpr (.inr (h.known x hx))))
  · intro a b
    simp only [count_walkEdge hne, h.symm a b]
    congr 2
    rw [eq_iff_iff]
    tauto
  · intro a
    rw [count_walkEdge hne, h.loopless, Nat.zero_sub]
  · intro a b hb
    have hcount := List.count_pos_iff.mpr hb
    rw [count_walkEdge hne] at hcount
    exact h.lt a b (List.count_pos_iff.mp (by omega))
  · intro a b
    rw [count_walkEdge hne]
    have hbacked := h.backed a b
    split
    · next hab =>
      have hless : between Edge.ends (removeEdgeFromMatchedMst v w t.mst) a b ≤ between Edge.ends t.mst a b - 1 := by
        rcases hab with ⟨ha, hb⟩ | ⟨ha, hb⟩
        · rw [ha, hb]
          exact between_removeEdge v w t.mst
        · rw [ha, hb, between_comm, between_comm t.mst]
          exact between_removeEdge v w t.mst
      exact hless.trans (Nat.sub_le_sub_right hbacked 1)
    · exact (between_removeEdge_le v w t.mst a b).trans hbacked
  · intro e he
    simp only [hep]
    by_cases hj : Joins Edge.ends e v w
    · rcases ends_iff_joins.mpr hj with ⟨hu, hv'⟩ | ⟨hu, hv'⟩
      · exact .inr ⟨.inl hu, .inr (hv' ▸ hv)⟩
      · exact .inr ⟨.inr (hu ▸ hv), .inl hv'⟩
    · rcases h.walked e he with hmem | ⟨hu, hv'⟩
      · exact .inl (mem_removeEdge v w t.mst hmem hj)
      · exact .inr ⟨.inr hu, .inr hv'⟩
  · intro x hx
    rcases (hep x).mp hx with hx | hx
    · exact hx ▸ hwn
    · exact h.ep_lt x hx
  · exact List.ne_nil_of_mem ((hep w).mpr (.inl rfl))

/-- **A walk ends**, and has taken half-edges away if it could start. -/
theorem walk (h : t.Sound n edges) (hv : v ∈ t.ep) (fuel stopInd : Nat) (hfuel : halfEdges n t.neighbours < 2 * fuel) :
    ∃ t', t.walk fuel v stopInd = some t' ∧ t'.Sound n edges ∧
      halfEdges n t'.neighbours ≤ halfEdges n t.neighbours ∧
      (around t.neighbours v ≠ [] → halfEdges n t'.neighbours + 2 ≤ halfEdges n t.neighbours) := by
  induction fuel generalizing t v stopInd with
  | zero => omega
  | succ fuel ih =>
    have hget := h.get? (h.ep_lt v hv)
    cases hleft : around t.neighbours v with
    | nil =>
      refine ⟨t, ?_, h, Nat.le_refl _, fun hne => absurd rfl hne⟩
      simp [Tour.walk, hget, hleft]
    | cons w l =>
      obtain ⟨t₁, hpass, h₁, hw, hless⟩ := h.pass hv (hleft ▸ List.mem_cons_self) (stopInd + 1)
      obtain ⟨t', hwalk, h', hle, _⟩ := ih h₁ hw (stopInd + 1) (by omega)
      refine ⟨t', ?_, h', by omega, fun _ => by omega⟩
      simp [Tour.walk, hget, hleft, hpass, hwalk]

/-- While edges are left, a vertex of the tour has neighbours left: an edge at the tour's
    end, or one that leads out of the tour, is in the list and so backed by half-edges. -/
theorem exists_open (h : t.Sound n edges) (hc : Connects n edges) (hleft : t.mst ≠ []) :
    ∃ v ∈ t.ep, around t.neighbours v ≠ [] := by
  have hopen : ∀ {e a b}, e ∈ t.mst → Joins Edge.ends e a b → b ∈ around t.neighbours a := by
    intro e a b he hj
    have hpos := between_pos he hj
    exact List.count_pos_iff.mp (hpos.trans_le (h.backed a b))
  obtain ⟨e, he⟩ := List.exists_mem_of_ne_nil _ hleft
  obtain ⟨s, hs⟩ := List.exists_mem_of_ne_nil _ h.ep_ne
  have hev := hopen he (joins_ends e)
  have heu : e.u < n := h.lt _ _ (h.mem_around_symm hev)
  by_cases hu : e.u ∈ t.ep
  · exact ⟨e.u, hu, List.ne_nil_of_mem hev⟩
  · obtain ⟨f, hf, x, y, hj, hx, hy⟩ := (hc.connected s (h.ep_lt s hs) e.u heu).crosses (P := (· ∈ t.ep)) hs hu
    have hmem : f ∈ t.mst := by
      apply (h.walked f hf).resolve_right
      intro hends
      rcases ends_iff_joins.mpr hj with ⟨hfu, _⟩ | ⟨_, hfv⟩
      · exact hy (hfu ▸ hends.1)
      · exact hy (hfv ▸ hends.2)
    exact ⟨x, hx, List.ne_nil_of_mem (hopen hmem hj)⟩

/-- Once no edge is left, the tour has met every vertex. -/
theorem visits (h : t.Sound n edges) (hc : Connects n edges) (hdone : t.mst = []) : ∀ v, v ∈ t.ep ↔ v < n := by
  refine fun v => ⟨h.ep_lt v, ?_⟩
  intro hv
  by_contra hout
  obtain ⟨s, hs⟩ := List.exists_mem_of_ne_nil _ h.ep_ne
  obtain ⟨f, hf, x, y, hj, _, hy⟩ := (hc.connected s (h.ep_lt s hs) v hv).crosses (P := (· ∈ t.ep)) hs hout
  rcases h.walked f hf with hmem | hends
  · rw [hdone] at hmem
    cases hmem
  · rcases ends_iff_joins.mpr hj with ⟨hfu, _⟩ | ⟨_, hfv⟩
    · exact hy (hfu ▸ hends.1)
    · exact hy (hfv ▸ hends.2)

end Tour.Sound

/-! ## The tour -/

theorem firstOpen_some {neighbours : Dict Nat (List Nat)} (ep : List Nat) (ind : Nat)
    (hknown : ∀ v ∈ ep, neighbours.get? v = some (around neighbours v))
    (hopen : ∃ v ∈ ep, around neighbours v ≠ []) :
    ∃ i, ∃ v ∈ ep, firstOpen neighbours ind ep = some (some (i, v)) ∧ around neighbours v ≠ [] := by
  induction ep generalizing ind with
  | nil =>
    obtain ⟨v, hv, _⟩ := hopen
    cases hv
  | cons v ep ih =>
    have hget := hknown v List.mem_cons_self
    by_cases hv : around neighbours v = []
    · have hrest : ∃ x ∈ ep, around neighbours x ≠ [] := by
        obtain ⟨x, hx, hne⟩ := hopen
        rcases List.mem_cons.mp hx with hx | hx
        · exact absurd (hx ▸ hv) hne
        · exact ⟨x, hx, hne⟩
      obtain ⟨i, x, hx, hfirst, hne⟩ := ih (ind + 1) (fun x hx => hknown x (List.mem_cons_of_mem v hx)) hrest
      refine ⟨i, x, List.mem_cons_of_mem v hx, ?_, hne⟩
      simp [firstOpen, hget, hv, hfirst]
    · refine ⟨ind, v, List.mem_cons_self, ?_, hv⟩
      simp [firstOpen, hget, List.length_pos_iff, hv]

section
variable {n : Nat} {edges : List (Edge K)}

/-- **The walks end**, and the tour they make visits every vertex. -/
theorem Tour.Sound.complete {t : Tour K} (h : t.Sound n edges) (hc : Connects n edges) (steps fuel : Nat)
    (hsteps : halfEdges n t.neighbours < 2 * steps) (hfuel : halfEdges n t.neighbours < 2 * fuel) :
    ∃ ep, t.complete steps fuel = some ep ∧ ∀ v, v ∈ ep ↔ v < n := by
  induction fuel generalizing t with
  | zero => omega
  | succ fuel ih =>
    by_cases hdone : t.mst = []
    · exact ⟨t.ep, by simp [Tour.complete, hdone], h.visits hc hdone⟩
    · obtain ⟨i, v, hv, hfirst, hopen⟩ :=
        firstOpen_some t.ep 0 (fun v hv => h.get? (h.ep_lt v hv)) (h.exists_open hc hdone)
      obtain ⟨t', hwalk, h', _, hless⟩ := h.walk hv steps i hsteps
      have hless := hless hopen
      obtain ⟨ep, hep, hall⟩ := ih h' (by omega) (by omega)
      refine ⟨ep, ?_, hall⟩
      simp [Tour.complete, List.length_pos_iff, hdone, hfirst, hwalk, hep]

/-! ## The neighbours at the start -/

theorem around_addNeighbours (neighbours : Dict Nat (List Nat)) (edge : Edge K) (v : Nat) :
    around (addNeighbours neighbours edge) v =
      around neighbours v ++ ((if edge.ends.1 = v then [edge.v] else []) ++ if edge.ends.2 = v then [edge.u] else []) := by
  rw [around, addNeighbours, Dict.getD_modify_pair, Edge.ends, around]
  simp only [eq_comm (a := v)]
  by_cases hu : edge.u = v
  · by_cases hv : edge.v = v
    · simp [hu, hv]
    · simp [hu, hv]
  · by_cases hv : edge.v = v
    · simp [hu, hv]
    · simp [hu, hv]

theorem length_around_foldl (edges : List (Edge K)) (neighbours : Dict Nat (List Nat)) (v : Nat) :
    (around (edges.foldl addNeighbours neighbours) v).length =
      (around neighbours v).length + degree Edge.ends edges v := by
  induction edges generalizing neighbours with
  | nil => rfl
  | cons e edges ih =>
    have hlength : ∀ (p : Prop) [Decidable p] (x : Nat), (if p then [x] else []).length = if p then 1 else 0 := by
      intro p _ x
      split <;> rfl
    rw [List.foldl_cons, ih, around_addNeighbours, degree_cons, List.length_append, List.length_append, hlength, hlength]
    omega

theorem count_around_foldl (edges : List (Edge K)) (neighbours : Dict Nat (List Nat)) (a b : Nat)
    (hloopless : ∀ e ∈ edges, e.u ≠ e.v) :
    (around (edges.foldl addNeighbours neighbours) a).count b =
      (around neighbours a).count b + between Edge.ends edges a b := by
  induction edges generalizing neighbours with
  | nil => rfl
  | cons e edges ih =>
    have hne := hloopless e List.mem_cons_self
    have hcount : ((if e.ends.1 = a then [e.v] else []) ++ if e.ends.2 = a then [e.u] else []).count b =
        if Joins Edge.ends e a b then 1 else 0 := by
      simp only [Joins, Edge.ends, Prod.mk.injEq]
      grind
    rw [List.foldl_cons, ih _ fun f hf => hloopless f (List.mem_cons_of_mem e hf), around_addNeighbours, between_cons,
      List.count_append, hcount]
    omega

/-- The bookkeeping is sound at the start, wherever the tour starts. -/
theorem start_sound (hc : Connects n edges) (hn : 2 ≤ n) {s : Nat} (hs : s < n) :
    Tour.Sound n edges ⟨edges, edges.foldl addNeighbours Dict.empty, [s]⟩ := by
  have hcount : ∀ a b, (around (edges.foldl addNeighbours Dict.empty) a).count b = between Edge.ends edges a b := by
    intro a b
    rw [count_around_foldl edges Dict.empty a b hc.loopless]
    simp [around]
  have hjoins : ∀ a, ∀ b ∈ around (edges.foldl addNeighbours Dict.empty) a, ∃ e ∈ edges, Joins Edge.ends e a b := by
    intro a b hb
    rw [← List.count_pos_iff, hcount] at hb
    simpa using List.countP_pos_iff.mp hb
  refine ⟨?_, ?_, ?_, ?_, ?_, fun e he => .inl he, ?_, List.cons_ne_nil s []⟩
  · -- two vertices at least, so an edge leaves each of them
    intro v hv
    obtain ⟨x, hx, hne⟩ : ∃ x < n, x ≠ v := by
      by_cases h0 : v = 0
      · exact ⟨1, by omega, by omega⟩
      · exact ⟨0, by omega, Ne.symm h0⟩
    obtain ⟨e, he, a, b, hj, ha, _⟩ := (hc.connected v hv x hx).crosses (P := (· = v)) rfl hne
    have hpos := between_pos he hj
    rw [← hcount, List.count_pos_iff, ha] at hpos
    exact Dict.mem_keys_iff.mpr ⟨_, get?_of_around hpos⟩
  · intro a b
    rw [hcount, hcount, between_comm]
  · intro a
    rw [List.count_eq_zero]
    intro ha
    obtain ⟨e, he, hj⟩ := hjoins a a ha
    rcases ends_iff_joins.mpr hj with ⟨hu, hv⟩ | ⟨hu, hv⟩
    · exact hc.loopless e he (hu.trans hv.symm)
    · exact hc.loopless e he (hu.trans hv.symm)
  · intro a b hb
    obtain ⟨e, he, hj⟩ := hjoins a b hb
    rcases ends_iff_joins.mpr hj with ⟨hu, _⟩ | ⟨_, hv⟩
    · exact hu ▸ (hc.lt e he).1
    · exact hv ▸ (hc.lt e he).2
  · intro a b
    exact (hcount a b).ge
  · intro v hv
    exact List.mem_singleton.mp hv ▸ hs

/-- **`find_eulerian_tour` visits every vertex** that the edges connect. -/
theorem findEulerianTour_visits (hc : Connects n edges) (hn : 2 ≤ n) :
    ∃ ep, findEulerianTour edges = some ep ∧ ∀ v, v ∈ ep ↔ v < n := by
  obtain ⟨first, rest, hedges⟩ : ∃ first rest, edges = first :: rest := by
    obtain ⟨e, he, _⟩ := (hc.connected 0 (by omega) 1 (by omega)).crosses (P := (· = 0)) rfl (by omega)
    exact List.exists_cons_of_ne_nil (List.ne_nil_of_mem he)
  have hhead : edges.head? = some first := by rw [hedges, List.head?_cons]
  obtain ⟨hfirst, _⟩ := hc.lt first (hedges ▸ List.mem_cons_self)
  have hstart : first.v ∈ around (edges.foldl addNeighbours Dict.empty) first.u := by
    rw [← List.count_pos_iff, count_around_foldl edges Dict.empty first.u first.v hc.loopless]
    exact Nat.add_pos_right _ (between_pos (hedges ▸ List.mem_cons_self) (joins_ends first))
  obtain ⟨s, l, haround⟩ := List.exists_cons_of_ne_nil (List.ne_nil_of_mem hstart)
  have hs : s < n := (start_sound hc hn hfirst).lt first.u s (by simp [haround])
  have hhalf : halfEdges n (edges.foldl addNeighbours Dict.empty) = 2 * edges.length := by
    calc halfEdges n (edges.foldl addNeighbours Dict.empty)
        = ∑ v ∈ Finset.range n, degree Edge.ends edges v := by
          apply Finset.sum_congr rfl
          intro v _
          rw [length_around_foldl]
          simp [around]
      _ = 2 * edges.length := sum_degree fun e he => by simpa [Edge.ends] using hc.lt e he
  have hfuel : halfEdges n (edges.foldl addNeighbours Dict.empty) < 2 * (edges.length + 1) := by omega
  obtain ⟨ep, hep, hall⟩ := (start_sound hc hn hs).complete hc _ _ hfuel hfuel
  refine ⟨ep, ?_, hall⟩
  simp [findEulerianTour, hhead, get?_of_around hstart, haround, hep]

end

end MapADroid.RouteCalc
