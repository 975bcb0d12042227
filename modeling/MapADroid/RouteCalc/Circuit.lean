import MapADroid.Lib.Walks
import MapADroid.RouteCalc.Tour

/- The tour of `find_eulerian_tour` walks along the edges it was given, each at most once.

   Where every vertex has an even number of edges, a walk that is stuck has come back to
   where it started (`Tour.Walking.back`): all other vertexes have an odd number of
   neighbours left when it gets there. So what is inserted into the tour leads back to the
   vertex it is inserted after, and the tour stays connected (`Tour.Closed`). The legs of
   the tour and the neighbours left together count the edges. -/
namespace MapADroid.RouteCalc
open Lib Lib.Multigraph

variable {K : Type} {n : Nat} {edges : List (Edge K)} {t t' : Tour K}

/-- Between two walks. -/
structure Tour.Closed (edges : List (Edge K)) (t : Tour K) : Prop where
  legs : ∀ a b, between id (legs t.ep) a b + (around t.neighbours a).count b = between Edge.ends edges a b
  even : ∀ a, Even (around t.neighbours a).length

/-- During a walk from `start`, which is at `v`: `front` is the tour up to there, `post` what came after `start`. -/
structure Tour.Walking (edges : List (Edge K)) (start v : Nat) (front post : List Nat) (t : Tour K) : Prop where
  ep : t.ep = front ++ post
  last : front.getLast? = some v
  legs : ∀ a b, between id (Multigraph.legs front ++ Multigraph.legs (start :: post)) a b +
    (around t.neighbours a).count b = between Edge.ends edges a b
  even : ∀ a, Even ((around t.neighbours a).length + ((if start = a then 1 else 0) + if v = a then 1 else 0))

namespace Tour

variable {s v w : Nat} {front post : List Nat}

theorem Closed.walking (h : t.Closed edges) (hep : t.ep = front ++ post) (hlast : front.getLast? = some v) :
    t.Walking edges v v front post where
  ep := hep
  last := hlast
  legs a b := by
    rw [← legs_append hlast, ← hep]
    exact h.legs a b
  even a := (h.even a).add (Even.add_self _)

namespace Walking

theorem mem (h : t.Walking edges s v front post) : v ∈ t.ep := by
  rw [h.ep]
  exact List.mem_append_left post (List.mem_of_getLast? h.last)

/-- **A step of the walk**, along an edge not used before. -/
theorem pass (h : t.Walking edges s v front post) (hsound : t.Sound n edges) (hw : w ∈ around t.neighbours v)
    (hpass : t.pass v w front.length = some t') : t'.Walking edges s w (front ++ [w]) post := by
  have hne := hsound.ne_of_mem_around hw
  have hback := hsound.mem_around_symm hw
  rw [hsound.pass_eq h.mem hw, Option.some.injEq] at hpass
  subst hpass
  refine ⟨?_, List.getLast?_concat, fun a b => ?_, fun a => ?_⟩
  · simp [h.ep]
  · -- the leg counts one more, the neighbours one less
    have hold := h.legs a b
    have hjoins : Joins id (v, w) a b ↔ a = v ∧ b = w ∨ a = w ∧ b = v := by
      simp only [Joins, id, Prod.mk.injEq, eq_comm (a := v), eq_comm (a := w), and_comm (a := b = v)]
    have hleft : a = v ∧ b = w ∨ a = w ∧ b = v → 0 < (around t.neighbours a).count b := by
      rintro (⟨rfl, rfl⟩ | ⟨rfl, rfl⟩)
      · exact List.count_pos_iff.mpr hw
      · exact List.count_pos_iff.mpr hback
    rw [between_append] at hold ⊢
    rw [legs_append h.last, between_append, legs_cons_cons, legs_singleton, between_cons, between_nil,
      count_walkEdge hne]
    by_cases hab : a = v ∧ b = w ∨ a = w ∧ b = v
    · have hpos := hleft hab
      rw [if_pos hab, if_pos (hjoins.mpr hab)]
      omega
    · rw [if_neg hab, if_neg (mt hjoins.mp hab)]
      omega
  · have hold := h.even a
    rw [length_around_walkEdge hne hw hback a, Nat.even_iff] at hold
    show Even ((around (walkEdge t.neighbours v w) a).length + _)
    rw [Nat.even_iff]
    omega

/-- **A walk that is stuck is back** where it started. -/
theorem back (h : t.Walking edges s v front post) (hstuck : around t.neighbours v = []) : s = v := by
  by_contra hne
  have heven := h.even v
  rw [hstuck, if_neg hne, if_pos rfl] at heven
  exact Nat.not_even_one heven

theorem closed (h : t.Walking edges s v front post) (hstuck : around t.neighbours v = []) : t.Closed edges where
  legs a b := by
    have hlegs := h.legs a b
    rw [h.back hstuck] at hlegs
    rw [h.ep, legs_append h.last]
    exact hlegs
  even a := by
    have heven := h.even a
    rw [h.back hstuck, Nat.even_add] at heven
    exact heven.mpr (Even.add_self _)

/-- **A walk** keeps the tour closed. -/
theorem walk (h : t.Walking edges s v front post) (hsound : t.Sound n edges) (fuel stopInd : Nat)
    (hlength : front.length = stopInd + 1) (hwalk : t.walk fuel v stopInd = some t') :
    t'.Closed edges ∧ t'.Sound n edges := by
  induction fuel generalizing t v front stopInd with
  | zero => cases hwalk
  | succ fuel ih =>
    rw [Tour.walk, hsound.get? (hsound.ep_lt v h.mem), Option.bind_eq_bind, Option.bind_some] at hwalk
    cases hleft : around t.neighbours v with
    | nil =>
      rw [hleft, Option.some.injEq] at hwalk
      exact hwalk ▸ ⟨h.closed hleft, hsound⟩
    | cons w l =>
      have hw : w ∈ around t.neighbours v := hleft ▸ List.mem_cons_self
      rw [hleft] at hwalk
      obtain ⟨t₁, hpass, hwalk⟩ := Option.bind_eq_some_iff.mp hwalk
      obtain ⟨t₂, hpass₂, hsound₁, _⟩ := hsound.pass h.mem hw (stopInd + 1)
      rw [hpass, Option.some.injEq] at hpass₂
      subst hpass₂
      rw [← hlength] at hpass
      exact ih (h.pass hsound hw hpass) hsound₁ (stopInd + 1) (by simp [hlength]) hwalk

end Walking

end Tour

/-! ## The tour -/

theorem firstOpen_split {neighbours : Dict Nat (List Nat)} {ep : List Nat} {ind i v : Nat}
    (h : firstOpen neighbours ind ep = some (some (i, v))) :
    ∃ front post, ep = front ++ post ∧ front.getLast? = some v ∧ ind + front.length = i + 1 := by
  induction ep generalizing ind with
  | nil => cases h
  | cons x ep ih =>
    obtain ⟨atX, _, h⟩ := Option.bind_eq_some_iff.mp h
    split at h
    · cases h
      exact ⟨[v], ep, rfl, rfl, rfl⟩
    · obtain ⟨front, post, rfl, hlast, hlength⟩ := ih h
      refine ⟨x :: front, post, rfl, ?_, ?_⟩
      · rw [List.getLast?_cons, hlast, Option.getD_some]
      · rw [List.length_cons]
        omega

/-- All walks together keep the tour on the edges. -/
theorem Tour.Closed.complete (h : t.Closed edges) (hsound : t.Sound n edges) (steps fuel : Nat) {ep : List Nat}
    (hcomplete : t.complete steps fuel = some ep) (a b : Nat) :
    between id (Multigraph.legs ep) a b ≤ between Edge.ends edges a b := by
  induction fuel generalizing t with
  | zero => cases hcomplete
  | succ fuel ih =>
    rw [Tour.complete] at hcomplete
    split at hcomplete
    · obtain ⟨first, hfirst, hcomplete⟩ := Option.bind_eq_some_iff.mp hcomplete
      cases first with
      | none => exact ih h hsound hcomplete
      | some first =>
        obtain ⟨stopInd, v⟩ := first
        obtain ⟨t₁, hwalk, hcomplete⟩ := Option.bind_eq_some_iff.mp hcomplete
        obtain ⟨front, post, hep, hlast, hlength⟩ := firstOpen_split hfirst
        obtain ⟨hclosed, hsound₁⟩ := (h.walking hep hlast).walk hsound steps stopInd (by omega) hwalk
        exact ih hclosed hsound₁ hcomplete
    · rw [Option.some.injEq] at hcomplete
      subst hcomplete
      exact Nat.le.intro (h.legs a b)

/-- **The tour uses no edge twice**: of the edges between two vertexes, no more than there are. -/
theorem legs_findEulerianTour (hc : Connects n edges) (hn : 2 ≤ n) (heven : ∀ v, Even (degree Edge.ends edges v))
    {ep : List Nat} (h : findEulerianTour edges = some ep) (a b : Nat) :
    between id (legs ep) a b ≤ between Edge.ends edges a b := by
  obtain ⟨first, hfirst, h⟩ := Option.bind_eq_some_iff.mp h
  obtain ⟨atStart, hatStart, h⟩ := Option.bind_eq_some_iff.mp h
  obtain ⟨start, hstart, h⟩ := Option.bind_eq_some_iff.mp h
  have hu : first.u < n := (hc.lt first (List.mem_of_head? hfirst)).1
  have haround : start ∈ around (edges.foldl addNeighbours Dict.empty) first.u := by
    rw [around, hatStart]
    exact List.mem_of_head? hstart
  have hlt : start < n := (start_sound hc hn hu).lt first.u start haround
  have hclosed : Tour.Closed edges ⟨edges, edges.foldl addNeighbours Dict.empty, [start]⟩ := by
    refine ⟨fun x y => ?_, fun x => ?_⟩
    · show between id (legs [start]) x y + _ = _
      rw [count_around_foldl edges Dict.empty x y hc.loopless]
      simp [around]
    · rw [length_around_foldl]
      simpa [around] using heven x
  exact hclosed.complete (start_sound hc hn hlt) _ _ h a b

end MapADroid.RouteCalc
