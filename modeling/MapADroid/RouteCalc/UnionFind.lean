import Mathlib.Data.Prod.Lex
import Mathlib.Data.Finset.Card
import MapADroid.Lib.Dict

/- The union-find class of the quick route calculation.

   `UnionFind` keeps a parent and a weight for every object it was asked about; `getItem`
   climbs to the root, on fuel for as many steps as there are objects, and hangs every
   object of the path under it, `union` hangs the other roots under the heaviest.
   `Represents uf rep` says that `rep` names the root above every object. The weights rise
   along every path, so the climb ends (`climb_represents`); `getItem` returns `rep`
   (`getItem_represents`), and `union` makes one class of two (`union_represents`). -/
namespace MapADroid.RouteCalc
open Lib

variable {κ : Type} [LinearOrder κ]

structure UnionFind (κ : Type) where
  weights : Dict κ Nat
  parents : Dict κ κ

namespace UnionFind

def init : UnionFind κ := ⟨Dict.empty, Dict.empty⟩

/-- The objects above `last` up to the root, and the root: the `while` of `__getitem__`. -/
def climb (parents : Dict κ κ) : Nat → κ → κ → Option (List κ × κ)
  | 0, _, _ => none
  | fuel + 1, last, root =>
    if root = last then some ([], root)
    else do
      let next ← parents.get? root
      let (path, top) ← climb parents fuel root next
      some (root :: path, top)

def getItem (uf : UnionFind κ) (obj : κ) : Option (κ × UnionFind κ) :=
  match uf.parents.get? obj with
  | none => some (obj, ⟨uf.weights.insert obj 1, uf.parents.insert obj obj⟩)
  | some parent => do
    let (path, root) ← climb uf.parents uf.parents.keys.length obj parent
    some (root, ⟨uf.weights, (obj :: path).foldl (fun parents ancestor => parents.insert ancestor root) uf.parents⟩)

/-- The roots of `objects`, found one after the other. -/
def getItems : UnionFind κ → List κ → Option (List κ × UnionFind κ)
  | uf, [] => some ([], uf)
  | uf, x :: objects => do
    let (root, uf) ← uf.getItem x
    let (roots, uf) ← getItems uf objects
    some (root :: roots, uf)

/-- One turn of the loop over the roots in `union`. -/
def hang (heaviest : κ) (uf : UnionFind κ) (root : κ) : Option (UnionFind κ) :=
  if root = heaviest then some uf
  else do
    let w ← uf.weights.get? heaviest
    let w' ← uf.weights.get? root
    some ⟨uf.weights.insert heaviest (w + w'), uf.parents.insert root heaviest⟩

def union (uf : UnionFind κ) (objects : List κ) : Option (UnionFind κ) := do
  let (roots, uf) ← uf.getItems objects
  let weights ← roots.mapM uf.weights.get?
  let heaviest ← ((weights.zip roots).map toLex).max?
  roots.foldlM (hang (ofLex heaviest).2) uf

/-! ## What a union-find represents -/

/-- The weight of an object, 0 if it is not known. -/
def weight (uf : UnionFind κ) (x : κ) : Nat := (uf.weights.get? x).getD 0

/-- `rep` is the root above every object, an unknown object stands for itself. -/
structure Represents (uf : UnionFind κ) (rep : κ → κ) : Prop where
  weighed : ∀ {x}, x ∈ uf.parents.keys → ∃ w, uf.weights.get? x = some w ∧ 0 < w
  parent : ∀ {x p}, uf.parents.get? x = some p → p ∈ uf.parents.keys ∧ rep p = rep x
  root : ∀ {x}, uf.parents.get? x = some x → rep x = x
  rising : ∀ {x p}, uf.parents.get? x = some p → p ≠ x → uf.weight x < uf.weight p
  fresh : ∀ {x}, x ∉ uf.parents.keys → rep x = x

/-- `x` is known and is a root. -/
def IsRoot (uf : UnionFind κ) (x : κ) : Prop := uf.parents.get? x = some x

theorem init_represents : Represents (init : UnionFind κ) id where
  weighed := fun h => by cases h
  parent := fun h => by cases h
  root := fun _ => rfl
  rising := fun h => by cases h
  fresh := fun _ => rfl

/-- How many known objects are heavier than `x`: what the climb from `x` has ahead. -/
def heavierThan (uf : UnionFind κ) (x : κ) : Nat :=
  (uf.parents.keys.toFinset.filter fun y => uf.weight x < uf.weight y).card

theorem heavierThan_lt {uf : UnionFind κ} {x y : κ} (hy : y ∈ uf.parents.keys) (h : uf.weight x < uf.weight y) :
    uf.heavierThan y < uf.heavierThan x := by
  apply Finset.card_lt_card
  rw [Finset.ssubset_iff_of_subset]
  · exact ⟨y, by simp [hy, h], by simp⟩
  · intro z hz
    simp only [Finset.mem_filter] at hz ⊢
    exact ⟨hz.1, h.trans hz.2⟩

theorem heavierThan_lt_length {uf : UnionFind κ} {x : κ} (hx : x ∈ uf.parents.keys) :
    uf.heavierThan x < uf.parents.keys.length := by
  calc uf.heavierThan x < uf.parents.keys.toFinset.card := by
        apply Finset.card_lt_card
        rw [Finset.ssubset_iff_of_subset (Finset.filter_subset _ _)]
        exact ⟨x, by simp [hx], by simp⟩
    _ ≤ uf.parents.keys.length := List.toFinset_card_le _

namespace Represents

variable {uf : UnionFind κ} {rep : κ → κ}

/-- **The climb ends at the root above**, and every object on the way has that root. -/
theorem climb_represents (h : Represents uf rep) :
    ∀ (fuel : Nat) (last root : κ), uf.parents.get? last = some root → uf.heavierThan last < fuel →
      ∃ path top, climb uf.parents fuel last root = some (path, top) ∧ uf.IsRoot top ∧ rep top = rep last ∧
        (top ≠ last → uf.weight last < uf.weight top) ∧
        ∀ a ∈ path, a ∈ uf.parents.keys ∧ rep a = rep last ∧ (top ≠ a → uf.weight a < uf.weight top)
  | 0, _, _, _, hfuel => absurd hfuel (Nat.not_lt_zero _)
  | fuel + 1, last, root, hroot, hfuel => by
    by_cases heq : root = last
    · subst heq
      exact ⟨[], root, by simp [climb], hroot, rfl, fun hne => absurd rfl hne, by simp⟩
    · have hrises := h.rising hroot heq
      obtain ⟨hmem, hrep⟩ := h.parent hroot
      obtain ⟨next, hnext⟩ := Dict.mem_keys_iff.mp hmem
      have hless : uf.heavierThan root < fuel := by
        have hlt := heavierThan_lt hmem hrises
        omega
      obtain ⟨path, top, hclimb, htop, hreptop, habove, hpath⟩ := climb_represents h fuel root next hnext hless
      have hlight : uf.weight last < uf.weight top := by
        by_cases hne : top = root
        · exact hne ▸ hrises
        · exact hrises.trans (habove hne)
      refine ⟨root :: path, top, by simp [climb, heq, hnext, hclimb], htop, hreptop.trans hrep, fun _ => hlight, ?_⟩
      intro a ha
      rcases List.mem_cons.mp ha with ha | ha
      · exact ha ▸ ⟨hmem, hrep, habove⟩
      · obtain ⟨hkey, harep, hale⟩ := hpath a ha
        exact ⟨hkey, harep.trans hrep, hale⟩

/-- Hanging a known object under its root changes no class. -/
theorem insert_root (h : Represents uf rep) {a top : κ} (htop : uf.IsRoot top) (ha : a ∈ uf.parents.keys)
    (hrep : rep a = top) (hlt : top ≠ a → uf.weight a < uf.weight top) :
    Represents ⟨uf.weights, uf.parents.insert a top⟩ rep ∧
      (∀ y, uf.IsRoot y → IsRoot ⟨uf.weights, uf.parents.insert a top⟩ y) ∧
      ∀ y, y ∈ (uf.parents.insert a top).keys ↔ y ∈ uf.parents.keys := by
  have htopkey : top ∈ uf.parents.keys := Dict.mem_keys_iff.mpr ⟨top, htop⟩
  have hkeys : ∀ y, y ∈ (uf.parents.insert a top).keys ↔ y ∈ uf.parents.keys := fun y =>
    Dict.mem_keys_insert.trans (or_iff_right_of_imp fun hy => hy ▸ ha)
  refine ⟨⟨?_, ?_, ?_, ?_, ?_⟩, ?_, hkeys⟩
  · intro x hx
    exact h.weighed ((hkeys x).mp hx)
  · intro x p hp
    rw [hkeys]
    rcases Dict.get?_insert_eq_some_iff.mp hp with ⟨hx, htopp⟩ | ⟨_, hp⟩
    · exact htopp ▸ ⟨htopkey, by rw [h.root htop, hx, hrep]⟩
    · exact h.parent hp
  · intro x hx
    rcases Dict.get?_insert_eq_some_iff.mp hx with ⟨hxa, htopx⟩ | ⟨_, hx⟩
    · rw [hxa, hrep]
      exact htopx.trans hxa
    · exact h.root hx
  · intro x p hp hne
    rcases Dict.get?_insert_eq_some_iff.mp hp with ⟨hx, htopp⟩ | ⟨_, hp⟩
    · subst hx htopp
      exact hlt hne
    · exact h.rising hp hne
  · intro x hx
    exact h.fresh fun hmem => hx ((hkeys x).mpr hmem)
  · intro y hy
    by_cases hya : y = a
    · have hroot := h.root hy
      rw [hya, hrep] at hroot
      exact Dict.get?_insert_eq_some_iff.mpr (.inl ⟨hya, hroot.trans hya.symm⟩)
    · exact Dict.get?_insert_eq_some_iff.mpr (.inr ⟨hya, hy⟩)

theorem compress (h : Represents uf rep) {top : κ} (htop : uf.IsRoot top) (path : List κ)
    (hpath : ∀ a ∈ path, a ∈ uf.parents.keys ∧ rep a = top ∧ (top ≠ a → uf.weight a < uf.weight top)) :
    Represents ⟨uf.weights, path.foldl (fun parents ancestor => parents.insert ancestor top) uf.parents⟩ rep ∧
      (∀ y, uf.IsRoot y →
        IsRoot ⟨uf.weights, path.foldl (fun parents ancestor => parents.insert ancestor top) uf.parents⟩ y) ∧
      ∀ y, y ∈ (path.foldl (fun parents ancestor => parents.insert ancestor top) uf.parents).keys ↔
        y ∈ uf.parents.keys := by
  induction path generalizing uf with
  | nil => exact ⟨h, fun _ hy => hy, fun _ => Iff.rfl⟩
  | cons a path ih =>
    obtain ⟨hkey, hrep, hlt⟩ := hpath a List.mem_cons_self
    obtain ⟨hnext, hroots, hkeys⟩ := h.insert_root htop hkey hrep hlt
    have hrest : ∀ b ∈ path, b ∈ (uf.parents.insert a top).keys ∧ rep b = top ∧
        (top ≠ b → uf.weight b < uf.weight top) := by
      intro b hb
      obtain ⟨hbkey, hb⟩ := hpath b (List.mem_cons_of_mem _ hb)
      exact ⟨(hkeys b).mpr hbkey, hb⟩
    obtain ⟨hend, hendroots, hendkeys⟩ := ih hnext (hroots top htop) hrest
    exact ⟨hend, fun y hy => hendroots y (hroots y hy), fun y => (hendkeys y).trans (hkeys y)⟩

/-- An object asked about for the first time becomes a root of its own. -/
theorem insert_fresh (h : Represents uf rep) {a : κ} (ha : a ∉ uf.parents.keys) :
    Represents ⟨uf.weights.insert a 1, uf.parents.insert a a⟩ rep ∧
      ∀ y, uf.IsRoot y ∨ y = a → IsRoot ⟨uf.weights.insert a 1, uf.parents.insert a a⟩ y := by
  have hweight : ∀ {y}, y ∈ uf.parents.keys →
      weight ⟨uf.weights.insert a 1, uf.parents.insert a a⟩ y = uf.weight y := by
    intro y hy
    have hne : y ≠ a := fun heq => ha (heq ▸ hy)
    simp [weight, Dict.get?_insert_of_ne hne]
  refine ⟨⟨?_, ?_, ?_, ?_, ?_⟩, ?_⟩
  · intro x hx
    rcases Dict.mem_keys_insert.mp hx with hxa | hmem
    · exact ⟨1, by simp [hxa], Nat.one_pos⟩
    · have hne : x ≠ a := fun heq => ha (heq ▸ hmem)
      simpa [Dict.get?_insert_of_ne hne] using h.weighed hmem
  · intro x p hp
    rw [Dict.mem_keys_insert]
    rcases Dict.get?_insert_eq_some_iff.mp hp with ⟨hx, hap⟩ | ⟨_, hp⟩
    · exact ⟨.inl hap.symm, by rw [hx, hap]⟩
    · obtain ⟨hmem, hrep⟩ := h.parent hp
      exact ⟨.inr hmem, hrep⟩
  · intro x hx
    rcases Dict.get?_insert_eq_some_iff.mp hx with ⟨hxa, _⟩ | ⟨_, hx⟩
    · exact hxa ▸ h.fresh ha
    · exact h.root hx
  · intro x p hp hne
    rcases Dict.get?_insert_eq_some_iff.mp hp with ⟨hx, hap⟩ | ⟨_, hp⟩
    · exact absurd (hx.trans hap).symm hne
    · rw [hweight (Dict.mem_keys_iff.mpr ⟨p, hp⟩), hweight (h.parent hp).1]
      exact h.rising hp hne
  · intro x hx
    exact h.fresh fun hmem => hx (Dict.mem_keys_insert.mpr (.inr hmem))
  · intro y hy
    by_cases hya : y = a
    · exact Dict.get?_insert_eq_some_iff.mpr (.inl ⟨hya, hya.symm⟩)
    · exact Dict.get?_insert_eq_some_iff.mpr (.inr ⟨hya, hy.resolve_right hya⟩)

/-- **`__getitem__` returns the representative**, and changes no class. -/
theorem getItem_represents (h : Represents uf rep) (x : κ) :
    ∃ uf', uf.getItem x = some (rep x, uf') ∧ Represents uf' rep ∧ uf'.IsRoot (rep x) ∧
      ∀ y, uf.IsRoot y → uf'.IsRoot y := by
  cases hx : uf.parents.get? x with
  | none =>
    have hfresh := Dict.get?_eq_none_iff.mp hx
    obtain ⟨hnext, hroots⟩ := h.insert_fresh hfresh
    have hrep := h.fresh hfresh
    exact ⟨_, by simp [getItem, hx, hrep], hnext, hrep.symm ▸ hroots x (.inr rfl), fun y hy => hroots y (.inl hy)⟩
  | some parent =>
    have hkey : x ∈ uf.parents.keys := Dict.mem_keys_iff.mpr ⟨parent, hx⟩
    obtain ⟨path, top, hclimb, htop, hrep, habove, hpath⟩ :=
      h.climb_represents _ x parent hx (heavierThan_lt_length hkey)
    have hreptop : rep x = top := hrep.symm.trans (h.root htop)
    have hall : ∀ a ∈ x :: path, a ∈ uf.parents.keys ∧ rep a = top ∧ (top ≠ a → uf.weight a < uf.weight top) := by
      intro a ha
      rcases List.mem_cons.mp ha with ha | ha
      · exact ha ▸ ⟨hkey, hreptop, habove⟩
      · exact hreptop ▸ hpath a ha
    obtain ⟨hnext, hroots, _⟩ := h.compress htop (x :: path) hall
    exact ⟨_, by simp only [getItem, hx, hclimb, hreptop]; rfl, hnext, hreptop ▸ hroots top htop, hroots⟩

/-! ## Union -/

/-- Hanging the root `b` under the root `a` turns their two classes into one. -/
theorem hang_represents (h : Represents uf rep) {a b : κ} (ha : uf.IsRoot a) (hb : uf.IsRoot b) (hne : b ≠ a) :
    ∃ uf', hang a uf b = some uf' ∧ Represents uf' fun y => if rep y = b then a else rep y := by
  have hakey : a ∈ uf.parents.keys := Dict.mem_keys_iff.mpr ⟨a, ha⟩
  have hbkey : b ∈ uf.parents.keys := Dict.mem_keys_iff.mpr ⟨b, hb⟩
  obtain ⟨w, hw, hpos⟩ := h.weighed hakey
  obtain ⟨w', hw', _⟩ := h.weighed hbkey
  have hrepa := h.root ha
  have hrepb := h.root hb
  have hkeys : ∀ {y}, y ∈ (uf.parents.insert b a).keys ↔ y ∈ uf.parents.keys :=
    Dict.mem_keys_insert.trans (or_iff_right_of_imp fun hy => hy ▸ hbkey)
  have hweight : ∀ y, weight ⟨uf.weights.insert a (w + w'), uf.parents.insert b a⟩ y =
      if y = a then w + w' else uf.weight y := fun y => Dict.getD_get?_insert _ _ _ _ _
  have hwa : uf.weight a = w := by simp [weight, hw]
  have hwb : uf.weight b = w' := by simp [weight, hw']
  refine ⟨⟨uf.weights.insert a (w + w'), uf.parents.insert b a⟩, by simp [hang, hne, hw, hw'], ?_, ?_, ?_, ?_, ?_⟩
  · intro x hx
    by_cases hxa : x = a
    · exact ⟨w + w', by simp [hxa], by omega⟩
    · simpa [Dict.get?_insert_of_ne hxa] using h.weighed (hkeys.mp hx)
  · intro x p hp
    rw [hkeys]
    rcases Dict.get?_insert_eq_some_iff.mp hp with ⟨hx, hap⟩ | ⟨_, hp⟩
    · exact hap ▸ ⟨hakey, by simp [hx, hrepa, hrepb]⟩
    · obtain ⟨hmem, hrep⟩ := h.parent hp
      exact ⟨hmem, by rw [hrep]⟩
  · intro x hx
    rcases Dict.get?_insert_eq_some_iff.mp hx with ⟨hxb, hax⟩ | ⟨hxb, hx⟩
    · exact absurd (hax.trans hxb).symm hne
    · rw [h.root hx, if_neg hxb]
  · intro x p hp hpx
    rw [hweight, hweight]
    rcases Dict.get?_insert_eq_some_iff.mp hp with ⟨hx, hap⟩ | ⟨_, hp⟩
    · rw [hx, ← hap, if_neg hne, if_pos rfl, hwb]
      omega
    · have hxa : x ≠ a := fun heq => hpx (by rw [heq, ha] at hp; exact (Option.some.inj hp).symm.trans heq.symm)
      have hlt := h.rising hp hpx
      rw [if_neg hxa]
      split
      · next hpa =>
        rw [hpa, hwa] at hlt
        omega
      · exact hlt
  · intro x hx
    have hmem : x ∉ uf.parents.keys := fun hmem => hx (hkeys.mpr hmem)
    have hxb : x ≠ b := fun heq => hmem (heq ▸ hbkey)
    rw [h.fresh hmem, if_neg hxb]

/-- Two objects are of one class after `u` and `v` were united if they were before, or if
    one was of the class of `u` and the other of that of `v`. -/
def Joined (rep : κ → κ) (u v x y : κ) : Prop :=
  rep x = rep y ∨ rep x = rep u ∧ rep y = rep v ∨ rep x = rep v ∧ rep y = rep u

/-- **`union` makes one class of two**, whichever of their roots is the heavier. -/
theorem union_represents (h : Represents uf rep) {u v : κ} (hne : rep u ≠ rep v) :
    ∃ uf' rep', uf.union [u, v] = some uf' ∧ Represents uf' rep' ∧ ∀ x y, rep' x = rep' y ↔ Joined rep u v x y := by
  obtain ⟨uf₁, hu, h₁, hroot₁, _⟩ := h.getItem_represents u
  obtain ⟨uf₂, hv, h₂, hrootv, hkept⟩ := h₁.getItem_represents v
  have hrootu := hkept _ hroot₁
  obtain ⟨w, hw, _⟩ := h₂.weighed (Dict.mem_keys_iff.mpr ⟨_, hrootu⟩)
  obtain ⟨w', hw', _⟩ := h₂.weighed (Dict.mem_keys_iff.mpr ⟨_, hrootv⟩)
  have hroots : uf.getItems [u, v] = some ([rep u, rep v], uf₂) := by simp [getItems, hu, hv]
  have hunion : uf.union [u, v] =
      [rep u, rep v].foldlM (hang (ofLex (max (toLex (w, rep u)) (toLex (w', rep v)))).2) uf₂ := by
    simp [union, hroots, hw, hw', List.max?]
  rcases max_choice (toLex (w, rep u)) (toLex (w', rep v)) with hmax | hmax
  · obtain ⟨uf₃, hhang, h₃⟩ := h₂.hang_represents hrootu hrootv (Ne.symm hne)
    refine ⟨uf₃, _, ?_, h₃, ?_⟩
    · rw [hunion, hmax]
      simpa [hang] using hhang
    · intro x y
      unfold Joined
      split <;> split <;> grind
  · obtain ⟨uf₃, hhang, h₃⟩ := h₂.hang_represents hrootv hrootu hne
    refine ⟨uf₃, _, ?_, h₃, ?_⟩
    · rw [hunion, hmax]
      have hself : hang (rep v) uf₃ (rep v) = some uf₃ := by simp [hang]
      simp [hhang, hself]
    · intro x y
      unfold Joined
      split <;> split <;> grind

end Represents

end UnionFind

end MapADroid.RouteCalc
