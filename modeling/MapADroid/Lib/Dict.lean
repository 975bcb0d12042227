import Mathlib.Data.List.Nodup

/- Dictionaries that iterate in insertion order.

   A `Dict` is the list of its items with pairwise different keys. Assigning to a key
   that is present keeps its place, assigning to a new one appends it; this is the
   order Python's `dict` iterates in. -/
namespace Lib

variable {κ υ ω : Type}

/-- Items with pairwise different keys, in insertion order. -/
structure Dict (κ υ : Type) where
  items : List (κ × υ)
  nodup : (items.map Prod.fst).Nodup

namespace Dict

def empty : Dict κ υ := ⟨[], List.nodup_nil⟩

def keys (d : Dict κ υ) : List κ := d.items.map Prod.fst

/-- The items that meet `p`. -/
def filter (d : Dict κ υ) (p : κ → υ → Bool) : Dict κ υ where
  items := d.items.filter fun i => p i.1 i.2
  nodup := (List.Sublist.map _ List.filter_sublist).nodup d.nodup

/-- Every value replaced by `f` of its key and itself. -/
def mapValues (d : Dict κ υ) (f : κ → υ → ω) : Dict κ ω where
  items := d.items.map fun i => (i.1, f i.1 i.2)
  nodup := by rw [List.map_map]; exact d.nodup

@[simp] theorem keys_empty : (empty : Dict κ υ).keys = [] := rfl

theorem keys_nodup (d : Dict κ υ) : d.keys.Nodup := d.nodup

@[simp] theorem keys_mapValues (d : Dict κ υ) (f : κ → υ → ω) : (d.mapValues f).keys = d.keys := by
  simp [keys, mapValues]

variable [DecidableEq κ]

/-! ## Items as lists -/

/-- The value the items have under `k`. -/
def find (k : κ) : List (κ × υ) → Option υ
  | [] => none
  | (k', v) :: l => if k' = k then some v else find k l

/-- The items with `v` under `k`: in its place, or at the end. -/
def assign (k : κ) (v : υ) : List (κ × υ) → List (κ × υ)
  | [] => [(k, v)]
  | (k', v') :: l => if k' = k then (k, v) :: l else (k', v') :: assign k v l

theorem find_assign (k j : κ) (v : υ) (l : List (κ × υ)) :
    find j (assign k v l) = if j = k then some v else find j l := by
  induction l with
  | nil => simp only [assign, find, eq_comm]
  | cons p l ih =>
    obtain ⟨k', v'⟩ := p
    by_cases hk : k' = k
    · subst hk
      by_cases hj : j = k'
      · simp [assign, find, hj]
      · simp [assign, find, hj, Ne.symm hj]
    · by_cases hj : k' = j
      · subst hj
        simp [assign, find, hk]
      · simp [assign, find, hk, hj, ih]

theorem assign_keys (k : κ) (v : υ) (l : List (κ × υ)) :
    (assign k v l).map Prod.fst =
      if k ∈ l.map Prod.fst then l.map Prod.fst else l.map Prod.fst ++ [k] := by
  induction l with
  | nil => rfl
  | cons p l ih =>
    obtain ⟨k', v'⟩ := p
    by_cases hk : k' = k
    · subst hk; simp [assign]
    · simp only [assign, hk, if_false, List.map_cons, ih, List.mem_cons, Ne.symm hk, false_or]
      split <;> simp

theorem assign_of_notMem {k : κ} {v : υ} {l : List (κ × υ)} (h : k ∉ l.map Prod.fst) :
    assign k v l = l ++ [(k, v)] := by
  induction l with
  | nil => rfl
  | cons p l ih =>
    obtain ⟨k', v'⟩ := p
    rw [List.map_cons, List.mem_cons, not_or] at h
    rw [assign, if_neg (Ne.symm h.1), ih h.2]
    rfl

theorem find_eq_some_iff {k : κ} {v : υ} {l : List (κ × υ)} (h : (l.map Prod.fst).Nodup) :
    find k l = some v ↔ (k, v) ∈ l := by
  induction l with
  | nil => simp [find]
  | cons p l ih =>
    obtain ⟨k', v'⟩ := p
    simp only [List.map_cons, List.nodup_cons] at h
    by_cases hk : k' = k
    · subst hk
      have hn : ∀ u, (k', u) ∉ l := fun u hu => h.1 (List.mem_map.mpr ⟨_, hu, rfl⟩)
      simp [find, hn, eq_comm]
    · simp [find, hk, Ne.symm hk, ih h.2]

theorem find_eq_none_iff {k : κ} {l : List (κ × υ)} : find k l = none ↔ k ∉ l.map Prod.fst := by
  induction l with
  | nil => simp [find]
  | cons p l ih =>
    obtain ⟨k', v'⟩ := p
    by_cases hk : k' = k
    · simp [find, hk]
    · simp only [find, hk, if_false, ih, List.map_cons, List.mem_cons, Ne.symm hk, false_or]

theorem find_map (f : κ → υ → ω) (k : κ) (l : List (κ × υ)) :
    find k (l.map fun i => (i.1, f i.1 i.2)) = (find k l).map (f k) := by
  induction l with
  | nil => rfl
  | cons p l ih =>
    obtain ⟨k', v'⟩ := p
    by_cases hk : k' = k
    · subst hk; simp [find]
    · simp [find, hk, ih]

/-! ## Dictionaries -/

def get? (d : Dict κ υ) (k : κ) : Option υ := find k d.items

def insert (d : Dict κ υ) (k : κ) (v : υ) : Dict κ υ where
  items := assign k v d.items
  nodup := by
    rw [assign_keys]
    split
    · exact d.nodup
    · next h =>
      rw [List.nodup_append]
      refine ⟨d.nodup, List.nodup_singleton k, ?_⟩
      intro a ha b hb hab
      rw [List.mem_singleton] at hb
      exact h (hb ▸ hab ▸ ha)

def erase (d : Dict κ υ) (k : κ) : Dict κ υ := d.filter fun j _ => j ≠ k

/-- The value under `k`, where there is one, replaced by `f` of it. -/
def modify (d : Dict κ υ) (k : κ) (f : υ → υ) : Dict κ υ :=
  d.mapValues fun j v => if j = k then f v else v

/-- `v` under `k`, unless `k` is there already. -/
def setDefault (d : Dict κ υ) (k : κ) (v : υ) : Dict κ υ := if k ∈ d.keys then d else d.insert k v

/-- The dictionary of a comprehension that yields `l`. -/
def ofList (l : List (κ × υ)) : Dict κ υ := l.foldl (fun d i => d.insert i.1 i.2) empty

/-- The items of `d` overwritten by those of `e`. -/
def update (d e : Dict κ υ) : Dict κ υ := e.items.foldl (fun d i => d.insert i.1 i.2) d

variable {d : Dict κ υ} {k j : κ} {v : υ}

theorem items_insert_of_notMem (h : k ∉ d.keys) : (d.insert k v).items = d.items ++ [(k, v)] :=
  assign_of_notMem h

theorem items_ofList {l : List (κ × υ)} (h : (l.map Prod.fst).Nodup) : (ofList l).items = l := by
  have hfold : ∀ (l : List (κ × υ)) (d : Dict κ υ), (d.keys ++ l.map Prod.fst).Nodup →
      (l.foldl (fun d i => d.insert i.1 i.2) d).items = d.items ++ l := by
    intro l
    induction l with
    | nil => intro d _; exact (List.append_nil _).symm
    | cons i l ih =>
      intro d hd
      have hi : i.1 ∉ d.keys := by
        intro hmem
        exact (List.nodup_append.mp hd).2.2 _ hmem _ (by simp) rfl
      have hitems := items_insert_of_notMem (v := i.2) hi
      rw [List.foldl_cons, ih, hitems, List.append_assoc]
      · rfl
      · rw [keys, hitems]
        simpa [keys] using hd
  exact hfold l empty (by simpa using h)

@[simp] theorem get?_empty (k : κ) : (empty : Dict κ υ).get? k = none := rfl

theorem get?_eq_some_iff : d.get? k = some v ↔ (k, v) ∈ d.items := find_eq_some_iff d.nodup

theorem get?_eq_none_iff : d.get? k = none ↔ k ∉ d.keys := find_eq_none_iff

theorem mem_keys_iff : k ∈ d.keys ↔ ∃ v, d.get? k = some v := by
  rw [← not_iff_not, ← get?_eq_none_iff]
  cases d.get? k <;> simp

theorem isSome_get?_iff : (d.get? k).isSome ↔ k ∈ d.keys := by
  rw [mem_keys_iff, Option.isSome_iff_exists]

theorem get?_insert (d : Dict κ υ) (k j : κ) (v : υ) :
    (d.insert k v).get? j = if j = k then some v else d.get? j :=
  find_assign k j v d.items

@[simp] theorem get?_insert_self : (d.insert k v).get? k = some v := by simp [get?_insert]

theorem get?_insert_of_ne (h : j ≠ k) : (d.insert k v).get? j = d.get? j := by
  simp [get?_insert, h]

theorem getD_get?_insert (d : Dict κ υ) (k j : κ) (v u : υ) :
    ((d.insert k v).get? j).getD u = if j = k then v else (d.get? j).getD u := by
  by_cases h : j = k
  · simp [h]
  · simp [get?_insert_of_ne h, h]

theorem get?_insert_eq_some_iff {w : υ} :
    (d.insert k v).get? j = some w ↔ j = k ∧ v = w ∨ j ≠ k ∧ d.get? j = some w := by
  by_cases h : j = k
  · simp [h]
  · simp [get?_insert_of_ne h, h]

theorem mem_keys_insert : j ∈ (d.insert k v).keys ↔ j = k ∨ j ∈ d.keys := by
  by_cases h : j = k
  · simp [h, mem_keys_iff]
  · simp [mem_keys_iff, get?_insert_of_ne h, h]

theorem get?_filter (d : Dict κ υ) (p : κ → υ → Bool) (k : κ) :
    (d.filter p).get? k = (d.get? k).filter (p k) := by
  rw [Option.ext_iff]
  intro v
  rw [get?_eq_some_iff, Option.filter_eq_some_iff, get?_eq_some_iff]
  simp [filter]

theorem get?_erase (d : Dict κ υ) (k j : κ) :
    (d.erase k).get? j = if j = k then none else d.get? j := by
  rw [erase, get?_filter]
  by_cases h : j = k
  · cases hd : d.get? j <;> simp [h]
  · cases hd : d.get? j <;> simp [h]

@[simp] theorem get?_erase_self : (d.erase k).get? k = none := by simp [get?_erase]

theorem erase_of_notMem (h : k ∉ d.keys) : d.erase k = d := by
  have hitems : d.items.filter (fun i => decide (i.1 ≠ k)) = d.items :=
    List.filter_eq_self.mpr fun i hi => decide_eq_true fun hk => h (List.mem_map.mpr ⟨i, hi, hk⟩)
  cases d
  simp only [erase, filter, hitems]

theorem get?_mapValues (d : Dict κ υ) (f : κ → υ → ω) (k : κ) :
    (d.mapValues f).get? k = (d.get? k).map (f k) := find_map f k d.items

@[simp] theorem keys_modify (d : Dict κ υ) (k : κ) (f : υ → υ) : (d.modify k f).keys = d.keys :=
  keys_mapValues d _

theorem get?_modify (d : Dict κ υ) (k j : κ) (f : υ → υ) :
    (d.modify k f).get? j = if j = k then (d.get? j).map f else d.get? j := by
  rw [modify, get?_mapValues]
  by_cases h : j = k
  · simp [h]
  · simp [h]

theorem get?_setDefault (d : Dict κ υ) (k j : κ) (v : υ) :
    (d.setDefault k v).get? j = if j = k then some ((d.get? k).getD v) else d.get? j := by
  unfold setDefault
  split
  · next h =>
    obtain ⟨w, hw⟩ := mem_keys_iff.mp h
    by_cases hj : j = k
    · simp [hj, hw]
    · simp [hj]
  · next h => rw [get?_insert, get?_eq_none_iff.mpr h, Option.getD_none]

/-- The values at two keys, which may be one key, changed one after the other. -/
theorem getD_modify_pair (d : Dict κ υ) (a b : κ) (z : υ) (f g : υ → υ) (j : κ) :
    (((((d.setDefault a z).setDefault b z).modify a f).modify b g).get? j).getD z =
      let v := if j = a then f ((d.get? j).getD z) else (d.get? j).getD z
      if j = b then g v else v := by
  simp only [get?_modify, get?_setDefault]
  by_cases ha : j = a
  · by_cases hb : j = b
    · simp [← ha, ← hb]
    · simp [← ha, hb]
  · by_cases hb : j = b
    · simp [ha, ← hb]
    · simp [ha, hb]

/-- A table into which all entries of a dictionary are written, each under a key of its own. -/
theorem get?_foldl_upsert {ι ρ : Type} [DecidableEq ι] (upsert : Dict ι ρ → υ → Dict ι ρ)
    (merge : Option ρ → υ → Option ρ) (key : κ → ι) (hkey : ∀ a b, key a = key b → a = b) (d : Dict κ υ)
    (hget : ∀ i ∈ d.items, ∀ table j, (upsert table i.2).get? j =
      if j = key i.1 then merge (table.get? j) i.2 else table.get? j) (table : Dict ι ρ) (k : κ) :
    (d.items.foldl (fun table i => upsert table i.2) table).get? (key k) =
      match d.get? k with
      | none => table.get? (key k)
      | some v => merge (table.get? (key k)) v := by
  obtain ⟨l, hl⟩ := d
  show (l.foldl (fun table i => upsert table i.2) table).get? (key k) = match find k l with
    | none => table.get? (key k)
    | some v => merge (table.get? (key k)) v
  induction l generalizing table with
  | nil => rfl
  | cons i l ih =>
    rw [List.map_cons, List.nodup_cons] at hl
    rw [List.foldl_cons, ih _ hl.2 (fun j hj => hget j (List.mem_cons_of_mem _ hj)), hget i List.mem_cons_self, find]
    by_cases h : i.1 = k
    · -- The entries after it have other keys.
      have hnone : find k l = none := find_eq_none_iff.mpr (h ▸ hl.1)
      rw [hnone, if_pos h, if_pos (congrArg key h.symm)]
    · have hne : key k ≠ key i.1 := fun heq => h (hkey k i.1 heq).symm
      rw [if_neg h, if_neg hne]

theorem get?_update (d e : Dict κ υ) (k : κ) : (d.update e).get? k = (e.get? k).or (d.get? k) := by
  have hfold : ∀ (l : List (κ × υ)) (d : Dict κ υ), (l.map Prod.fst).Nodup →
      (l.foldl (fun d i => d.insert i.1 i.2) d).get? k = (find k l).or (d.get? k) := by
    intro l
    induction l with
    | nil => intro d _; rfl
    | cons i l ih =>
      intro d hnodup
      obtain ⟨hi, hnodup⟩ := List.nodup_cons.mp hnodup
      rw [List.foldl_cons, ih _ hnodup, find]
      by_cases hk : i.1 = k
      · rw [find_eq_none_iff.mpr (hk ▸ hi), if_pos hk, ← hk, get?_insert_self]
        rfl
      · rw [if_neg hk, get?_insert_of_ne (Ne.symm hk)]
  exact hfold e.items d e.nodup

end Dict

end Lib
