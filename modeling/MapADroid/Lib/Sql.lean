import Mathlib.Data.List.Sort

/- Conditions, joins and sorted selections of SQL, on tables that are lists of rows.

   A condition is true, false or unknown, and only what it is true of is selected. A row
   that an outer join has found nothing for has NULL in the columns of the other table, so
   that it is a pair with `none`. Rows of one key are sorted in the order of the table.
   What is selected up to a smaller key stands in front of what is selected up to a
   larger one (`selectNearest_grows`), and with as many rows as the limit it is the same
   (`take_selectNearest_eq`). -/
namespace Lib.Sql

variable {α β K : Type}

/-! ## Conditions -/

/-- What a condition comes to: `none` is unknown. -/
abbrev Truth := Option Bool

namespace Truth

def and : Truth → Truth → Truth
  | some true, some true => some true
  | some false, _ => some false
  | _, some false => some false
  | _, _ => none

def or : Truth → Truth → Truth
  | some false, some false => some false
  | some true, _ => some true
  | _, some true => some true
  | _, _ => none

@[simp] theorem and_eq_true {a b : Truth} : a.and b = some true ↔ a = some true ∧ b = some true := by
  rcases a with _ | _ | _ <;> rcases b with _ | _ | _ <;> simp [Truth.and]

@[simp] theorem or_eq_true {a b : Truth} : a.or b = some true ↔ a = some true ∨ b = some true := by
  rcases a with _ | _ | _ <;> rcases b with _ | _ | _ <;> simp [Truth.or]

end Truth

/-- A comparison with the value of a column; nothing is known of NULL. -/
def compares (p : α → Bool) (column : Option α) : Truth := column.map p

def isNull (column : Option α) : Truth := some column.isNone

def isNotNull (column : Option α) : Truth := some column.isSome

@[simp] theorem compares_eq_true {p : α → Bool} {column : Option α} :
    compares p column = some true ↔ ∃ value, column = some value ∧ p value = true := by
  simp [compares]

@[simp] theorem isNull_eq_true {column : Option α} : isNull column = some true ↔ column = none := by
  simp [isNull]

@[simp] theorem isNotNull_eq_true {column : Option α} :
    isNotNull column = some true ↔ ∃ value, column = some value := by
  simp [isNotNull, Option.isSome_iff_exists]

/-- The rows the condition is true of. -/
def select (condition : α → Truth) (rows : List α) : List α := rows.filter fun row => condition row = some true

@[simp] theorem mem_select {condition : α → Truth} {rows : List α} {row : α} :
    row ∈ select condition rows ↔ row ∈ rows ∧ condition row = some true := by
  simp [select]

/-! ## Joins -/

/-- Each row with every row of the table it matches, and by an outer join with NULL if there is none. -/
def join (outer : Bool) (on : α → β → Truth) (rows : List α) (table : List β) : List (α × Option β) :=
  rows.flatMap fun row =>
    let found := (select (on row) table).map fun other => (row, some other)
    if outer && found.isEmpty then [(row, none)] else found

theorem mem_join {outer : Bool} {on : α → β → Truth} {rows : List α} {table : List β} {row : α × Option β} :
    row ∈ join outer on rows table ↔ row.1 ∈ rows ∧
      ((∃ other ∈ table, on row.1 other = some true ∧ row.2 = some other) ∨
        outer = true ∧ (∀ other ∈ table, on row.1 other ≠ some true) ∧ row.2 = none) := by
  obtain ⟨a, b⟩ := row
  have hempty : ∀ a, (select (on a) table).isEmpty = true ↔ ∀ other ∈ table, on a other ≠ some true := by
    intro a
    rw [List.isEmpty_iff, select, List.filter_eq_nil_iff]
    simp
  have hfound : ∀ a' ∈ rows, (a, b) ∈ (let found := (select (on a') table).map fun other => (a', some other)
      if outer && found.isEmpty then [(a', none)] else found) ↔
        a' = a ∧ ((∃ other ∈ table, on a other = some true ∧ b = some other) ∨
          outer = true ∧ (∀ other ∈ table, on a other ≠ some true) ∧ b = none) := by
    intro a' _
    simp only [List.isEmpty_map, Bool.and_eq_true, hempty]
    split
    · next hnone =>
      simp only [List.mem_singleton, Prod.mk.injEq]
      constructor
      · rintro ⟨rfl, rfl⟩
        exact ⟨rfl, .inr ⟨hnone.1, hnone.2, rfl⟩⟩
      · rintro ⟨rfl, ⟨other, hmem, hon, _⟩ | ⟨_, _, rfl⟩⟩
        · exact absurd hon (hnone.2 other hmem)
        · exact ⟨rfl, rfl⟩
    · next hsome =>
      simp only [List.mem_map, mem_select, Prod.mk.injEq]
      constructor
      · rintro ⟨other, ⟨hmem, hon⟩, rfl, rfl⟩
        exact ⟨rfl, .inl ⟨other, hmem, hon, rfl⟩⟩
      · rintro ⟨rfl, ⟨other, hmem, hon, rfl⟩ | ⟨houter, hnone, _⟩⟩
        · exact ⟨other, ⟨hmem, hon⟩, rfl, rfl⟩
        · exact absurd ⟨houter, hnone⟩ hsome
  rw [join, List.mem_flatMap]
  constructor
  · rintro ⟨a', ha', hmem⟩
    obtain ⟨rfl, hrest⟩ := (hfound a' ha').mp hmem
    exact ⟨ha', hrest⟩
  · rintro ⟨ha, hrest⟩
    exact ⟨a, ha, (hfound a ha).mpr ⟨rfl, hrest⟩⟩

/-! ## Sorted selections -/

section
variable [LinearOrder K] (key : α → K)

def orderBy (rows : List α) : List α := rows.insertionSort fun a b => key a ≤ key b

/-- The rows up to a bound, sorted. -/
def selectNearest (bound : K) (rows : List α) : List α := orderBy key (rows.filter fun row => key row ≤ bound)

variable {key} {rows : List α}

@[simp] theorem mem_orderBy {row : α} : row ∈ orderBy key rows ↔ row ∈ rows :=
  (List.perm_insertionSort _ rows).mem_iff

theorem pairwise_orderBy (rows : List α) : (orderBy key rows).Pairwise fun a b => key a ≤ key b := by
  have htotal : Std.Total fun a b : α => key a ≤ key b := ⟨fun a b => le_total (key a) (key b)⟩
  have htrans : IsTrans α fun a b : α => key a ≤ key b := ⟨fun _ _ _ h h' => h.trans h'⟩
  exact List.pairwise_insertionSort _ rows

/-- A row beyond the bound is put behind those up to it, and one up to it in its place among them. -/
theorem filter_orderedInsert (bound : K) (a : α) {l : List α} (hl : l.Pairwise fun a b => key a ≤ key b) :
    (l.orderedInsert (fun a b => key a ≤ key b) a).filter (fun row => key row ≤ bound) =
      if key a ≤ bound then (l.filter fun row => key row ≤ bound).orderedInsert (fun a b => key a ≤ key b) a
      else l.filter fun row => key row ≤ bound := by
  induction l with
  | nil => by_cases ha : key a ≤ bound <;> simp [ha]
  | cons b l ih =>
    obtain ⟨hb, hl⟩ := List.pairwise_cons.mp hl
    by_cases hab : key a ≤ key b
    · rw [List.orderedInsert_cons_of_le _ l hab]
      by_cases ha : key a ≤ bound
      · by_cases hbound : key b ≤ bound
        · simp [ha, hbound, hab]
        · have hrest : l.filter (fun row => decide (key row ≤ bound)) = [] := by
            rw [List.filter_eq_nil_iff]
            intro c hc hle
            exact hbound ((hb c hc).trans (of_decide_eq_true hle))
          simp [ha, hbound, hrest]
      · simp [ha]
    · rw [List.orderedInsert_of_not_le _ l hab]
      by_cases hbound : key b ≤ bound
      · simp only [List.filter_cons, hbound, ih hl]
        by_cases ha : key a ≤ bound
        · simp [ha, hab]
        · simp [ha]
      · have ha : ¬ key a ≤ bound := fun ha => hbound ((le_of_not_ge hab).trans ha)
        simp only [List.filter_cons, hbound, ih hl, ha, if_false]

theorem filter_orderBy (bound : K) (rows : List α) :
    (orderBy key rows).filter (fun row => key row ≤ bound) = selectNearest key bound rows := by
  induction rows with
  | nil => rfl
  | cons a rows ih =>
    have hcons : orderBy key (a :: rows) = (orderBy key rows).orderedInsert (fun a b => key a ≤ key b) a := rfl
    rw [hcons, filter_orderedInsert bound a (pairwise_orderBy rows), ih, selectNearest, selectNearest]
    by_cases ha : key a ≤ bound
    · simp [ha, orderBy]
    · simp [ha]

theorem filter_prefix {bound : K} {l : List α} (hl : l.Pairwise fun a b => key a ≤ key b) :
    l.filter (fun row => key row ≤ bound) <+: l := by
  induction l with
  | nil => exact List.prefix_rfl
  | cons a l ih =>
    obtain ⟨ha, hl⟩ := List.pairwise_cons.mp hl
    by_cases hbound : key a ≤ bound
    · simp only [List.filter_cons, hbound, decide_true, if_true]
      exact List.cons_prefix_cons.mpr ⟨rfl, ih hl⟩
    · have hnone : (a :: l).filter (fun row => decide (key row ≤ bound)) = [] := by
        rw [List.filter_eq_nil_iff]
        intro b hb hle
        rcases List.mem_cons.mp hb with rfl | hb
        · exact hbound (of_decide_eq_true hle)
        · exact hbound ((ha b hb).trans (of_decide_eq_true hle))
      rw [hnone]
      exact List.nil_prefix

/-- What is selected up to a smaller bound comes first of what is selected up to a larger one. -/
theorem selectNearest_grows {bound bound' : K} (h : bound ≤ bound') (rows : List α) :
    selectNearest key bound rows <+: selectNearest key bound' rows := by
  have hfilter : rows.filter (fun row => decide (key row ≤ bound)) =
      (rows.filter fun row => decide (key row ≤ bound')).filter fun row => decide (key row ≤ bound) := by
    rw [List.filter_filter]
    apply List.filter_congr
    intro row _
    by_cases hrow : key row ≤ bound
    · simp [hrow, hrow.trans h]
    · simp [hrow]
  have hsame : selectNearest key bound rows =
      selectNearest key bound (rows.filter fun row => decide (key row ≤ bound')) := by
    rw [selectNearest, selectNearest, ← hfilter]
  rw [hsame, ← filter_orderBy]
  exact filter_prefix (pairwise_orderBy _)

/-- A full selection up to a smaller bound is that up to a larger one. -/
theorem take_selectNearest_eq {bound bound' : K} (h : bound ≤ bound') {limit : Nat}
    (hfull : ((selectNearest key bound rows).take limit).length = limit) :
    (selectNearest key bound rows).take limit = (selectNearest key bound' rows).take limit := by
  have hprefix : selectNearest key bound rows <+: selectNearest key bound' rows := selectNearest_grows h rows
  obtain ⟨rest, hrest⟩ := hprefix
  rw [← hrest, List.take_append_of_le_length]
  rw [List.length_take] at hfull
  omega

theorem take_selectNearest_grows {bound bound' : K} (h : bound ≤ bound') (limit : Nat) :
    (selectNearest key bound rows).take limit <+: (selectNearest key bound' rows).take limit :=
  List.prefix_take_iff.mpr ⟨(List.take_prefix _ _).trans (selectNearest_grows h rows), List.length_take_le _ _⟩

end

end Lib.Sql
