import Mathlib.Algebra.Order.Field.Basic
import Mathlib.Data.List.TakeWhile

/- Tables of rates.

   A row has a threshold and a rate, greatest threshold first; a distance has the rate of
   the first row whose threshold it has reached. In a row the time a distance takes grows
   with it. Where the rate rises, the time falls back at the threshold, to no less than
   what the row begins with (`time_le_or`). -/
namespace Lib

variable {K : Type} [LinearOrder K]

/-- The rows that `d` has not reached. -/
def rowsAbove (d : K) (rows : List (K × K)) : List (K × K) := rows.takeWhile fun row => d < row.1

/-- The row that begins next. -/
def nextRow? (d : K) (rows : List (K × K)) : Option (K × K) := (rowsAbove d rows).getLast?

/-- The rate at `d`, which is `default` before the first threshold. -/
def rateAt (default : K) (rows : List (K × K)) (d : K) : K :=
  ((rows.find? fun row => d ≥ row.1).map Prod.snd).getD default

section
variable {default d d' : K} {row : K × K} {rows : List (K × K)}

theorem rowsAbove_cons (h : d < row.1) : rowsAbove d (row :: rows) = row :: rowsAbove d rows := by
  simp [rowsAbove, h]

theorem rowsAbove_cons_of_le (h : row.1 ≤ d) : rowsAbove d (row :: rows) = [] := by
  simp [rowsAbove, not_lt.mpr h]

theorem rateAt_cons (h : d < row.1) : rateAt default (row :: rows) d = rateAt default rows d := by
  simp [rateAt, not_le.mpr h]

theorem rateAt_cons_of_le (h : row.1 ≤ d) : rateAt default (row :: rows) d = row.2 := by
  simp [rateAt, h]

theorem rateAt_pos [Zero K] (hdefault : 0 < default) (hpos : ∀ row ∈ rows, 0 < row.2) :
    0 < rateAt default rows d := by
  unfold rateAt
  cases hrow : rows.find? fun row => d ≥ row.1 with
  | none => exact hdefault
  | some row => exact hpos row (List.mem_of_find?_eq_some hrow)

/-- Distances that have reached the same rows have one rate. -/
theorem rateAt_congr (default : K) (h : rowsAbove d rows = rowsAbove d' rows) :
    rateAt default rows d = rateAt default rows d' := by
  induction rows with
  | nil => rfl
  | cons row rows ih =>
    rcases lt_or_ge d row.1 with hd | hd
    · rcases lt_or_ge d' row.1 with hd' | hd'
      · rw [rowsAbove_cons hd, rowsAbove_cons hd', List.cons.injEq] at h
        rw [rateAt_cons hd, rateAt_cons hd', ih h.2]
      · rw [rowsAbove_cons hd, rowsAbove_cons_of_le hd'] at h
        cases h
    · rcases lt_or_ge d' row.1 with hd' | hd'
      · rw [rowsAbove_cons_of_le hd, rowsAbove_cons hd'] at h
        cases h
      · rw [rateAt_cons_of_le hd, rateAt_cons_of_le hd']

/-- A row is the row of its own threshold. -/
theorem rateAt_threshold (hsorted : rows.Pairwise fun r r' => r'.1 < r.1) (h : row ∈ rows) :
    rateAt default rows row.1 = row.2 := by
  induction rows with
  | nil => cases h
  | cons first rows ih =>
    rw [List.pairwise_cons] at hsorted
    rcases List.mem_cons.mp h with rfl | h
    · exact rateAt_cons_of_le le_rfl
    · rw [rateAt_cons (hsorted.1 row h), ih hsorted.2 h]

theorem nextRow?_spec (h : nextRow? d rows = some row) : row ∈ rows ∧ d < row.1 := by
  have hmem : row ∈ rowsAbove d rows := List.mem_of_getLast? h
  exact ⟨(List.takeWhile_sublist _).subset hmem, by simpa using List.mem_takeWhile_imp hmem⟩

end

/-! ## Times -/

variable [Field K]

/-- The time `d` takes. -/
def time (default : K) (rows : List (K × K)) (d : K) : K := d / rateAt default rows d

/-- Greater thresholds begin with longer times. -/
def Rising (rows : List (K × K)) : Prop :=
  rows.Pairwise fun row row' => row'.1 < row.1 ∧ row'.1 / row'.2 ≤ row.1 / row.2

instance (rows : List (K × K)) : Decidable (Rising rows) :=
  inferInstanceAs (Decidable (rows.Pairwise _))

variable [IsStrictOrderedRing K] {default d d' : K} {rows : List (K × K)}

/-- Of two distances in one row the greater one takes longer. -/
theorem time_le_of_same (hpos : 0 < rateAt default rows d) (hle : d ≤ d')
    (h : rowsAbove d rows = rowsAbove d' rows) : time default rows d ≤ time default rows d' := by
  unfold time
  rw [← rateAt_congr default h]
  exact div_le_div_of_nonneg_right hle hpos.le

/-- A greater distance is in the same row, or takes as long as the next row begins with. -/
theorem time_le_or (default : K) (hrising : Rising rows) (hpos : ∀ row ∈ rows, 0 < row.2) (hle : d ≤ d') :
    rowsAbove d rows = rowsAbove d' rows ∨
      ∃ row, nextRow? d rows = some row ∧ row.1 / row.2 ≤ time default rows d' := by
  induction rows with
  | nil => exact .inl rfl
  | cons first rows ih =>
    obtain ⟨hfirst, hrows⟩ := List.pairwise_cons.mp hrising
    rcases lt_or_ge d first.1 with hd | hd
    · have hnext : nextRow? d (first :: rows) = some ((rowsAbove d rows).getLast?.getD first) := by
        rw [nextRow?, rowsAbove_cons hd, List.getLast?_cons]
      rcases lt_or_ge d' first.1 with hd' | hd'
      · have htime : time default (first :: rows) d' = time default rows d' := by
          unfold time
          rw [rateAt_cons hd']
        rcases ih hrows fun row h => hpos row (List.mem_cons_of_mem _ h) with hsame | ⟨row, hrow, hrowle⟩
        · exact .inl (by rw [rowsAbove_cons hd, rowsAbove_cons hd', hsame])
        · refine .inr ⟨row, ?_, by rwa [htime]⟩
          rw [hnext, show (rowsAbove d rows).getLast? = some row from hrow, Option.getD_some]
      · -- `d'` is in the first row, and no row begins with more.
        refine .inr ⟨_, hnext, ?_⟩
        have hbegin : first.1 / first.2 ≤ time default (first :: rows) d' := by
          rw [time, rateAt_cons_of_le hd']
          exact div_le_div_of_nonneg_right hd' (hpos first List.mem_cons_self).le
        cases hlast : (rowsAbove d rows).getLast? with
        | none => exact hbegin
        | some row => exact (hfirst row (nextRow?_spec hlast).1).2.trans hbegin
    · exact .inl (by rw [rowsAbove_cons_of_le hd, rowsAbove_cons_of_le (hd.trans hle)])

omit [IsStrictOrderedRing K] in
/-- A row begins with no more than the next one. -/
theorem begin_le_nextRow (hrising : Rising rows) {row next : K × K} (h : row ∈ rows)
    (hnext : nextRow? row.1 rows = some next) : row.1 / row.2 ≤ next.1 / next.2 := by
  induction rows with
  | nil => cases h
  | cons first rows ih =>
    obtain ⟨hfirst, hrows⟩ := List.pairwise_cons.mp hrising
    rcases List.mem_cons.mp h with rfl | h
    · rw [nextRow?, rowsAbove_cons_of_le le_rfl] at hnext
      cases hnext
    · rw [nextRow?, rowsAbove_cons (hfirst row h).1, List.getLast?_cons, Option.some.injEq] at hnext
      cases hlast : (rowsAbove row.1 rows).getLast? with
      | none =>
        rw [hlast, Option.getD_none] at hnext
        exact hnext ▸ (hfirst row h).2
      | some last =>
        rw [hlast, Option.getD_some] at hnext
        exact ih hrows h (hnext ▸ hlast)

omit [IsStrictOrderedRing K] in
/-- The next row takes what it begins with at its threshold. -/
theorem time_nextRow (hrising : Rising rows) {row : K × K} (h : nextRow? d rows = some row) :
    time default rows row.1 = row.1 / row.2 := by
  unfold time
  rw [rateAt_threshold (hrising.imp And.left) (nextRow?_spec h).1]

end Lib
