import Mathlib.Data.List.DropRight

/- The segments of a record of events.

   Some events are marks. A segment is what lies between two marks with no mark in
   between, or between the last mark and the end. `Segmented` says what every segment
   meets, and what a segment meets besides once the next mark has come; it is carried
   along a record by looking at the open segment alone (`since`). -/
namespace Lib

variable {ε : Type} {mark : ε → Bool}

/-! ## The events of one of several items -/

section History
variable {κ : Type} [DecidableEq κ]

/-- The events of the item `k`. -/
def history (k : κ) (es : List (κ × ε)) : List ε := (es.filter (·.1 = k)).map (·.2)

theorem history_append (k : κ) (es fs : List (κ × ε)) : history k (es ++ fs) = history k es ++ history k fs := by
  simp [history]

theorem history_single (k x : κ) (e : ε) : history k [(x, e)] = if x = k then [e] else [] := by
  by_cases hx : x = k <;> simp [history, hx]

theorem history_map (k x : κ) (l : List ε) : history k (l.map fun e => (x, e)) = if x = k then l else [] := by
  unfold history
  rw [List.filter_map, List.map_map]
  by_cases h : x = k <;> simp [h, Function.comp_def]

theorem history_eq_nil {k : κ} {es : List (κ × ε)} (h : ∀ e ∈ es, e.1 ≠ k) : history k es = [] := by
  simp only [history, List.map_eq_nil_iff, List.filter_eq_nil_iff, decide_eq_true_eq]
  exact h

end History

/-! ## Records that grow -/

/-- An event of a record that got longer is an old one, or one of the new ones. -/
theorem append_eq_cons {es fs pre post : List ε} {e : ε} (h : es ++ fs = pre ++ e :: post) :
    (∃ mid, es = pre ++ e :: mid ∧ post = mid ++ fs) ∨ ∃ mid, fs = mid ++ e :: post := by
  rcases List.append_eq_append_iff.mp h with ⟨mid, _, hfs⟩ | ⟨mid, hes, hpost⟩
  · exact .inr ⟨mid, hfs⟩
  · cases mid with
    | nil => exact .inr ⟨[], by simpa using hpost.symm⟩
    | cons x mid =>
      obtain ⟨rfl, hrest⟩ := List.cons.inj hpost
      exact .inl ⟨mid, hes, hrest⟩

/-- An event of a record with one event more is an old one, or the new one. -/
theorem snoc_eq_cons {es pre post : List ε} {x e : ε} (h : es ++ [x] = pre ++ e :: post) :
    (∃ mid, es = pre ++ e :: mid ∧ post = mid ++ [x]) ∨ es = pre ∧ x = e ∧ post = [] := by
  rcases List.eq_nil_or_concat post with rfl | ⟨mid, y, rfl⟩
  · obtain ⟨hes, hx⟩ := List.append_inj' h rfl
    exact .inr ⟨hes, List.singleton_inj.mp hx, rfl⟩
  · have hsplit : es ++ [x] = (pre ++ e :: mid) ++ [y] := by simpa using h
    obtain ⟨hes, hx⟩ := List.append_inj' hsplit rfl
    exact .inl ⟨mid, hes, by rw [hx]; simp⟩

theorem singleton_eq_cons {pre post : List ε} {x e : ε} (h : [x] = pre ++ e :: post) : pre = [] ∧ x = e ∧ post = [] := by
  rcases snoc_eq_cons (show [] ++ [x] = pre ++ e :: post from h) with ⟨mid, hnil, _⟩ | ⟨hpre, he, hpost⟩
  · cases pre <;> cases hnil
  · exact ⟨hpre.symm, he, hpost⟩

/-- Whenever `e` happened, what had happened before met `Q`. -/
def Preceded (e : ε) (Q : List ε → Prop) (es : List ε) : Prop := ∀ pre post, es = pre ++ e :: post → Q pre

theorem Preceded.nil {e : ε} {Q : List ε → Prop} : Preceded e Q [] := by
  intro pre post h
  cases pre <;> cases h

theorem Preceded.snoc {e x : ε} {Q : List ε → Prop} {es : List ε} (h : Preceded e Q es) (hx : x = e → Q es) :
    Preceded e Q (es ++ [x]) := by
  intro pre post hes
  rcases snoc_eq_cons hes with ⟨mid, hold, _⟩ | ⟨rfl, he, _⟩
  · exact h pre mid hold
  · exact hx he

/-! ## Segments -/

/-- The events after the last mark; all of them where there is none. -/
def since (mark : ε → Bool) (es : List ε) : List ε := es.rtakeWhile fun e => !mark e

theorem since_snoc (es : List ε) (e : ε) :
    since mark (es ++ [e]) = if mark e then [] else since mark es ++ [e] := by
  unfold since
  rw [List.rtakeWhile_concat]
  cases mark e <;> rfl

theorem since_mark {es : List ε} {e : ε} (he : mark e = true) : since mark (es ++ [e]) = [] := by
  rw [since_snoc, if_pos he]

theorem since_quiet {es : List ε} {e : ε} (he : mark e = false) :
    since mark (es ++ [e]) = since mark es ++ [e] := by
  rw [since_snoc, if_neg (by simp [he])]

/-- Events that are no marks are added to the open segment. -/
theorem since_append {es fs : List ε} (h : ∀ e ∈ fs, mark e = false) : since mark (es ++ fs) = since mark es ++ fs := by
  induction fs using List.reverseRecOn with
  | nil => simp
  | append_singleton fs e ih =>
    rw [← List.append_assoc, since_quiet (h e (by simp)), ih fun x hx => h x (by simp [hx]), List.append_assoc]

/-- After marks the open segment is empty. -/
theorem since_marks {es fs : List ε} (hne : fs ≠ []) (h : ∀ e ∈ fs, mark e = true) : since mark (es ++ fs) = [] := by
  rcases List.eq_nil_or_concat fs with rfl | ⟨fs, e, rfl⟩
  · exact absurd rfl hne
  · rw [List.concat_eq_append, ← List.append_assoc]
    exact since_mark (h e (by simp))

/-- The open segment, read off a record that ends in it. -/
theorem since_eq {pre seg : List ε} {m : ε} (hm : mark m = true)
    (hseg : ∀ e ∈ seg, mark e = false) : since mark (pre ++ m :: seg) = seg := by
  induction seg using List.reverseRecOn with
  | nil => exact since_mark hm
  | append_singleton seg e ih =>
    have he : mark e = false := hseg e (by simp)
    have hrest : ∀ x ∈ seg, mark x = false := fun x hx => hseg x (by simp [hx])
    rw [show pre ++ m :: (seg ++ [e]) = (pre ++ m :: seg) ++ [e] by simp, since_quiet he, ih hrest]

/-- Every segment meets `Open`, and `Closed` once the next mark has come. -/
def Segmented (mark : ε → Bool) (Open Closed : List ε → Prop) (es : List ε) : Prop :=
  ∀ pre m seg post, es = pre ++ m :: (seg ++ post) → mark m = true →
    (∀ e ∈ seg, mark e = false) →
    Open seg ∧ ∀ m' post', post = m' :: post' → mark m' = true → Closed seg

theorem Segmented.nil {Open Closed : List ε → Prop} : Segmented mark Open Closed [] := by
  intro pre m seg post hes
  have := congrArg List.length hes
  simp at this

/-- A record that begins. -/
theorem Segmented.start {Open Closed : List ε → Prop} (e : ε) (hopen : Open []) :
    Segmented mark Open Closed [e] := by
  intro pre m seg post hes hm hseg
  have hlength := congrArg List.length hes
  simp only [List.length_append, List.length_cons, List.length_nil] at hlength
  have hseg : seg = [] := List.eq_nil_of_length_eq_zero (by omega)
  have hpost : post = [] := List.eq_nil_of_length_eq_zero (by omega)
  subst hseg hpost
  exact ⟨hopen, fun m' post' h' => by cases h'⟩

/-- A new event has to keep the open segment `Open`, and finds it `Closed` if it is
a mark. -/
theorem Segmented.snoc {Open Closed : List ε → Prop} {es : List ε} {e : ε}
    (h : Segmented mark Open Closed es) (hopen : Open (since mark (es ++ [e])))
    (hclosed : mark e = true → Closed (since mark es)) :
    Segmented mark Open Closed (es ++ [e]) := by
  intro pre m seg post hes hm hseg
  rcases List.eq_nil_or_concat post with rfl | ⟨post, x, rfl⟩
  · -- The segment is still open.
    rw [List.append_nil] at hes
    refine ⟨?_, fun m' post' h' => by cases h'⟩
    rw [hes, since_eq hm hseg] at hopen
    exact hopen
  · have hsplit : es ++ [e] = (pre ++ m :: (seg ++ post)) ++ [x] := by simpa using hes
    obtain ⟨hinit, hx⟩ := List.append_inj' hsplit rfl
    obtain rfl : e = x := by simpa using hx
    obtain ⟨hold, hmark⟩ := h pre m seg post hinit hm hseg
    refine ⟨hold, ?_⟩
    intro m' post' hpost hm'
    cases post with
    | nil =>
      -- The new event is the mark that closes the segment.
      obtain ⟨rfl, -⟩ : e = m' ∧ [] = post' := by simpa using hpost
      have hcl := hclosed hm'
      rw [hinit, List.append_nil, since_eq hm hseg] at hcl
      exact hcl
    | cons y post =>
      obtain ⟨rfl, -⟩ : y = m' ∧ post ++ [e] = post' := by simpa using hpost
      exact hmark y post rfl hm'

end Lib
