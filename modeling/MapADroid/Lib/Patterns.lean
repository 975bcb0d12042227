import Mathlib.Data.List.Forall2
import Mathlib.Data.List.Infix

/- Patterns of letters, of which each may be repeated (`+`), searched for in a text.

   A letter of a pattern is taken literally but for its case, or is any one (`.`). `search`
   backtracks; it succeeds exactly if a part of the text matches (`search_iff`). A pattern
   in which nothing is repeated is found exactly where it agrees with a part of the text
   letter by letter (`matches_letters_iff`).

   `greedy ok k [] l` is a group of one or more letters that are `ok`, followed by `k`: the
   longest group is tried first, and a shorter one only where `k` fails on what is left
   after every longer one. So the group ends where `k` first succeeds and succeeds on no
   shorter rest (`greedy_eq_some`). -/
namespace Lib

/-- What a letter of a text is compared with. -/
inductive Atom where
  | literal (c : Char)
  | any
  deriving DecidableEq, Repr

/-- An atom, once or, if `repeated`, once or more. -/
structure Piece where
  atom : Atom
  repeated : Bool
  deriving DecidableEq, Repr

/-- `fold` takes the case away; any letter is one but the line break. -/
def Atom.ok (fold : Char → Char) : Atom → Char → Bool
  | .literal c, d => fold c = fold d
  | .any, d => d ≠ '\n'

/-- A beginning of the text matches. -/
def matchHere (fold : Char → Char) : List Piece → List Char → Bool
  | [], _ => true
  | _ :: _, [] => false
  | p :: ps, c :: t => p.atom.ok fold c && (p.repeated && matchHere fold (p :: ps) t || matchHere fold ps t)

/-- A part of the text matches. -/
def search (fold : Char → Char) (ps : List Piece) : List Char → Bool
  | [] => matchHere fold ps []
  | c :: t => matchHere fold ps (c :: t) || search fold ps t

/-- The whole text matches. -/
inductive Matches (fold : Char → Char) : List Piece → List Char → Prop where
  | nil : Matches fold [] []
  | once {p : Piece} {ps : List Piece} {c : Char} {s : List Char} :
    p.atom.ok fold c = true → Matches fold ps s → Matches fold (p :: ps) (c :: s)
  | again {p : Piece} {ps : List Piece} {c : Char} {s : List Char} :
    p.repeated = true → p.atom.ok fold c = true → Matches fold (p :: ps) s → Matches fold (p :: ps) (c :: s)

variable {fold : Char → Char} {p : Piece} {ps : List Piece} {c : Char} {s t : List Char}

theorem matchHere_iff : matchHere fold ps t = true ↔ ∃ s, s <+: t ∧ Matches fold ps s := by
  induction t generalizing ps with
  | nil =>
    cases ps with
    | nil => exact ⟨fun _ => ⟨[], List.prefix_rfl, .nil⟩, fun _ => rfl⟩
    | cons p ps =>
      constructor
      · intro h
        cases h
      · rintro ⟨s, hprefix, hmatches⟩
        rw [List.prefix_nil.mp hprefix] at hmatches
        cases hmatches
  | cons c t ih =>
    cases ps with
    | nil => exact ⟨fun _ => ⟨[], List.nil_prefix, .nil⟩, fun _ => by rw [matchHere]⟩
    | cons p ps =>
      rw [matchHere, Bool.and_eq_true, Bool.or_eq_true, Bool.and_eq_true, ih, ih]
      constructor
      · rintro ⟨hok, ⟨hrepeated, s, hprefix, hmatches⟩ | ⟨s, hprefix, hmatches⟩⟩
        · exact ⟨c :: s, List.cons_prefix_cons.mpr ⟨rfl, hprefix⟩, .again hrepeated hok hmatches⟩
        · exact ⟨c :: s, List.cons_prefix_cons.mpr ⟨rfl, hprefix⟩, .once hok hmatches⟩
      · rintro ⟨s, hprefix, hmatches⟩
        cases hmatches with
        | once hok hmatches =>
          obtain ⟨rfl, htail⟩ := List.cons_prefix_cons.mp hprefix
          exact ⟨hok, .inr ⟨_, htail, hmatches⟩⟩
        | again hrepeated hok hmatches =>
          obtain ⟨rfl, htail⟩ := List.cons_prefix_cons.mp hprefix
          exact ⟨hok, .inl ⟨hrepeated, _, htail, hmatches⟩⟩

theorem search_iff : search fold ps t = true ↔ ∃ s, s <:+: t ∧ Matches fold ps s := by
  induction t with
  | nil =>
    rw [search, matchHere_iff]
    simp only [List.prefix_nil, List.infix_nil]
  | cons c t ih =>
    rw [search, Bool.or_eq_true, matchHere_iff, ih]
    constructor
    · rintro (⟨s, hprefix, hmatches⟩ | ⟨s, hinfix, hmatches⟩)
      · exact ⟨s, hprefix.isInfix, hmatches⟩
      · exact ⟨s, List.infix_cons hinfix, hmatches⟩
    · rintro ⟨s, hinfix, hmatches⟩
      rcases List.infix_cons_iff.mp hinfix with hprefix | hinfix
      · exact .inl ⟨s, hprefix, hmatches⟩
      · exact .inr ⟨s, hinfix, hmatches⟩

/-! ## Patterns without repetitions -/

/-- The letters of a pattern in which nothing is repeated. -/
def letters (atoms : List Atom) : List Piece := atoms.map fun atom => ⟨atom, false⟩

/-- Such a pattern matches what agrees with it letter by letter. -/
theorem matches_letters_iff {atoms : List Atom} :
    Matches fold (letters atoms) s ↔ List.Forall₂ (fun atom c => atom.ok fold c = true) atoms s := by
  induction atoms generalizing s with
  | nil =>
    constructor
    · intro h
      cases h
      exact .nil
    · intro h
      cases h
      exact .nil
  | cons atom atoms ih =>
    constructor
    · intro h
      cases h with
      | once hok h => exact .cons hok (ih.mp h)
      | again hrepeated _ _ => cases hrepeated
    · intro h
      cases h with
      | cons hok h => exact .once hok (ih.mpr h)

/-! ## Greedy groups -/

section Greedy

variable {α β : Type}

/-- The group so far is `group`, and what is left of the text `l`. -/
def greedy (ok : α → Bool) (k : List α → List α → Option β) : List α → List α → Option β
  | group, [] => if group = [] then none else k group []
  | group, c :: l =>
    let longer := if ok c then greedy ok k (group ++ [c]) l else none
    longer.or (if group = [] then none else k group (c :: l))

variable {ok : α → Bool} {k : List α → List α → Option β} {group l m : List α} {c : α} {b : β}

/-- Nothing matches if the rest of the expression matches no rest of the text. -/
theorem greedy_eq_none (h : ∀ group rest, rest <:+ l → k group rest = none) : greedy ok k group l = none := by
  induction l generalizing group with
  | nil =>
    rw [greedy, h group [] List.suffix_rfl]
    split <;> rfl
  | cons c l ih =>
    have hlonger : greedy ok k (group ++ [c]) l = none :=
      ih fun group rest hrest => h group rest (hrest.trans (List.suffix_cons c l))
    rw [greedy, hlonger, h group (c :: l) List.suffix_rfl]
    split <;> split <;> rfl

/-- The group is the longest one after which the rest of the expression matches. -/
theorem greedy_eq_some (hok : ∀ d ∈ m, ok d) (hne : group ++ m ≠ []) (hk : k (group ++ m) (c :: l) = some b)
    (hlonger : ∀ group rest, rest <:+ l → k group rest = none) : greedy ok k group (m ++ c :: l) = some b := by
  induction m generalizing group with
  | nil =>
    rw [List.append_nil] at hne hk
    rw [List.nil_append, greedy, greedy_eq_none hlonger, if_neg hne, hk]
    split <;> rfl
  | cons d m ih =>
    have hgroup : group ++ d :: m = (group ++ [d]) ++ m := by simp
    have hlong := ih (fun x hx => hok x (List.mem_cons_of_mem d hx)) (by simp) (hgroup ▸ hk)
    rw [List.cons_append, greedy, if_pos (hok d List.mem_cons_self), hlong]
    rfl

end Greedy

end Lib
