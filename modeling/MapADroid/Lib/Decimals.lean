import Mathlib.Data.Char
import Mathlib.Data.List.Lex
import Mathlib.Data.List.MinMax
import Mathlib.Tactic.Ring

/- Dot-separated decimal numbers, in the order of their texts and in that of their numbers.

   Texts of one length are ordered like their numbers, and a longer text without leading
   zeros has the greater number. A dot comes before the digits, so joined texts are compared
   component by component. Hence a text that comes last has not the greatest numbers exactly
   if another one has a longer component where they first differ (`outgrown_iff_longer`). -/
namespace Lib

/-! ## Numerals -/

def IsDigit (c : Char) : Prop := 48 ≤ c.toNat ∧ c.toNat ≤ 57

instance (c : Char) : Decidable (IsDigit c) := inferInstanceAs (Decidable (_ ∧ _))

/-- The number a text of digits stands for, after `n`. -/
def digitsValue (n : Nat) (digits : List Char) : Nat := digits.foldl (fun n c => 10 * n + (c.toNat - 48)) n

/-- A text of digits. -/
structure Numeral where
  digits : List Char
  nonempty : digits ≠ []
  isDigit : ∀ c ∈ digits, IsDigit c

namespace Numeral

def value (d : Numeral) : Nat := digitsValue 0 d.digits

/-- The digits after the leading zeros. -/
def significant (d : Numeral) : List Char := d.digits.dropWhile (· = '0')

/-- No zero comes before another digit. -/
def Canonical (d : Numeral) : Prop := d.digits.length = 1 ∨ d.digits.head? ≠ some '0'

end Numeral

theorem digitsValue_eq (n : Nat) (digits : List Char) :
    digitsValue n digits = n * 10 ^ digits.length + digitsValue 0 digits := by
  induction digits generalizing n with
  | nil => simp [digitsValue]
  | cons c digits ih =>
    show digitsValue (10 * n + (c.toNat - 48)) digits = _ + digitsValue (10 * 0 + (c.toNat - 48)) digits
    rw [ih (10 * n + _), ih (10 * 0 + _), List.length_cons, Nat.pow_succ]
    ring

theorem digitsValue_cons (c : Char) (digits : List Char) :
    digitsValue 0 (c :: digits) = (c.toNat - 48) * 10 ^ digits.length + digitsValue 0 digits := by
  show digitsValue (10 * 0 + (c.toNat - 48)) digits = _
  rw [digitsValue_eq, Nat.mul_zero, Nat.zero_add]

theorem digitsValue_lt {digits : List Char} (h : ∀ c ∈ digits, IsDigit c) :
    digitsValue 0 digits < 10 ^ digits.length := by
  induction digits with
  | nil => simp [digitsValue]
  | cons c digits ih =>
    have hrest := ih fun c' hc' => h c' (List.mem_cons_of_mem _ hc')
    have hc := h c List.mem_cons_self
    have hmul : (c.toNat - 48) * 10 ^ digits.length ≤ 9 * 10 ^ digits.length :=
      Nat.mul_le_mul_right _ (by have := hc.2; omega)
    rw [digitsValue_cons, List.length_cons, Nat.pow_succ]
    omega

theorem digitsValue_dropWhile (digits : List Char) :
    digitsValue 0 (digits.dropWhile (· = '0')) = digitsValue 0 digits := by
  induction digits with
  | nil => rfl
  | cons c digits ih =>
    rw [List.dropWhile_cons]
    split
    · next h =>
      obtain rfl : c = '0' := by simpa using h
      rw [ih, digitsValue_cons]
      simp
    · rfl

/-- A longer text that does not begin with a zero has the greater number. -/
theorem digitsValue_lt_of_length_lt {d e : List Char} (hd : ∀ c ∈ d, IsDigit c) (he : ∀ c ∈ e, IsDigit c)
    (hzero : e.head? ≠ some '0') (h : d.length < e.length) : digitsValue 0 d < digitsValue 0 e := by
  cases e with
  | nil => simp at h
  | cons c e =>
    have hc := he c List.mem_cons_self
    have hpos : 1 ≤ c.toNat - 48 := by
      by_contra hnot
      have heq : c.toNat = 48 := by have := hc.1; omega
      apply hzero
      rw [List.head?_cons, ← Char.ofNat_toNat c, heq]
    calc digitsValue 0 d < 10 ^ d.length := digitsValue_lt hd
      _ ≤ 10 ^ e.length := Nat.pow_le_pow_right (by omega) (by simpa [Nat.lt_succ_iff] using h)
      _ = 1 * 10 ^ e.length := (Nat.one_mul _).symm
      _ ≤ (c.toNat - 48) * 10 ^ e.length := Nat.mul_le_mul_right _ hpos
      _ ≤ digitsValue 0 (c :: e) := by rw [digitsValue_cons]; exact Nat.le_add_right _ _

theorem toNat_lt_iff {c d : Char} : c.toNat < d.toNat ↔ c < d := Iff.rfl

/-- Texts of one length are ordered like their numbers. -/
theorem digitsValue_lt_iff_of_length_eq {d e : List Char} (hd : ∀ c ∈ d, IsDigit c) (he : ∀ c ∈ e, IsDigit c)
    (h : d.length = e.length) : digitsValue 0 d < digitsValue 0 e ↔ d < e := by
  induction d generalizing e with
  | nil =>
    cases e with
    | nil => simp
    | cons _ _ => simp at h
  | cons c d ih =>
    cases e with
    | nil => simp at h
    | cons c' e =>
      have hlen : d.length = e.length := by simpa using h
      have hdrest := fun x hx => hd x (List.mem_cons_of_mem c hx)
      have herest := fun x hx => he x (List.mem_cons_of_mem c' hx)
      have hdlt := digitsValue_lt hdrest
      have helt := digitsValue_lt herest
      have hc := hd c List.mem_cons_self
      have hc' := he c' List.mem_cons_self
      rw [digitsValue_cons, digitsValue_cons, List.cons_lt_cons_iff, ← ih hdrest herest hlen, ← toNat_lt_iff, hlen]
      rw [hlen] at hdlt
      rcases Nat.lt_trichotomy c.toNat c'.toNat with hlt | heq | hgt
      · have hmul : (c.toNat - 48 + 1) * 10 ^ e.length ≤ (c'.toNat - 48) * 10 ^ e.length :=
          Nat.mul_le_mul_right _ (by have := hc.1; omega)
        rw [Nat.add_mul] at hmul
        simp only [hlt, true_or, iff_true]
        omega
      · have hsame : c = c' := by rw [← Char.ofNat_toNat c, heq, Char.ofNat_toNat]
        subst hsame
        simp
      · have hmul : (c'.toNat - 48 + 1) * 10 ^ e.length ≤ (c.toNat - 48) * 10 ^ e.length :=
          Nat.mul_le_mul_right _ (by have := hc'.1; omega)
        have hne : c ≠ c' := fun heq => by rw [heq] at hgt; exact Nat.lt_irrefl _ hgt
        rw [Nat.add_mul] at hmul
        simp only [Nat.not_lt.mpr (Nat.le_of_lt hgt), hne, false_and, or_self, iff_false]
        omega

section
variable {d e : List Char}

/-- Where a longer text does not begin with a zero, numbers are compared by length and then by text. -/
theorem digitsValue_lt_iff (hd : ∀ c ∈ d, IsDigit c) (he : ∀ c ∈ e, IsDigit c)
    (hdzero : e.length < d.length → d.head? ≠ some '0') (hezero : d.length < e.length → e.head? ≠ some '0') :
    digitsValue 0 d < digitsValue 0 e ↔ d.length < e.length ∨ d.length = e.length ∧ d < e := by
  rcases Nat.lt_trichotomy d.length e.length with hlt | heq | hgt
  · simp only [hlt, true_or, iff_true]
    exact digitsValue_lt_of_length_lt hd he (hezero hlt) hlt
  · rw [digitsValue_lt_iff_of_length_eq hd he heq]
    simp [heq]
  · have hvalue := digitsValue_lt_of_length_lt he hd (hdzero hgt) hgt
    constructor
    · intro h
      omega
    · rintro (h | ⟨h, _⟩) <;> omega

theorem digitsValue_eq_iff (hd : ∀ c ∈ d, IsDigit c) (he : ∀ c ∈ e, IsDigit c)
    (hdzero : e.length < d.length → d.head? ≠ some '0') (hezero : d.length < e.length → e.head? ≠ some '0') :
    digitsValue 0 d = digitsValue 0 e ↔ d = e := by
  constructor
  · intro h
    have hnot := (digitsValue_lt_iff hd he hdzero hezero).not.mp (by omega)
    have hnot' := (digitsValue_lt_iff he hd hezero hdzero).not.mp (by omega)
    rw [not_or, not_and] at hnot hnot'
    have hlen : d.length = e.length := by omega
    exact le_antisymm (not_lt.mp (hnot'.2 hlen.symm)) (not_lt.mp (hnot.2 hlen))
  · intro h
    rw [h]

end

namespace Numeral
variable {d e : Numeral}

theorem isDigit_significant (d : Numeral) : ∀ c ∈ d.significant, IsDigit c :=
  fun c hc => d.isDigit c ((List.dropWhile_sublist _).mem hc)

theorem head?_significant (d : Numeral) : d.significant.head? ≠ some '0' := by
  intro h
  have hnot := List.head?_dropWhile_not (fun c => decide (c = '0')) d.digits
  rw [significant] at h
  rw [h] at hnot
  simp at hnot

theorem value_significant (d : Numeral) : d.value = digitsValue 0 d.significant :=
  (digitsValue_dropWhile d.digits).symm

/-- The number of the first is less, by the significant digits. -/
def Less (d e : Numeral) : Prop :=
  d.significant.length < e.significant.length ∨
    d.significant.length = e.significant.length ∧ d.significant < e.significant

theorem value_lt_iff : d.value < e.value ↔ d.Less e := by
  rw [value_significant, value_significant, digitsValue_lt_iff d.isDigit_significant e.isDigit_significant
    (fun _ => d.head?_significant) (fun _ => e.head?_significant)]
  rfl

theorem value_eq_iff : d.value = e.value ↔ d.significant = e.significant := by
  rw [value_significant, value_significant, digitsValue_eq_iff d.isDigit_significant e.isDigit_significant
    (fun _ => d.head?_significant) (fun _ => e.head?_significant)]

theorem Canonical.head? (h : e.Canonical) (hlt : d.digits.length < e.digits.length) : e.digits.head? ≠ some '0' := by
  have hpos := List.length_pos_iff.mpr d.nonempty
  rcases h with h | h
  · omega
  · exact h

theorem Canonical.value_eq_iff (hd : d.Canonical) (he : e.Canonical) : d.value = e.value ↔ d.digits = e.digits :=
  digitsValue_eq_iff d.isDigit e.isDigit hd.head? he.head?

/-- Of numbers without leading zeros, one that is before in the alphabet is greater only if it is longer. -/
theorem Canonical.value_lt_iff (hd : d.Canonical) (he : e.Canonical) (h : e.digits < d.digits) :
    d.value < e.value ↔ d.digits.length < e.digits.length := by
  rw [value, value, digitsValue_lt_iff d.isDigit e.isDigit hd.head? he.head?]
  constructor
  · rintro (hlt | ⟨_, hlt⟩)
    · exact hlt
    · exact absurd hlt (lt_asymm h)
  · exact .inl

end Numeral

/-! ## Versions -/

/-- Numbers with dots between them. -/
structure Version where
  head : Numeral
  tail : List Numeral

namespace Version

def components (v : Version) : List Numeral := v.head :: v.tail

/-- Components with a dot before each. -/
def dotted (ds : List Numeral) : List Char := ds.flatMap fun d => '.' :: d.digits

def text (v : Version) : List Char := v.head.digits ++ dotted v.tail

/-- The numbers of the components, which are compared from the left. -/
def key (v : Version) : List Nat := v.components.map Numeral.value

/-- At the first component in which their numbers differ, the second has the greater one. -/
def Outgrown : List Numeral → List Numeral → Prop
  | _, [] => False
  | [], _ :: _ => True
  | c :: cs, w :: ws => if c.significant = w.significant then Outgrown cs ws else c.Less w

/-- At the first component in which their texts differ, the second has the longer one. -/
def LongerAt : List Numeral → List Numeral → Prop
  | c :: cs, w :: ws => if c.digits = w.digits then LongerAt cs ws else c.digits.length < w.digits.length
  | _, _ => False

instance decidableLongerAt : (cs ws : List Numeral) → Decidable (LongerAt cs ws)
  | [], _ => isFalse (by simp [LongerAt])
  | _ :: _, [] => isFalse (by simp [LongerAt])
  | c :: cs, w :: ws =>
    have := decidableLongerAt cs ws
    inferInstanceAs (Decidable (if c.digits = w.digits then _ else _))

theorem map_value_lt_iff (cs ws : List Numeral) :
    cs.map Numeral.value < ws.map Numeral.value ↔ Outgrown cs ws := by
  induction cs generalizing ws with
  | nil =>
    cases ws with
    | nil => simp [Outgrown]
    | cons w ws => simp [Outgrown]
  | cons c cs ih =>
    cases ws with
    | nil => simp [Outgrown]
    | cons w ws =>
      rw [List.map_cons, List.map_cons, List.cons_lt_cons_iff, Numeral.value_lt_iff, Numeral.value_eq_iff, ih, Outgrown]
      split
      · next h =>
        have hnot : ¬ c.Less w := by
          rw [← Numeral.value_lt_iff, Numeral.value_eq_iff.mpr h]
          exact Nat.lt_irrefl _
        simp [hnot, h]
      · next h => simp [h]

theorem key_lt_iff (v w : Version) : v.key < w.key ↔ Outgrown v.components w.components :=
  map_value_lt_iff v.components w.components

/-- Before a dot, or the end, texts of digits are compared first. -/
theorem lt_or_eq_of_append_le {d e x y : List Char} (hd : ∀ c ∈ d, IsDigit c)
    (hy : y = [] ∨ ∃ y', y = '.' :: y') (h : d ++ x ≤ e ++ y) : d < e ∨ d = e ∧ x ≤ y := by
  induction d generalizing e with
  | nil =>
    cases e with
    | nil => exact .inr ⟨rfl, h⟩
    | cons c e => exact .inl (List.nil_lt_cons c e)
  | cons c d ih =>
    have hdot : '.' < c := by
      rw [← toNat_lt_iff]
      have hc := (hd c List.mem_cons_self).1
      show 46 < c.toNat
      omega
    cases e with
    | nil =>
      exfalso
      rcases hy with rfl | ⟨y', rfl⟩
      · exact absurd h (not_le.mpr (List.nil_lt_cons c (d ++ x)))
      · exact absurd h (not_le.mpr (List.cons_lt_cons_iff.mpr (.inl hdot)))
    | cons c' e =>
      rcases lt_trichotomy c c' with hlt | rfl | hgt
      · exact .inl (List.cons_lt_cons_iff.mpr (.inl hlt))
      · have hrest : d ++ x ≤ e ++ y := by
          rw [← not_lt] at h ⊢
          exact fun hlt => h (List.cons_lt_cons_iff.mpr (.inr ⟨rfl, hlt⟩))
        rcases ih (fun x hx => hd x (List.mem_cons_of_mem _ hx)) hrest with hlt | ⟨rfl, hle⟩
        · exact .inl (List.cons_lt_cons_iff.mpr (.inr ⟨rfl, hlt⟩))
        · exact .inr ⟨rfl, hle⟩
      · exact absurd h (not_le.mpr (List.cons_lt_cons_iff.mpr (.inl hgt)))

theorem dotted_eq (ds : List Numeral) : dotted ds = [] ∨ ∃ y, dotted ds = '.' :: y := by
  cases ds with
  | nil => exact .inl rfl
  | cons d ds => exact .inr ⟨d.digits ++ dotted ds, by simp [dotted]⟩

theorem dotted_cons (d : Numeral) (ds : List Numeral) : dotted (d :: ds) = '.' :: (d.digits ++ dotted ds) := by
  simp [dotted]

theorem cons_le_cons_iff {c : Char} {x y : List Char} : c :: x ≤ c :: y ↔ x ≤ y := by
  rw [← not_lt, ← not_lt, List.cons_lt_cons_iff]
  simp

/-- Without leading zeros, a version that is not after another in the alphabet is greater only by a
longer component. -/
theorem outgrown_iff_longerAt {cs ws : List Numeral} (hcs : ∀ c ∈ cs, c.Canonical) (hws : ∀ w ∈ ws, w.Canonical)
    (h : dotted ws ≤ dotted cs) : Outgrown cs ws ↔ LongerAt cs ws := by
  induction cs generalizing ws with
  | nil =>
    cases ws with
    | nil => simp [Outgrown, LongerAt]
    | cons w ws =>
      rw [dotted_cons] at h
      exact absurd h (not_le.mpr (List.nil_lt_cons _ _))
  | cons c cs ih =>
    cases ws with
    | nil => simp [Outgrown, LongerAt]
    | cons w ws =>
      have hc := hcs c List.mem_cons_self
      have hw := hws w List.mem_cons_self
      rw [dotted_cons, dotted_cons, cons_le_cons_iff] at h
      have hiff : c.significant = w.significant ↔ c.digits = w.digits :=
        Numeral.value_eq_iff.symm.trans (hc.value_eq_iff hw)
      rw [Outgrown, LongerAt]
      rcases lt_or_eq_of_append_le w.isDigit (dotted_eq cs) h with hlt | ⟨heq, hle⟩
      · have hne : c.digits ≠ w.digits := Ne.symm (ne_of_lt hlt)
        rw [if_neg (hiff.not.mpr hne), if_neg hne, ← Numeral.value_lt_iff, hc.value_lt_iff hw hlt]
      · rw [if_pos (hiff.mpr heq.symm), if_pos heq.symm]
        exact ih (fun x hx => hcs x (List.mem_cons_of_mem _ hx)) (fun x hx => hws x (List.mem_cons_of_mem _ hx)) hle

theorem dotted_components (v : Version) : dotted v.components = '.' :: v.text := by
  rw [components, dotted_cons]
  rfl

theorem append_inj {d e x y : List Char} (hd : ∀ c ∈ d, IsDigit c) (he : ∀ c ∈ e, IsDigit c)
    (hx : x = [] ∨ ∃ x', x = '.' :: x') (hy : y = [] ∨ ∃ y', y = '.' :: y') (h : d ++ x = e ++ y) : d = e ∧ x = y := by
  rcases lt_or_eq_of_append_le hd hy (le_of_eq h) with hlt | ⟨heq, hle⟩
  · rcases lt_or_eq_of_append_le he hx (ge_of_eq h) with hgt | ⟨heq, _⟩
    · exact absurd hgt (lt_asymm hlt)
    · exact absurd hlt (heq ▸ lt_irrefl e)
  · subst heq
    exact ⟨rfl, List.append_cancel_left h⟩

theorem dotted_inj {ds es : List Numeral} (h : dotted ds = dotted es) : ds = es := by
  induction ds generalizing es with
  | nil =>
    cases es with
    | nil => rfl
    | cons e es =>
      rw [dotted_cons] at h
      cases h
  | cons d ds ih =>
    cases es with
    | nil =>
      rw [dotted_cons] at h
      cases h
    | cons e es =>
      rw [dotted_cons, dotted_cons, List.cons.injEq] at h
      obtain ⟨hdigits, hrest⟩ := append_inj d.isDigit e.isDigit (dotted_eq ds) (dotted_eq es) h.2
      have hhead : d = e := by
        cases d
        cases e
        simpa using hdigits
      rw [hhead, ih hrest]

theorem text_inj {v w : Version} (h : v.text = w.text) : v = w := by
  have hcomponents : v.components = w.components := by
    apply dotted_inj
    rw [dotted_components, dotted_components, h]
  cases v
  cases w
  simpa [components] using hcomponents

/-- No component has a leading zero. -/
def Canonical (v : Version) : Prop := ∀ d ∈ v.components, d.Canonical

theorem outgrown_iff_longer {v w : Version} (hv : v.Canonical) (hw : w.Canonical) (h : w.text ≤ v.text) :
    Outgrown v.components w.components ↔ LongerAt v.components w.components := by
  apply outgrown_iff_longerAt hv hw
  rw [dotted_components, dotted_components, cons_le_cons_iff]
  exact h

end Version

/-! ## The first match -/

/-- What is found first in a list sorted downwards is the greatest that can be found. -/
theorem find?_mergeSort_ge {α : Type} [LinearOrder α] {p : α → Bool} {l : List α} {a : α}
    (h : (l.mergeSort fun x y => decide (y ≤ x)).find? p = some a) : a ∈ l ∧ p a = true ∧ ∀ b ∈ l, p b = true → b ≤ a := by
  have hsorted : (l.mergeSort fun x y => decide (y ≤ x)).Pairwise fun x y => decide (y ≤ x) = true :=
    List.pairwise_mergeSort (by simpa using fun x y z hyx hzy => le_trans hzy hyx)
      (by simpa using fun x y => le_total y x) l
  obtain ⟨ha, pre, post, happend, hpre⟩ := List.find?_eq_some_iff_append.mp h
  have hmem : ∀ b, b ∈ l ↔ b ∈ pre ++ a :: post := by
    intro b
    rw [← happend, List.mem_mergeSort]
  refine ⟨(hmem a).mpr (by simp), ha, ?_⟩
  intro b hb hpb
  rcases List.mem_append.mp ((hmem b).mp hb) with hb | hb
  · have hnot := hpre b hb
    rw [hpb] at hnot
    cases hnot
  · rcases List.mem_cons.mp hb with rfl | hb
    · exact le_refl b
    · rw [happend, List.pairwise_append, List.pairwise_cons] at hsorted
      exact of_decide_eq_true (hsorted.2.1.1 b hb)

end Lib
