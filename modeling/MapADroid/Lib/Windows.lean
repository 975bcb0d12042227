import Mathlib.Algebra.Order.Group.Defs
import Mathlib.Algebra.Order.Ring.Int
import Mathlib.Data.Int.ModEq
import Mathlib.Data.List.Chain
import Mathlib.Order.Bounds.Basic

/- Windows of one width, opened at moments that do not decrease.

   A moment between the first and the last opening lies in one of the windows exactly if
   it is in no gap between two that follow each other. At the end the moments that come back
   with a period, such as a minute and second of every hour. -/
namespace Lib

variable {K : Type} [AddCommGroup K] [LinearOrder K] [IsOrderedAddMonoid K]

/-- `s` is not after the window opened at `r` and before the next one, opened at `r'`. -/
def NoGap (w s r r' : K) : Prop := s ≤ r + w ∨ r' ≤ s

instance (w s r r' : K) : Decidable (NoGap w s r r') := inferInstanceAs (Decidable (_ ∨ _))

theorem isChain_of_covered {w s r : K} (hr : r ≤ s) (hs : s ≤ r + w) :
    ∀ {rs : List K}, rs.Pairwise (· ≤ ·) → r ∈ rs → rs.IsChain (NoGap w s)
  | [], _, _ => .nil
  | [a], _, _ => .singleton a
  | a :: b :: l, hsorted, hmem => by
    have htail := (List.pairwise_cons.mp hsorted).2
    rcases List.mem_cons.mp hmem with rfl | hmem
    · -- The window of the first opening reaches `s`, so those of the later ones do.
      have hreach : ∀ x ∈ r :: b :: l, s ≤ x + w := by
        intro x hx
        rcases List.mem_cons.mp hx with rfl | hx
        · exact hs
        · exact hs.trans (add_le_add_left ((List.pairwise_cons.mp hsorted).1 x hx) w)
      have htrivial : (r :: b :: l).IsChain fun _ _ => True := by
        apply List.Pairwise.isChain
        exact List.pairwise_of_forall fun _ _ => trivial
      exact htrivial.imp_of_mem_imp fun x y hx _ _ => .inl (hreach x hx)
    · have hb : b ≤ r := by
        rcases List.mem_cons.mp hmem with rfl | hl
        · exact le_refl r
        · exact (List.pairwise_cons.mp htail).1 r hl
      exact .cons_cons (.inr (hb.trans hr)) (isChain_of_covered hr hs htail hmem)

theorem covered_of_isChain {w s : K} (hw : 0 ≤ w) :
    ∀ {rs : List K}, rs.IsChain (NoGap w s) → (∃ r ∈ rs.head?, r ≤ s) → (∃ r ∈ rs.getLast?, s ≤ r) →
      ∃ r ∈ rs, r ≤ s ∧ s ≤ r + w
  | [], _, hfirst, _ => by
    obtain ⟨r, hr, _⟩ := hfirst
    cases hr
  | [a], _, hfirst, hlast => by
    obtain ⟨r, hr, hrs⟩ := hfirst
    obtain ⟨r', hr', hsr⟩ := hlast
    cases hr
    cases hr'
    exact ⟨a, by simp, hrs, hsr.trans (le_add_of_nonneg_right hw)⟩
  | a :: b :: l, hchain, hfirst, hlast => by
    obtain ⟨r, hr, hrs⟩ := hfirst
    cases hr
    by_cases hb : b ≤ s
    · have hrest := covered_of_isChain hw hchain.of_cons ⟨b, rfl, hb⟩ (by simpa using hlast)
      obtain ⟨r, hr, hcovered⟩ := hrest
      exact ⟨r, List.mem_cons_of_mem a hr, hcovered⟩
    · exact ⟨a, by simp, hrs, hchain.rel.resolve_right hb⟩

/-- Between the first and the last opening, what is in a window is what is in no gap. -/
theorem covered_iff {w s : K} (hw : 0 ≤ w) {rs : List K} (hsorted : rs.Pairwise (· ≤ ·))
    (hfirst : ∃ r ∈ rs.head?, r ≤ s) (hlast : ∃ r ∈ rs.getLast?, s ≤ r) :
    (∃ r ∈ rs, r ≤ s ∧ s ≤ r + w) ↔ rs.IsChain (NoGap w s) := by
  constructor
  · intro h
    obtain ⟨r, hmem, hr, hs⟩ := h
    exact isChain_of_covered hr hs hsorted hmem
  · intro h
    exact covered_of_isChain hw h hfirst hlast

/-! ## Periods -/

/-- The moments from `now` on that are at `place` in their period. -/
def Ahead (period now place : Int) : Set Int := {t | now ≤ t ∧ t % period = place}

/-- The first of them comes within a period. -/
theorem isLeast_ahead_iff {period now place t : Int} (h : 0 < period) :
    IsLeast (Ahead period now place) t ↔ now ≤ t ∧ t < now + period ∧ t % period = place := by
  constructor
  · rintro ⟨⟨hnow, hplace⟩, hleast⟩
    refine ⟨hnow, ?_, hplace⟩
    by_contra hlate
    have hbefore : t - period ∈ Ahead period now place :=
      ⟨by omega, by rw [Int.sub_emod_right, hplace]⟩
    have := hleast hbefore
    omega
  · rintro ⟨hnow, hsoon, hplace⟩
    refine ⟨⟨hnow, hplace⟩, ?_⟩
    rintro t' ⟨hnow', hplace'⟩
    by_contra hless
    have hdvd : period ∣ t - t' :=
      Int.dvd_of_emod_eq_zero (Int.emod_eq_emod_iff_emod_sub_eq_zero.mp (hplace.trans hplace'.symm))
    have := Int.le_of_dvd (by omega) hdvd
    omega

/-- The first moment from `now` on at `place`. -/
def firstAhead (period now place : Int) : Int := now + (place - now) % period

theorem isLeast_firstAhead {period now place : Int} (h0 : 0 ≤ place) (h : place < period) :
    IsLeast (Ahead period now place) (firstAhead period now place) := by
  have hperiod : 0 < period := h0.trans_lt h
  have hfrom := Int.emod_nonneg (place - now) hperiod.ne'
  have hto := Int.emod_lt_of_pos (place - now) hperiod
  refine (isLeast_ahead_iff hperiod).mpr ⟨by unfold firstAhead; omega, by unfold firstAhead; omega, ?_⟩
  rw [firstAhead, Int.add_emod_emod, add_sub_cancel, Int.emod_eq_of_lt h0 h]

end Lib
