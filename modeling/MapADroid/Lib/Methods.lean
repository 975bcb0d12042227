import Mathlib.Init

/- Methods that change a state and may raise.

   What a method has changed stays when it raises. `call` runs it; the lemmas beside it say
   what each construct makes of a state, so that `simp` runs a method on the outcomes of a
   case. -/
namespace Lib

variable {σ ε α β : Type}

abbrev Method (σ ε α : Type) := ExceptT ε (StateM σ) α

/-- What a method returns or raises, and the state it leaves. -/
def call (m : Method σ ε α) (s : σ) : Except ε α × σ := m.run.run s

/-- `try`, with assignments in `finally`. -/
def ensure (m : Method σ ε α) (f : σ → σ) : Method σ ε α := fun s => ((call m s).1, f (call m s).2)

/-- What comes after a method: nothing, if it raised. -/
def andThen (f : α → Method σ ε β) : Except ε α × σ → Except ε β × σ
  | (.ok a, s) => call (f a) s
  | (.error e, s) => (.error e, s)

/-- What handles an error: it goes on in the state that was left. -/
def recover (h : ε → Method σ ε α) : Except ε α × σ → Except ε α × σ
  | (.ok a, s) => (.ok a, s)
  | (.error e, s) => call (h e) s

/-- `try`, with `except`. -/
def handling (m : Method σ ε α) (h : ε → Method σ ε α) : Method σ ε α := fun s => recover h (call m s)

/-- What is done at last: where it raises, that is raised. -/
def atLast (f : Method σ ε Unit) : Except ε α × σ → Except ε α × σ
  | (result, s) =>
    match call f s with
    | (.ok _, t) => (result, t)
    | (.error e, t) => (.error e, t)

/-- `try`, with a method in `finally`. -/
def finishing (m : Method σ ε α) (f : Method σ ε Unit) : Method σ ε α := fun s => atLast f (call m s)

@[simp] theorem andThen_ok (f : α → Method σ ε β) (a : α) (s : σ) :
    andThen f (.ok a, s) = call (f a) s := rfl

@[simp] theorem andThen_error (f : α → Method σ ε β) (e : ε) (s : σ) :
    andThen f (.error e, s) = (.error e, s) := rfl

@[simp] theorem recover_ok (h : ε → Method σ ε α) (a : α) (s : σ) :
    recover h (.ok a, s) = (.ok a, s) := rfl

@[simp] theorem recover_error (h : ε → Method σ ε α) (e : ε) (s : σ) :
    recover h (.error e, s) = call (h e) s := rfl

@[simp] theorem call_pure (a : α) (s : σ) : call (pure a : Method σ ε α) s = (.ok a, s) := rfl

@[simp] theorem call_throw (e : ε) (s : σ) : call (throw e : Method σ ε α) s = (.error e, s) := rfl

@[simp] theorem call_get (s : σ) : call (get : Method σ ε σ) s = (.ok s, s) := rfl

@[simp] theorem call_modify (f : σ → σ) (s : σ) :
    call (modify f : Method σ ε PUnit) s = (.ok ⟨⟩, f s) := rfl

@[simp] theorem call_ensure (m : Method σ ε α) (f : σ → σ) (s : σ) :
    call (ensure m f) s = ((call m s).1, f (call m s).2) := rfl

@[simp] theorem call_handling (m : Method σ ε α) (h : ε → Method σ ε α) (s : σ) :
    call (handling m h) s = recover h (call m s) := rfl

@[simp] theorem call_finishing (m : Method σ ε α) (f : Method σ ε Unit) (s : σ) :
    call (finishing m f) s = atLast f (call m s) := rfl

/-- What is done at last decides on the state. -/
theorem atLast_snd (f : Method σ ε Unit) (r : Except ε α × σ) : (atLast f r).2 = (call f r.2).2 := by
  unfold atLast
  cases hcall : call f r.2 with
  | mk result t => cases result <;> simp [hcall]

@[simp] theorem call_bind (m : Method σ ε α) (f : α → Method σ ε β) (s : σ) :
    call (m >>= f) s = andThen f (call m s) := by
  show (ExceptT.bindCont f (call m s).1).run (call m s).2 = andThen f (call m s)
  cases call m s with
  | mk result t => cases result <;> rfl

/-- A result comes from one of each part. -/
theorem call_bind_eq_ok_iff {m : Method σ ε α} {f : α → Method σ ε β} {s t : σ} {b : β} :
    call (m >>= f) s = (.ok b, t) ↔ ∃ a u, call m s = (.ok a, u) ∧ call (f a) u = (.ok b, t) := by
  rw [call_bind]
  cases call m s with
  | mk result u =>
    cases result with
    | error e => simp
    | ok a =>
      constructor
      · intro h
        exact ⟨a, u, rfl, h⟩
      · rintro ⟨a', u', heq, h⟩
        obtain ⟨ha, rfl⟩ := Prod.mk.inj heq
        obtain rfl := Except.ok.inj ha
        exact h

@[simp] theorem call_map (f : α → β) (m : Method σ ε α) (s : σ) :
    call (f <$> m) s = andThen (fun a => pure (f a)) (call m s) := by
  rw [← bind_pure_comp, call_bind]

@[simp] theorem call_ite (c : Prop) [Decidable c] (m m' : Method σ ε α) (s : σ) :
    call (if c then m else m') s = if c then call m s else call m' s := by
  split <;> rfl

/-! ## Results -/

section
variable {δ : Type}

@[simp] theorem ok_bind (a : α) (f : α → Except ε β) : (Except.ok a >>= f) = f a := rfl

@[simp] theorem error_bind (e : ε) (f : α → Except ε β) : (Except.error e >>= f) = .error e := rfl

theorem bind_eq_ok_iff {r : Except ε α} {f : α → Except ε β} {b : β} :
    r >>= f = .ok b ↔ ∃ a, r = .ok a ∧ f a = .ok b := by
  cases r with
  | error e => simp
  | ok a => simp

@[simp] theorem mapError_ok (g : ε → δ) (a : α) : (Except.ok a).mapError g = .ok a := rfl

@[simp] theorem mapError_error (g : ε → δ) (e : ε) : (Except.error e : Except ε α).mapError g = .error (g e) := rfl

theorem mapError_eq_ok_iff {g : ε → δ} {r : Except ε α} {a : α} : r.mapError g = .ok a ↔ r = .ok a := by
  cases r with
  | error e => simp
  | ok a => simp

end

/-! ## What raises -/

/-- Whatever the state: `m` raises an error of `E` if `p`, and returns if not, and `f` of the state stays. -/
structure Settles {γ : Type} (E : ε → Prop) (f : σ → γ) (p : Prop) (m : Method σ ε α) : Prop where
  kept : ∀ s, f (call m s).2 = f s
  raises : p → ∀ s, ∃ e, E e ∧ (call m s).1 = .error e
  returns : ¬p → ∀ s, ∃ a, (call m s).1 = .ok a

namespace Settles
variable {γ : Type} {E : ε → Prop} {f : σ → γ} {p q : Prop} {m : Method σ ε α}

theorem congr (h : p ↔ q) (hm : Settles E f p m) : Settles E f q m :=
  ⟨hm.kept, fun hq => hm.raises (h.mpr hq), fun hq => hm.returns fun hp => hq (h.mp hp)⟩

theorem pure (a : α) : Settles E f False (pure a : Method σ ε α) :=
  ⟨fun _ => rfl, False.elim, fun _ _ => ⟨a, rfl⟩⟩

theorem modify {g : σ → σ} (h : ∀ s, f (g s) = f s) : Settles E f False (modify g : Method σ ε PUnit) :=
  ⟨h, False.elim, fun _ _ => ⟨⟨⟩, rfl⟩⟩

/-- A method that starts from the state settles if it does from every state. -/
theorem get {k : σ → Method σ ε α} (h : ∀ s, Settles E f p (k s)) :
    Settles E f p ((MonadState.get : Method σ ε σ) >>= k) where
  kept s := (h s).kept s
  raises hp s := (h s).raises hp s
  returns hp s := (h s).returns hp s

theorem bind {k : α → Method σ ε β} (hm : Settles E f p m) (hk : ∀ a, Settles E f q (k a)) :
    Settles E f (p ∨ q) (m >>= k) where
  kept s := by
    have hkept := hm.kept s
    rw [call_bind]
    cases hcall : call m s with
    | mk result t =>
      rw [hcall] at hkept
      cases result with
      | error e => exact hkept
      | ok a => exact ((hk a).kept t).trans hkept
  raises hpq s := by
    rw [call_bind]
    by_cases hp : p
    · obtain ⟨e, he, herr⟩ := hm.raises hp s
      cases hcall : call m s with
      | mk result t =>
        rw [hcall] at herr
        cases herr
        exact ⟨e, he, rfl⟩
    · obtain ⟨a, ha⟩ := hm.returns hp s
      cases hcall : call m s with
      | mk result t =>
        rw [hcall] at ha
        cases ha
        exact (hk a).raises (hpq.resolve_left hp) t
  returns hpq s := by
    rw [call_bind]
    obtain ⟨a, ha⟩ := hm.returns (fun hp => hpq (.inl hp)) s
    cases hcall : call m s with
    | mk result t =>
      rw [hcall] at ha
      cases ha
      exact (hk a).returns (fun hq => hpq (.inr hq)) t

end Settles

end Lib
