import MapADroid.Accounts.AccountHandler
import MapADroid.Lib.Leases
import MapADroid.Lib.Run

/- Accounts are handed out exclusively.

   Only `get_account` assigns, and under its lock; the others take assignments away at
   most. So from when an account is chosen until it is assigned, it can only get freer,
   and the device that gets it has none but the one that was read (`Ready`). Hence no
   device ever has two accounts, and an account that was returned is not returned to
   another device until its device got another or logged out (`handed_out_exclusively`). -/
namespace MapADroid.Accounts
open Lib

/-- The device an account is assigned to. -/
def deviceOf (accounts : Dict Int SettingsPogoauth) (account : Int) : Option Int :=
  (accounts.get? account).bind (·.deviceId)

/-- Every device has at most one account. -/
def AtMostOne (accounts : Dict Int SettingsPogoauth) : Prop :=
  ∀ d x y, deviceOf accounts x = some d → deviceOf accounts y = some d → x = y

/-! ## Assignments -/

variable {accounts : Dict Int SettingsPogoauth}

theorem deviceOf_modify (x y : Int) (f : SettingsPogoauth → SettingsPogoauth) :
    deviceOf (accounts.modify x f) y =
      if y = x then (accounts.get? y).bind fun auth => (f auth).deviceId else deviceOf accounts y := by
  unfold deviceOf
  rw [Dict.get?_modify]
  split
  · exact Option.bind_map
  · rfl

theorem deviceOf_setDevice {x : Int} (y : Int) (d : Option Int) (h : x ∈ accounts.keys) :
    deviceOf (State.setDevice accounts x d) y = if y = x then d else deviceOf accounts y := by
  rw [State.setDevice, deviceOf_modify]
  split
  · next hy =>
    obtain ⟨auth, hauth⟩ := Dict.mem_keys_iff.mp h
    rw [hy, hauth]
    rfl
  · rfl

theorem getAssignedToDevice_some {d x : Int} (h : getAssignedToDevice accounts d = some x) :
    x ∈ accounts.keys ∧ deviceOf accounts x = some d := by
  obtain ⟨i, hfind, rfl⟩ := Option.map_eq_some_iff.mp h
  have hget : accounts.get? i.1 = some i.2 := Dict.get?_eq_some_iff.mpr (List.mem_of_find?_eq_some hfind)
  have hdevice : i.2.deviceId = some d := by simpa using List.find?_some hfind
  exact ⟨Dict.mem_keys_iff.mpr ⟨i.2, hget⟩, by rw [deviceOf, hget]; exact hdevice⟩

theorem getAssignedToDevice_isSome {d x : Int} (h : deviceOf accounts x = some d) :
    (getAssignedToDevice accounts d).isSome := by
  obtain ⟨auth, hauth, hd⟩ := Option.bind_eq_some_iff.mp h
  rw [getAssignedToDevice, Option.isSome_map, List.find?_isSome]
  exact ⟨(x, auth), Dict.get?_eq_some_iff.mp hauth, by simpa using hd⟩

/-- The only account a device may have is the one that is read. -/
theorem AtMostOne.getAssignedToDevice (h : AtMostOne accounts) {d x : Int} (hx : deviceOf accounts x = some d) :
    getAssignedToDevice accounts d = some x := by
  obtain ⟨y, hy⟩ := Option.isSome_iff_exists.mp (getAssignedToDevice_isSome hx)
  rw [hy, h d y x (getAssignedToDevice_some hy).2 hx]

/-! ## What the operations do to the assignments -/

/-- No account is assigned anew; those that are no longer assigned are of `d`. -/
structure Freed (d : Option Int) (s t : Dict Int SettingsPogoauth) : Prop where
  keys : t.keys = s.keys
  device : ∀ x, deviceOf t x = deviceOf s x ∨ deviceOf t x = none ∧ ∃ d', d = some d' ∧ deviceOf s x = some d'

theorem Freed.refl (d : Option Int) (s : Dict Int SettingsPogoauth) : Freed d s s := ⟨rfl, fun _ => .inl rfl⟩

theorem Freed.of_some {d : Option Int} {s t : Dict Int SettingsPogoauth} (h : Freed d s t) {x d' : Int}
    (hx : deviceOf t x = some d') : deviceOf s x = some d' := by
  rcases h.device x with heq | ⟨hnone, _⟩
  · rw [← heq, hx]
  · rw [hnone] at hx
    cases hx

theorem Freed.atMostOne {d : Option Int} {s t : Dict Int SettingsPogoauth} (h : Freed d s t) (hs : AtMostOne s) :
    AtMostOne t :=
  fun d' x y hx hy => hs d' x y (h.of_some hx) (h.of_some hy)

/-- What is not assigned, or to one device, stays so. -/
theorem Freed.free {d : Option Int} {s t : Dict Int SettingsPogoauth} (h : Freed d s t) {x d' : Int}
    (hx : deviceOf s x = none ∨ deviceOf s x = some d') : deviceOf t x = none ∨ deviceOf t x = some d' := by
  rcases h.device x with heq | ⟨hnone, _⟩
  · rw [heq]
    exact hx
  · exact .inl hnone

/-- Writing other columns of the account of a device frees none. -/
theorem freed_modifyAssigned {s : State} {d : Int} {f : SettingsPogoauth → SettingsPogoauth}
    (hf : ∀ auth, (f auth).deviceId = auth.deviceId) : Freed none s.accounts (s.modifyAssigned d f).accounts := by
  unfold State.modifyAssigned
  split
  · exact .refl _ _
  · refine ⟨Dict.keys_modify .., fun x => .inl ?_⟩
    rw [deviceOf_modify]
    simp only [hf]
    split
    · rfl
    · rfl

theorem freed_logout {s : State} {d : Int} :
    Freed (some d) s.accounts (s.modifyAssigned d fun auth => { auth with deviceId := none }).accounts := by
  unfold State.modifyAssigned
  split
  · exact .refl _ _
  · next account hassigned =>
    obtain ⟨hmem, hd⟩ := getAssignedToDevice_some hassigned
    refine ⟨Dict.keys_modify .., fun x => ?_⟩
    have hset := deviceOf_setDevice x none hmem
    rw [State.setDevice] at hset
    rw [hset]
    split
    · next hx => exact .inr ⟨rfl, d, rfl, hx ▸ hd⟩
    · exact .inl rfl

/-! ## The account chosen -/

/-- An account that is chosen is there, not assigned to another device, not burnt, and usable. -/
structure Chosen (cfg : Config) (accounts : Dict Int SettingsPogoauth) (now : ℚ) (r : Request) (account : Int) :
    Prop where
  free : deviceOf accounts account = none ∨ deviceOf accounts account = some r.deviceId
  suits : ∃ auth, accounts.get? account = some auth ∧ isBurnt now auth = some false ∧
    isUsableForPurpose cfg now auth r.purpose r.locationToScan = some true

theorem suits_eq_some_true {cfg : Config} {now : ℚ} {r : Request} {auth : SettingsPogoauth}
    (h : suits cfg now r auth = some true) :
    isBurnt now auth = some false ∧ isUsableForPurpose cfg now auth r.purpose r.locationToScan = some true := by
  unfold suits at h
  split at h
  · cases h
  · cases h
  · next hburnt => exact ⟨hburnt, h⟩

theorem chosen_of_mem {cfg : Config} {now : ℚ} {r : Request} {x : Int × SettingsPogoauth}
    (hmem : x ∈ (getAvailAccounts cfg accounts r.deviceId).items) (hsuits : suits cfg now r x.2 = some true) :
    Chosen cfg accounts now r x.1 := by
  obtain ⟨hitem, hp⟩ := List.mem_filter.mp hmem
  have hget : accounts.get? x.1 = some x.2 := Dict.get?_eq_some_iff.mpr hitem
  have hdevice : x.2.deviceId = none ∨ x.2.deviceId = some r.deviceId := by
    simpa using (Bool.and_eq_true_iff.mp hp).2
  exact ⟨by rw [deviceOf, hget]; exact hdevice, x.2, hget, suits_eq_some_true hsuits⟩

theorem chooseLogin_chosen {cfg : Config} {now : ℚ} {r : Request} {login : Int × SettingsPogoauth}
    (h : chooseLogin cfg accounts now r = some (some login)) : Chosen cfg accounts now r login.1 := by
  unfold chooseLogin at h
  split at h
  · cases h
  · dsimp only at h
    split at h
    · cases h
    · have hof : ∀ x ∈ ((getAvailAccounts cfg accounts r.deviceId).items.filter
          fun x => suits cfg now r x.2 = some true).insertionSort
            fun x y => x.2.lastBurn.getD 0 ≤ y.2.lastBurn.getD 0, Chosen cfg accounts now r x.1 := by
        intro x hx
        obtain ⟨hmem, hsuits⟩ := List.mem_filter.mp ((List.mem_insertionSort _).mp hx)
        exact chosen_of_mem hmem (of_decide_eq_true hsuits)
      split at h
      · next hfind =>
        cases h
        exact hof _ (List.mem_of_find?_eq_some hfind)
      · have hhead := List.mem_of_mem_head? (Option.some.inj h)
        exact hof _ (List.mem_filter.mp hhead).1

/-! ## Steps -/

/-- What holds of a selection until it is written. -/
structure Ready (accounts : Dict Int SettingsPogoauth) (sel : Selection) : Prop where
  login : sel.loginToUse ∈ accounts.keys
  free : deviceOf accounts sel.loginToUse = none ∨ deviceOf accounts sel.loginToUse = some sel.request.deviceId
  current : ∀ x, sel.currentlyAssigned = some x → x ∈ accounts.keys ∧
    (deviceOf accounts x = none ∨ deviceOf accounts x = some sel.request.deviceId)
  only : ∀ x, deviceOf accounts x = some sel.request.deviceId → sel.currentlyAssigned = some x

theorem Ready.freed {d : Option Int} {s t : Dict Int SettingsPogoauth} {sel : Selection} (h : Ready s sel)
    (hf : Freed d s t) : Ready t sel where
  login := hf.keys ▸ h.login
  free := hf.free h.free
  current x hx := ⟨hf.keys ▸ (h.current x hx).1, hf.free (h.current x hx).2⟩
  only x hx := h.only x (hf.of_some hx)

/-- After a selection is written, its device has the account chosen and no other, and nothing else is changed. -/
theorem Ready.deviceOf_assign {sel : Selection} (h : Ready accounts sel) (x : Int) :
    (x = sel.loginToUse → deviceOf (State.assign accounts sel) x = some sel.request.deviceId) ∧
      (x ≠ sel.loginToUse → deviceOf (State.assign accounts sel) x ≠ some sel.request.deviceId ∧
        ∀ d, d ≠ sel.request.deviceId →
          (deviceOf (State.assign accounts sel) x = some d ↔ deviceOf accounts x = some d)) := by
  unfold State.assign
  cases hcurrent : sel.currentlyAssigned with
  | none =>
    dsimp only
    rw [deviceOf_setDevice x _ h.login]
    refine ⟨fun hx => if_pos hx, fun hx => ?_⟩
    rw [if_neg hx]
    refine ⟨fun hd => ?_, fun d _ => Iff.rfl⟩
    have honly := h.only x hd
    rw [hcurrent] at honly
    cases honly
  | some y =>
    dsimp only
    obtain ⟨hy, hydevice⟩ := h.current y hcurrent
    have hlogin : sel.loginToUse ∈ (State.setDevice accounts y none).keys := by
      rw [State.setDevice, Dict.keys_modify]
      exact h.login
    rw [deviceOf_setDevice x _ hlogin]
    refine ⟨fun hx => if_pos hx, fun hx => ?_⟩
    rw [if_neg hx, deviceOf_setDevice x _ hy]
    by_cases hxy : x = y
    · -- the account given up
      subst hxy
      rw [if_pos rfl]
      refine ⟨fun hd => (by cases hd), fun d hd => ⟨fun hnone => (by cases hnone), fun hx => ?_⟩⟩
      rcases hydevice with hnone | hsome
      · rw [hnone] at hx; cases hx
      · rw [hsome] at hx; exact absurd (Option.some.inj hx).symm hd
    · rw [if_neg hxy]
      refine ⟨fun hd => ?_, fun d _ => Iff.rfl⟩
      have honly := h.only x hd
      rw [hcurrent] at honly
      exact hxy (Option.some.inj honly).symm

namespace State

/-- What becomes known to the devices: an account is returned, or a logout was notified. -/
def leases (s : State) : Action → List (Lease Int Int)
  | .commit =>
    match s.assigning with
    | some (.selected sel) => [.given sel.request.deviceId sel.loginToUse]
    | _ => []
  | .notifyLogout deviceId => [.ended deviceId]
  | _ => []

/-- The kinds of steps: `get_account` begins, or ends without an account; it chooses one; it returns it;
another operation. -/
theorem step_cases {cfg : Config} {s t : State} {a : Action} (h : step cfg s a = some t) :
    (t.accounts = s.accounts ∧ (∀ sel, t.assigning ≠ some (.selected sel)) ∧ leases s a = []) ∨
      (∃ now r login, a = .select now ∧ s.assigning = some (.querying r) ∧
        chooseLogin cfg s.accounts now r = some (some login) ∧ t.accounts = s.accounts ∧
        t.assigning = some (.selected ⟨r, login.1, getAssignedToDevice s.accounts r.deviceId⟩)) ∨
      (∃ sel, a = .commit ∧ s.assigning = some (.selected sel) ∧ t = ⟨assign s.accounts sel, none⟩ ∧
        leases s a = [.given sel.request.deviceId sel.loginToUse]) ∨
      (t.assigning = s.assigning ∧ ((Freed none s.accounts t.accounts ∧ leases s a = []) ∨
        ∃ d, Freed (some d) s.accounts t.accounts ∧ leases s a = [.ended d])) := by
  have hassigning : ∀ d f, (s.modifyAssigned d f).assigning = s.assigning := by
    intro d f
    unfold modifyAssigned
    split
    · rfl
    · rfl
  cases a with
  | lock r =>
    simp only [step] at h
    split at h
    · cases h; exact .inl ⟨rfl, fun _ hne => (by cases hne), rfl⟩
    · cases h
  | select now =>
    simp only [step] at h
    split at h
    · next r hquerying =>
      split at h
      · next login hchoose => cases h; exact .inr (.inl ⟨now, r, login, rfl, hquerying, hchoose, rfl, rfl⟩)
      · cases h; exact .inl ⟨rfl, fun _ hne => (by cases hne), rfl⟩
      · cases h; exact .inl ⟨rfl, fun _ hne => (by cases hne), rfl⟩
    · cases h
  | commit =>
    simp only [step] at h
    split at h
    · next sel hselected =>
      cases h
      exact .inr (.inr (.inl ⟨sel, rfl, hselected, rfl, by simp only [leases, hselected]⟩))
    · cases h
  | raise =>
    simp only [step] at h
    split at h
    · cases h; exact .inl ⟨rfl, fun _ hne => (by cases hne), rfl⟩
    · cases h
  | notifyLogout d => cases h; exact .inr (.inr (.inr ⟨hassigning _ _, .inr ⟨d, freed_logout, rfl⟩⟩))
  | markBurnt d burnType now =>
    cases h
    refine .inr (.inr (.inr ⟨hassigning _ _, .inl ⟨freed_modifyAssigned fun auth => ?_, rfl⟩⟩))
    unfold burn
    split
    · rfl
    · rfl
  | setLevel d level =>
    cases h
    exact .inr (.inr (.inr ⟨hassigning _ _, .inl ⟨freed_modifyAssigned fun _ => rfl, rfl⟩⟩))
  | setLastSoftbanAction d timestamp location now =>
    cases h
    exact .inr (.inr (.inr ⟨hassigning _ _, .inl ⟨freed_modifyAssigned fun _ => rfl, rfl⟩⟩))

/-! ## Runs -/

/-- The states with the leases so far, oldest first. -/
abbrev Recorded := State × List (Lease Int Int)

structure Inv (p : Recorded) : Prop where
  atMostOne : AtMostOne p.1.accounts
  ready : ∀ sel, p.1.assigning = some (.selected sel) → Ready p.1.accounts sel
  held : ∀ d x, Held p.2 d x → deviceOf p.1.accounts x = some d
  exclusive : Exclusive p.2

theorem inv_init {s : State} (h : AtMostOne s.accounts) (hfree : s.assigning = none) : Inv (s, []) where
  atMostOne := h
  ready sel hsel := by
    have hnone : s.assigning = some (.selected sel) := hsel
    rw [hfree] at hnone
    cases hnone
  held d x hx := absurd hx (not_held_nil d x)
  exclusive := exclusive_nil

theorem ready_selected {cfg : Config} {accounts : Dict Int SettingsPogoauth} (h : AtMostOne accounts) {now : ℚ}
    {r : Request} {login : Int × SettingsPogoauth} (hchoose : chooseLogin cfg accounts now r = some (some login)) :
    Ready accounts ⟨r, login.1, getAssignedToDevice accounts r.deviceId⟩ where
  login := by
    obtain ⟨auth, hget, _⟩ := (chooseLogin_chosen hchoose).suits
    exact Dict.mem_keys_iff.mpr ⟨auth, hget⟩
  free := (chooseLogin_chosen hchoose).free
  current x hx := ⟨(getAssignedToDevice_some hx).1, .inr (getAssignedToDevice_some hx).2⟩
  only _ hx := h.getAssignedToDevice hx

/-- The account is returned: nobody else held it. -/
theorem Inv.commit {p : Recorded} (h : Inv p) {sel : Selection} (hsel : p.1.assigning = some (.selected sel)) :
    Inv (⟨assign p.1.accounts sel, none⟩, p.2 ++ [.given sel.request.deviceId sel.loginToUse]) := by
  have hready := h.ready sel hsel
  refine ⟨fun d x y hx hy => ?_, fun _ hne => (by cases hne), fun d x hx => ?_, h.exclusive.given fun d hd => ?_⟩
  · have hx' := hready.deviceOf_assign x
    have hy' := hready.deviceOf_assign y
    by_cases hd : d = sel.request.deviceId
    · subst hd
      have hxl : x = sel.loginToUse := by_contra fun hne => (hx'.2 hne).1 hx
      have hyl : y = sel.loginToUse := by_contra fun hne => (hy'.2 hne).1 hy
      rw [hxl, hyl]
    · have hne : ∀ z, deviceOf (assign p.1.accounts sel) z = some d → z ≠ sel.loginToUse := by
        intro z hz hzl
        rw [(hready.deviceOf_assign z).1 hzl] at hz
        exact hd (Option.some.inj hz).symm
      exact h.atMostOne d x y (((hx'.2 (hne x hx)).2 d hd).mp hx) (((hy'.2 (hne y hy)).2 d hd).mp hy)
  · rcases held_given hx with ⟨hd, hxl⟩ | ⟨hd, hheld⟩
    · rw [hd]
      exact (hready.deviceOf_assign x).1 hxl
    · have hdevice := h.held d x hheld
      have hxl : x ≠ sel.loginToUse := by
        intro hxl
        rw [hxl] at hdevice
        rcases hready.free with hnone | hsome
        · rw [hnone] at hdevice; cases hdevice
        · rw [hsome] at hdevice; exact hd (Option.some.inj hdevice).symm
      exact (((hready.deviceOf_assign x).2 hxl).2 d hd).mpr hdevice
  · have hdevice := h.held d _ hd
    rcases hready.free with hnone | hsome
    · rw [hnone] at hdevice; cases hdevice
    · rw [hsome] at hdevice; exact (Option.some.inj hdevice).symm

/-- Another operation frees the account of a device, and ends its lease, or frees none. -/
theorem Inv.freed {p : Recorded} (h : Inv p) {t : State} (hassigning : t.assigning = p.1.assigning)
    {d : Option Int} (hf : Freed d p.1.accounts t.accounts) : Inv (t, p.2 ++ (d.map Lease.ended).toList) := by
  have hheld : ∀ e x, (∀ d', d = some d' → e ≠ d') → Held p.2 e x → deviceOf t.accounts x = some e := by
    intro e x hne hx
    have hdevice := h.held e x hx
    rcases hf.device x with heq | ⟨_, d', hd, hd'⟩
    · rw [heq]; exact hdevice
    · rw [hd'] at hdevice
      exact absurd (Option.some.inj hdevice).symm (hne d' hd)
  have hready : ∀ sel, t.assigning = some (.selected sel) → Ready t.accounts sel :=
    fun sel hsel => (h.ready sel (hassigning ▸ hsel)).freed hf
  cases d with
  | none =>
    refine ⟨hf.atMostOne h.atMostOne, hready, fun e x hx => hheld e x (fun _ hd => (by cases hd)) ?_, ?_⟩
    · simpa using hx
    · simpa using h.exclusive
  | some d =>
    refine ⟨hf.atMostOne h.atMostOne, hready, fun e x hx => ?_, h.exclusive.ended d⟩
    obtain ⟨hne, hx⟩ := held_ended hx
    exact hheld e x (fun d' hd => Option.some.inj hd ▸ hne) hx

theorem step_inv {cfg : Config} {p q : Recorded} {a : Action} (h : Inv p)
    (hs : recording (step cfg) leases p a = some q) : Inv q := by
  obtain ⟨hstep, hq⟩ := recording_some hs
  obtain ⟨t, L⟩ := q
  dsimp only at hstep hq
  subst hq
  rcases step_cases hstep with ⟨haccounts, hnone, hempty⟩ | ⟨now, r, login, rfl, _, hchoose, haccounts, hassigning⟩ |
    ⟨sel, rfl, hsel, rfl, hgiven⟩ | ⟨hassigning, ⟨hf, hempty⟩ | ⟨d, hf, hended⟩⟩
  · rw [hempty, List.append_nil]
    exact ⟨haccounts ▸ h.atMostOne, fun sel hsel => absurd hsel (hnone sel),
      fun d x hx => haccounts ▸ h.held d x hx, h.exclusive⟩
  · refine ⟨haccounts ▸ h.atMostOne, fun sel hsel => ?_, fun d x hx => ?_, ?_⟩
    · dsimp only at hsel
      rw [hassigning] at hsel
      cases hsel
      rw [haccounts]
      exact ready_selected h.atMostOne hchoose
    · rw [show p.2 ++ leases p.1 (.select now) = p.2 from List.append_nil _] at hx
      exact haccounts ▸ h.held d x hx
    · rw [show p.2 ++ leases p.1 (.select now) = p.2 from List.append_nil _]
      exact h.exclusive
  · rw [hgiven]
    exact h.commit hsel
  · rw [hempty]
    exact h.freed hassigning hf
  · rw [hended]
    exact h.freed hassigning hf

/-- The last choice of the run is of this account, made by the call that is about to return it. -/
def ChosenLast (cfg : Config) (s : State) (l : List Action) (sel : Selection) : Prop :=
  ∃ l₁ now l₂ s₁, l = l₁ ++ .select now :: l₂ ∧ (∀ a ∈ l₂, ∀ now', a ≠ .select now') ∧
    Run (step cfg) Any s l₁ s₁ ∧ s₁.assigning = some (.querying sel.request) ∧
    Chosen cfg s₁.accounts now sel.request sel.loginToUse

theorem run_chosen {cfg : Config} {s t : State} {l : List Action} (hfree : s.assigning = none)
    (h : Run (step cfg) Any s l t) : ∀ sel, t.assigning = some (.selected sel) → ChosenLast cfg s l sel := by
  induction h with
  | nil => intro sel hsel; rw [hfree] at hsel; cases hsel
  | @snoc s₁ t l a hrun _ hs ih =>
    intro sel hsel
    -- the selection was made before, and this step is of another operation
    have hkeep : (∀ now, a ≠ .select now) → s₁.assigning = some (.selected sel) →
        ChosenLast cfg s (l ++ [a]) sel := by
      intro hne hs₁
      obtain ⟨l₁, now, l₂, s₂, rfl, hl₂, hrest⟩ := ih sel hs₁
      refine ⟨l₁, now, l₂ ++ [a], s₂, by simp, fun b hb now' => ?_, hrest⟩
      rcases List.mem_append.mp hb with hb | hb
      · exact hl₂ b hb now'
      · exact List.mem_singleton.mp hb ▸ hne now'
    rcases step_cases hs with ⟨_, hnone, _⟩ | ⟨now, r, login, rfl, hquerying, hchoose, _, hassigning⟩ |
      ⟨sel', rfl, _, rfl, _⟩ | ⟨hassigning, hother⟩
    · exact absurd hsel (hnone sel)
    · rw [hassigning] at hsel
      cases hsel
      exact ⟨l, now, [], s₁, rfl, fun _ hb => (by cases hb), hrun, hquerying, chooseLogin_chosen hchoose⟩
    · cases hsel
    · rw [hassigning] at hsel
      refine hkeep (fun now hnow => ?_) hsel
      subst hnow
      simp only [step, hsel] at hs
      cases hs

/-- From tables in which every device has at most one account, in every state reached: every device has at
most one; the account that is about to be returned to a device was unassigned or its own, not burnt and usable
when it was chosen; and no account was returned to a device while another held it. -/
theorem handed_out_exclusively {cfg : Config} {s : State} {l : List Action} {p : Recorded}
    (hone : AtMostOne s.accounts) (hfree : s.assigning = none)
    (h : Run (recording (step cfg) leases) Any (s, []) l p) :
    AtMostOne p.1.accounts ∧
      (∀ d x, .given d x ∈ leases p.1 .commit →
        ∃ sel : Selection, sel.request.deviceId = d ∧ sel.loginToUse = x ∧ ChosenLast cfg s l sel) ∧
      Exclusive p.2 := by
  have hinv : Inv p := h.invariant (inv_init hone hfree) fun _ _ _ hp _ hs => step_inv hp hs
  refine ⟨hinv.atMostOne, fun d x hgiven => ?_, hinv.exclusive⟩
  simp only [leases] at hgiven
  split at hgiven
  · next sel hsel =>
    cases List.mem_singleton.mp hgiven
    exact ⟨sel, rfl, rfl, run_chosen hfree h.unrecorded sel hsel⟩
  · cases hgiven

/-! ## Two devices -/

theorem atMostOne_of_unassigned (h : ∀ x ∈ accounts.items, x.2.deviceId = none) : AtMostOne accounts := by
  intro d x y hx
  obtain ⟨auth, hget, hd⟩ := Option.bind_eq_some_iff.mp hx
  rw [h (x, auth) (Dict.get?_eq_some_iff.mp hget)] at hd
  cases hd

/-- An account for quests, burnt at a time or never. -/
def ptc (username : String) (lastBurn : Option ℚ) : SettingsPogoauth :=
  ⟨0, none, .ptc, username, 30, lastBurn, lastBurn.map fun _ => .maintenance, none, none⟩

def twoAccounts : Dict Int SettingsPogoauth :=
  .ofList [(10, ptc "a" (some 0)), (11, ptc "b" none)]

/-- Devices 1 and 2 without a Google login. -/
def twoDevices : Config :=
  ⟨0, false, fun d => if d = 1 ∨ d = 2 then some ⟨none⟩ else none, fun _ _ => 0, fun _ _ => false⟩

/-- Device 1 gets an account while a logout of device 2 is notified, then device 2 asks for one. -/
def bothAsk : List Action :=
  [.lock ⟨1, .quest, none⟩, .select 100000, .notifyLogout 2, .commit, .setLevel 1 31, .lock ⟨2, .iv, none⟩,
    .select 100000]

theorem handed_out_exclusively_two :
    ∃ sel : Selection, sel.request.deviceId = 2 ∧ sel.loginToUse = 11 ∧
      ChosenLast twoDevices ⟨twoAccounts, none⟩ bothAsk sel := by
  have hgiven : .given 2 11 ∈
      leases (after (recording (step twoDevices) leases) Any (⟨twoAccounts, none⟩, []) bothAsk).1 .commit := by
    decide +kernel
  exact (handed_out_exclusively (s := ⟨twoAccounts, none⟩) (l := bothAsk)
    (atMostOne_of_unassigned (by decide +kernel)) rfl (.of_after (by decide +kernel))).2.1 2 11 hgiven

end State

end MapADroid.Accounts
