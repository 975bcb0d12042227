import MapADroid.Accounts.AccountHandler
import MapADroid.Lib.Patterns

/- Google accounts and the devices they belong to.

   A device names its Google logins in one field, with commas between the addresses.
   Whether an account is one of them is asked of `re.search`, with the username as the
   pattern. A name of letters and dots occurs wherever it agrees with a part of the field
   letter by letter (`Occurs`): so does each address, but a part of one does as well, and a
   name with a `+` may not occur in its own. Accounts are given out rightly exactly if no
   other name occurs before an address does, and if every address occurs
   (`givenRightly_iff`). -/
namespace MapADroid.Accounts.GoogleLogin
open Lib

/-- What is left open of `re.search` ignoring case: what takes the case away, and the patterns with other
metacharacters than `.` and `+`, or a `+` with nothing to repeat; `none` where it raises. -/
structure Re where
  fold : Char → Char
  other : List Char → List Char → Option Bool

def metacharacters : List Char := ['+', '^', '$', '*', '?', '{', '[', '\\', '|', '(', ')']

def atomOf (c : Char) : Atom := if c = '.' then .any else .literal c

/-- A pattern of letters, each with a `+` or without. -/
def parse : List Char → Option (List Piece)
  | [] => some []
  | c :: '+' :: rest => if c ∈ metacharacters then none else (parse rest).map (⟨atomOf c, true⟩ :: ·)
  | c :: rest => if c ∈ metacharacters then none else (parse rest).map (⟨atomOf c, false⟩ :: ·)

/-- `re.search(pattern, text, re.IGNORECASE)`. -/
def reSearch (re : Re) (pattern text : List Char) : Option Bool :=
  match parse pattern with
  | some pieces => some (search re.fold pieces text)
  | none => re.other pattern text

/-! ## The handler -/

/-- `device_entry.ggl_login_mail and re.search(...)`. -/
def gglOfDevice (re : Re) (device : SettingsDevice) (auth : SettingsPogoauth) : Option Bool :=
  let mail := device.gglLoginMail.getD ""
  if mail = "" then some false else reSearch re auth.username.toList mail.toList

/-- `_is_ptc_or_ggl_of_device`. -/
def isPtcOrGglOfDevice (re : Re) (device : SettingsDevice) (auth : SettingsPogoauth) : Option Bool :=
  match auth.loginType with
  | .ptc => some true
  | .google => gglOfDevice re device auth

/-- The accounts that are not assigned to another device, not burnt and usable, in the order of their last
burn. -/
def loginsFiltered (cfg : Config) (accounts : Dict Int SettingsPogoauth) (now : ℚ) (r : Request) :
    List (Int × SettingsPogoauth) :=
  ((getAvailAccounts cfg accounts r.deviceId).items.filter fun x => suits cfg now r x.2 = some true).insertionSort
    fun x y => x.2.lastBurn.getD 0 ≤ y.2.lastBurn.getD 0

/-- The loop of `get_account` over the accounts that are no PTC accounts. -/
def shortcut (re : Re) (device : SettingsDevice) :
    List (Int × SettingsPogoauth) → Option (Option (Int × SettingsPogoauth))
  | [] => some none
  | login :: logins =>
    if login.2.loginType = .ptc then shortcut re device logins
    else
      match gglOfDevice re device login.2 with
      | none => none
      | some true => some (some login)
      | some false => shortcut re device logins

/-- The list comprehension after it. -/
def filterLogins (re : Re) (device : SettingsDevice) :
    List (Int × SettingsPogoauth) → Option (List (Int × SettingsPogoauth))
  | [] => some []
  | login :: logins =>
    match isPtcOrGglOfDevice re device login.2 with
    | none => none
    | some true => (filterLogins re device logins).map (login :: ·)
    | some false => filterLogins re device logins

/-- The account `get_account` returns, if there is one; `none` where an exception is raised. -/
def getAccount (cfg : Config) (re : Re) (accounts : Dict Int SettingsPogoauth) (now : ℚ) (r : Request) :
    Option (Option (Int × SettingsPogoauth)) :=
  match cfg.device r.deviceId with
  | none => some none
  | some device =>
    if (getAvailAccounts cfg accounts r.deviceId).items.any fun x => suits cfg now r x.2 = none then none
    else
      match shortcut re device (loginsFiltered cfg accounts now r) with
      | none => none
      | some (some login) => some (some login)
      | some none => (filterLogins re device (loginsFiltered cfg accounts now r)).map List.head?

variable {cfg : Config} {re : Re} {accounts : Dict Int SettingsPogoauth} {now : ℚ} {r : Request}
  {device : SettingsDevice} {logins : List (Int × SettingsPogoauth)} {login : Int × SettingsPogoauth}

/-! ## The account chosen -/

/-- An account is a Google account that is found in the field of the device. -/
def Found (re : Re) (device : SettingsDevice) (auth : SettingsPogoauth) : Prop :=
  auth.loginType = .google ∧ gglOfDevice re device auth = some true

/-- The first Google account is found in the field, those before it are not. -/
def FirstFound (re : Re) (device : SettingsDevice) (logins : List (Int × SettingsPogoauth))
    (login : Int × SettingsPogoauth) : Prop :=
  ∃ pre post, logins = pre ++ login :: post ∧ Found re device login.2 ∧
    ∀ x ∈ pre, x.2.loginType = .google → gglOfDevice re device x.2 = some false

theorem loginType_cases (auth : SettingsPogoauth) : auth.loginType = .ptc ∨ auth.loginType = .google := by
  cases auth.loginType with
  | ptc => exact .inl rfl
  | google => exact .inr rfl

theorem google_ne_ptc {auth : SettingsPogoauth} (h : auth.loginType = .google) : ¬ auth.loginType = .ptc := by
  rw [h]
  exact fun h => by cases h

theorem shortcut_eq_some_iff : shortcut re device logins = some (some login) ↔ FirstFound re device logins login := by
  induction logins with
  | nil =>
    constructor
    · intro h
      cases h
    · rintro ⟨pre, post, happend, _⟩
      simp at happend
  | cons head logins ih =>
    have hskip : (∀ (_ : head.2.loginType = .google), gglOfDevice re device head.2 = some false) →
        FirstFound re device logins login → FirstFound re device (head :: logins) login := by
      intro hfalse
      rintro ⟨pre, post, rfl, hfound, hpre⟩
      refine ⟨head :: pre, post, rfl, hfound, ?_⟩
      intro x hx
      rcases List.mem_cons.mp hx with rfl | hx
      · exact hfalse
      · exact hpre x hx
    have hdrop : ¬ Found re device head.2 → FirstFound re device (head :: logins) login →
        FirstFound re device logins login := by
      intro hnot
      rintro ⟨pre, post, happend, hfound, hpre⟩
      cases pre with
      | nil =>
        obtain ⟨rfl, _⟩ := List.cons.inj happend
        exact absurd hfound hnot
      | cons x pre =>
        obtain ⟨rfl, rfl⟩ := List.cons.inj happend
        exact ⟨pre, post, rfl, hfound, fun y hy => hpre y (List.mem_cons_of_mem _ hy)⟩
    rw [shortcut]
    rcases loginType_cases head.2 with hptc | hgoogle
    · rw [if_pos hptc, ih]
      refine ⟨hskip fun hgoogle => absurd hptc (google_ne_ptc hgoogle), hdrop ?_⟩
      exact fun hfound => google_ne_ptc hfound.1 hptc
    · rw [if_neg (google_ne_ptc hgoogle)]
      cases hggl : gglOfDevice re device head.2 with
      | none =>
        constructor
        · intro h
          cases h
        · rintro ⟨pre, post, happend, hfound, hpre⟩
          cases pre with
          | nil =>
            obtain ⟨rfl, _⟩ := List.cons.inj happend
            rw [hfound.2] at hggl
            cases hggl
          | cons x pre =>
            obtain ⟨rfl, _⟩ := List.cons.inj happend
            have hfalse := hpre head List.mem_cons_self hgoogle
            rw [hggl] at hfalse
            cases hfalse
      | some found =>
        cases found with
        | false =>
          dsimp only
          rw [ih]
          refine ⟨hskip fun _ => hggl, hdrop ?_⟩
          intro hfound
          rw [hfound.2] at hggl
          cases hggl
        | true =>
          constructor
          · intro h
            obtain rfl := Option.some.inj (Option.some.inj h)
            exact ⟨[], logins, rfl, ⟨hgoogle, hggl⟩, fun x hx => absurd hx List.not_mem_nil⟩
          · rintro ⟨pre, post, happend, _, hpre⟩
            cases pre with
            | nil =>
              obtain ⟨rfl, _⟩ := List.cons.inj happend
              rfl
            | cons x pre =>
              obtain ⟨rfl, _⟩ := List.cons.inj happend
              have hfalse := hpre head List.mem_cons_self hgoogle
              rw [hggl] at hfalse
              cases hfalse

/-- Where the loop finds none, no Google account passes the filter. -/
theorem google_not_found_of_shortcut (h : shortcut re device logins = some none) :
    ∀ x ∈ logins, x.2.loginType = .google → gglOfDevice re device x.2 = some false := by
  induction logins with
  | nil => exact fun x hx => absurd hx List.not_mem_nil
  | cons head logins ih =>
    rw [shortcut] at h
    intro x hx hgoogle
    rcases loginType_cases head.2 with hptc | hhead
    · rw [if_pos hptc] at h
      rcases List.mem_cons.mp hx with rfl | hx
      · exact absurd hptc (google_ne_ptc hgoogle)
      · exact ih h x hx hgoogle
    · rw [if_neg (google_ne_ptc hhead)] at h
      cases hggl : gglOfDevice re device head.2 with
      | none =>
        rw [hggl] at h
        cases h
      | some found =>
        rw [hggl] at h
        cases found with
        | true => cases h
        | false =>
          rcases List.mem_cons.mp hx with rfl | hx
          · exact hggl
          · exact ih h x hx hgoogle

theorem mem_filterLogins {kept : List (Int × SettingsPogoauth)} (h : filterLogins re device logins = some kept) :
    ∀ x ∈ kept, x ∈ logins ∧ isPtcOrGglOfDevice re device x.2 = some true := by
  induction logins generalizing kept with
  | nil =>
    obtain rfl := Option.some.inj h
    exact fun x hx => absurd hx List.not_mem_nil
  | cons head logins ih =>
    rw [filterLogins] at h
    cases hhead : isPtcOrGglOfDevice re device head.2 with
    | none =>
      rw [hhead] at h
      cases h
    | some found =>
      rw [hhead] at h
      cases found with
      | false =>
        intro x hx
        obtain ⟨hmem, hkept⟩ := ih h x hx
        exact ⟨List.mem_cons_of_mem _ hmem, hkept⟩
      | true =>
        obtain ⟨rest, hrest, rfl⟩ := Option.map_eq_some_iff.mp h
        intro x hx
        rcases List.mem_cons.mp hx with rfl | hx
        · exact ⟨List.mem_cons_self, hhead⟩
        · obtain ⟨hmem, hkept⟩ := ih hrest x hx
          exact ⟨List.mem_cons_of_mem _ hmem, hkept⟩

/-- The usable accounts can be told; without this `get_account` raises. -/
def Told (cfg : Config) (accounts : Dict Int SettingsPogoauth) (now : ℚ) (r : Request) : Prop :=
  ∀ x ∈ (getAvailAccounts cfg accounts r.deviceId).items, suits cfg now r x.2 ≠ none

/-- A Google account is returned exactly if it is the first one found. -/
theorem getAccount_google_iff (hdevice : cfg.device r.deviceId = some device) (hgoogle : login.2.loginType = .google) :
    getAccount cfg re accounts now r = some (some login) ↔
      Told cfg accounts now r ∧ FirstFound re device (loginsFiltered cfg accounts now r) login := by
  have hany : ((getAvailAccounts cfg accounts r.deviceId).items.any fun x => decide (suits cfg now r x.2 = none)) = true ↔
      ¬ Told cfg accounts now r := by
    simp [Told]
  rw [getAccount, hdevice, ← shortcut_eq_some_iff]
  dsimp only
  by_cases htold : Told cfg accounts now r
  · rw [if_neg (hany.not.mpr (not_not.mpr htold))]
    simp only [htold, true_and]
    cases hshortcut : shortcut re device (loginsFiltered cfg accounts now r) with
    | none => simp
    | some found =>
      cases found with
      | some login' => simp
      | none =>
        simp only [Option.map_eq_some_iff, Option.some.injEq, reduceCtorEq, iff_false, not_exists, not_and]
        intro kept hkept hhead
        obtain ⟨hmem, hpass⟩ := mem_filterLogins hkept login (List.mem_of_mem_head? hhead)
        have hfalse := google_not_found_of_shortcut hshortcut login hmem hgoogle
        rw [isPtcOrGglOfDevice, hgoogle] at hpass
        dsimp only at hpass
        rw [hfalse] at hpass
        cases hpass
  · rw [if_pos (hany.mpr htold)]
    simp [htold]

/-! ## Names that occur in the field -/

/-- A name without a metacharacter but `.`. -/
def Plain (name : List Char) : Prop := ∀ c ∈ name, c ∉ metacharacters

/-- A letter of a plain name agrees with a letter of the field: a dot with any but a line break, another one with
itself, case aside. -/
def Agrees (fold : Char → Char) (c d : Char) : Prop := if c = '.' then d ≠ '\n' else fold c = fold d

/-- The field of a device. -/
def field (device : SettingsDevice) : List Char := (device.gglLoginMail.getD "").toList

/-- A plain name occurs where it agrees with a part of the field; of another one a part of the field matches its
pattern. -/
def Occurs (re : Re) (device : SettingsDevice) (auth : SettingsPogoauth) : Prop :=
  field device ≠ [] ∧
    ((Plain auth.username.toList ∧ ∃ part, part <:+: field device ∧
        List.Forall₂ (Agrees re.fold) auth.username.toList part) ∨
      (¬ Plain auth.username.toList ∧ ∃ pieces part, parse auth.username.toList = some pieces ∧
        part <:+: field device ∧ Matches re.fold pieces part) ∨
      (parse auth.username.toList = none ∧ re.other auth.username.toList (field device) = some true))

/-- The search for a name raises. -/
def Raises (re : Re) (device : SettingsDevice) (auth : SettingsPogoauth) : Prop :=
  field device ≠ [] ∧ parse auth.username.toList = none ∧ re.other auth.username.toList (field device) = none

instance (name : List Char) : Decidable (Plain name) := inferInstanceAs (Decidable (∀ c ∈ name, c ∉ metacharacters))

theorem parse_of_plain {name : List Char} (h : Plain name) : parse name = some (letters (name.map atomOf)) := by
  induction name with
  | nil => rfl
  | cons c name ih =>
    have hc := h c List.mem_cons_self
    have hrest := ih fun d hd => h d (List.mem_cons_of_mem c hd)
    have hplus : ∀ rest, name ≠ '+' :: rest := by
      rintro rest rfl
      exact h '+' (by simp) (by simp [metacharacters])
    rw [parse, if_neg hc, hrest]
    · rfl
    · intro rest heq
      exact hplus rest heq

theorem atomOf_ok {fold : Char → Char} {c d : Char} : (atomOf c).ok fold d = true ↔ Agrees fold c d := by
  unfold atomOf Agrees
  split
  · exact decide_eq_true_iff
  · exact decide_eq_true_iff

/-- A plain name is found exactly where it agrees with a part of the text. -/
theorem reSearch_plain_iff {name : List Char} (h : Plain name) (text : List Char) :
    reSearch re name text = some true ↔ ∃ part, part <:+: text ∧ List.Forall₂ (Agrees re.fold) name part := by
  rw [reSearch, parse_of_plain h]
  simp only [Option.some.injEq, search_iff, matches_letters_iff, List.forall₂_map_left_iff, atomOf_ok]

theorem gglOfDevice_eq (device : SettingsDevice) (auth : SettingsPogoauth) :
    gglOfDevice re device auth =
      if field device = [] then some false else reSearch re auth.username.toList (field device) := by
  unfold gglOfDevice field
  simp only [String.toList_eq_nil_iff]

/-- The account passes exactly if its name occurs. -/
theorem gglOfDevice_eq_true_iff {auth : SettingsPogoauth} :
    gglOfDevice re device auth = some true ↔ Occurs re device auth := by
  rw [gglOfDevice_eq]
  unfold Occurs
  by_cases hfield : field device = []
  · simp [hfield]
  rw [if_neg hfield]
  by_cases hplain : Plain auth.username.toList
  · rw [reSearch_plain_iff hplain]
    simp [hfield, hplain, parse_of_plain hplain]
  · unfold reSearch
    cases hparse : parse auth.username.toList with
    | none => simp [hfield, hplain]
    | some pieces => simp [hfield, hplain, search_iff]

/-- It is filtered out exactly if its name does not occur, and the search does not raise. -/
theorem gglOfDevice_eq_false_iff {auth : SettingsPogoauth} :
    gglOfDevice re device auth = some false ↔ ¬ Occurs re device auth ∧ ¬ Raises re device auth := by
  have hnone : gglOfDevice re device auth = none ↔ Raises re device auth := by
    rw [gglOfDevice_eq]
    unfold Raises reSearch
    by_cases hfield : field device = []
    · simp [hfield]
    · cases hparse : parse auth.username.toList with
      | none => simp [hfield]
      | some pieces => simp [hfield]
  rw [← gglOfDevice_eq_true_iff, ← hnone]
  cases gglOfDevice re device auth with
  | none => simp
  | some found => cases found <;> simp

/-! ## The device an account belongs to -/

/-- The addresses of a device. -/
def addresses (device : SettingsDevice) : List (List Char) :=
  let mail := device.gglLoginMail.getD ""
  if mail = "" then [] else mail.toList.splitOn ','

/-- The username is one of the addresses, case aside. -/
def IsAddress (re : Re) (device : SettingsDevice) (auth : SettingsPogoauth) : Prop :=
  ∃ address ∈ addresses device, address.map re.fold = auth.username.toList.map re.fold

/-- A Google account is returned to a device only if it is one of its addresses, and one that is usable
and one of the addresses passes the filter. -/
structure GivenRightly (cfg : Config) (re : Re) (accounts : Dict Int SettingsPogoauth) (now : ℚ) (r : Request)
    (device : SettingsDevice) : Prop where
  returned : ∀ login, getAccount cfg re accounts now r = some (some login) → login.2.loginType = .google →
    IsAddress re device login.2
  kept : ∀ login ∈ loginsFiltered cfg accounts now r, login.2.loginType = .google → IsAddress re device login.2 →
    isPtcOrGglOfDevice re device login.2 = some true

/-- A Google account whose name occurs without being an address comes after one whose name occurs as well, or
raises. -/
def ForeignLater (re : Re) (device : SettingsDevice) (logins : List (Int × SettingsPogoauth)) : Prop :=
  ∀ pre login post, logins = pre ++ login :: post → login.2.loginType = .google → Occurs re device login.2 →
    ¬ IsAddress re device login.2 →
      ∃ x ∈ pre, x.2.loginType = .google ∧ (Occurs re device x.2 ∨ Raises re device x.2)

theorem infix_of_mem_splitOn {part text : List Char} {c : Char} (h : part ∈ text.splitOn c) : part <:+: text := by
  have hwhole : List.intercalate [c] (text.splitOn c) = text := List.intercalate_splitOn c
  rw [← hwhole]
  generalize text.splitOn c = parts at h
  induction parts with
  | nil => cases h
  | cons head parts ih =>
    cases parts with
    | nil =>
      rw [List.mem_singleton.mp h]
      simp
    | cons next parts =>
      rw [List.intercalate_cons_cons]
      rcases List.mem_cons.mp h with rfl | h
      · rw [List.append_assoc]
        exact (List.prefix_append _ _).isInfix
      · exact (ih h).trans (List.suffix_append _ _).isInfix

/-- A plain name that is an address occurs, unless there are line breaks. -/
theorem occurs_of_isAddress {auth : SettingsPogoauth} (hplain : Plain auth.username.toList)
    (hbreak : '\n' ∉ field device) (h : IsAddress re device auth) : Occurs re device auth := by
  obtain ⟨address, haddress, hfold⟩ := h
  unfold addresses at haddress
  dsimp only at haddress
  split at haddress
  · cases haddress
  next hmail =>
  have hpart : address <:+: field device := infix_of_mem_splitOn haddress
  refine ⟨fun hnil => hmail (String.toList_eq_nil_iff.mp hnil), .inl ⟨hplain, address, hpart, ?_⟩⟩
  have hnot : ∀ d ∈ address, d ≠ '\n' := by
    rintro d hd rfl
    exact hbreak (hpart.subset hd)
  rw [List.forall₂_iff_get]
  have hlength : auth.username.toList.length = address.length := by simpa using (congrArg List.length hfold).symm
  refine ⟨hlength, ?_⟩
  intro i hi hi'
  unfold Agrees
  split
  · exact hnot _ (List.get_mem _ _)
  · have hat := congrArg (fun l : List Char => l[i]?) hfold
    simp only [List.getElem?_map, List.getElem?_eq_getElem hi, List.getElem?_eq_getElem hi', Option.map_some,
      Option.some.injEq] at hat
    exact hat.symm

/-- Accounts are given out rightly exactly if, in the order of their last burn, every usable Google account whose
name occurs in the field without being an address comes after another one that occurs, and every address that has
a metacharacter besides dots occurs (any address, in a field with line breaks). -/
theorem givenRightly_iff (hdevice : cfg.device r.deviceId = some device) :
    GivenRightly cfg re accounts now r device ↔
      (Told cfg accounts now r → ForeignLater re device (loginsFiltered cfg accounts now r)) ∧
      ∀ login ∈ loginsFiltered cfg accounts now r, login.2.loginType = .google →
        ¬ Plain login.2.username.toList ∨ '\n' ∈ field device → IsAddress re device login.2 →
          Occurs re device login.2 := by
  constructor
  · intro h
    refine ⟨?_, ?_⟩
    · intro htold pre login post happend hgoogle hoccurs hforeign
      by_contra hnone
      push Not at hnone
      apply hforeign
      apply h.returned login ((getAccount_google_iff hdevice hgoogle).mpr ⟨htold, ?_⟩) hgoogle
      refine ⟨pre, post, happend, ⟨hgoogle, gglOfDevice_eq_true_iff.mpr hoccurs⟩, ?_⟩
      intro x hx hgoogle
      exact gglOfDevice_eq_false_iff.mpr (hnone x hx hgoogle)
    · intro login hmem hgoogle _ haddress
      have hpass := h.kept login hmem hgoogle haddress
      rw [isPtcOrGglOfDevice, hgoogle] at hpass
      exact gglOfDevice_eq_true_iff.mp hpass
  · rintro ⟨hlater, haddresses⟩
    refine ⟨?_, ?_⟩
    · intro login hreturned hgoogle
      obtain ⟨htold, pre, post, happend, hfound, hpre⟩ := (getAccount_google_iff hdevice hgoogle).mp hreturned
      by_contra hforeign
      obtain ⟨x, hx, hgoogle', hoccurs⟩ :=
        hlater htold pre login post happend hgoogle (gglOfDevice_eq_true_iff.mp hfound.2) hforeign
      obtain ⟨hnot, hnot'⟩ := gglOfDevice_eq_false_iff.mp (hpre x hx hgoogle')
      rcases hoccurs with hoccurs | hraises
      · exact hnot hoccurs
      · exact hnot' hraises
    · intro login hmem hgoogle haddress
      rw [isPtcOrGglOfDevice, hgoogle]
      apply gglOfDevice_eq_true_iff.mpr
      by_cases hbreak : '\n' ∈ field device
      · exact haddresses login hmem hgoogle (.inr hbreak) haddress
      by_cases hplain : Plain login.2.username.toList
      · exact occurs_of_isAddress hplain hbreak haddress
      · exact haddresses login hmem hgoogle (.inl hplain) haddress

/-- The account is the one of `chooseLogin`, where `re.search` does not raise. -/
theorem getAccount_eq_chooseLogin
    (h : ∀ name text : String, reSearch re name.toList text.toList = some (cfg.search name text)) :
    getAccount cfg re accounts now r = chooseLogin cfg accounts now r := by
  unfold getAccount chooseLogin
  cases hdevice : cfg.device r.deviceId with
  | none => rfl
  | some device =>
    dsimp only
    split
    · rfl
    · have hggl : ∀ auth, gglOfDevice re device auth = some (Accounts.gglOfDevice cfg device auth) := by
        intro auth
        unfold gglOfDevice Accounts.gglOfDevice
        by_cases hmail : device.gglLoginMail.getD "" = ""
        · simp [hmail]
        · simp [hmail, h]
      have hpass : ∀ auth, isPtcOrGglOfDevice re device auth = some (Accounts.isPtcOrGglOfDevice cfg device auth) := by
        intro auth
        unfold isPtcOrGglOfDevice Accounts.isPtcOrGglOfDevice
        cases auth.loginType with
        | ptc => rfl
        | google => exact hggl auth
      have hshortcut : ∀ logins, shortcut re device logins = some (logins.find? fun x =>
          x.2.loginType ≠ .ptc && Accounts.gglOfDevice cfg device x.2) := by
        intro logins
        induction logins with
        | nil => rfl
        | cons head logins ih =>
          rw [shortcut, List.find?_cons, hggl, ih]
          by_cases hptc : head.2.loginType = .ptc
          · simp [hptc]
          · cases Accounts.gglOfDevice cfg device head.2 with
            | true => simp [hptc]
            | false => simp [hptc]
      have hfilter : ∀ logins, filterLogins re device logins = some (logins.filter fun x =>
          Accounts.isPtcOrGglOfDevice cfg device x.2) := by
        intro logins
        induction logins with
        | nil => rfl
        | cons head logins ih =>
          rw [filterLogins, List.filter_cons, hpass, ih]
          cases Accounts.isPtcOrGglOfDevice cfg device head.2 with
          | true => rfl
          | false => rfl
      rw [hshortcut, hfilter]
      rw [show loginsFiltered cfg accounts now r = _ from rfl, loginsFiltered]
      cases List.find? _ _ with
      | none => rfl
      | some login => rfl

/-! ## Two addresses -/

def asciiRe : Re := ⟨Char.toLower, fun _ _ => none⟩

def google (username : String) : SettingsPogoauth := ⟨1, none, .google, username, 30, none, none, none, none⟩

def mailConfig : Config := ⟨1, false, fun _ => some ⟨some "anna@gmail.com,bob@gmail.com"⟩, fun _ _ => 0, fun _ _ => true⟩

def raidRequest : Request := ⟨7, .monRaid, none⟩

/-- An account of the device, and one burnt later of which the name is a part of the other address. -/
def bobAndNna : Dict Int SettingsPogoauth :=
  .ofList [(1, { google "nna@gmail.com" with lastBurn := some 5 }), (2, google "Bob@gmail.com")]

theorem givenRightly_bob :
    GivenRightly mailConfig asciiRe bobAndNna 0 raidRequest ⟨some "anna@gmail.com,bob@gmail.com"⟩ := by
  have hlogins : loginsFiltered mailConfig bobAndNna 0 raidRequest =
      [(2, google "Bob@gmail.com"), (1, { google "nna@gmail.com" with lastBurn := some 5 })] := by decide +kernel
  have haddress : IsAddress asciiRe ⟨some "anna@gmail.com,bob@gmail.com"⟩ (google "Bob@gmail.com") :=
    ⟨"bob@gmail.com".toList, by decide +kernel, by decide +kernel⟩
  have hoccurs : Occurs asciiRe ⟨some "anna@gmail.com,bob@gmail.com"⟩ (google "Bob@gmail.com") :=
    occurs_of_isAddress (by simp [Plain, metacharacters, google]) (by decide +kernel) haddress
  refine (givenRightly_iff rfl).mpr ⟨?_, ?_⟩
  · intro _ pre login post happend _ _ hforeign
    rw [hlogins] at happend
    -- The first account is an address; the other one comes after it.
    cases pre with
    | nil =>
      obtain ⟨rfl, _⟩ := List.cons.inj happend
      exact absurd haddress hforeign
    | cons x pre =>
      obtain ⟨rfl, _⟩ := List.cons.inj happend
      exact ⟨_, List.mem_cons_self, rfl, .inl hoccurs⟩
  · intro login hlogin _ hodd _
    have hplain : ∀ login ∈ loginsFiltered mailConfig bobAndNna 0 raidRequest, Plain login.2.username.toList := by
      rw [hlogins]
      simp [Plain, metacharacters, google]
    rcases hodd with hodd | hbreak
    · exact absurd (hplain login hlogin) hodd
    · exact absurd hbreak (by decide +kernel)

/-- An account is given to a device whose address it is a part of. -/
theorem not_givenRightly_part : ¬ GivenRightly mailConfig asciiRe (.ofList [(1, google "nna@gmail.com")]) 0 raidRequest
    ⟨some "anna@gmail.com,bob@gmail.com"⟩ := by
  intro h
  obtain ⟨address, haddress, heq⟩ := h.returned (1, google "nna@gmail.com") (by decide +kernel) rfl
  have hnot : ∀ address ∈ addresses ⟨some "anna@gmail.com,bob@gmail.com"⟩,
      address.map asciiRe.fold ≠ (google "nna@gmail.com").username.toList.map asciiRe.fold := by decide +kernel
  exact hnot address haddress heq

end MapADroid.Accounts.GoogleLogin
