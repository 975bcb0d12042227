import MapADroid.Apk.Filename
import MapADroid.Lib.Decimals
import MapADroid.Lib.Dict

/- The version of the game the wizard offers (`APKWizard.find_latest_pogo`).

   The supported versions are sorted as texts, and the first of them that is available is
   offered. Texts are compared digit by digit, so a version with more digits in a component
   comes before its predecessors only by chance. The newest version is offered exactly if no
   other one has a longer number than the last one in the alphabet, where the two first
   differ (`choosesNewest_iff`). -/
namespace MapADroid.Apk.Wizard
open Lib

/-- What is read of a download: a package or a bundle, and its version code. -/
structure PackageVariant where
  apkType : String
  versionCode : Nat
  deriving DecidableEq, Repr

/-- `PackageBase.versions`: the variants of each version by the name of their architecture. -/
abbrev AvailableVersions := Dict (List Char) (Dict String (List PackageVariant))

inductive WizardError where
  /-- `KeyError`: there are no supported versions for the architecture. -/
  | keyError
  /-- `WizardError`: the downloads cannot be queried. -/
  | notQueried
  /-- `WizardError`: no supported version can be downloaded. -/
  | notFound
  deriving DecidableEq, Repr

/-- `sorted(supported, reverse=True)`. -/
def sortedReverse (supported : List (List Char)) : List (List Char) := supported.mergeSort fun a b => decide (b ≤ a)

def archOf (archStr : String) : APKArch := if archStr = "32" then .armeabi_v7a else .arm64_v8a

/-- `translate_pogo_versions`. -/
def translatePogoVersions (supportedVersions : Dict String (List (List Char))) : Dict APKArch (List (List Char)) :=
  supportedVersions.items.foldl (fun processed item => processed.insert (archOf item.1) (sortedReverse item.2)) .empty

def archName (architecture : APKArch) : String :=
  if architecture = .armeabi_v7a then "armeabi-v7a" else "arm64-v8a"

/-- The first variant of a version that is a package. -/
def apkVariant (available : AvailableVersions) (architecture : APKArch) (version : List Char) : Option PackageVariant :=
  (available.get? version).bind fun versionData =>
    (versionData.get? (archName architecture)).bind fun variants => variants.find? fun variant => variant.apkType = "APK"

/-- The loop of `find_latest_pogo`. -/
def foundVariant (available : AvailableVersions) (architecture : APKArch) :
    List (List Char) → Option (PackageVariant × List Char)
  | [] => none
  | version :: versions =>
    match apkVariant available architecture version with
    | some variant => some (variant, version)
    | none => foundVariant available architecture versions

/-- `find_latest_pogo`: the variant and the version returned. What is stored of the search is left out. -/
def findLatestPogo (supportedVersions : Dict String (List (List Char))) (available : Option AvailableVersions)
    (architecture : APKArch) : Except WizardError (PackageVariant × List Char) :=
  match (translatePogoVersions supportedVersions).get? architecture with
  | none => .error .keyError
  | some madSupportedPogo =>
    match available with
    | none => .error .notQueried
    | some available =>
      match foundVariant available architecture madSupportedPogo with
      | none => .error .notFound
      | some found => .ok found

/-! ## The version found -/

variable {available : AvailableVersions} {architecture : APKArch} {supportedVersions : Dict String (List (List Char))}

/-- The supported versions of an architecture: those under its last key. -/
def supportedFor (supportedVersions : Dict String (List (List Char))) (architecture : APKArch) :
    Option (List (List Char)) :=
  (supportedVersions.items.filter fun item => archOf item.1 = architecture).getLast?.map Prod.snd

theorem get?_translatePogoVersions (supportedVersions : Dict String (List (List Char))) (architecture : APKArch) :
    (translatePogoVersions supportedVersions).get? architecture =
      (supportedFor supportedVersions architecture).map sortedReverse := by
  unfold translatePogoVersions supportedFor
  generalize supportedVersions.items = items
  -- The last insertion under a key counts.
  induction items using List.reverseRecOn with
  | nil => rfl
  | append_singleton items item ih =>
    rw [List.foldl_concat, Dict.get?_insert, List.filter_append, ih]
    by_cases h : archOf item.1 = architecture
    · simp [h]
    · simp [h, Ne.symm h]

theorem foundVariant_eq (available : AvailableVersions) (architecture : APKArch) (versions : List (List Char)) :
    (foundVariant available architecture versions).map Prod.snd =
      versions.find? fun version => (apkVariant available architecture version).isSome := by
  induction versions with
  | nil => rfl
  | cons version versions ih =>
    rw [foundVariant, List.find?_cons]
    cases h : apkVariant available architecture version with
    | none => exact ih
    | some variant => rfl

/-- A version is available as a package. -/
def Available (available : AvailableVersions) (architecture : APKArch) (version : Version) : Prop :=
  (apkVariant available architecture version.text).isSome

instance (version : Version) : Decidable (Available available architecture version) :=
  inferInstanceAs (Decidable (_ = true))

/-- What is offered is the greatest version, by its numbers, of the supported ones that are available;
and nothing is offered only if there are none. -/
structure ChoosesNewest (supportedVersions : Dict String (List (List Char))) (available : AvailableVersions)
    (architecture : APKArch) (supported : List Version) : Prop where
  newest : ∀ variant version, findLatestPogo supportedVersions (some available) architecture = .ok (variant, version) →
    ∃ c ∈ supported, c.text = version ∧ Available available architecture c ∧
      ∀ w ∈ supported, Available available architecture w → w.key ≤ c.key
  found : ∀ e, findLatestPogo supportedVersions (some available) architecture = .error e →
    ∀ w ∈ supported, ¬ Available available architecture w

/-- No version is after this one in the alphabet, of those that are supported and available. -/
def LastInAlphabet (available : AvailableVersions) (architecture : APKArch) (supported : List Version)
    (c : Version) : Prop :=
  c ∈ supported ∧ Available available architecture c ∧
    ∀ v ∈ supported, Available available architecture v → v.text ≤ c.text

variable {supported : List Version}

/-- The last version in the alphabet is offered. -/
theorem findLatestPogo_spec (available : AvailableVersions)
    (h : supportedFor supportedVersions architecture = some (supported.map Version.text)) :
    (∃ c, LastInAlphabet available architecture supported c ∧
        ∃ variant, findLatestPogo supportedVersions (some available) architecture = .ok (variant, c.text)) ∨
      (∀ w ∈ supported, ¬ Available available architecture w) ∧
        findLatestPogo supportedVersions (some available) architecture = .error .notFound := by
  have hget : (translatePogoVersions supportedVersions).get? architecture =
      some (sortedReverse (supported.map Version.text)) := by
    rw [get?_translatePogoVersions, h, Option.map_some]
  have hsnd := foundVariant_eq available architecture (sortedReverse (supported.map Version.text))
  cases hfound : foundVariant available architecture (sortedReverse (supported.map Version.text)) with
  | none =>
    right
    rw [hfound, Option.map_none] at hsnd
    refine ⟨?_, by simp only [findLatestPogo, hget, hfound]⟩
    intro w hw havailable
    have hnone := List.find?_eq_none.mp hsnd.symm w.text (List.mem_mergeSort.mpr (List.mem_map_of_mem hw))
    exact hnone havailable
  | some found =>
    left
    rw [hfound, Option.map_some] at hsnd
    obtain ⟨hmem, havailable, hgreatest⟩ := find?_mergeSort_ge hsnd.symm
    obtain ⟨c, hc, htext⟩ := List.mem_map.mp hmem
    rw [← htext] at havailable hgreatest
    refine ⟨c, ⟨hc, havailable, fun v hv hvavailable => hgreatest v.text (List.mem_map_of_mem hv) hvavailable⟩,
      found.1, ?_⟩
    simp only [findLatestPogo, hget, hfound, htext]

theorem lastInAlphabet_unique {c c' : Version} (h : LastInAlphabet available architecture supported c)
    (h' : LastInAlphabet available architecture supported c') : c = c' :=
  Version.text_inj (le_antisymm (h'.2.2 c h.1 h.2.1) (h.2.2 c' h'.1 h'.2.1))

/-- Where the newest version is offered, it is the last one in the alphabet. -/
theorem ChoosesNewest.le_last (hnewest : ChoosesNewest supportedVersions available architecture supported)
    (h : supportedFor supportedVersions architecture = some (supported.map Version.text)) {c : Version}
    (hc : LastInAlphabet available architecture supported c) :
    ∀ w ∈ supported, Available available architecture w → w.key ≤ c.key := by
  rcases findLatestPogo_spec available h with ⟨last, hlast, variant, hcall⟩ | ⟨hnone, _⟩
  · obtain rfl := lastInAlphabet_unique hc hlast
    obtain ⟨c', _, htext, _, hgreatest⟩ := hnewest.newest variant c.text hcall
    obtain rfl := Version.text_inj htext
    exact hgreatest
  · exact absurd hc.2.1 (hnone c hc.1)

/-- The last version in the alphabet is the newest one exactly if none has a greater number where the two first
differ. -/
theorem choosesNewest_iff_not_outgrown
    (h : supportedFor supportedVersions architecture = some (supported.map Version.text)) :
    ChoosesNewest supportedVersions available architecture supported ↔
      ∀ c w, LastInAlphabet available architecture supported c → w ∈ supported → Available available architecture w →
        ¬ Version.Outgrown c.components w.components := by
  rcases findLatestPogo_spec available h with ⟨last, hlast, variant, hcall⟩ | ⟨hnone, hcall⟩
  · constructor
    · intro hnewest c w hc hw havailable
      rw [← Version.key_lt_iff]
      exact not_lt.mpr (hnewest.le_last h hc w hw havailable)
    · intro hnot
      refine ⟨?_, ?_⟩
      · intro variant' version hok
        rw [hcall] at hok
        obtain ⟨rfl, rfl⟩ := Prod.mk.inj (Except.ok.inj hok)
        refine ⟨last, hlast.1, rfl, hlast.2.1, ?_⟩
        intro w hw havailable
        have hle := hnot last w hlast hw havailable
        rw [← Version.key_lt_iff] at hle
        exact not_lt.mp hle
      · intro e herror
        rw [hcall] at herror
        cases herror
  · constructor
    · intro _ c w hc _ _
      exact absurd hc.2.1 (hnone c hc.1)
    · intro _
      refine ⟨?_, fun _ _ => hnone⟩
      intro variant version hok
      rw [hcall] at hok
      cases hok

/-- Of versions without leading zeros the newest one is offered exactly if none has a longer number than the last one
in the alphabet where the two first differ. Leading zeros do not count. -/
theorem choosesNewest_iff (h : supportedFor supportedVersions architecture = some (supported.map Version.text)) :
    ((∀ v ∈ supported, v.Canonical) →
      (ChoosesNewest supportedVersions available architecture supported ↔
        ∀ c w, LastInAlphabet available architecture supported c → w ∈ supported → Available available architecture w →
          ¬ Version.LongerAt c.components w.components)) ∧
    (ChoosesNewest supportedVersions available architecture supported ↔
      ∀ c w, LastInAlphabet available architecture supported c → w ∈ supported → Available available architecture w →
        ¬ Version.Outgrown c.components w.components) := by
  refine ⟨fun hcanonical => ?_, choosesNewest_iff_not_outgrown h⟩
  rw [choosesNewest_iff_not_outgrown h]
  have hlonger : ∀ c w, LastInAlphabet available architecture supported c → w ∈ supported →
      Available available architecture w →
        (Version.Outgrown c.components w.components ↔ Version.LongerAt c.components w.components) :=
    fun c w hc hw havailable =>
      Version.outgrown_iff_longer (hcanonical c hc.1) (hcanonical w hw) (hc.2.2 w hw havailable)
  constructor
  · intro hnot c w hc hw havailable
    exact (hlonger c w hc hw havailable).not.mp (hnot c w hc hw havailable)
  · intro hnot c w hc hw havailable
    exact (hlonger c w hc hw havailable).not.mpr (hnot c w hc hw havailable)

/-! ## Two versions -/

/-- `0.` before the two components. -/
def pogoVersion (major minor : Numeral) : Version := ⟨⟨['0'], by decide, by simp [IsDigit]⟩, [major, minor]⟩

def version99 : Version := pogoVersion ⟨['9', '9'], by decide, by simp [IsDigit]⟩ ⟨['1'], by decide, by simp [IsDigit]⟩

def version271 : Version := pogoVersion ⟨['2', '7', '1'], by decide, by simp [IsDigit]⟩ ⟨['2'], by decide, by simp [IsDigit]⟩

def version273 : Version := pogoVersion ⟨['2', '7', '3'], by decide, by simp [IsDigit]⟩ ⟨['0'], by decide, by simp [IsDigit]⟩

def supported64 (versions : List Version) : Dict String (List (List Char)) :=
  .ofList [("64", versions.map Version.text)]

/-- The versions, each with a package. -/
def downloads (versions : List Version) : AvailableVersions :=
  .ofList (versions.map fun version => (version.text, .ofList [("arm64-v8a", [⟨"APK", 1⟩])]))

theorem version271_canonical : version271.Canonical := by
  simp [Version.Canonical, Version.components, version271, pogoVersion, Numeral.Canonical]

theorem version273_canonical : version273.Canonical := by
  simp [Version.Canonical, Version.components, version273, pogoVersion, Numeral.Canonical]

theorem newest_of_two : ChoosesNewest (supported64 [version271, version273]) (downloads [version271, version273])
    .arm64_v8a [version271, version273] := by
  refine ((choosesNewest_iff rfl).1 ?_).mpr ?_
  · simp [version271_canonical, version273_canonical]
  · intro c w hc hw _
    have hlast : LastInAlphabet (downloads [version271, version273]) .arm64_v8a [version271, version273] version273 := by
      refine ⟨by simp, by decide, ?_⟩
      intro v hv _
      have hle : ∀ v ∈ [version271, version273], v.text ≤ version273.text := by decide
      exact hle v hv
    obtain rfl := lastInAlphabet_unique hc hlast
    have hnot : ∀ w ∈ [version271, version273], ¬ Version.LongerAt version273.components w.components := by decide
    exact hnot w hw

/-- `0.99.1` is offered instead of `0.271.2`. -/
theorem older_of_two : ¬ ChoosesNewest (supported64 [version271, version99]) (downloads [version271, version99])
    .arm64_v8a [version271, version99] := by
  intro h
  have hlast : LastInAlphabet (downloads [version271, version99]) .arm64_v8a [version271, version99] version99 := by
    refine ⟨by simp, by decide, ?_⟩
    intro v hv _
    have hle : ∀ v ∈ [version271, version99], v.text ≤ version99.text := by decide
    exact hle v hv
  have hgreatest := h.le_last rfl hlast version271 (by simp) (by decide)
  exact absurd hgreatest (by decide)

end MapADroid.Apk.Wizard
