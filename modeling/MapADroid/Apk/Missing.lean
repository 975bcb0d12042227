import MapADroid.Apk.Filesystem
import MapADroid.Lib.Methods

/- Entries of the file system's catalogue whose files are missing.

   `validate_file` removes such an entry and raises. `get_current_package_info` validates
   one entry of a package after the other, but takes what is raised outside its loop: the
   first missing file ends it, and the entries after that are reported unseen. So only what
   can be served is reported exactly if at most one file is missing
   (`reportsServable_iff`).

   A configuration is saved into a directory that is there. Where it is not, saving raises
   the `FileNotFoundError` that `validate_file` raises after it. -/
namespace MapADroid.Apk
open Lib

variable {β : Type}

/-- What the methods of the storage raise. -/
inductive StorageError where
  /-- `FileNotFoundError`. -/
  | fileNotFound
  /-- Any other `OSError`. -/
  | osError
  deriving DecidableEq, Repr

/-- The storage during a call, and how often its configuration was saved. -/
structure StorageRun (β : Type) where
  storage : APKStorageFilesystem β
  saved : Nat

abbrev StorageMethod (β α : Type) := Method (StorageRun β) StorageError α

/-- `del self.apks[package][architecture]`. -/
def APKStorageFilesystem.forget (package : APKType) (architecture : APKArch) (s : APKStorageFilesystem β) :
    APKStorageFilesystem β :=
  { s with apks := s.apks.remove package architecture }

/-- A package in the catalogue has no file. -/
def APKStorageFilesystem.Missing (s : APKStorageFilesystem β) (package : APKType) (architecture : APKArch) : Prop :=
  ∃ info, s.apks.lookup package architecture = some info ∧ s.files.get? info.filename = none

/-- A package in the catalogue has its file. -/
def APKStorageFilesystem.Present (s : APKStorageFilesystem β) (package : APKType) (architecture : APKArch) : Prop :=
  ∃ info, s.apks.lookup package architecture = some info ∧ (s.files.get? info.filename).isSome

namespace StorageMethod

def modifyStorage (f : APKStorageFilesystem β → APKStorageFilesystem β) : StorageMethod β Unit :=
  modify fun run => { run with storage := f run.storage }

/-- `save_configuration`; `fails` says at which times it does. -/
def saveConfiguration (fails : Nat → Bool) : StorageMethod β Unit := do
  let saved := (← get).saved
  modify fun run => { run with saved := saved + 1 }
  if fails saved then throw .osError

/-- `validate_file`. -/
def validateFile (fails : Nat → Bool) (package : APKType) (architecture : APKArch) : StorageMethod β Unit := do
  let s := (← get).storage
  match s.apks.lookup package architecture with
  | none => throw .fileNotFound
  | some info =>
    if (s.files.get? info.filename).isNone then
      modifyStorage (·.forget package architecture)
      saveConfiguration fails
      throw .fileNotFound

/-- `reload`. -/
def reload (fails : Nat → Bool) : StorageMethod β Unit := do
  modifyStorage APKStorageFilesystem.reload
  saveConfiguration fails

/-- `ensure_config_file`. -/
def ensureConfigFile {α : Type} (fails : Nat → Bool) (m : StorageMethod β α) : StorageMethod β α :=
  handling m fun
    | .fileNotFound => do reload fails; m
    | .osError => throw .osError

/-- `except FileNotFoundError: pass`. -/
def passingNotFound (m : StorageMethod β Unit) : StorageMethod β Unit :=
  handling m fun
    | .fileNotFound => pure ()
    | .osError => throw .osError

/-- The loop of `get_current_package_info`. -/
def validateFiles (fails : Nat → Bool) (package : APKType) : List APKArch → StorageMethod β Unit
  | [] => pure ()
  | arch :: archs => do
    validateFile fails package arch
    validateFiles fails package archs

/-- `get_current_package_info`. Without packages, `self.apks[package]` raises a `KeyError` that is
taken like a missing file. -/
def getCurrentPackageInfo (fails : Nat → Bool) (package : APKType) : StorageMethod β (Option MADPackages) :=
  ensureConfigFile fails do
    let data := ((← get).storage.apks.get? package).getD .empty
    passingNotFound (validateFiles fails package data.keys)
    let packages := (← get).storage.apks.get? package
    pure (packages.filter fun packages => !packages.items.isEmpty)

/-! ## What one call does -/

variable {fails : Nat → Bool} {p : APKType} {a : APKArch} {run : StorageRun β}

@[simp] theorem call_modifyStorage (f : APKStorageFilesystem β → APKStorageFilesystem β) (run : StorageRun β) :
    call (modifyStorage f) run = (.ok (), ⟨f run.storage, run.saved⟩) := rfl

@[simp] theorem call_saveConfiguration (fails : Nat → Bool) (run : StorageRun β) :
    call (saveConfiguration fails) run =
      (if fails run.saved then .error .osError else .ok (), ⟨run.storage, run.saved + 1⟩) := by
  simp only [saveConfiguration, call_bind, call_get, andThen_ok, call_modify]
  cases hfails : fails run.saved with
  | true => simp
  | false => simp

theorem call_validateFile_of_present (h : run.storage.Present p a) :
    call (validateFile fails p a) run = (.ok (), run) := by
  obtain ⟨info, hlookup, hfile⟩ := h
  simp only [validateFile, call_bind, call_get, andThen_ok, hlookup]
  rw [if_neg]
  · rfl
  · rw [Option.isSome_iff_ne_none] at hfile
    simpa using hfile

/-- What `validate_file` raises for a missing file. -/
def missingError (fails : Nat → Bool) (saved : Nat) : StorageError :=
  if fails saved then .osError else .fileNotFound

theorem call_validateFile_of_missing (h : run.storage.Missing p a) :
    call (validateFile fails p a) run =
      (.error (missingError fails run.saved), ⟨run.storage.forget p a, run.saved + 1⟩) := by
  obtain ⟨info, hlookup, hfile⟩ := h
  simp only [validateFile, call_bind, call_get, andThen_ok, hlookup, hfile, Option.isNone_none, if_true,
    call_modifyStorage, call_saveConfiguration, missingError]
  cases fails run.saved with
  | true => simp
  | false => simp

/-- As long as the files are there, nothing changes. -/
theorem call_validateFiles_of_present (fails : Nat → Bool) {archs : List APKArch}
    (h : ∀ arch ∈ archs, run.storage.Present p arch) :
    call (validateFiles fails p archs) run = (.ok (), run) := by
  induction archs with
  | nil => rfl
  | cons arch archs ih =>
    rw [validateFiles, call_bind, call_validateFile_of_present (h arch List.mem_cons_self), andThen_ok]
    exact ih fun arch' harch => h arch' (List.mem_cons_of_mem _ harch)

/-- The first missing file ends the loop. -/
theorem call_validateFiles_of_missing (fails : Nat → Bool) {pre : List APKArch} (post : List APKArch)
    (hpre : ∀ arch ∈ pre, run.storage.Present p arch) (h : run.storage.Missing p a) :
    call (validateFiles fails p (pre ++ a :: post)) run =
      (.error (missingError fails run.saved), ⟨run.storage.forget p a, run.saved + 1⟩) := by
  induction pre with
  | nil => rw [List.nil_append, validateFiles, call_bind, call_validateFile_of_missing h, andThen_error]
  | cons arch pre ih =>
    rw [List.cons_append, validateFiles, call_bind, call_validateFile_of_present (hpre arch List.mem_cons_self),
      andThen_ok]
    exact ih fun arch' harch => hpre arch' (List.mem_cons_of_mem _ harch)

/-! ## The packages reported -/

theorem present_or_missing {s : APKStorageFilesystem β} {info : MADPackage} (h : s.apks.lookup p a = some info) :
    s.Present p a ∨ s.Missing p a := by
  cases hfile : s.files.get? info.filename with
  | none => exact .inr ⟨info, h, hfile⟩
  | some data => exact .inl ⟨info, h, by rw [hfile]; rfl⟩

theorem not_missing_of_present (h : run.storage.Present p a) : ¬ run.storage.Missing p a := by
  intro hmissing
  obtain ⟨info, hlookup, hfile⟩ := h
  obtain ⟨info', hlookup', hnone⟩ := hmissing
  obtain rfl := Option.some.inj (hlookup.symm.trans hlookup')
  rw [hnone] at hfile
  cases hfile

/-- The architectures the loop runs through. -/
def architectures (p : APKType) (s : APKStorageFilesystem β) : List APKArch := ((s.apks.get? p).getD .empty).keys

theorem mem_architectures_iff {s : APKStorageFilesystem β} :
    a ∈ architectures p s ↔ ∃ info, s.apks.lookup p a = some info := by
  unfold architectures MADapks.lookup
  cases s.apks.get? p with
  | none => simp
  | some packages => exact Dict.mem_keys_iff

/-- What is reported of a storage. -/
def reported (p : APKType) (s : APKStorageFilesystem β) : Option MADPackages :=
  (s.apks.get? p).filter fun packages => !packages.items.isEmpty

theorem call_getCurrentPackageInfo_of_present (fails : Nat → Bool)
    (h : ∀ arch ∈ architectures p run.storage, run.storage.Present p arch) :
    call (getCurrentPackageInfo fails p) run = (.ok (reported p run.storage), run) := by
  have hloop := call_validateFiles_of_present fails h
  rw [architectures] at hloop
  simp [getCurrentPackageInfo, ensureConfigFile, passingNotFound, hloop, reported]

theorem call_getCurrentPackageInfo_of_missing (fails : Nat → Bool) {pre post : List APKArch}
    (harchs : architectures p run.storage = pre ++ a :: post)
    (hpre : ∀ arch ∈ pre, run.storage.Present p arch) (h : run.storage.Missing p a) :
    call (getCurrentPackageInfo fails p) run =
      (if fails run.saved then .error .osError else .ok (reported p (run.storage.forget p a)),
        ⟨run.storage.forget p a, run.saved + 1⟩) := by
  have hloop := call_validateFiles_of_missing fails post hpre h
  rw [← harchs, architectures] at hloop
  cases hfails : fails run.saved with
  | true => simp [getCurrentPackageInfo, ensureConfigFile, passingNotFound, hloop, missingError, hfails]
  | false => simp [getCurrentPackageInfo, ensureConfigFile, passingNotFound, hloop, missingError, hfails, reported]

/-- Either no file is missing, or there is a first one that is. -/
theorem present_or_first_missing (p : APKType) (s : APKStorageFilesystem β) :
    (∀ arch ∈ architectures p s, s.Present p arch) ∨
      ∃ pre arch post, architectures p s = pre ++ arch :: post ∧ (∀ arch' ∈ pre, s.Present p arch') ∧
        s.Missing p arch := by
  classical
  cases hfind : (architectures p s).find? fun arch => decide (¬ s.Present p arch) with
  | none =>
    left
    intro arch harch
    have hnone := List.find?_eq_none.mp hfind arch harch
    simpa using hnone
  | some arch =>
    right
    obtain ⟨harch, pre, post, happend, hpre⟩ := List.find?_eq_some_iff_append.mp hfind
    refine ⟨pre, arch, post, happend, fun arch' harch' => by simpa using hpre arch' harch', ?_⟩
    obtain ⟨info, hlookup⟩ := mem_architectures_iff.mp (happend ▸ List.mem_append_cons_self : arch ∈ architectures p s)
    exact (present_or_missing hlookup).resolve_left (by simpa using harch)

theorem get?_reported {s : APKStorageFilesystem β} {packages : MADPackages} {info : MADPackage}
    (h : reported p s = some packages) (hget : packages.get? a = some info) : s.apks.lookup p a = some info := by
  obtain ⟨hpackages, _⟩ := Option.filter_eq_some_iff.mp h
  rw [MADapks.lookup, hpackages]
  exact hget

/-- Every architecture reported has its file, and no entry is left that had none. -/
structure ReportsServable (fails : Nat → Bool) (p : APKType) (run : StorageRun β) : Prop where
  served : ∀ packages, (call (getCurrentPackageInfo fails p) run).1 = .ok (some packages) →
    ∀ arch info, packages.get? arch = some info →
      ((call (getCurrentPackageInfo fails p) run).2.storage.files.get? info.filename).isSome
  removed : ∀ arch, run.storage.Missing p arch →
    (call (getCurrentPackageInfo fails p) run).2.storage.apks.lookup p arch = none

/-- Only the first missing entry is removed. -/
theorem ReportsServable.eq_of_missing (h : ReportsServable fails p run) {arch arch' : APKArch}
    (harch : run.storage.Missing p arch) (harch' : run.storage.Missing p arch') : arch = arch' := by
  rcases present_or_first_missing p run.storage with hpresent | ⟨pre, first, post, happend, hpre, hfirst⟩
  · obtain ⟨info, hlookup, _⟩ := id harch
    exact absurd harch (not_missing_of_present (hpresent arch (mem_architectures_iff.mpr ⟨info, hlookup⟩)))
  · have hcall := call_getCurrentPackageInfo_of_missing fails happend hpre hfirst
    have honly : ∀ arch, run.storage.Missing p arch → arch = first := by
      intro arch hmissing
      obtain ⟨info, hlookup, _⟩ := id hmissing
      have hremoved := h.removed arch hmissing
      rw [hcall, APKStorageFilesystem.forget, MADapks.lookup_remove, hlookup] at hremoved
      by_contra hne
      simp [hne] at hremoved
    rw [honly arch harch, honly arch' harch']

/-- Whenever saving the configuration fails, the filesystem reports what it can serve, and removes what
it cannot, exactly if at most one file of the package is missing. -/
theorem reportsServable_iff (fails : Nat → Bool) (p : APKType) (run : StorageRun β) :
    ReportsServable fails p run ↔
      ∀ arch arch', run.storage.Missing p arch → run.storage.Missing p arch' → arch = arch' := by
  refine ⟨fun h _ _ => h.eq_of_missing, ?_⟩
  intro h
  rcases present_or_first_missing p run.storage with hpresent | ⟨pre, first, post, happend, hpre, hfirst⟩
  · have hcall := call_getCurrentPackageInfo_of_present fails hpresent
    refine ⟨?_, ?_⟩
    · intro packages hpackages arch info hget
      rw [hcall] at hpackages ⊢
      have hlookup := get?_reported (Option.some.inj (congrArg Except.toOption hpackages)) hget
      obtain ⟨info', hlookup', hfile⟩ := hpresent arch (mem_architectures_iff.mpr ⟨info, hlookup⟩)
      obtain rfl := Option.some.inj (hlookup.symm.trans hlookup')
      exact hfile
    · intro arch hmissing
      obtain ⟨info, hlookup, _⟩ := id hmissing
      exact absurd hmissing (not_missing_of_present (hpresent arch (mem_architectures_iff.mpr ⟨info, hlookup⟩)))
  · have hcall := call_getCurrentPackageInfo_of_missing fails happend hpre hfirst
    refine ⟨?_, ?_⟩
    · intro packages hpackages arch info hget
      rw [hcall] at hpackages ⊢
      cases hfails : fails run.saved with
      | true =>
        rw [hfails] at hpackages
        cases hpackages
      | false =>
        rw [hfails] at hpackages
        have hlookup := get?_reported (Option.some.inj (congrArg Except.toOption hpackages)) hget
        rw [APKStorageFilesystem.forget, MADapks.lookup_remove] at hlookup
        split at hlookup
        · cases hlookup
        · next hne =>
          rcases present_or_missing hlookup with hpresent | hmissing
          · obtain ⟨info', hlookup', hfile⟩ := hpresent
            obtain rfl := Option.some.inj (hlookup.symm.trans hlookup')
            exact hfile
          · exact absurd ⟨rfl, h arch first hmissing hfirst⟩ hne
    · intro arch hmissing
      obtain rfl := h arch first hmissing hfirst
      rw [hcall, APKStorageFilesystem.forget, MADapks.lookup_remove]
      simp

/-- Two architectures whose files were taken away. -/
def twoMissing : StorageRun Nat where
  storage :=
    { apks := .ofList [(.pogo, .ofList
        [(.armeabi_v7a, ⟨"0.1".toList, "a".toList, apkMimetype, 1⟩),
          (.arm64_v8a, ⟨"0.1".toList, "b".toList, apkMimetype, 1⟩)])]
      files := .empty }
  saved := 0

theorem twoMissing_reported : ¬ ReportsServable (fun _ => false) .pogo twoMissing := by
  intro h
  have hmissing : ∀ arch, twoMissing.storage.apks.lookup .pogo arch ≠ none → twoMissing.storage.Missing .pogo arch := by
    intro arch hne
    obtain ⟨info, hlookup⟩ := Option.ne_none_iff_exists'.mp hne
    exact ⟨info, hlookup, rfl⟩
  cases h.eq_of_missing (hmissing .armeabi_v7a (by decide)) (hmissing .arm64_v8a (by decide))

end StorageMethod

end MapADroid.Apk
