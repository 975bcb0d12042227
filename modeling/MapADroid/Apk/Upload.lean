import MapADroid.Apk.Database
import MapADroid.Apk.Missing

/- Uploads that fail.

   Both storages delete what they have of a package before the new file is written. The
   file system does so twice, with a look into the directory in between; the database in a
   session of its own. Whatever fails after that leaves the package deleted, so a failed
   upload keeps it exactly if nothing was there to be kept, or if the deletion itself is
   what fails (`failedUploadKeeps_iff`). -/
namespace MapADroid.Apk
open Lib

variable {β : Type}

/-- How an attempt to write the data ends. -/
inductive Writing (β : Type) where
  | done
  /-- `FileNotFoundError`: nothing is opened. -/
  | notFound
  /-- Another `OSError`, with what is in the file if it was opened. -/
  | failed (left : Option (List β))
  deriving DecidableEq, Repr

/-! ## The file system -/

namespace APKStorageFilesystem

/-- The file of an entry and the entry, removed. -/
def unlink (package : APKType) (architecture : APKArch) (s : APKStorageFilesystem β) : APKStorageFilesystem β :=
  match s.apks.lookup package architecture with
  | none => s
  | some info => ⟨s.apks.remove package architecture, s.files.erase info.filename⟩

/-- What a failed writing leaves. -/
def leaving (filename : List Char) (left : Option (List β)) (s : APKStorageFilesystem β) : APKStorageFilesystem β :=
  match left with
  | none => s
  | some data => { s with files := s.files.insert filename data }

/-- The package written, with its entry. -/
def add (package : APKType) (architecture : APKArch) (info : MADPackage) (data : List β)
    (s : APKStorageFilesystem β) : APKStorageFilesystem β where
  files := s.files.insert info.filename data
  apks := s.apks.assign package architecture info

end APKStorageFilesystem

/-- The entry of a file that is uploaded. -/
def uploaded (package : APKType) (architecture : APKArch) (version : List Char) (mimetype : String)
    (data : List β) : MADPackage :=
  ⟨version, generateFilename package architecture version mimetype, mimetype, data.length⟩

namespace StorageMethod

/-- `delete_file` with `ensure_exists`. -/
def deleteExisting (fails : Nat → Bool) (package : APKType) (architecture : APKArch) : StorageMethod β Unit := do
  validateFile fails package architecture
  modifyStorage (·.unlink package architecture)
  saveConfiguration fails

/-- `delete_file`. -/
def deleteFile (fails : Nat → Bool) (package : APKType) (architecture : APKArch) : StorageMethod β Unit :=
  ensureConfigFile fails (deleteExisting fails package architecture)

/-- The two deletions of `save_file`. -/
def clear (fails : Nat → Bool) (package : APKType) (architecture : APKArch) : StorageMethod β Unit := do
  passingNotFound (deleteFile fails package architecture)
  passingNotFound (deleteFile fails package architecture)

/-- `save_file` of `info`, with what comes of a `FileNotFoundError` on opening the file. -/
def saveInfo (fails : Nat → Bool) (writing : Writing β) (package : APKType) (architecture : APKArch)
    (info : MADPackage) (data : List β) (onNotFound : StorageMethod β Bool) : StorageMethod β Bool :=
  ensureConfigFile fails (handling (do
    clear fails package architecture
    match writing with
    | .notFound => onNotFound
    | .failed left =>
      modifyStorage (·.leaving info.filename left)
      throw .osError
    | .done =>
      modifyStorage (·.add package architecture info data)
      saveConfiguration fails
      pure true)
    fun _ => pure false)

/-- `save_file`; a second attempt is made if `retry` is set. -/
def saveFile (fails : Nat → Bool) (writing : Bool → Writing β) (package : APKType) (architecture : APKArch)
    (version : List Char) (mimetype : String) (data : List β) (retry : Bool) : StorageMethod β Bool :=
  let info := uploaded package architecture version mimetype data
  saveInfo fails (writing false) package architecture info data
    (if retry then saveInfo fails (writing true) package architecture info data (pure false) else pure false)

/-! ### The savings of the configuration -/

/-- None of the next `k` savings fails. -/
def Undisturbed (fails : Nat → Bool) (n k : Nat) : Prop := ∀ i < k, fails (n + i) = false

theorem undisturbed_zero (fails : Nat → Bool) (n : Nat) : Undisturbed fails n 0 := fun i hi => by omega

theorem undisturbed_one_iff {fails : Nat → Bool} {n : Nat} : Undisturbed fails n 1 ↔ fails n = false := by
  constructor
  · intro h
    exact h 0 Nat.zero_lt_one
  · intro h i hi
    obtain rfl : i = 0 := by omega
    exact h

theorem undisturbed_add_iff {fails : Nat → Bool} {n k l : Nat} :
    Undisturbed fails n (k + l) ↔ Undisturbed fails n k ∧ Undisturbed fails (n + k) l := by
  constructor
  · intro h
    refine ⟨fun i hi => h i (by omega), ?_⟩
    intro i hi
    rw [Nat.add_assoc]
    exact h (k + i) (by omega)
  · intro h i hi
    rcases Nat.lt_or_ge i k with hlt | hge
    · exact h.1 i hlt
    · have hrest := h.2 (i - k) (by omega)
      rwa [Nat.add_assoc, Nat.add_sub_cancel' hge] at hrest

/-- The savings of a deletion: one for an entry, whether or not it has its file. -/
def existingSaves (p : APKType) (a : APKArch) (s : APKStorageFilesystem β) : Nat :=
  if (s.apks.lookup p a).isSome then 1 else 0

/-- The savings of a deletion, which is made again after a look into the directory. -/
def deletionSaves (p : APKType) (a : APKArch) (s : APKStorageFilesystem β) : Nat :=
  if (s.deleteExisting p a).2 then existingSaves p a s
  else existingSaves p a s + (1 + existingSaves p a (s.deleteExisting p a).1.reload)

/-- A storage after the two deletions. -/
def cleared (p : APKType) (a : APKArch) (s : APKStorageFilesystem β) : APKStorageFilesystem β :=
  ((s.deleteFile p a).1.deleteFile p a).1

/-- The savings of the two deletions. -/
def clearSaves (p : APKType) (a : APKArch) (s : APKStorageFilesystem β) : Nat :=
  deletionSaves p a s + deletionSaves p a (s.deleteFile p a).1

/-! ### The deletions -/

variable {fails : Nat → Bool} {p : APKType} {a : APKArch} {run : StorageRun β} {s : APKStorageFilesystem β}

theorem call_validateFile_of_none (h : run.storage.apks.lookup p a = none) :
    call (validateFile fails p a) run = (.error .fileNotFound, run) := by
  simp only [validateFile, call_bind, call_get, andThen_ok, h, call_throw]

theorem deleteExisting_of_present (h : s.Present p a) : s.deleteExisting p a = (s.unlink p a, true) := by
  obtain ⟨info, hlookup, hfile⟩ := h
  simp only [APKStorageFilesystem.deleteExisting, APKStorageFilesystem.unlink, hlookup, hfile, if_true]

theorem deleteExisting_of_missing (h : s.Missing p a) : s.deleteExisting p a = (s.forget p a, false) := by
  obtain ⟨info, hlookup, hfile⟩ := h
  simp [APKStorageFilesystem.deleteExisting, APKStorageFilesystem.forget, hlookup, hfile]

theorem existingSaves_of_lookup {info : MADPackage} (h : s.apks.lookup p a = some info) : existingSaves p a s = 1 := by
  rw [existingSaves, h]
  rfl

theorem existingSaves_of_none (h : s.apks.lookup p a = none) : existingSaves p a s = 0 := by
  rw [existingSaves, h]
  rfl

/-- A deletion leaves the same storage whether or not its saving fails. -/
theorem call_deleteExisting (fails : Nat → Bool) (p : APKType) (a : APKArch) (run : StorageRun β) :
    (call (deleteExisting fails p a) run).2 =
        ⟨(run.storage.deleteExisting p a).1, run.saved + existingSaves p a run.storage⟩ ∧
      (Undisturbed fails run.saved (existingSaves p a run.storage) → (call (deleteExisting fails p a) run).1 =
        if (run.storage.deleteExisting p a).2 then .ok () else .error .fileNotFound) ∧
      (¬ Undisturbed fails run.saved (existingSaves p a run.storage) →
        (call (deleteExisting fails p a) run).1 = .error .osError) := by
  cases hlookup : run.storage.apks.lookup p a with
  | none =>
    have hcall : call (deleteExisting fails p a) run = (.error .fileNotFound, run) := by
      rw [deleteExisting, call_bind, call_validateFile_of_none hlookup, andThen_error]
    rw [hcall, existingSaves_of_none hlookup, deleteExisting_of_none hlookup]
    exact ⟨rfl, fun _ => rfl, fun h => absurd (undisturbed_zero fails run.saved) h⟩
  | some info =>
    rw [existingSaves_of_lookup hlookup, undisturbed_one_iff]
    rcases present_or_missing hlookup with hpresent | hmissing
    · have hcall : call (deleteExisting fails p a) run =
          (if fails run.saved then .error .osError else .ok (), ⟨run.storage.unlink p a, run.saved + 1⟩) := by
        simp only [deleteExisting, call_bind, call_validateFile_of_present hpresent, andThen_ok,
          call_modifyStorage, call_saveConfiguration]
      rw [hcall, deleteExisting_of_present hpresent]
      cases fails run.saved with
      | false => simp
      | true => simp
    · have hcall : call (deleteExisting fails p a) run =
          (.error (missingError fails run.saved), ⟨run.storage.forget p a, run.saved + 1⟩) := by
        rw [deleteExisting, call_bind, call_validateFile_of_missing hmissing, andThen_error]
      rw [hcall, deleteExisting_of_missing hmissing, missingError]
      cases fails run.saved with
      | false => simp
      | true => simp

/-- What a call leaves has no file that was not there. -/
def KeepsGone {α : Type} (run : StorageRun β) (out : Except StorageError α × StorageRun β) : Prop :=
  ∀ name, run.storage.files.get? name = none → out.2.storage.files.get? name = none

theorem keepsGone_deleteExisting (s : APKStorageFilesystem β) {name : List Char} (h : s.files.get? name = none) :
    (s.deleteExisting p a).1.files.get? name = none := by
  unfold APKStorageFilesystem.deleteExisting
  cases s.apks.lookup p a with
  | none => exact h
  | some info =>
    dsimp only
    split
    · simp [Dict.get?_erase, h]
    · exact h

theorem deleteFile_of_existing (h : (s.deleteExisting p a).2 = true) : s.deleteFile p a = s.deleteExisting p a := by
  rw [APKStorageFilesystem.deleteFile, APKStorageFilesystem.ensureConfigFile, if_pos h]

theorem deleteFile_of_not_existing (h : (s.deleteExisting p a).2 = false) :
    s.deleteFile p a = (s.deleteExisting p a).1.reload.deleteExisting p a := by
  rw [APKStorageFilesystem.deleteFile, APKStorageFilesystem.ensureConfigFile, h, if_neg Bool.false_ne_true]

/-- What comes of a call with `k` savings: where none of them fails it ends with `out`, where one does it
raises; and no file comes back. -/
structure SavingSpec {α : Type} (fails : Nat → Bool) (run : StorageRun β) (k : Nat)
    (out : Except StorageError α × APKStorageFilesystem β) (m : StorageMethod β α) : Prop where
  undisturbed : Undisturbed fails run.saved k → call m run = (out.1, ⟨out.2, run.saved + k⟩)
  disturbed : ¬ Undisturbed fails run.saved k → (call m run).1 = .error .osError
  gone : KeepsGone run (call m run)

/-- How a deletion ends that no saving disturbs. -/
def deletionOut (out : APKStorageFilesystem β × Bool) : Except StorageError Unit × APKStorageFilesystem β :=
  (if out.2 then .ok () else .error .fileNotFound, out.1)

theorem deleteExisting_spec (fails : Nat → Bool) (p : APKType) (a : APKArch) (run : StorageRun β) :
    SavingSpec fails run (existingSaves p a run.storage) (deletionOut (run.storage.deleteExisting p a))
      (deleteExisting fails p a) := by
  obtain ⟨hleft, hsaved, hfailed⟩ := call_deleteExisting fails p a run
  refine ⟨fun h => Prod.ext (hsaved h) hleft, hfailed, ?_⟩
  intro name hname
  rw [hleft]
  exact keepsGone_deleteExisting run.storage hname

/-- Another error is passed on. -/
theorem call_ensureConfigFile_of_osError {α : Type} {m : StorageMethod β α} (h : (call m run).1 = .error .osError) :
    call (ensureConfigFile fails m) run = call m run := by
  rw [ensureConfigFile, call_handling]
  cases hcall : call m run with
  | mk result left =>
    rw [hcall] at h
    subst h
    rw [recover_error, call_throw]

theorem deleteFile_saves (fails : Nat → Bool) (p : APKType) (a : APKArch) (run : StorageRun β) :
    SavingSpec fails run (deletionSaves p a run.storage) (deletionOut (run.storage.deleteFile p a))
      (deleteFile fails p a) := by
  have hspec := deleteExisting_spec fails p a run
  cases hexisting : (run.storage.deleteExisting p a).2 with
  | true =>
    have hout : deletionOut (run.storage.deleteExisting p a) = (.ok (), (run.storage.deleteExisting p a).1) := by
      rw [deletionOut, hexisting, if_pos rfl]
    rw [deletionSaves, if_pos hexisting, deleteFile_of_existing hexisting]
    -- What does not raise is not made again, and neither is what raises another error.
    have hcall : call (deleteFile fails p a) run = call (deleteExisting fails p a) run := by
      by_cases h : Undisturbed fails run.saved (existingSaves p a run.storage)
      · rw [deleteFile, ensureConfigFile, call_handling, hspec.undisturbed h, hout, recover_ok]
      · exact call_ensureConfigFile_of_osError (hspec.disturbed h)
    exact ⟨fun h => hcall.trans (hspec.undisturbed h), fun h => hcall ▸ hspec.disturbed h, hcall ▸ hspec.gone⟩
  | false =>
    have hout : deletionOut (run.storage.deleteExisting p a) =
        (.error .fileNotFound, (run.storage.deleteExisting p a).1) := by
      rw [deletionOut, hexisting, if_neg Bool.false_ne_true]
    have hsaves : deletionSaves p a run.storage = existingSaves p a run.storage +
        (1 + existingSaves p a (run.storage.deleteExisting p a).1.reload) := by
      rw [deletionSaves, hexisting, if_neg Bool.false_ne_true]
    rw [hsaves, deleteFile_of_not_existing hexisting]
    by_cases h : Undisturbed fails run.saved (existingSaves p a run.storage)
    · have hfirst := hspec.undisturbed h
      rw [hout] at hfirst
      -- The deletion is made again, after the directory was read.
      let again : StorageRun β := ⟨(run.storage.deleteExisting p a).1.reload,
        run.saved + existingSaves p a run.storage + 1⟩
      have hagain := deleteExisting_spec fails p a again
      cases hfails : fails (run.saved + existingSaves p a run.storage) with
      | true =>
        have hcall : call (deleteFile fails p a) run = (.error .osError, again) := by
          simp [deleteFile, ensureConfigFile, hfirst, reload, hfails, again]
        refine ⟨?_, fun _ => by rw [hcall], ?_⟩
        · intro hall
          have hone := (undisturbed_add_iff.mp (undisturbed_add_iff.mp hall).2).1
          rw [undisturbed_one_iff, hfails] at hone
          cases hone
        · intro name hname
          rw [hcall]
          exact keepsGone_deleteExisting run.storage hname
      | false =>
        have hcall : call (deleteFile fails p a) run = call (deleteExisting fails p a) again := by
          simp [deleteFile, ensureConfigFile, hfirst, reload, hfails, again]
        have hiff : Undisturbed fails run.saved (existingSaves p a run.storage +
            (1 + existingSaves p a (run.storage.deleteExisting p a).1.reload)) ↔
            Undisturbed fails again.saved (existingSaves p a again.storage) := by
          rw [undisturbed_add_iff, undisturbed_add_iff, undisturbed_one_iff]
          exact ⟨fun hall => hall.2.2, fun hrest => ⟨h, hfails, hrest⟩⟩
        refine ⟨?_, ?_, ?_⟩
        · intro hall
          rw [hcall, hagain.undisturbed (hiff.mp hall)]
          simp [again, Nat.add_assoc]
        · intro hnot
          rw [hcall]
          exact hagain.disturbed fun hrest => hnot (hiff.mpr hrest)
        · intro name hname
          rw [hcall]
          exact hagain.gone name (keepsGone_deleteExisting run.storage hname)
    · have hcall : call (deleteFile fails p a) run = call (deleteExisting fails p a) run :=
        call_ensureConfigFile_of_osError (hspec.disturbed h)
      exact ⟨fun hall => absurd (undisturbed_add_iff.mp hall).1 h, fun _ => hcall ▸ hspec.disturbed h,
        hcall ▸ hspec.gone⟩

theorem passing_spec {k : Nat} {out : APKStorageFilesystem β × Bool} {m : StorageMethod β Unit}
    (h : SavingSpec fails run k (deletionOut out) m) : SavingSpec fails run k (.ok (), out.1) (passingNotFound m) := by
  have hpass : (call (passingNotFound m) run).2 = (call m run).2 := by
    rw [passingNotFound, call_handling]
    cases call m run with
    | mk result left =>
      cases result with
      | ok _ => rfl
      | error e => cases e <;> rfl
  refine ⟨?_, ?_, ?_⟩
  · intro hall
    rw [passingNotFound, call_handling, h.undisturbed hall, deletionOut]
    cases out.2 with
    | true => simp
    | false => simp
  · intro hnot
    have herror := h.disturbed hnot
    rw [passingNotFound, call_handling]
    cases hcall : call m run with
    | mk result left =>
      rw [hcall] at herror
      subst herror
      rfl
  · intro name hname
    rw [hpass]
    exact h.gone name hname

theorem clear_spec (fails : Nat → Bool) (p : APKType) (a : APKArch) (run : StorageRun β) :
    SavingSpec fails run (clearSaves p a run.storage) (.ok (), cleared p a run.storage) (clear fails p a) := by
  have hfirst := passing_spec (deleteFile_saves fails p a run)
  let second : StorageRun β := ⟨(run.storage.deleteFile p a).1, run.saved + deletionSaves p a run.storage⟩
  have hsecond := passing_spec (deleteFile_saves fails p a second)
  by_cases h : Undisturbed fails run.saved (deletionSaves p a run.storage)
  · have hcall : call (clear fails p a) run = call (passingNotFound (deleteFile fails p a)) second := by
      rw [clear, call_bind, hfirst.undisturbed h, andThen_ok]
    have hgone : ∀ name, run.storage.files.get? name = none → second.storage.files.get? name = none := by
      intro name hname
      have hgone := hfirst.gone name hname
      rwa [hfirst.undisturbed h] at hgone
    have hiff : Undisturbed fails run.saved (clearSaves p a run.storage) ↔
        Undisturbed fails second.saved (deletionSaves p a second.storage) := by
      rw [clearSaves, undisturbed_add_iff]
      exact ⟨fun hall => hall.2, fun hrest => ⟨h, hrest⟩⟩
    refine ⟨?_, ?_, ?_⟩
    · intro hall
      rw [hcall, hsecond.undisturbed (hiff.mp hall)]
      simp [second, cleared, clearSaves, Nat.add_assoc]
    · intro hnot
      rw [hcall]
      exact hsecond.disturbed fun hrest => hnot (hiff.mpr hrest)
    · intro name hname
      rw [hcall]
      exact hsecond.gone name (hgone name hname)
  · have herror := hfirst.disturbed h
    have hcall : call (clear fails p a) run =
        (.error .osError, (call (passingNotFound (deleteFile fails p a)) run).2) := by
      rw [clear, call_bind]
      cases hcall : call (passingNotFound (deleteFile fails p a)) run with
      | mk result left =>
        rw [hcall] at herror
        subst herror
        rfl
    refine ⟨fun hall => absurd (undisturbed_add_iff.mp hall).1 h, fun _ => by rw [hcall], ?_⟩
    intro name hname
    rw [hcall]
    exact hfirst.gone name hname

/-- After a deletion there is no entry, whether or not it had its file. -/
theorem lookup_deleteExisting_self (p : APKType) (a : APKArch) (s : APKStorageFilesystem β) :
    (s.deleteExisting p a).1.apks.lookup p a = none := by
  unfold APKStorageFilesystem.deleteExisting
  cases hlookup : s.apks.lookup p a with
  | none => exact hlookup
  | some info =>
    dsimp only
    split <;> simp [MADapks.lookup_remove]

theorem lookup_cleared_self (p : APKType) (a : APKArch) (s : APKStorageFilesystem β) :
    (cleared p a s).apks.lookup p a = none := by
  unfold cleared
  cases h : ((s.deleteFile p a).1.deleteExisting p a).2 with
  | true => rw [deleteFile_of_existing h, lookup_deleteExisting_self]
  | false => rw [deleteFile_of_not_existing h, lookup_deleteExisting_self]

/-- The file of a package that is there is gone after the deletions, however they end. -/
theorem gone_clear (fails : Nat → Bool) {info : MADPackage} (hlookup : run.storage.apks.lookup p a = some info)
    (hfile : (run.storage.files.get? info.filename).isSome) :
    (call (clear fails p a) run).2.storage.files.get? info.filename = none := by
  have hpresent : run.storage.Present p a := ⟨info, hlookup, hfile⟩
  have hleft := (call_deleteExisting fails p a run).1
  rw [deleteExisting_of_present hpresent] at hleft
  have hunlink : (run.storage.unlink p a).files.get? info.filename = none := by
    simp [APKStorageFilesystem.unlink, hlookup]
  have hfirst : (call (passingNotFound (deleteFile fails p a)) run).2.storage.files.get? info.filename = none := by
    simp only [passingNotFound, deleteFile, ensureConfigFile, call_handling]
    have hspec := deleteExisting_spec fails p a run
    by_cases h : Undisturbed fails run.saved (existingSaves p a run.storage)
    · have hcall := hspec.undisturbed h
      rw [deletionOut, deleteExisting_of_present hpresent, if_pos rfl] at hcall
      rw [hcall]
      exact hunlink
    · have herror := hspec.disturbed h
      cases hcall : call (deleteExisting fails p a) run with
      | mk result left =>
        rw [hcall] at herror hleft
        subst herror hleft
        exact hunlink
  rw [clear, call_bind]
  cases hcall : call (passingNotFound (deleteFile fails p a)) run with
  | mk result left =>
    rw [hcall] at hfirst
    cases result with
    | ok _ => exact (passing_spec (deleteFile_saves fails p a left)).gone info.filename hfirst
    | error e => exact hfirst

/-! ### The upload -/

section
variable {writing : Writing β} {info : MADPackage} {data : List β} {onNotFound : StorageMethod β Bool}

/-- `save_file` takes every error. -/
theorem call_saveInfo (fails : Nat → Bool) (writing : Writing β) (p : APKType) (a : APKArch) (info : MADPackage)
    (data : List β) (onNotFound : StorageMethod β Bool) (run : StorageRun β) :
    call (saveInfo fails writing p a info data onNotFound) run =
      recover (fun _ => pure false) (andThen (fun _ => match writing with
        | .notFound => onNotFound
        | .failed left => do
          modifyStorage (·.leaving info.filename left)
          throw .osError
        | .done => do
          modifyStorage (·.add p a info data)
          saveConfiguration fails
          pure true) (call (clear fails p a) run)) := by
  unfold saveInfo
  rw [ensureConfigFile, call_handling, call_handling, call_bind]
  generalize andThen _ (call (clear fails p a) run) = out
  cases out with
  | mk result left => cases result <;> rfl

theorem call_saveInfo_of_done (h : Undisturbed fails run.saved (clearSaves p a run.storage)) :
    call (saveInfo fails .done p a info data onNotFound) run =
      (.ok (!fails (run.saved + clearSaves p a run.storage)),
        ⟨(cleared p a run.storage).add p a info data, run.saved + clearSaves p a run.storage + 1⟩) := by
  rw [call_saveInfo, (clear_spec fails p a run).undisturbed h]
  cases hfails : fails (run.saved + clearSaves p a run.storage) with
  | true => simp [hfails]
  | false => simp [hfails]

/-- What the handler of the missing directory returns is returned. -/
theorem call_saveInfo_of_notFound (h : Undisturbed fails run.saved (clearSaves p a run.storage)) {result : Bool}
    (hresult : (call onNotFound ⟨cleared p a run.storage, run.saved + clearSaves p a run.storage⟩).1 = .ok result) :
    call (saveInfo fails .notFound p a info data onNotFound) run =
      call onNotFound ⟨cleared p a run.storage, run.saved + clearSaves p a run.storage⟩ := by
  rw [call_saveInfo, (clear_spec fails p a run).undisturbed h, andThen_ok]
  cases hcall : call onNotFound ⟨cleared p a run.storage, run.saved + clearSaves p a run.storage⟩ with
  | mk out left =>
    rw [hcall] at hresult
    subst hresult
    rfl

/-- A file or an entry is not there. -/
def Lost (p : APKType) (a : APKArch) (name : List Char) (s : APKStorageFilesystem β) : Prop :=
  s.files.get? name = none ∨ s.apks.lookup p a = none

theorem call_saveInfo_of_failed (h : Undisturbed fails run.saved (clearSaves p a run.storage))
    {left : Option (List β)} {name : List Char} :
    (call (saveInfo fails (.failed left) p a info data onNotFound) run).1 = .ok false ∧
      Lost p a name (call (saveInfo fails (.failed left) p a info data onNotFound) run).2.storage := by
  rw [call_saveInfo, (clear_spec fails p a run).undisturbed h]
  simp only [andThen_ok, call_bind, call_modifyStorage, call_throw, recover_error, call_pure, true_and]
  right
  have hlookup := lookup_cleared_self p a run.storage
  cases left with
  | none => exact hlookup
  | some data => exact hlookup

theorem call_saveInfo_of_disturbed (h : ¬ Undisturbed fails run.saved (clearSaves p a run.storage)) :
    (call (saveInfo fails writing p a info data onNotFound) run).1 = .ok false ∧
      (call (saveInfo fails writing p a info data onNotFound) run).2 = (call (clear fails p a) run).2 := by
  have herror := (clear_spec fails p a run).disturbed h
  rw [call_saveInfo]
  cases hcall : call (clear fails p a) run with
  | mk result left =>
    rw [hcall] at herror
    subst herror
    exact ⟨rfl, rfl⟩

/-- An attempt that does not write the data returns `False`, and what is gone stays gone. -/
theorem lost_saveInfo_again (info : MADPackage) (data : List β) (second : StorageRun β) {name : List Char}
    (hgone : second.storage.files.get? name = none)
    (hwriting : Undisturbed fails second.saved (clearSaves p a second.storage) → writing ≠ .done) :
    (call (saveInfo fails writing p a info data (pure false)) second).1 = .ok false ∧
      Lost p a name (call (saveInfo fails writing p a info data (pure false)) second).2.storage := by
  by_cases h : Undisturbed fails second.saved (clearSaves p a second.storage)
  · cases writing with
    | done => exact absurd rfl (hwriting h)
    | failed left => exact call_saveInfo_of_failed h
    | notFound =>
      rw [call_saveInfo_of_notFound h (congrArg Prod.fst (call_pure false _)), call_pure]
      exact ⟨rfl, .inr (lookup_cleared_self p a second.storage)⟩
  · obtain ⟨hfalse, hleft⟩ := call_saveInfo_of_disturbed h
    refine ⟨hfalse, .inl ?_⟩
    rw [hleft]
    exact (clear_spec fails p a second).gone name hgone

end

section
variable {writing : Bool → Writing β} {version : List Char} {mimetype : String} {data : List β} {retry : Bool}

/-- The data is written, at once or at the second attempt, and `last` is the saving after it. -/
def WrittenAt (fails : Nat → Bool) (writing : Bool → Writing β) (p : APKType) (a : APKArch) (retry : Bool)
    (run : StorageRun β) (last : Nat) : Prop :=
  Undisturbed fails run.saved (clearSaves p a run.storage) ∧
    (writing false = .done ∧ last = run.saved + clearSaves p a run.storage ∨
      writing false = .notFound ∧ retry = true ∧
        Undisturbed fails (run.saved + clearSaves p a run.storage) (clearSaves p a (cleared p a run.storage)) ∧
        writing true = .done ∧
        last = run.saved + clearSaves p a run.storage + clearSaves p a (cleared p a run.storage))

/-- What is stored of a package is still there. -/
def Kept (p : APKType) (a : APKArch) (s t : APKStorageFilesystem β) : Prop :=
  ∀ info old, s.apks.lookup p a = some info → s.files.get? info.filename = some old →
    t.apks.lookup p a = some info ∧ t.files.get? info.filename = some old

/-- Where `save_file` returns `False`, the package that was stored is kept. -/
def FailedSaveKeeps (fails : Nat → Bool) (writing : Bool → Writing β) (p : APKType) (a : APKArch)
    (version : List Char) (mimetype : String) (data : List β) (retry : Bool) (run : StorageRun β) : Prop :=
  (call (saveFile fails writing p a version mimetype data retry) run).1 = .ok false →
    Kept p a run.storage (call (saveFile fails writing p a version mimetype data retry) run).2.storage

theorem call_saveFile_of_writtenAt (version : List Char) (mimetype : String) (data : List β) {last : Nat}
    (h : WrittenAt fails writing p a retry run last) :
    ∃ t : APKStorageFilesystem β, call (saveFile fails writing p a version mimetype data retry) run =
      (.ok (!fails last), ⟨t.add p a (uploaded p a version mimetype data) data, last + 1⟩) := by
  obtain ⟨hclear, ⟨hdone, rfl⟩ | ⟨hnotFound, rfl, hagain, hdone, rfl⟩⟩ := h
  · rw [saveFile, hdone]
    exact ⟨_, call_saveInfo_of_done hclear⟩
  · rw [saveFile, hnotFound, hdone, if_pos rfl]
    let second : StorageRun β := ⟨cleared p a run.storage, run.saved + clearSaves p a run.storage⟩
    have hsecond : call (saveInfo fails .done p a (uploaded p a version mimetype data) data (pure false)) second = _ :=
      call_saveInfo_of_done hagain
    exact ⟨_, (call_saveInfo_of_notFound hclear (congrArg Prod.fst hsecond)).trans hsecond⟩

/-- Where the data is not written, `False` is returned, and the file stored is gone. -/
theorem lost_saveFile (version : List Char) (mimetype : String) (data : List β) {info : MADPackage}
    (hlookup : run.storage.apks.lookup p a = some info) (hfile : (run.storage.files.get? info.filename).isSome)
    (h : ∀ last, ¬ WrittenAt fails writing p a retry run last) :
    (call (saveFile fails writing p a version mimetype data retry) run).1 = .ok false ∧
      Lost p a info.filename (call (saveFile fails writing p a version mimetype data retry) run).2.storage := by
  have hgone := gone_clear fails hlookup hfile
  by_cases hclear : Undisturbed fails run.saved (clearSaves p a run.storage)
  · have hcleared : (cleared p a run.storage).files.get? info.filename = none := by
      rwa [(clear_spec fails p a run).undisturbed hclear] at hgone
    cases hwriting : writing false with
    | done => exact absurd ⟨hclear, .inl ⟨hwriting, rfl⟩⟩ (h _)
    | failed left =>
      rw [saveFile, hwriting]
      exact call_saveInfo_of_failed hclear
    | notFound =>
      cases retry with
      | false =>
        rw [saveFile, hwriting, if_neg Bool.false_ne_true,
          call_saveInfo_of_notFound hclear (congrArg Prod.fst (call_pure false _)), call_pure]
        exact ⟨rfl, .inl hcleared⟩
      | true =>
        -- The second attempt starts from what the first one has cleared.
        have hlost := lost_saveInfo_again (uploaded p a version mimetype data) data
          ⟨cleared p a run.storage, run.saved + clearSaves p a run.storage⟩ hcleared
          fun hagain hdone => h _ ⟨hclear, .inr ⟨hwriting, rfl, hagain, hdone, rfl⟩⟩
        rw [saveFile, hwriting, if_pos rfl, call_saveInfo_of_notFound hclear hlost.1]
        exact hlost
  · obtain ⟨hfalse, hleft⟩ := call_saveInfo_of_disturbed hclear
    refine ⟨hfalse, .inl ?_⟩
    rw [saveFile, hleft]
    exact hgone

theorem not_kept_of_lost {info : MADPackage} {old : List β} {s t : APKStorageFilesystem β}
    (hlookup : s.apks.lookup p a = some info) (hfile : s.files.get? info.filename = some old)
    (h : Lost p a info.filename t) : ¬ Kept p a s t := by
  intro hkept
  obtain ⟨hlookup', hfile'⟩ := hkept info old hlookup hfile
  rcases h with hgone | hnone
  · rw [hgone] at hfile'
    cases hfile'
  · rw [hnone] at hlookup'
    cases hlookup'

/-- The package uploaded is the one that is stored. -/
def Same (p : APKType) (a : APKArch) (info : MADPackage) (data : List β) (s : APKStorageFilesystem β) : Prop :=
  s.apks.lookup p a = some info ∧ s.files.get? info.filename = some data

theorem kept_add_iff {info new : MADPackage} {old : List β} {s : APKStorageFilesystem β}
    (t : APKStorageFilesystem β) (hlookup : s.apks.lookup p a = some info)
    (hfile : s.files.get? info.filename = some old) : Kept p a s (t.add p a new data) ↔ Same p a new data s := by
  have hentry : (t.add p a new data).apks.lookup p a = some new := by
    rw [APKStorageFilesystem.add, MADapks.lookup_assign, if_pos ⟨rfl, rfl⟩]
  constructor
  · intro h
    obtain ⟨hlookup', hfile'⟩ := h info old hlookup hfile
    obtain rfl := Option.some.inj (hentry.symm.trans hlookup')
    rw [APKStorageFilesystem.add, Dict.get?_insert_self] at hfile'
    obtain rfl := Option.some.inj hfile'
    exact ⟨hlookup, hfile⟩
  · intro h info' old' hlookup' hfile'
    obtain rfl := Option.some.inj (h.1.symm.trans hlookup')
    obtain rfl := Option.some.inj (h.2.symm.trans hfile')
    exact ⟨hentry, Dict.get?_insert_self⟩

/-- The file system keeps the package exactly if it has none with its file, or the new data is written
and the configuration saved after it, or the package saved is the one it has. -/
theorem failedSaveKeeps_iff (fails : Nat → Bool) (writing : Bool → Writing β) (p : APKType) (a : APKArch)
    (version : List Char) (mimetype : String) (data : List β) (retry : Bool) (run : StorageRun β) :
    FailedSaveKeeps fails writing p a version mimetype data retry run ↔
      ¬ run.storage.Present p a ∨ ∃ last, WrittenAt fails writing p a retry run last ∧
        (fails last = false ∨ Same p a (uploaded p a version mimetype data) data run.storage) := by
  by_cases hpresent : run.storage.Present p a
  · obtain ⟨info, hlookup, hisSome⟩ := id hpresent
    obtain ⟨old, hfile⟩ := Option.isSome_iff_exists.mp hisSome
    by_cases hwritten : ∃ last, WrittenAt fails writing p a retry run last
    · obtain ⟨last, hlast⟩ := hwritten
      obtain ⟨t, hcall⟩ := call_saveFile_of_writtenAt version mimetype data hlast
      have hunique : ∀ last', WrittenAt fails writing p a retry run last' → last' = last := by
        intro last' hlast'
        obtain ⟨_, ⟨hdone, rfl⟩ | ⟨hnotFound, _, _, _, rfl⟩⟩ := hlast
        · obtain ⟨_, ⟨_, rfl⟩ | ⟨hnotFound, _⟩⟩ := hlast'
          · rfl
          · rw [hdone] at hnotFound
            cases hnotFound
        · obtain ⟨_, ⟨hdone, _⟩ | ⟨_, _, _, _, rfl⟩⟩ := hlast'
          · rw [hdone] at hnotFound
            cases hnotFound
          · rfl
      rw [FailedSaveKeeps, hcall, kept_add_iff t hlookup hfile]
      constructor
      · intro h
        refine .inr ⟨last, hlast, ?_⟩
        cases hfails : fails last with
        | false => exact .inl rfl
        | true => exact .inr (h (by rw [hfails]; rfl))
      · rintro (hnot | ⟨last', hlast', hok | hsame⟩) hfalse
        · exact absurd hpresent hnot
        · rw [← hunique last' hlast', hok] at hfalse
          cases hfalse
        · exact hsame
    · have hnot : ∀ last, ¬ WrittenAt fails writing p a retry run last := fun last hlast => hwritten ⟨last, hlast⟩
      obtain ⟨hfalse, hlost⟩ :=
        lost_saveFile version mimetype data hlookup hisSome hnot
      constructor
      · intro h
        exact absurd (h hfalse) (not_kept_of_lost hlookup hfile hlost)
      · rintro (h | ⟨last, hlast, _⟩)
        · exact absurd hpresent h
        · exact absurd hlast (hnot last)
  · constructor
    · intro _
      exact .inl hpresent
    · intro _ _ info old hlookup hfile
      exact absurd ⟨info, hlookup, by rw [hfile]; rfl⟩ hpresent

/-- Where nothing fails, the storage is left as by a successful upload. -/
theorem call_saveFile_of_undisturbed
    (h : Undisturbed fails run.saved (clearSaves p a run.storage + 1)) (hwriting : writing false = .done) :
    call (saveFile fails writing p a version mimetype data retry) run =
      (.ok true, ⟨run.storage.saveFile p a version mimetype data, run.saved + clearSaves p a run.storage + 1⟩) := by
  obtain ⟨hclear, hlast⟩ := undisturbed_add_iff.mp h
  rw [undisturbed_one_iff] at hlast
  rw [saveFile, hwriting, call_saveInfo_of_done hclear, hlast]
  rfl

end

end StorageMethod

/-! ## The database -/

/-- The operations on the database that fail. -/
structure DatabaseFailures where
  delete : Bool
  insert : Bool
  insertChunk : Nat → Bool
  commit : Bool

/-- The tables as they are committed. What a session has inserted is rolled back where it raises. -/
abbrev DatabaseMethod (β α : Type) := Method (APKStorageDatabase β) Unit α

namespace DatabaseMethod

/-- No row of the package. -/
def Absent (p : APKType) (a : APKArch) (db : APKStorageDatabase β) : Prop :=
  ∀ apk ∈ db.apks, ¬ (apk.usage = p ∧ apk.arch = a)

instance (p : APKType) (a : APKArch) (db : APKStorageDatabase β) : Decidable (Absent p a db) :=
  inferInstanceAs (Decidable (∀ _ ∈ _, _))

/-- `delete_file`, which commits. It logs what it raises, and raises for the `result` it then lacks. -/
def deleteFile (failures : DatabaseFailures) (package : APKType) (architecture : APKArch) : DatabaseMethod β Unit :=
  if failures.delete then throw () else modify fun db => db.deleteFile package architecture

/-- `MadApkHelper.insert`, which fails for a package that has a row. -/
def insertMadApk (failures : DatabaseFailures) (package : APKType) (architecture : APKArch) : DatabaseMethod β Unit := do
  let db ← get
  if failures.insert ∨ ¬ Absent package architecture db then throw ()

/-- The loop of `save_file`, from the `i`th chunk. -/
def insertChunks (failures : DatabaseFailures) : Nat → List (List β) → DatabaseMethod β Unit
  | _, [] => pure ()
  | i, _ :: pieces => do
    if failures.insertChunk i then throw ()
    insertChunks failures (i + 1) pieces

/-- `session.commit`, of what was inserted. -/
def commit (failures : DatabaseFailures) (package : APKType) (architecture : APKArch) (info : MADPackage)
    (pieces : List (List β)) : DatabaseMethod β Unit := do
  if failures.commit then throw ()
  modify fun db => if h : Absent package architecture db then db.insert package architecture info pieces h else db

/-- `save_file`. -/
def saveFile (failures : DatabaseFailures) (size : Nat) (package : APKType) (architecture : APKArch)
    (version : List Char) (mimetype : String) (data : List β) : DatabaseMethod β Bool :=
  handling (do
    deleteFile failures package architecture
    insertMadApk failures package architecture
    insertChunks failures 0 (Lib.chunks size data)
    commit failures package architecture (uploaded package architecture version mimetype data) (Lib.chunks size data)
    pure true)
  fun _ => pure false

/-- An insertion fails, or the commit of them. -/
def Interrupted (failures : DatabaseFailures) (chunks : Nat) : Prop :=
  failures.insert = true ∨ (∃ i < chunks, failures.insertChunk i = true) ∨ failures.commit = true

variable {failures : DatabaseFailures} {size : Nat} {p : APKType} {a : APKArch} {version : List Char}
  {mimetype : String} {data : List β} {db : APKStorageDatabase β}

theorem call_insertChunks_of_ok (db : APKStorageDatabase β) {i : Nat} {pieces : List (List β)}
    (h : ∀ j < pieces.length, failures.insertChunk (i + j) = false) :
    call (insertChunks failures i pieces) db = (.ok (), db) := by
  induction pieces generalizing i with
  | nil => rfl
  | cons piece pieces ih =>
    have hfirst : failures.insertChunk i = false := h 0 (by simp)
    simp only [insertChunks, hfirst, Bool.false_eq_true, if_false]
    apply ih
    intro j hj
    have hnext := h (j + 1) (by simpa using hj)
    rwa [show i + 1 + j = i + (j + 1) by omega]

theorem call_insertChunks_of_fails (db : APKStorageDatabase β) {i : Nat} {pieces : List (List β)}
    (h : ∃ j < pieces.length, failures.insertChunk (i + j) = true) :
    call (insertChunks failures i pieces) db = (.error (), db) := by
  induction pieces generalizing i with
  | nil =>
    obtain ⟨j, hj, _⟩ := h
    simp at hj
  | cons piece pieces ih =>
    cases hfirst : failures.insertChunk i with
    | true => simp [insertChunks, hfirst]
    | false =>
      simp only [insertChunks, hfirst, Bool.false_eq_true, if_false]
      apply ih
      obtain ⟨j, hj, hfails⟩ := h
      cases j with
      | zero =>
        rw [Nat.add_zero, hfirst] at hfails
        cases hfails
      | succ j =>
        refine ⟨j, by simpa using hj, ?_⟩
        rwa [show i + 1 + j = i + (j + 1) by omega]

theorem call_saveFile_of_delete (h : failures.delete = true) :
    call (saveFile failures size p a version mimetype data) db = (.ok false, db) := by
  simp [saveFile, deleteFile, h]

theorem absent_deleteFile (p : APKType) (a : APKArch) (db : APKStorageDatabase β) : Absent p a (db.deleteFile p a) :=
  db.not_mem_deleteFile p a

/-- What was deleted stays so. -/
theorem call_saveFile_of_interrupted (hdelete : failures.delete = false)
    (h : Interrupted failures (Lib.chunks size data).length) :
    call (saveFile failures size p a version mimetype data) db = (.ok false, db.deleteFile p a) := by
  cases hinsert : failures.insert with
  | true => simp [saveFile, deleteFile, insertMadApk, hdelete, hinsert]
  | false =>
    by_cases hchunk : ∃ i < (Lib.chunks size data).length, failures.insertChunk i = true
    · have hchunks : call (insertChunks failures 0 (Lib.chunks size data)) (db.deleteFile p a) = (.error (), _) :=
        call_insertChunks_of_fails _ (by simpa using hchunk)
      simp [saveFile, deleteFile, insertMadApk, hdelete, hinsert, absent_deleteFile p a db, hchunks]
    · have hcommit : failures.commit = true := by
        rcases h with h | h | h
        · rw [hinsert] at h
          cases h
        · exact absurd h hchunk
        · exact h
      have hchunks : call (insertChunks failures 0 (Lib.chunks size data)) (db.deleteFile p a) = (.ok (), _) :=
        call_insertChunks_of_ok _ (by simpa using hchunk)
      simp [saveFile, deleteFile, insertMadApk, commit, hdelete, hinsert, absent_deleteFile p a db, hchunks, hcommit]

/-- Where nothing fails, the storage is left as by a successful upload. -/
theorem call_saveFile_of_ok (hdelete : failures.delete = false)
    (h : ¬ Interrupted failures (Lib.chunks size data).length) :
    call (saveFile failures size p a version mimetype data) db =
      (.ok true, db.saveFile size p a version mimetype data) := by
  obtain ⟨hinsert, hchunk, hcommit⟩ : failures.insert = false ∧
      (∀ i < (Lib.chunks size data).length, failures.insertChunk i = false) ∧ failures.commit = false := by
    simpa [Interrupted] using h
  have hchunks : call (insertChunks failures 0 (Lib.chunks size data)) (db.deleteFile p a) = (.ok (), _) :=
    call_insertChunks_of_ok _ (by simpa using hchunk)
  simp [saveFile, deleteFile, insertMadApk, commit, hdelete, hinsert, absent_deleteFile p a db, hchunks, hcommit]
  rfl

/-- The row of a package that is stored, and all its chunks, are still there. -/
def Kept (p : APKType) (a : APKArch) (db db' : APKStorageDatabase β) : Prop :=
  ∀ apk, db.get p a = some apk → db'.get p a = some apk ∧
    (db'.chunks.filter fun chunk => chunk.filestoreId = apk.filestoreId) =
      db.chunks.filter fun chunk => chunk.filestoreId = apk.filestoreId

/-- Where `save_file` returns `False`, the package that was stored is kept. -/
def FailedSaveKeeps (failures : DatabaseFailures) (size : Nat) (p : APKType) (a : APKArch) (version : List Char)
    (mimetype : String) (data : List β) (db : APKStorageDatabase β) : Prop :=
  (call (saveFile failures size p a version mimetype data) db).1 = .ok false →
    Kept p a db (call (saveFile failures size p a version mimetype data) db).2

/-- The database keeps the package exactly if it has none, or the deletion fails, or nothing after it. -/
theorem failedSaveKeeps_iff (failures : DatabaseFailures) (size : Nat) (p : APKType) (a : APKArch)
    (version : List Char) (mimetype : String) (data : List β) (db : APKStorageDatabase β) :
    FailedSaveKeeps failures size p a version mimetype data db ↔
      db.get p a = none ∨ failures.delete = true ∨ ¬ Interrupted failures (Lib.chunks size data).length := by
  cases hdelete : failures.delete with
  | true =>
    rw [FailedSaveKeeps, call_saveFile_of_delete hdelete]
    exact ⟨fun _ => .inr (.inl rfl), fun _ _ _ hget => ⟨hget, rfl⟩⟩
  | false =>
    by_cases h : Interrupted failures (Lib.chunks size data).length
    · rw [FailedSaveKeeps, call_saveFile_of_interrupted hdelete h]
      have hnone : (db.deleteFile p a).get p a = none := by
        rw [APKStorageDatabase.get, List.find?_eq_none]
        intro apk hapk
        simpa using absent_deleteFile p a db apk hapk
      constructor
      · intro hkept
        left
        cases hget : db.get p a with
        | none => rfl
        | some apk =>
          have hget' := (hkept rfl apk hget).1
          rw [hnone] at hget'
          cases hget'
      · rintro (hget | hfalse | hnot) _ apk happ
        · rw [hget] at happ
          cases happ
        · cases hfalse
        · exact absurd h hnot
    · rw [FailedSaveKeeps, call_saveFile_of_ok hdelete h]
      refine ⟨fun _ => .inr (.inr h), fun _ hfalse => ?_⟩
      cases hfalse

end DatabaseMethod

/-- What is stored of a package is kept by a failed upload, in the file system and in the database,
exactly if there is nothing to be kept, or nothing fails after the deletion. -/
theorem failedUploadKeeps_iff (p : APKType) (a : APKArch) (version : List Char) (mimetype : String) (data : List β) :
    (∀ fails writing retry (run : StorageRun β),
      StorageMethod.FailedSaveKeeps fails writing p a version mimetype data retry run ↔
        ¬ run.storage.Present p a ∨ ∃ last, StorageMethod.WrittenAt fails writing p a retry run last ∧
          (fails last = false ∨
            StorageMethod.Same p a (uploaded p a version mimetype data) data run.storage)) ∧
    ∀ failures size (db : APKStorageDatabase β),
      DatabaseMethod.FailedSaveKeeps failures size p a version mimetype data db ↔
        db.get p a = none ∨ failures.delete = true ∨
          ¬ DatabaseMethod.Interrupted failures (Lib.chunks size data).length :=
  ⟨fun fails writing retry run => StorageMethod.failedSaveKeeps_iff fails writing p a version mimetype data retry run,
    fun failures size db => DatabaseMethod.failedSaveKeeps_iff failures size p a version mimetype data db⟩

/-- A package with its file. -/
def installed : StorageRun Nat :=
  ⟨APKStorageFilesystem.saveFile .pogo .arm64_v8a "0.271.2".toList apkMimetype [1] (.setup .empty), 0⟩

/-- The disk is full when the new version is written. -/
theorem installed_lost : ¬ StorageMethod.FailedSaveKeeps (fun _ => false) (fun _ => .failed none) .pogo .arm64_v8a
    "0.273.0".toList apkMimetype [3, 4] false installed := by
  rw [StorageMethod.failedSaveKeeps_iff]
  rintro (h | ⟨last, ⟨_, ⟨hdone, _⟩ | ⟨hnotFound, _⟩⟩, _⟩)
  · apply h
    exact ⟨⟨"0.271.2".toList, generateFilename .pogo .arm64_v8a "0.271.2".toList apkMimetype, apkMimetype, 1⟩,
      by decide +kernel, by decide +kernel⟩
  · cases hdone
  · cases hnotFound

end MapADroid.Apk
