import MapADroid.Apk.Filename
import MapADroid.Lib.Dict
import MapADroid.Lib.Run

/- The storage of packages in the file system, and its catalogue.

   The catalogue is rebuilt from the names of the files, at the start and whenever a file is
   missed. Every call keeps the files and the catalogue consistent (`Consistent`): each
   entry has its file, its name reads as the entry, and there are no other files. So a new
   storage has the same catalogue (`same_after_restart`), whatever the order in which the
   directory is listed. The configuration is removed before each reading and written after
   each change; nothing is read from it. -/
namespace MapADroid.Apk
open Lib

variable {β : Type}

/-! ## The catalogue -/

abbrev MADPackages := Dict APKArch MADPackage

abbrev MADapks := Dict APKType MADPackages

namespace MADapks

def lookup (apks : MADapks) (package : APKType) (architecture : APKArch) : Option MADPackage :=
  (apks.get? package).bind fun packages => packages.get? architecture

/-- `apks[package][architecture] = info`, with a new `MADPackages` where there is none. -/
def assign (apks : MADapks) (package : APKType) (architecture : APKArch) (info : MADPackage) : MADapks :=
  apks.insert package (((apks.get? package).getD .empty).insert architecture info)

/-- `del apks[package][architecture]`. -/
def remove (apks : MADapks) (package : APKType) (architecture : APKArch) : MADapks :=
  apks.modify package fun packages => packages.erase architecture

theorem lookup_assign (apks : MADapks) (p p' : APKType) (a a' : APKArch) (info : MADPackage) :
    (apks.assign p a info).lookup p' a' = if p' = p ∧ a' = a then some info else apks.lookup p' a' := by
  by_cases hp : p' = p
  · subst hp
    rw [lookup, assign, Dict.get?_insert_self, Option.bind_some, Dict.get?_insert]
    cases h : apks.get? p' with
    | none => simp [lookup, h]
    | some packages => simp [lookup, h]
  · simp [lookup, assign, Dict.get?_insert_of_ne hp, hp]

theorem lookup_remove (apks : MADapks) (p p' : APKType) (a a' : APKArch) :
    (apks.remove p a).lookup p' a' = if p' = p ∧ a' = a then none else apks.lookup p' a' := by
  rw [lookup, remove, Dict.get?_modify]
  by_cases hp : p' = p
  · subst hp
    cases h : apks.get? p' with
    | none => simp [lookup, h]
    | some packages => simp [lookup, h, Dict.get?_erase]
  · simp [lookup, hp]

end MADapks

/-! ## The storage -/

/-- The catalogue, and the directory without its configuration. -/
structure APKStorageFilesystem (β : Type) where
  apks : MADapks
  files : Dict (List Char) (List β)

/-- What the loop of `__create_config` does with a file. -/
def addFile (apks : MADapks) (file : List Char × List β) : MADapks :=
  match entryOf file.1 file.2.length with
  | some (apkFamily, arch, info) => apks.assign apkFamily arch info
  | none => apks

namespace APKStorageFilesystem

/-- `reload`. -/
def reload (s : APKStorageFilesystem β) : APKStorageFilesystem β :=
  { s with apks := s.files.items.foldl addFile s.apks }

/-- `setup` of a new storage. -/
def setup (files : Dict (List Char) (List β)) : APKStorageFilesystem β := reload ⟨.empty, files⟩

/-- `ensure_config_file`: the call again after a `reload`, if it raises `FileNotFoundError`. The
flag says that it did not. -/
def ensureConfigFile (call : APKStorageFilesystem β → APKStorageFilesystem β × Bool)
    (s : APKStorageFilesystem β) : APKStorageFilesystem β × Bool :=
  if (call s).2 then call s else call (call s).1.reload

/-- `delete_file` with `ensure_exists`. -/
def deleteExisting (package : APKType) (architecture : APKArch) (s : APKStorageFilesystem β) :
    APKStorageFilesystem β × Bool :=
  match s.apks.lookup package architecture with
  | none => (s, false)
  | some info =>
    if (s.files.get? info.filename).isSome then
      (⟨s.apks.remove package architecture, s.files.erase info.filename⟩, true)
    else ({ s with apks := s.apks.remove package architecture }, false)

/-- `delete_file`. -/
def deleteFile (package : APKType) (architecture : APKArch) :
    APKStorageFilesystem β → APKStorageFilesystem β × Bool :=
  ensureConfigFile (deleteExisting package architecture)

/-- `save_file`: the package is deleted twice, and it does not matter if it was there. -/
def saveFile (package : APKType) (architecture : APKArch) (version : List Char) (mimetype : String)
    (data : List β) (s : APKStorageFilesystem β) : APKStorageFilesystem β :=
  let s := (deleteFile package architecture s).1
  let s := (deleteFile package architecture s).1
  let filename := generateFilename package architecture version mimetype
  { files := s.files.insert filename data
    apks := s.apks.assign package architecture ⟨version, filename, mimetype, data.length⟩ }

end APKStorageFilesystem

open APKStorageFilesystem

inductive StorageCall (β : Type) where
  | save (package : APKType) (architecture : APKArch) (version : List Char) (mimetype : String) (data : List β)
  | delete (package : APKType) (architecture : APKArch)

/-- A call that is successful. -/
def storageStep (s : APKStorageFilesystem β) : StorageCall β → Option (APKStorageFilesystem β)
  | .save package architecture version mimetype data =>
    some (saveFile package architecture version mimetype data s)
  | .delete package architecture =>
    if (deleteFile package architecture s).2 then some (deleteFile package architecture s).1 else none

/-- The packages saved have a version, and are archives or packages by their type. -/
def Wellformed (_ : APKStorageFilesystem β) : StorageCall β → Prop
  | .save _ _ version mimetype _ => IsVersion version ∧ (mimetype = zipMimetype ∨ mimetype = apkMimetype)
  | .delete _ _ => True

instance (s : APKStorageFilesystem β) : (call : StorageCall β) → Decidable (Wellformed s call)
  | .save _ _ _ _ _ => inferInstanceAs (Decidable (_ ∧ _))
  | .delete _ _ => isTrue trivial

/-! ## Consistency -/

/-- Every entry has its file and is what is read off its name, and every file is that of an entry. -/
structure Consistent (s : APKStorageFilesystem β) : Prop where
  entries : ∀ p a info, s.apks.lookup p a = some info → ∃ data, s.files.get? info.filename = some data ∧
    entryOf info.filename data.length = some (p, a, info)
  files : ∀ name data, s.files.get? name = some data →
    ∃ p a info, s.apks.lookup p a = some info ∧ info.filename = name

variable {s s' : APKStorageFilesystem β} {p p' : APKType} {a a' : APKArch} {info info' : MADPackage}

/-- Entries with one file are the same. -/
theorem Consistent.filename_inj (h : Consistent s) (hp : s.apks.lookup p a = some info)
    (hp' : s.apks.lookup p' a' = some info') (heq : info.filename = info'.filename) : p = p' ∧ a = a' := by
  obtain ⟨data, hdata, hentry⟩ := h.entries p a info hp
  obtain ⟨data', hdata', hentry'⟩ := h.entries p' a' info' hp'
  rw [heq] at hdata hentry
  obtain rfl := Option.some.inj (hdata.symm.trans hdata')
  obtain ⟨rfl, hrest⟩ := Prod.mk.inj (Option.some.inj (hentry.symm.trans hentry'))
  exact ⟨rfl, (Prod.mk.inj hrest).1⟩

/-- What is read off a file is an entry. -/
theorem Consistent.entry_of_file (h : Consistent s) {file : List Char × List β} (hfile : file ∈ s.files.items)
    (hentry : entryOf file.1 file.2.length = some (p, a, info)) : s.apks.lookup p a = some info := by
  have hget := Dict.get?_eq_some_iff.mpr hfile
  obtain ⟨p', a', info', hlookup, hname⟩ := h.files file.1 file.2 hget
  obtain ⟨data, hdata, hentry'⟩ := h.entries p' a' info' hlookup
  rw [hname] at hdata hentry'
  obtain rfl := Option.some.inj (hdata.symm.trans hget)
  obtain ⟨rfl, hrest⟩ := Prod.mk.inj (Option.some.inj (hentry.symm.trans hentry'))
  obtain ⟨rfl, rfl⟩ := Prod.mk.inj hrest
  exact hlookup

/-- Consistency is about what the catalogue has, and not about its order. -/
theorem Consistent.congr (h : Consistent s) (hfiles : s'.files = s.files)
    (hapks : ∀ p a, s'.apks.lookup p a = s.apks.lookup p a) : Consistent s' where
  entries p a info hp := by
    rw [hfiles]
    exact h.entries p a info (hapks p a ▸ hp)
  files name data hname := by
    rw [hfiles] at hname
    obtain ⟨p, a, info, hp, heq⟩ := h.files name data hname
    exact ⟨p, a, info, (hapks p a).trans hp, heq⟩

/-! ## Reading the directory -/

section
variable {apks apks' : MADapks} {l : List (List Char × List β)}

/-- Files that read as entries of `apks` leave what is already as in `apks`. -/
theorem lookup_foldl_of_eq
    (hl : ∀ file ∈ l, ∀ p a info, entryOf file.1 file.2.length = some (p, a, info) → apks.lookup p a = some info)
    (h : apks'.lookup p a = apks.lookup p a) : (l.foldl addFile apks').lookup p a = apks.lookup p a := by
  induction l generalizing apks' with
  | nil => exact h
  | cons file l ih =>
    apply ih fun file hfile => hl file (List.mem_cons_of_mem _ hfile)
    unfold addFile
    split
    · next p' a' info hentry =>
      rw [MADapks.lookup_assign]
      split
      · next heq =>
        rw [heq.1, heq.2]
        exact (hl file List.mem_cons_self p' a' info hentry).symm
      · exact h
    · exact h

/-- An entry of `apks` whose file is read is in the catalogue. -/
theorem lookup_foldl_of_mem
    (hl : ∀ file ∈ l, ∀ p a info, entryOf file.1 file.2.length = some (p, a, info) → apks.lookup p a = some info)
    {file : List Char × List β} (hfile : file ∈ l) (hentry : entryOf file.1 file.2.length = some (p, a, info)) :
    (l.foldl addFile apks').lookup p a = apks.lookup p a := by
  induction l generalizing apks' with
  | nil => cases hfile
  | cons file' l ih =>
    have hrest := fun file hfile => hl file (List.mem_cons_of_mem file' hfile)
    rcases List.mem_cons.mp hfile with rfl | hfile
    · apply lookup_foldl_of_eq hrest
      simp only [addFile, hentry, MADapks.lookup_assign, and_self, if_true]
      exact (hl file List.mem_cons_self p a info hentry).symm
    · exact ih hrest hfile

end

theorem lookup_reload (h : Consistent s) (p : APKType) (a : APKArch) :
    s.reload.apks.lookup p a = s.apks.lookup p a :=
  lookup_foldl_of_eq (fun _ hfile _ _ _ hentry => h.entry_of_file hfile hentry) rfl

theorem Consistent.reload (h : Consistent s) : Consistent s.reload :=
  h.congr rfl (lookup_reload h)

/-- A new storage of the directory has the catalogue. -/
theorem lookup_setup (h : Consistent s) {files : Dict (List Char) (List β)}
    (hperm : files.items.Perm s.files.items) (p : APKType) (a : APKArch) :
    (setup files).apks.lookup p a = s.apks.lookup p a := by
  have hl : ∀ file ∈ files.items, ∀ p a info, entryOf file.1 file.2.length = some (p, a, info) →
      s.apks.lookup p a = some info :=
    fun file hfile p a info hentry => h.entry_of_file (hperm.mem_iff.mp hfile) hentry
  cases hlookup : s.apks.lookup p a with
  | none =>
    have hempty : MADapks.lookup .empty p a = s.apks.lookup p a := hlookup.symm
    exact (lookup_foldl_of_eq hl hempty).trans hlookup
  | some info =>
    obtain ⟨data, hdata, hentry⟩ := h.entries p a info hlookup
    have hfile := hperm.mem_iff.mpr (Dict.get?_eq_some_iff.mp hdata)
    exact (lookup_foldl_of_mem hl hfile hentry).trans hlookup

/-! ## Calls -/

theorem deleteExisting_of_none (h : s.apks.lookup p a = none) : deleteExisting p a s = (s, false) := by
  rw [deleteExisting, h]

theorem deleteExisting_of_some (h : Consistent s) (hlookup : s.apks.lookup p a = some info) :
    deleteExisting p a s = (⟨s.apks.remove p a, s.files.erase info.filename⟩, true) := by
  obtain ⟨data, hdata, _⟩ := h.entries p a info hlookup
  rw [deleteExisting, hlookup]
  exact if_pos (by rw [hdata]; rfl)

/-- A package that is not there is looked for again after a reload. -/
theorem deleteFile_of_none (h : Consistent s) (hlookup : s.apks.lookup p a = none) :
    deleteFile p a s = (s.reload, false) := by
  have hreload : s.reload.apks.lookup p a = none := (lookup_reload h p a).trans hlookup
  simp only [deleteFile, ensureConfigFile, deleteExisting_of_none hlookup, Bool.false_eq_true, if_false,
    deleteExisting_of_none hreload]

theorem deleteFile_of_some (h : Consistent s) (hlookup : s.apks.lookup p a = some info) :
    deleteFile p a s = (⟨s.apks.remove p a, s.files.erase info.filename⟩, true) := by
  simp only [deleteFile, ensureConfigFile, deleteExisting_of_some h hlookup, if_true]

/-- An entry and its file are removed together. -/
theorem Consistent.remove (h : Consistent s) (hlookup : s.apks.lookup p a = some info) :
    Consistent (⟨s.apks.remove p a, s.files.erase info.filename⟩ : APKStorageFilesystem β) where
  entries p' a' info' hp' := by
    rw [MADapks.lookup_remove] at hp'
    split at hp'
    · cases hp'
    · next hne =>
      obtain ⟨data, hdata, hentry⟩ := h.entries p' a' info' hp'
      refine ⟨data, ?_, hentry⟩
      rw [Dict.get?_erase, if_neg, hdata]
      intro heq
      exact hne (h.filename_inj hp' hlookup heq)
  files name data hname := by
    rw [Dict.get?_erase] at hname
    split at hname
    · cases hname
    · next hne =>
      obtain ⟨p', a', info', hp', heq⟩ := h.files name data hname
      refine ⟨p', a', info', ?_, heq⟩
      rw [MADapks.lookup_remove, if_neg, hp']
      intro hsame
      obtain ⟨rfl, rfl⟩ := hsame
      obtain rfl := Option.some.inj (hlookup.symm.trans hp')
      exact hne heq.symm

/-- What `delete_file` leaves, whether or not the package was there. -/
theorem deleteFile_spec (h : Consistent s) (p : APKType) (a : APKArch) :
    Consistent (deleteFile p a s).1 ∧
      ∀ p' a', (deleteFile p a s).1.apks.lookup p' a' = if p' = p ∧ a' = a then none else s.apks.lookup p' a' := by
  cases hlookup : s.apks.lookup p a with
  | none =>
    rw [deleteFile_of_none h hlookup]
    refine ⟨h.reload, ?_⟩
    intro p' a'
    rw [lookup_reload h]
    split
    · next heq => rw [heq.1, heq.2, hlookup]
    · rfl
  | some info =>
    rw [deleteFile_of_some h hlookup]
    exact ⟨h.remove hlookup, fun p' a' => MADapks.lookup_remove s.apks p p' a a'⟩

/-- An entry is added together with its file. -/
theorem Consistent.add (h : Consistent s) (hlookup : s.apks.lookup p a = none) {data : List β}
    (hentry : entryOf info.filename data.length = some (p, a, info))
    (hnew : ∀ p' a' info' data', entryOf info.filename data' = some (p', a', info') → p' = p ∧ a' = a) :
    Consistent (⟨s.apks.assign p a info, s.files.insert info.filename data⟩ : APKStorageFilesystem β) where
  entries p' a' info' hp' := by
    rw [MADapks.lookup_assign] at hp'
    split at hp'
    · next heq =>
      obtain ⟨rfl, rfl⟩ := heq
      obtain rfl := Option.some.inj hp'
      exact ⟨data, Dict.get?_insert_self, hentry⟩
    · next hne =>
      obtain ⟨data', hdata', hentry'⟩ := h.entries p' a' info' hp'
      refine ⟨data', ?_, hentry'⟩
      rw [Dict.get?_insert_of_ne, hdata']
      intro heq
      rw [heq] at hentry'
      exact hne (hnew p' a' info' data'.length hentry')
  files name data' hname := by
    rcases Dict.get?_insert_eq_some_iff.mp hname with ⟨rfl, rfl⟩ | ⟨hne, hname⟩
    · exact ⟨p, a, info, by simp [MADapks.lookup_assign], rfl⟩
    · obtain ⟨p', a', info', hp', heq⟩ := h.files name data' hname
      refine ⟨p', a', info', ?_, heq⟩
      rw [MADapks.lookup_assign, if_neg, hp']
      intro hsame
      rw [hsame.1, hsame.2, hlookup] at hp'
      cases hp'

theorem Consistent.saveFile (h : Consistent s) {version : List Char} (hversion : IsVersion version)
    {mimetype : String} (hmime : mimetype = zipMimetype ∨ mimetype = apkMimetype) (data : List β) :
    Consistent (saveFile p a version mimetype data s) := by
  obtain ⟨hfirst, _⟩ := deleteFile_spec h p a
  obtain ⟨hsecond, hlookup⟩ := deleteFile_spec hfirst p a
  have hread := fun size => entryOf_generateFilename p a hversion hmime size
  apply hsecond.add
  · rw [hlookup, if_pos ⟨rfl, rfl⟩]
  · exact hread data.length
  · intro p' a' info' size hentry
    obtain ⟨rfl, hrest⟩ := Prod.mk.inj (Option.some.inj ((hread size).symm.trans hentry))
    exact ⟨rfl, (Prod.mk.inj hrest).1.symm⟩

theorem Consistent.step {call : StorageCall β} (h : Consistent s) (hok : Wellformed s call)
    (hstep : storageStep s call = some s') : Consistent s' := by
  cases call with
  | save p a version mimetype data =>
    obtain rfl := Option.some.inj hstep
    exact h.saveFile hok.1 hok.2 data
  | delete p a =>
    rw [storageStep] at hstep
    split at hstep
    · obtain rfl := Option.some.inj hstep
      exact (deleteFile_spec h p a).1
    · cases hstep

theorem consistent_empty : Consistent (setup .empty : APKStorageFilesystem β) where
  entries _ _ _ h := by cases h
  files _ _ h := by cases h

/-- After calls on an empty directory, a new storage of the directory, listed in any order, has
the same catalogue. -/
theorem same_after_restart {calls : List (StorageCall β)} (hrun : Run storageStep Wellformed (setup .empty) calls s)
    {files : Dict (List Char) (List β)} (hperm : files.items.Perm s.files.items) (p : APKType) (a : APKArch) :
    (setup files).apks.lookup p a = s.apks.lookup p a := by
  have h : Consistent s := hrun.invariant consistent_empty fun _ _ _ h hok hstep => h.step hok hstep
  exact lookup_setup h hperm p a

/-- A package saved twice, and one saved and deleted. -/
def someCalls : List (StorageCall Nat) :=
  [.save .pogo .arm64_v8a "0.271.2".toList apkMimetype [1], .save .rgc .noarch "1-b".toList zipMimetype [2],
    .save .pogo .arm64_v8a "0.273.0".toList apkMimetype [3, 4], .delete .rgc .noarch]

theorem someCalls_restart :
    (setup (after storageStep Wellformed (setup .empty) someCalls).files).apks.lookup .pogo .arm64_v8a =
      (after storageStep Wellformed (setup .empty) someCalls).apks.lookup .pogo .arm64_v8a :=
  same_after_restart (.of_after (by decide +kernel)) (.refl _) .pogo .arm64_v8a

end MapADroid.Apk
