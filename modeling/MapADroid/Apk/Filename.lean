import MapADroid.Lib.Patterns
import MapADroid.Worker.WalkerValue

/- The file names of stored packages, and what is read off them.

   A name has three parts with two underscores between them. The groups of the expression
   that reads it are greedy, but a version has no underscore and an architecture has no two
   in a row, so the parts are found again (`entryOf_generateFilename`). Of the digits, only
   those of ASCII are looked at. -/
namespace MapADroid.Apk
open Lib

inductive APKArch where
  | noarch | armeabi_v7a | arm64_v8a
  deriving DecidableEq, Repr

inductive APKType where
  | pogo | rgc | pd
  deriving DecidableEq, Repr

def APKArch.name : APKArch → List Char
  | .noarch => "noarch".toList
  | .armeabi_v7a => "armeabi_v7a".toList
  | .arm64_v8a => "arm64_v8a".toList

/-- The values of `APKPackage`. -/
def APKType.friendlyname : APKType → List Char
  | .pogo => "com.nianticlabs.pokemongo".toList
  | .rgc => "de.grennith.rgc.remotegpscontroller".toList
  | .pd => "com.mad.pogodroid".toList

def zipMimetype : String := "application/zip"

def apkMimetype : String := "application/vnd.android.package-archive"

def extension (mimetype : String) : List Char :=
  if mimetype = zipMimetype then "zip".toList else "apk".toList

/-- `generate_filename`. -/
def generateFilename (package : APKType) (architecture : APKArch) (version : List Char) (mimetype : String) :
    List Char :=
  package.friendlyname ++ '_' :: '_' :: (version ++ '_' :: '_' ::
    (architecture.name ++ '.' :: extension mimetype))

/-- `MADPackage`; its `file_id` is `None` in the file system. -/
structure MADPackage where
  version : List Char
  filename : List Char
  mimetype : String
  size : Nat
  deriving DecidableEq, Repr

/-! ## Reading a name -/

/-- What `\s` of a regular expression matches. -/
def isSpace (c : Char) : Bool :=
  c.toNat ∈ [9, 10, 11, 12, 13, 28, 29, 30, 31, 32, 133, 160, 5760, 8192, 8193, 8194, 8195, 8196, 8197, 8198,
    8199, 8200, 8201, 8202, 8232, 8233, 8239, 8287, 12288]

section
variable {β : Type}

/-- `__` and then `k`. -/
def underscores (k : List Char → Option β) : List Char → Option β
  | '_' :: '_' :: rest => k rest
  | _ => none

/-- `\.` and then `k`. -/
def dot (k : List Char → Option β) : List Char → Option β
  | '.' :: rest => k rest
  | _ => none

/-- `(\S+)` and then `k`. -/
def group (k : List Char → List Char → Option β) : List Char → Option β := greedy (fun c => !isSpace c) k []

end

/-- `(.*)$`: the rest, but for a line break at its end. -/
def toEnd (l : List Char) : Option (List Char) :=
  if l.dropWhile (· ≠ '\n') = [] ∨ l.dropWhile (· ≠ '\n') = ['\n'] then some (l.takeWhile (· ≠ '\n')) else none

/-- The match of `(\S+)__(\S+)__(\S+)\.(.*)$`. -/
def filematch : List Char → Option (List Char × List Char × List Char × List Char) :=
  group fun packagename => underscores <| group fun version => underscores <| group fun architecture =>
    dot fun rest => (toEnd rest).map fun apkFormat => (packagename, version, architecture, apkFormat)

/-- The members of an enumeration, by their values. -/
def member {α : Type} (members : List α) (value : Int) : Option α :=
  if 0 ≤ value then members[value.toNat]? else none

/-- `lookup_arch_enum`, `none` for a `ValueError`. -/
def lookupArchEnum (name : List Char) : Option APKArch :=
  match Worker.ascii.int name with
  | some value => member [.noarch, .armeabi_v7a, .arm64_v8a] value
  | none =>
    if name = "noarch".toList then some .noarch
    else if name = "armeabi-v7a".toList ∨ name = "armeabi_v7a".toList then some .armeabi_v7a
    else if name = "arm64-v8a".toList ∨ name = "arm64_v8a".toList then some .arm64_v8a
    else none

/-- `lookup_apk_enum`, `none` for a `ValueError`. -/
def lookupApkEnum (name : List Char) : Option APKType :=
  if name ≠ [] ∧ name.all Worker.ascii.isDigit then
    (Worker.ascii.int name).bind (member [.pogo, .rgc, .pd])
  else if name = APKType.pogo.friendlyname ∨ name = "pogo".toList then some .pogo
  else if name = APKType.rgc.friendlyname ∨ name = "rgc".toList then some .rgc
  else if name = APKType.pd.friendlyname ∨ name = "pogodroid".toList ∨ name = "pd".toList then some .pd
  else none

/-- What `__create_config` makes of a file; nothing where the name does not match, or a lookup fails. -/
def entryOf (filename : List Char) (size : Nat) : Option (APKType × APKArch × MADPackage) :=
  (filematch filename).bind fun (packagename, version, architecture, apkFormat) =>
    (lookupArchEnum architecture).bind fun arch => (lookupApkEnum packagename).map fun apkFamily =>
      (apkFamily, arch,
        { version, filename, mimetype := if apkFormat = "zip".toList then zipMimetype else apkMimetype, size })

/-! ## The parts of a name -/

/-- No two underscores in a row. -/
def NoDouble (l : List Char) : Prop := ¬ ['_', '_'] <:+: l

theorem NoDouble.suffix {l rest : List Char} (h : NoDouble l) (hrest : rest <:+ l) : NoDouble rest :=
  fun hmem => h (hmem.trans hrest.isInfix)

theorem not_noDouble (rest : List Char) : ¬ NoDouble ('_' :: '_' :: rest) :=
  fun h => h ⟨[], rest, rfl⟩

section
variable {β : Type} {k : List Char → Option β} {l rest v w y : List Char} {b : β}

theorem underscores_eq_none (h : NoDouble l) (hrest : rest <:+ l) : underscores k rest = none := by
  unfold underscores
  split
  · next rest => exact absurd (h.suffix hrest) (not_noDouble rest)
  · rfl

theorem dot_eq_none (h : '.' ∉ rest) : dot k rest = none := by
  unfold dot
  split
  · next rest => exact absurd List.mem_cons_self h
  · rfl

/-- After two underscores that follow a part without any, there are no more. -/
theorem noDouble_after (hv : '_' ∉ v) (hw : NoDouble ('_' :: w))
    (h : '_' :: '_' :: y <:+ v ++ '_' :: '_' :: w) : NoDouble y := by
  induction v with
  | nil =>
    rcases List.suffix_cons_iff.mp h with heq | hsuffix
    · obtain rfl : y = w := by simpa using heq
      exact hw.suffix (List.suffix_cons _ _)
    · exact absurd (hw.suffix hsuffix) (not_noDouble y)
  | cons c v ih =>
    rw [List.mem_cons, not_or] at hv
    rcases List.suffix_cons_iff.mp h with heq | hsuffix
    · exact absurd (List.cons.inj heq).1 hv.1
    · exact ih hv.2 hsuffix

/-- A group before two underscores, if `k` fails after any later ones. -/
theorem group_underscores {k : List Char → List Char → Option β} (hok : ∀ c ∈ v, !isSpace c) (hne : v ≠ [])
    (hk : k v w = some b) (hlonger : ∀ g y, '_' :: '_' :: y <:+ '_' :: w → k g y = none) :
    group (fun g => underscores (k g)) (v ++ '_' :: '_' :: w) = some b := by
  refine greedy_eq_some hok hne hk ?_
  intro g rest hrest
  unfold underscores
  split
  · next y => exact hlonger g y hrest
  · rfl

/-- A group before the last dot. -/
theorem group_dot {k : List Char → List Char → Option β} (hok : ∀ c ∈ v, !isSpace c) (hne : v ≠ [])
    (hk : k v w = some b) (hw : '.' ∉ w) : group (fun g => dot (k g)) (v ++ '.' :: w) = some b := by
  refine greedy_eq_some hok hne hk ?_
  intro g rest hrest
  exact dot_eq_none fun hdot => hw (hrest.subset hdot)

end

/-- A version of which the parts of a name can be told: not empty, without white space,
underscores and slashes. -/
structure IsVersion (version : List Char) : Prop where
  ne_nil : version ≠ []
  chars : ∀ c ∈ version, c ≠ '_' ∧ c ≠ '/' ∧ isSpace c = false

instance (version : List Char) : Decidable (IsVersion version) :=
  decidable_of_iff (version ≠ [] ∧ version.all fun c => c ≠ '_' ∧ c ≠ '/' ∧ isSpace c = false)
    ⟨fun h => ⟨h.1, fun c hc => of_decide_eq_true (List.all_eq_true.mp h.2 c hc)⟩,
      fun h => ⟨h.ne_nil, List.all_eq_true.mpr fun c hc => decide_eq_true (h.chars c hc)⟩⟩

/-- The match of a name. -/
theorem filematch_eq {p v a e : List Char} (hp : p ≠ []) (hpok : ∀ c ∈ p, !isSpace c) (hv : IsVersion v)
    (ha : a ≠ []) (haok : ∀ c ∈ a, !isSpace c) (hdouble : NoDouble ('_' :: (a ++ '.' :: e))) (he : '.' ∉ e)
    (hline : '\n' ∉ e) :
    filematch (p ++ '_' :: '_' :: (v ++ '_' :: '_' :: (a ++ '.' :: e))) = some (p, v, a, e) := by
  have hend : toEnd e = some e := by
    have hall : ∀ c ∈ e, decide (c ≠ '\n') = true := fun c hc => decide_eq_true fun h => hline (h ▸ hc)
    rw [toEnd, List.dropWhile_eq_nil_iff.mpr hall, List.takeWhile_eq_self_iff.mpr hall]
    simp
  have hvok : ∀ c ∈ v, !isSpace c := fun c hc => by simp [(hv.chars c hc).2.2]
  have hunder : '_' ∉ v := fun h => (hv.chars _ h).1 rfl
  apply group_underscores hpok hp
  · apply group_underscores hvok hv.ne_nil
    · apply group_dot haok ha
      · rw [hend]
        rfl
      · exact he
    · intro g y hy
      exact absurd (hdouble.suffix hy) (not_noDouble y)
  · intro g y hy
    apply greedy_eq_none
    intro g' rest hrest
    rcases List.suffix_cons_iff.mp hy with heq | hsuffix
    · -- The first underscore would be followed by the version.
      obtain ⟨c, v', rfl⟩ := List.exists_cons_of_ne_nil hv.ne_nil
      have hc : '_' = c := (List.cons.inj (List.cons.inj heq).2).1
      exact absurd (hc ▸ List.mem_cons_self) hunder
    · exact underscores_eq_none (noDouble_after hunder hdouble hsuffix) hrest

theorem friendlyname_spec (package : APKType) :
    package.friendlyname ≠ [] ∧ (package.friendlyname.all fun c => !isSpace c) ∧
      lookupApkEnum package.friendlyname = some package := by
  cases package <;> decide

theorem name_spec (architecture : APKArch) :
    architecture.name ≠ [] ∧ (architecture.name.all fun c => !isSpace c) ∧
      lookupArchEnum architecture.name = some architecture := by
  cases architecture <;> decide

theorem extension_spec (architecture : APKArch) {mimetype : String}
    (h : mimetype = zipMimetype ∨ mimetype = apkMimetype) :
    '.' ∉ extension mimetype ∧ '\n' ∉ extension mimetype ∧
      (if extension mimetype = "zip".toList then zipMimetype else apkMimetype) = mimetype ∧
      NoDouble ('_' :: (architecture.name ++ '.' :: extension mimetype)) := by
  unfold NoDouble
  rcases h with rfl | rfl
  · cases architecture <;> decide
  · cases architecture <;> decide

/-- What is read off a name is what it was made of. -/
theorem entryOf_generateFilename (package : APKType) (architecture : APKArch) {version : List Char}
    (h : IsVersion version) {mimetype : String} (hmime : mimetype = zipMimetype ∨ mimetype = apkMimetype)
    (size : Nat) :
    entryOf (generateFilename package architecture version mimetype) size = some (package, architecture,
      ⟨version, generateFilename package architecture version mimetype, mimetype, size⟩) := by
  obtain ⟨hp, hpok, hpackage⟩ := friendlyname_spec package
  obtain ⟨ha, haok, harch⟩ := name_spec architecture
  obtain ⟨hdot, hline, hback, hdouble⟩ := extension_spec architecture hmime
  have hmatch := filematch_eq hp (List.all_eq_true.mp hpok) h ha (List.all_eq_true.mp haok) hdouble hdot hline
  rw [entryOf, generateFilename, hmatch]
  simp only [Option.bind_some, harch, hpackage, Option.map_some, hback]

/-- A letter, a digit, a dot or a hyphen. -/
def InAlphabet (c : Char) : Prop :=
  'a' ≤ c ∧ c ≤ 'z' ∨ 'A' ≤ c ∧ c ≤ 'Z' ∨ '0' ≤ c ∧ c ≤ '9' ∨ c = '.' ∨ c = '-'

theorem InAlphabet.toNat {c : Char} (h : InAlphabet c) :
    97 ≤ c.toNat ∧ c.toNat ≤ 122 ∨ 65 ≤ c.toNat ∧ c.toNat ≤ 90 ∨ 48 ≤ c.toNat ∧ c.toNat ≤ 57 ∨
      c.toNat = 46 ∨ c.toNat = 45 := by
  rcases h with h | h | h | rfl | rfl
  · exact .inl h
  · exact .inr (.inl h)
  · exact .inr (.inr (.inl h))
  · decide
  · decide

/-- Letters, digits, dots and hyphens make a version. -/
theorem isVersion_of_alphabet {version : List Char} (hne : version ≠ [])
    (h : ∀ c ∈ version, InAlphabet c) : IsVersion version := by
  refine ⟨hne, ?_⟩
  intro c hc
  have hnat := (h c hc).toNat
  refine ⟨?_, ?_, ?_⟩
  · intro heq
    rw [heq] at hnat
    revert hnat
    decide
  · intro heq
    rw [heq] at hnat
    revert hnat
    decide
  · simp [isSpace]
    omega

end MapADroid.Apk
