import MapADroid.Apk.Database
import MapADroid.Apk.Filesystem

/- Stored packages as they are served.

   The file system reads a file piece by piece from its start. The database yields the
   chunks of a file in whatever order the query has them, so the bytes are those that were
   saved in every case only if any two chunks can be swapped (`served_iff`). -/
namespace MapADroid.Apk
open Lib

variable {β : Type}

/-- `__read_file_gen`, of what is still to be read. -/
def readFileGen (size : Nat) (content : List β) : List (List β) :=
  if content.take size = [] then [] else content.take size :: readFileGen size (content.drop size)
termination_by content.length
decreasing_by
  rw [List.take_eq_nil_iff, not_or] at *
  have := List.length_pos_iff.mpr (by assumption : ¬ size = 0 ∧ ¬ content = []).2
  rw [List.length_drop]
  omega

theorem flatten_readFileGen {size : Nat} (h : 0 < size) (content : List β) :
    (readFileGen size content).flatten = content := by
  fun_induction readFileGen size content with
  | case1 content hnil =>
    rcases List.take_eq_nil_iff.mp hnil with hzero | hnil
    · omega
    · rw [hnil, List.flatten_nil]
  | case2 content _ ih => rw [List.flatten_cons, ih, List.take_append_drop]

namespace APKStorageFilesystem

/-- `get_async_generator`, and what it yields. -/
def getAsyncGenerator (size : Nat) (package : APKType) (architecture : APKArch)
    (s : APKStorageFilesystem β) : Option (List (List β)) :=
  (s.apks.lookup package architecture).bind fun info =>
    (s.files.get? info.filename).map (readFileGen size)

theorem getAsyncGenerator_saveFile (size : Nat) (package : APKType) (architecture : APKArch)
    (version : List Char) (mimetype : String) (data : List β) (s : APKStorageFilesystem β) :
    (saveFile package architecture version mimetype data s).getAsyncGenerator size package architecture =
      some (readFileGen size data) := by
  simp [getAsyncGenerator, saveFile, MADapks.lookup_assign]

end APKStorageFilesystem

/-- After a package was saved, the file system serves its bytes, and so does the database in whatever
order it has the chunks exactly if any two of them can be swapped. -/
theorem served_iff {size : Nat} (hsize : 0 < size) {data : List β} (hdata : data ≠ []) (p : APKType) (a : APKArch)
    (version : List Char) (mimetype : String) (s : APKStorageFilesystem β) (db : APKStorageDatabase β) :
    (∃ out ∈ (s.saveFile p a version mimetype data).getAsyncGenerator size p a, out.flatten = data) ∧
    (∃ out, (db.saveFile size p a version mimetype data).Yields p a out) ∧
    ((∀ out, (db.saveFile size p a version mimetype data).Yields p a out → out.flatten = data) ↔
      (Lib.chunks size data).Pairwise fun x y => x ++ y = y ++ x) := by
  refine ⟨?_, ?_, ?_⟩
  · exact ⟨_, APKStorageFilesystem.getAsyncGenerator_saveFile size p a version mimetype data s,
      flatten_readFileGen hsize data⟩
  · exact ⟨_, (APKStorageDatabase.yields_saveFile_iff hsize hdata).mpr (.refl _)⟩
  · simp only [APKStorageDatabase.yields_saveFile_iff hsize hdata]
    rw [← flatten_perm_iff, flatten_chunks hsize]

/-- A package of three chunks that are the same. -/
theorem equal_chunks_served :
    (∃ out ∈ ((APKStorageFilesystem.setup .empty).saveFile .pd .noarch "3".toList apkMimetype
        [7, 8, 7, 8, 7, 8]).getAsyncGenerator 2 .pd .noarch, out.flatten = [7, 8, 7, 8, 7, 8]) ∧
    (∃ out, (APKStorageDatabase.empty.saveFile 2 .pd .noarch "3".toList apkMimetype [7, 8, 7, 8, 7, 8]).Yields .pd
        .noarch out) ∧
    ∀ out, (APKStorageDatabase.empty.saveFile 2 .pd .noarch "3".toList apkMimetype [7, 8, 7, 8, 7, 8]).Yields .pd
        .noarch out → out.flatten = [7, 8, 7, 8, 7, 8] := by
  obtain ⟨hfile, hsome, hall⟩ := served_iff (by decide : 0 < 2) (by decide : [7, 8, 7, 8, 7, 8] ≠ []) .pd .noarch
    "3".toList apkMimetype (.setup .empty) .empty
  exact ⟨hfile, hsome, hall.mpr (by decide)⟩

/-- A package of two chunks, of which the second one comes first. -/
theorem chunks_swapped :
    ¬ ∀ (size : Nat) (data : List Nat) (p : APKType) (a : APKArch) (version : List Char) (mimetype : String)
      (db : APKStorageDatabase Nat) (out : List (List Nat)), 0 < size → data ≠ [] →
      (db.saveFile size p a version mimetype data).Yields p a out → out.flatten = data := by
  intro h
  have hyields : (APKStorageDatabase.empty.saveFile 1 .pd .noarch "3".toList apkMimetype [7, 8]).Yields .pd .noarch
      [[8], [7]] :=
    (APKStorageDatabase.yields_saveFile_iff (by decide) (by decide)).mpr (.swap _ _ _)
  have hflatten := h 1 [7, 8] .pd .noarch "3".toList apkMimetype .empty _ (by decide) (by decide) hyields
  revert hflatten
  decide

end MapADroid.Apk
