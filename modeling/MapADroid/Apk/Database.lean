import MapADroid.Apk.Filename
import MapADroid.Lib.Chunks
import Mathlib.Data.List.Nodup

/- The storage of packages in the database.

   A file is saved in chunks, whose ids increase in the order of insertion. It is served by
   two queries, one for the ids of its chunks and one for the data of the chunks with these
   ids, and none of them has an order. So what is served are the chunks of the file in any
   order (`yields_saveFile_iff`). -/
namespace MapADroid.Apk
open Lib

variable {β : Type}

/-- A row of `mad_apks`, with that of `filestore_meta` it extends. -/
structure MadApk where
  filestoreId : Nat
  usage : APKType
  arch : APKArch
  package : MADPackage
  deriving DecidableEq, Repr

/-- A row of `filestore_chunks`. -/
structure FilestoreChunk (β : Type) where
  chunkId : Nat
  filestoreId : Nat
  size : Nat
  data : List β
  deriving DecidableEq, Repr

/-- The tables, one row for each package and architecture, and the next ids. -/
structure APKStorageDatabase (β : Type) where
  apks : List MadApk
  chunks : List (FilestoreChunk β)
  nextFilestoreId : Nat
  nextChunkId : Nat
  positive : 0 < nextFilestoreId
  unique : (apks.map fun apk => (apk.usage, apk.arch)).Nodup
  apks_lt : ∀ apk ∈ apks, 0 < apk.filestoreId ∧ apk.filestoreId < nextFilestoreId
  chunks_lt : ∀ chunk ∈ chunks, chunk.chunkId < nextChunkId ∧ chunk.filestoreId < nextFilestoreId

namespace APKStorageDatabase

def empty : APKStorageDatabase β := ⟨[], [], 1, 1, by simp, by simp, by simp, by simp⟩

/-- `MadApkHelper.get`. -/
def get (db : APKStorageDatabase β) (package : APKType) (architecture : APKArch) : Option MadApk :=
  db.apks.find? fun apk => apk.usage = package ∧ apk.arch = architecture

/-- The deletion of a row of `filestore_meta`, and of what refers to it. -/
def deleteFilestore (db : APKStorageDatabase β) (filestoreId : Nat) : APKStorageDatabase β where
  apks := db.apks.filter fun apk => apk.filestoreId ≠ filestoreId
  chunks := db.chunks.filter fun chunk => chunk.filestoreId ≠ filestoreId
  nextFilestoreId := db.nextFilestoreId
  nextChunkId := db.nextChunkId
  positive := db.positive
  unique := (List.filter_sublist.map _).nodup db.unique
  apks_lt apk h := db.apks_lt apk (List.mem_of_mem_filter h)
  chunks_lt chunk h := db.chunks_lt chunk (List.mem_of_mem_filter h)

/-- `MadApkHelper.delete_file`. -/
def deleteFile (db : APKStorageDatabase β) (package : APKType) (architecture : APKArch) :
    APKStorageDatabase β :=
  match db.get package architecture with
  | some apk => if apk.filestoreId = 0 then db else db.deleteFilestore apk.filestoreId
  | none => db

/-- The rows `save_file` inserts for the chunks. -/
def chunkRows (db : APKStorageDatabase β) (pieces : List (List β)) : List (FilestoreChunk β) :=
  pieces.mapIdx fun i piece => ⟨db.nextChunkId + i, db.nextFilestoreId, piece.length, piece⟩

/-- The insertions of `save_file`, where the package is not there. -/
def insert (db : APKStorageDatabase β) (package : APKType) (architecture : APKArch) (info : MADPackage)
    (pieces : List (List β)) (h : ∀ apk ∈ db.apks, ¬ (apk.usage = package ∧ apk.arch = architecture)) :
    APKStorageDatabase β where
  apks := db.apks ++ [⟨db.nextFilestoreId, package, architecture, info⟩]
  chunks := db.chunks ++ db.chunkRows pieces
  nextFilestoreId := db.nextFilestoreId + 1
  nextChunkId := db.nextChunkId + pieces.length
  positive := Nat.succ_pos _
  unique := by
    rw [List.map_append, List.nodup_append]
    refine ⟨db.unique, by simp, ?_⟩
    intro x hx y hy
    obtain ⟨apk, hapk, rfl⟩ := List.mem_map.mp hx
    obtain rfl : y = (package, architecture) := by simpa using hy
    intro heq
    exact h apk hapk (Prod.mk.inj heq)
  apks_lt apk hapk := by
    rcases List.mem_append.mp hapk with hapk | hapk
    · exact ⟨(db.apks_lt apk hapk).1, (db.apks_lt apk hapk).2.trans (Nat.lt_succ_self _)⟩
    · rw [List.mem_singleton.mp hapk]
      exact ⟨db.positive, Nat.lt_succ_self _⟩
  chunks_lt chunk hchunk := by
    rcases List.mem_append.mp hchunk with hchunk | hchunk
    · have := db.chunks_lt chunk hchunk
      omega
    · rw [chunkRows, List.mem_mapIdx] at hchunk
      obtain ⟨i, hi, rfl⟩ := hchunk
      simp only
      omega

variable {db : APKStorageDatabase β} {p : APKType} {a : APKArch} {info : MADPackage}

theorem eq_of_key {apk apk' : MadApk} (h : apk ∈ db.apks) (h' : apk' ∈ db.apks) (hu : apk.usage = apk'.usage)
    (ha : apk.arch = apk'.arch) : apk = apk' :=
  List.inj_on_of_nodup_map db.unique h h' (by rw [hu, ha])

/-- `delete_file` leaves no row of the package. -/
theorem not_mem_deleteFile (db : APKStorageDatabase β) (p : APKType) (a : APKArch) :
    ∀ apk ∈ (db.deleteFile p a).apks, ¬ (apk.usage = p ∧ apk.arch = a) := by
  intro apk hapk heq
  cases hget : db.get p a with
  | none =>
    rw [deleteFile, hget] at hapk
    have hnone := List.find?_eq_none.mp hget apk hapk
    simp [heq] at hnone
  | some found =>
    have hpositive := (db.apks_lt found (List.mem_of_find?_eq_some hget)).1
    simp only [deleteFile, hget, if_neg (Nat.pos_iff_ne_zero.mp hpositive)] at hapk
    obtain ⟨hmem, hne⟩ := List.mem_filter.mp hapk
    have hfound : found.usage = p ∧ found.arch = a := by simpa using List.find?_some hget
    have hsame := eq_of_key hmem (List.mem_of_find?_eq_some hget) (heq.1.trans hfound.1.symm)
      (heq.2.trans hfound.2.symm)
    simp [hsame] at hne

/-- `save_file`. -/
def saveFile (size : Nat) (package : APKType) (architecture : APKArch) (version : List Char) (mimetype : String)
    (data : List β) (db : APKStorageDatabase β) : APKStorageDatabase β :=
  (db.deleteFile package architecture).insert package architecture
    ⟨version, generateFilename package architecture version mimetype, mimetype, data.length⟩
    (Lib.chunks size data) (not_mem_deleteFile db package architecture)

/-! ## Serving -/

/-- `FilestoreChunkHelper.get_chunk_ids`, in some order. -/
def getChunkIds (db : APKStorageDatabase β) (filestoreId : Nat) : List Nat :=
  (db.chunks.filter fun chunk => chunk.filestoreId = filestoreId).map FilestoreChunk.chunkId

/-- The data of the chunks with the ids, in some order. -/
def getChunkData (db : APKStorageDatabase β) (chunkIds : List Nat) : List (List β) :=
  (db.chunks.filter fun chunk => chunk.chunkId ∈ chunkIds).map FilestoreChunk.data

/-- What the generator of `get_async_generator` may yield: a query without an order may have
its rows in any. -/
def Yields (db : APKStorageDatabase β) (package : APKType) (architecture : APKArch) (out : List (List β)) : Prop :=
  ∃ apk ∈ db.get package architecture, apk.filestoreId ≠ 0 ∧
    ∃ chunkIds, chunkIds.Perm (db.getChunkIds apk.filestoreId) ∧ chunkIds ≠ [] ∧
      out.Perm (db.getChunkData chunkIds)

section
variable {pieces : List (List β)} {h : ∀ apk ∈ db.apks, ¬ (apk.usage = p ∧ apk.arch = a)}

theorem get_insert : (db.insert p a info pieces h).get p a = some ⟨db.nextFilestoreId, p, a, info⟩ := by
  have hnone : db.apks.find? (fun apk => decide (apk.usage = p ∧ apk.arch = a)) = none := by
    rw [List.find?_eq_none]
    intro apk hapk
    simpa using h apk hapk
  rw [get, insert, List.find?_append, hnone]
  simp

theorem chunkIds_chunkRows (db : APKStorageDatabase β) (pieces : List (List β)) :
    ∀ chunk ∈ db.chunkRows pieces, db.nextChunkId ≤ chunk.chunkId ∧ chunk.filestoreId = db.nextFilestoreId := by
  intro chunk hchunk
  obtain ⟨i, _, rfl⟩ := List.mem_mapIdx.mp hchunk
  exact ⟨Nat.le_add_right _ _, rfl⟩

theorem data_chunkRows (db : APKStorageDatabase β) (pieces : List (List β)) :
    (db.chunkRows pieces).map FilestoreChunk.data = pieces := by
  apply List.ext_getElem
  · simp [chunkRows]
  · intro i _ _
    simp [chunkRows]

/-- A query that finds none of the old rows and all of the new ones. -/
theorem filter_append_of_new {α : Type} {q : α → Bool} {old new : List α} (hold : ∀ row ∈ old, q row = false)
    (hnew : ∀ row ∈ new, q row = true) : (old ++ new).filter q = new := by
  have hnone : old.filter q = [] := by
    apply List.filter_eq_nil_iff.mpr
    intro row hrow
    simp [hold row hrow]
  rw [List.filter_append, hnone, List.nil_append]
  exact List.filter_eq_self.mpr hnew

/-- The chunks of the new file are those just inserted. -/
theorem getChunkIds_insert : (db.insert p a info pieces h).getChunkIds db.nextFilestoreId =
    (db.chunkRows pieces).map FilestoreChunk.chunkId := by
  rw [getChunkIds, insert, filter_append_of_new]
  · intro chunk hchunk
    have hlt := (db.chunks_lt chunk hchunk).2
    apply decide_eq_false
    omega
  · intro chunk hchunk
    exact decide_eq_true (chunkIds_chunkRows db pieces chunk hchunk).2

/-- Their ids are those of no other chunk. -/
theorem getChunkData_insert {chunkIds : List Nat}
    (hids : chunkIds.Perm ((db.chunkRows pieces).map FilestoreChunk.chunkId)) :
    (db.insert p a info pieces h).getChunkData chunkIds = pieces := by
  rw [getChunkData, insert, filter_append_of_new, data_chunkRows]
  · intro chunk hchunk
    have hlt := (db.chunks_lt chunk hchunk).1
    apply decide_eq_false
    intro hmem
    obtain ⟨row, hrow, hid⟩ := List.mem_map.mp (hids.mem_iff.mp hmem)
    have hle := (chunkIds_chunkRows db pieces row hrow).1
    omega
  · intro chunk hchunk
    exact decide_eq_true (hids.mem_iff.mpr (List.mem_map_of_mem hchunk))

/-- The new file is served in its pieces, in any order. -/
theorem yields_insert_iff {out : List (List β)} (hne : pieces ≠ []) :
    (db.insert p a info pieces h).Yields p a out ↔ out.Perm pieces := by
  have hrows : db.chunkRows pieces ≠ [] := by
    intro hnil
    have hdata := data_chunkRows db pieces
    rw [hnil] at hdata
    exact hne hdata.symm
  constructor
  · intro hyields
    obtain ⟨apk, hapk, _, chunkIds, hids, _, hout⟩ := hyields
    rw [get_insert] at hapk
    obtain rfl := Option.some.inj hapk
    rw [getChunkIds_insert] at hids
    rwa [getChunkData_insert hids] at hout
  · intro hout
    refine ⟨_, get_insert, Nat.pos_iff_ne_zero.mp db.positive, _, .refl _, ?_, ?_⟩
    · rw [getChunkIds_insert]
      simpa using hrows
    · rwa [getChunkIds_insert, getChunkData_insert (.refl _)]

end

/-- A file is served in its chunks, in any order. -/
theorem yields_saveFile_iff {size : Nat} (hsize : 0 < size) {data : List β} (hdata : data ≠ [])
    {version : List Char} {mimetype : String} {out : List (List β)} :
    (db.saveFile size p a version mimetype data).Yields p a out ↔ out.Perm (Lib.chunks size data) := by
  apply yields_insert_iff
  intro hnil
  have hflatten := flatten_chunks hsize data
  rw [hnil] at hflatten
  exact hdata hflatten.symm

end APKStorageDatabase

end MapADroid.Apk
