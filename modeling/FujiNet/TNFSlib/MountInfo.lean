import Mathlib.Data.List.FinRange
import FujiNet.Data.Bytes

/-!
# What the client keeps about a server

`MountInfo` is `tnfsMountInfo`: the session, the table of open files and the
directory cache. A pointer to a `tnfsFileHandleInfo` is an index of the table, and
a null pointer is an empty place. Character arrays are byte strings without their
terminating NUL. The address of the server and the time limits are not part of the
model; they belong to the network.
-/

namespace FujiNet.TNFS

/-- `strlcpy` into `size` bytes, as the string the destination then holds. -/
def strlcpy (source : List UInt8) (size : Nat) : List UInt8 :=
  (source.takeWhile (· ≠ 0)).take (size - 1)

/-- `TNFS_FILE_CACHE_SIZE`. -/
def fileCacheSize : Nat := 512
/-- `TNFS_MAX_FILELEN`. -/
def maxFilelen : Nat := 256
/-- `TNFS_MAX_FILE_HANDLES`. -/
abbrev maxFileHandles : Nat := 8
/-- `TNFS_MAX_DIRCACHE_ENTRIES`. -/
def maxDircacheEntries : Nat := 32
/-- `TNFS_INVALID_SESSION`. -/
def invalidSession : Nat := 0

/-- `tnfsFileHandleInfo`. Positions and sizes are 32-bit values. -/
structure FileHandleInfo where
  handleId : UInt8 := 0
  filePosition : Nat := 0
  fileSize : Nat := 0
  cachedPos : Nat := 0
  cacheStart : Nat := 0
  cacheAvailable : Nat := 0
  cache : List UInt8 := List.replicate fileCacheSize 0
  filename : List UInt8 := []
  deriving DecidableEq, Repr

/-- `tnfsDirCacheEntry`. -/
structure DirCacheEntry where
  dirpos : Nat
  flags : UInt8
  filesize : Nat
  mTime : Nat
  cTime : Nat
  entryname : List UInt8
  deriving DecidableEq, Repr

/-- `tnfsMountInfo`. The entries of the directory cache up to `_dir_cache_count` are
the list `dirCache`. -/
structure MountInfo where
  fileHandles : Fin maxFileHandles → Option FileHandleInfo := fun _ => none
  dirCache : List DirCacheEntry := []
  dirCacheCurrent : Nat := 0
  dirCacheEof : Bool := false
  mountpath : List UInt8 := []
  user : List UInt8 := []
  password : List UInt8 := []
  currentWorkingDirectory : List UInt8 := []
  session : Nat := invalidSession
  minRetryMs : Nat := 1000
  serverVersion : Nat := 0
  maxRetries : Nat := 5
  currentSequenceNum : UInt8 := 0
  dirHandle : Int := -1
  dirEntries : Nat := 0

namespace MountInfo

/-! ## The table of open files -/

/-- `get_filehandleinfo`: the first occupied place with a matching handle. -/
def getFilehandleinfo (m : MountInfo) (filehandle : UInt8) : Option (Fin maxFileHandles) :=
  (List.finRange maxFileHandles).find? fun i =>
    (m.fileHandles i).any fun f => f.handleId = filehandle

/-- Write through a pointer into the table. -/
def setFile (m : MountInfo) (i : Fin maxFileHandles) (f : FileHandleInfo) : MountInfo :=
  { m with fileHandles := Function.update m.fileHandles i (some f) }

/-- `new_filehandleinfo`: the first free place, now occupied. -/
def newFilehandleinfo (m : MountInfo) : Option (Fin maxFileHandles × MountInfo) :=
  ((List.finRange maxFileHandles).find? fun i => (m.fileHandles i).isNone).map fun i =>
    (i, m.setFile i {})

/-- `delete_filehandleinfo` of a pointer. -/
def deleteFilehandleinfo (m : MountInfo) (i : Fin maxFileHandles) : MountInfo :=
  { m with fileHandles := Function.update m.fileHandles i none }

section Table

variable {m : MountInfo} {i j : Fin maxFileHandles} {f : FileHandleInfo} {h : UInt8}

@[simp] theorem fileHandles_setFile : (m.setFile i f).fileHandles i = some f := by
  simp [setFile]

theorem fileHandles_setFile_of_ne (ne : j ≠ i) :
    (m.setFile i f).fileHandles j = m.fileHandles j := by
  simp [setFile, ne]

@[simp] theorem setFile_setFile (g : FileHandleInfo) :
    (m.setFile i f).setFile i g = m.setFile i g := by
  simp [setFile]

theorem setFile_of_fileHandles (hi : m.fileHandles i = some f) : m.setFile i f = m := by
  simp [setFile, ← hi]

@[simp] theorem fileHandles_deleteFilehandleinfo :
    (m.deleteFilehandleinfo i).fileHandles i = none := by
  simp [deleteFilehandleinfo]

/-- The place found is occupied by a file with the handle looked for, and no place
before it is. -/
theorem getFilehandleinfo_eq_some_iff : m.getFilehandleinfo h = some i ↔
    (∃ f, m.fileHandles i = some f ∧ f.handleId = h) ∧
      ∀ j < i, ∀ f, m.fileHandles j = some f → f.handleId ≠ h := by
  simp only [getFilehandleinfo, List.find?_eq_some_iff_getElem, Option.any_eq_true,
    decide_eq_true_eq, List.getElem_finRange, List.length_finRange]
  constructor
  · rintro ⟨found, k, hk, rfl, first⟩
    refine ⟨found, fun j hj f hf => ?_⟩
    have before := first j.val (Fin.lt_def.mp hj)
    simpa [hf] using before
  · rintro ⟨found, first⟩
    refine ⟨found, i.val, i.isLt, by simp, fun j hj => ?_⟩
    cases hf : m.fileHandles ⟨j, by omega⟩ with
    | none => simp [hf]
    | some f =>
        have := first ⟨j, by omega⟩ (by simpa [Fin.lt_def] using hj) f hf
        simpa [hf] using this

theorem getFilehandleinfo_eq_none_iff : m.getFilehandleinfo h = none ↔
    ∀ j f, m.fileHandles j = some f → f.handleId ≠ h := by
  simp only [getFilehandleinfo, List.find?_eq_none, List.mem_finRange, true_imp_iff,
    Option.any_eq_true, decide_eq_true_eq, not_exists, not_and]

/-- Writing through a pointer without changing the handle does not affect lookup. -/
theorem getFilehandleinfo_setFile {g : FileHandleInfo} (hi : m.fileHandles i = some g)
    (same : f.handleId = g.handleId) :
    (m.setFile i f).getFilehandleinfo h = m.getFilehandleinfo h := by
  simp only [getFilehandleinfo]
  congr 1
  funext j
  by_cases hj : j = i
  · subst hj
    simp [hi, same]
  · rw [fileHandles_setFile_of_ne hj]

theorem newFilehandleinfo_eq_some {m' : MountInfo} (new : m.newFilehandleinfo = some (i, m')) :
    m.fileHandles i = none ∧ m' = m.setFile i {} := by
  obtain ⟨k, found, h⟩ := Option.map_eq_some_iff.mp new
  obtain ⟨rfl, rfl⟩ := Prod.mk.inj h
  exact ⟨by simpa using List.find?_some found, rfl⟩

theorem newFilehandleinfo_eq_none_iff :
    m.newFilehandleinfo = none ↔ ∀ i, (m.fileHandles i).isSome := by
  simp only [newFilehandleinfo, Option.map_eq_none_iff, List.find?_eq_none, List.mem_finRange,
    true_imp_iff, Option.isNone_iff_eq_none, Option.isSome_iff_ne_none, ne_eq]

end Table

/-! ## The directory cache -/

/-- `empty_dircache`. -/
def emptyDircache (m : MountInfo) : MountInfo :=
  { m with dirCache := [], dirCacheCurrent := 0, dirCacheEof := false }

/-- `new_dircache_entry`, given the entry that the caller then fills in. -/
def newDircacheEntry (m : MountInfo) (e : DirCacheEntry) : Option MountInfo :=
  if m.dirCache.length ≥ maxDircacheEntries then none
  else some { m with dirCache := m.dirCache ++ [e] }

/-- `next_dircache_entry`. -/
def nextDircacheEntry (m : MountInfo) : Option (DirCacheEntry × MountInfo) :=
  (m.dirCache[m.dirCacheCurrent]?).map fun e =>
    (e, { m with dirCacheCurrent := m.dirCacheCurrent + 1 })

/-- `tell_dircache_entry`, with -1 when there is no cached entry. -/
def tellDircacheEntry (m : MountInfo) : Int :=
  match m.dirCache[m.dirCacheCurrent]? with
  | none => -1
  | some e => e.dirpos

end MountInfo

end FujiNet.TNFS
