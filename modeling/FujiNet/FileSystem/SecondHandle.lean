import FujiNet.FileSystem.FileHandler

/-!
# Handlers that are opened for one write

A program that reads a file through one handler may write to it through a second one,
which it opens for the write and closes behind it. `tracking` keeps a list of the
second handlers that are open; `SecondHandles` says that opening and closing them
leaves the file alone, which is what a mode without truncation promises.

A handler that caches what it reads does not see what a second one writes.
`SharedBytes` says what is left of `SeekableBytes` then: a read is exact if the handler
is `Fresh`, that is, has no byte of its range cached that has changed in the file.
`uncached` handlers ask the file itself; they do what the real ones do wherever these
are fresh.
-/

namespace FujiNet

variable {φ : Type*}

/-- The same handlers with a list of the second handlers that are open. -/
def FileHandler.tracking (files : FileHandler φ) : FileHandler (φ × List Handle) where
  seek h offset s := ((files.seek h offset s.1).1, (files.seek h offset s.1).2, s.2)
  read h n s := ((files.read h n s.1).1, (files.read h n s.1).2, s.2)
  write h data s := ((files.write h data s.1).1, (files.write h data s.1).2, s.2)
  flush h s := ((files.flush h s.1).1, (files.flush h s.1).2, s.2)
  close h s := ((files.close h s.1).1, (files.close h s.1).2, s.2.erase h)

namespace FileHandler

variable (files : FileHandler φ) (h : Handle) (s : φ) (opened : List Handle)

@[simp] theorem tracking_seek (offset : Int) : files.tracking.seek h offset (s, opened) =
    ((files.seek h offset s).1, (files.seek h offset s).2, opened) := rfl

@[simp] theorem tracking_read (n : Nat) : files.tracking.read h n (s, opened) =
    ((files.read h n s).1, (files.read h n s).2, opened) := rfl

@[simp] theorem tracking_write (data : List UInt8) : files.tracking.write h data (s, opened) =
    ((files.write h data s).1, (files.write h data s).2, opened) := rfl

@[simp] theorem tracking_flush : files.tracking.flush h (s, opened) =
    ((files.flush h s).1, (files.flush h s).2, opened) := rfl

@[simp] theorem tracking_close : files.tracking.close h (s, opened) =
    ((files.close h s).1, (files.close h s).2, opened.erase h) := rfl

@[simp] theorem tracking_seekUnless (skip : Bool) (offset : Int) :
    files.tracking.seekUnless skip h offset (s, opened) =
      ((files.seekUnless skip h offset s).1, (files.seekUnless skip h offset s).2, opened) := by
  cases skip <;> rfl

end FileHandler

/-- Opening a second handler, with the list of those that are open. -/
def trackedOpen (filehandlerOpen : φ → Option Handle × φ) (s : φ × List Handle) :
    Option Handle × φ × List Handle :=
  ((filehandlerOpen s.1).1, (filehandlerOpen s.1).2, (filehandlerOpen s.1).1.toList ++ s.2)

/-- The list of open handlers does not disturb the bytes. -/
def SeekableBytes.tracking {files : FileHandler φ} (bytes : SeekableBytes files) :
    SeekableBytes files.tracking where
  content s := bytes.content s.1
  position h s := bytes.position h s.1
  content_seek h offset s := bytes.content_seek h offset s.1
  position_seek h offset s := bytes.position_seek h offset s.1
  content_read h n s := bytes.content_read h n s.1
  read_le h n s := bytes.read_le h n s.1
  read_full h n s := bytes.read_full h n s.1
  write_full h data s := bytes.write_full h data s.1
  content_flush h s := bytes.content_flush h s.1
  position_flush h s := bytes.position_flush h s.1

/-! ## Handlers with a cache -/

/-- The handlers act on one byte array. Each has its own current position, and may have
bytes of the file cached. -/
structure SharedBytes (files : FileHandler φ) where
  content : φ → List UInt8
  position : Handle → φ → Nat
  cached : Handle → φ → Nat → Option UInt8
  content_seek : ∀ h offset s, content (files.seek h offset s).2 = content s
  position_seek : ∀ h offset s, (files.seek h offset s).1 = 0 →
    (position h (files.seek h offset s).2 : Int) = offset
  cached_seek : ∀ h offset s i b,
    cached h (files.seek h offset s).2 i = some b → cached h s i = some b
  content_read : ∀ h n s, content (files.read h n s).2 = content s
  read_le : ∀ h n s, (files.read h n s).1.length ≤ n
  position_read : ∀ h n s, (files.read h n s).1.length = n →
    position h (files.read h n s).2 = position h s + n
  read_fresh : ∀ h n s, (files.read h n s).1.length = n →
    (∀ i b, position h s ≤ i → i < position h s + n → cached h s i = some b →
      (content s)[i]? = some b) →
    (files.read h n s).1 = slice (content s) (position h s) n
  write_full : ∀ h bytes s, (files.write h bytes s).1 = bytes.length →
    content (files.write h bytes s).2 = writeAt (content s) (position h s) bytes ∧
      position h (files.write h bytes s).2 = position h s + bytes.length
  content_flush : ∀ h s, content (files.flush h s).2 = content s
  position_flush : ∀ h s, position h (files.flush h s).2 = position h s

/-- Handlers without a cache. -/
def SeekableBytes.shared {files : FileHandler φ} (bytes : SeekableBytes files) :
    SharedBytes files where
  content := bytes.content
  position := bytes.position
  cached _ _ _ := none
  content_seek := bytes.content_seek
  position_seek := bytes.position_seek
  cached_seek _ _ _ _ _ cached := cached
  content_read := bytes.content_read
  read_le := bytes.read_le
  position_read h n s full := (bytes.read_full h n s full).2
  read_fresh h n s full _ := (bytes.read_full h n s full).1
  write_full := bytes.write_full
  content_flush := bytes.content_flush
  position_flush := bytes.position_flush

namespace SharedBytes

variable {files : FileHandler φ} (bytes : SharedBytes files)

/-- What the handler has cached of the range is what the file holds there. -/
def Fresh (h : Handle) (offset n : Nat) (s : φ) : Prop :=
  ∀ i b, offset ≤ i → i < offset + n → bytes.cached h s i = some b →
    (bytes.content s)[i]? = some b

/-- The same handlers, with reads that ask the file and not the cache. -/
def uncached : FileHandler φ :=
  { files with
    read := fun h n s =>
      let (got, s') := files.read h n s
      (if got.length = n then slice (bytes.content s) (bytes.position h s) n else got, s') }

/-- Without its cache every handler sees what the others write. -/
def seekable : SeekableBytes bytes.uncached where
  content := bytes.content
  position := bytes.position
  content_seek := bytes.content_seek
  position_seek := bytes.position_seek
  content_read := bytes.content_read
  read_le h n s := by
    have room := bytes.read_le h n s
    simp only [uncached]
    split
    · rw [length_slice]
      omega
    · exact room
  read_full h n s full := by
    simp only [uncached] at full ⊢
    split_ifs at full ⊢ with whole
    · exact ⟨rfl, bytes.position_read h n s whole⟩
    · exact absurd full whole
  write_full := bytes.write_full
  content_flush := bytes.content_flush
  position_flush := bytes.position_flush

@[simp] theorem uncached_seekUnless (skip : Bool) (h : Handle) (offset : Int) (s : φ) :
    bytes.uncached.seekUnless skip h offset s = files.seekUnless skip h offset s := rfl

variable {bytes}

theorem Fresh.seekUnless {h : Handle} {place n : Nat} {s : φ} (fresh : bytes.Fresh h place n s)
    (skip : Bool) (offset : Int) : bytes.Fresh h place n (files.seekUnless skip h offset s).2 := by
  cases skip with
  | true => exact fresh
  | false =>
      intro i b first inside cached
      rw [FileHandler.seekUnless, if_neg (by decide), bytes.content_seek]
      exact fresh i b first inside (bytes.cached_seek h offset s i b cached)

/-- A fresh handler reads what the file holds. -/
theorem read_uncached {h : Handle} {n : Nat} {s : φ}
    (fresh : bytes.Fresh h (bytes.position h s) n s) :
    bytes.uncached.read h n s = files.read h n s := by
  simp only [uncached]
  split
  · next full => rw [← bytes.read_fresh h n s full fresh]
  · rfl

/-- After a seek that succeeded, or was left out rightly, it is enough to be fresh at the
offset. -/
theorem read_uncached_sought {skip : Bool} {h : Handle} {offset n : Nat} {s : φ}
    (already : skip = true → bytes.position h s = offset)
    (sought : (files.seekUnless skip h offset s).1 = 0) (fresh : bytes.Fresh h offset n s) :
    bytes.uncached.read h n (files.seekUnless skip h offset s).2 =
      files.read h n (files.seekUnless skip h offset s).2 := by
  have place : bytes.position h (files.seekUnless skip h offset s).2 = offset :=
    bytes.seekable.position_seekUnless already sought
  apply read_uncached
  rw [place]
  exact fresh.seekUnless skip offset

end SharedBytes

/-! ## The second handler -/

/-- Opening the file once more and closing a handler do not change the file. -/
structure SecondHandles {files : FileHandler φ} (bytes : SharedBytes files)
    (filehandlerOpen : φ → Option Handle × φ) : Prop where
  content_open : ∀ s, bytes.content (filehandlerOpen s).2 = bytes.content s
  content_close : ∀ h s, bytes.content (files.close h s).2 = bytes.content s

section

variable (files : FileHandler φ)

/-- The handler takes all of the data at the offset. -/
def Takes (h : Handle) (offset : Nat) (data : List UInt8) (s : φ) : Prop :=
  (files.seek h offset s).1 = 0 ∧
    (files.write h data (files.seek h offset s).2).1 = data.length

/-- A second handler can be opened, and it takes all of the data at the offset. -/
def SecondTakes (filehandlerOpen : φ → Option Handle × φ) (offset : Nat) (data : List UInt8)
    (s : φ) : Prop :=
  ∃ h, (filehandlerOpen s).1 = some h ∧ Takes files h offset data (filehandlerOpen s).2

variable {files}

variable {h : Handle} {offset : Nat} {data : List UInt8} {s : φ}

/-- What a handler takes is in the file at the offset. -/
theorem Takes.content_shared (bytes : SharedBytes files) (takes : Takes files h offset data s) :
    bytes.content (files.write h data (files.seek h offset s).2).2 =
      writeAt (bytes.content s) offset data := by
  obtain ⟨sought, full⟩ := takes
  obtain ⟨written, -⟩ := bytes.write_full h data _ full
  rw [written, bytes.content_seek, Int.natCast_inj.mp (bytes.position_seek h offset s sought)]

theorem Takes.content (bytes : SeekableBytes files) (takes : Takes files h offset data s) :
    bytes.content (files.write h data (files.seek h offset s).2).2 =
      writeAt (bytes.content s) offset data :=
  takes.content_shared bytes.shared

end

/-! ## A file that is cached as a whole -/

/-- A byte array whose handlers keep the file as their first read after a write found it.
So does the cache of one TNFS block with a file that fits into it. -/
structure SnapshotFile where
  file : ByteFile
  snapshots : Handle → Option (List UInt8) := fun _ => none

namespace SnapshotFile

/-- What a read through the handler sees. -/
def view (s : SnapshotFile) (h : Handle) : List UInt8 :=
  (s.snapshots h).getD s.file.content

def seek (h : Handle) (offset : Int) (s : SnapshotFile) : Int × SnapshotFile :=
  ((s.file.seek h offset).1, ⟨(s.file.seek h offset).2, s.snapshots⟩)

def read (h : Handle) (n : Nat) (s : SnapshotFile) : List UInt8 × SnapshotFile :=
  let bytes := slice (s.view h) (s.file.position h) n
  (bytes, ⟨s.file.moveTo h (s.file.position h + bytes.length),
    Function.update s.snapshots h (some (s.view h))⟩)

def write (h : Handle) (data : List UInt8) (s : SnapshotFile) : Nat × SnapshotFile :=
  ((s.file.write h data).1, ⟨(s.file.write h data).2, Function.update s.snapshots h none⟩)

def handler : FileHandler SnapshotFile where
  seek := seek
  read := read
  write := write
  flush _ s := (0, s)
  close h s := (0, ⟨s.file, Function.update s.snapshots h none⟩)

/-- A read that the snapshot serves in full is right where the snapshot is. -/
theorem slice_eq_of_agree {snapshot content : List UInt8} {p n : Nat}
    (full : (slice snapshot p n).length = n)
    (agree : ∀ i b, p ≤ i → i < p + n → snapshot[i]? = some b → content[i]? = some b) :
    slice snapshot p n = slice content p n := by
  rw [length_slice] at full
  refine List.ext_getElem? fun i => ?_
  rw [getElem?_slice, getElem?_slice]
  split
  · next inside =>
    have present : p + i < snapshot.length := by omega
    have here : snapshot[p + i]? = some snapshot[p + i] := List.getElem?_eq_getElem present
    rw [here, agree (p + i) _ (Nat.le_add_right p i) (by omega) here]
  · rfl

def bytes : SharedBytes handler where
  content s := s.file.content
  position h s := s.file.position h
  cached h s i := (s.snapshots h).bind (·[i]?)
  content_seek h offset s := ByteFile.content_seek h offset s.file
  position_seek _ _ _ sought := ByteFile.position_seek sought
  cached_seek _ _ _ _ _ cached := cached
  content_read _ _ _ := rfl
  read_le h n s := by
    simp only [handler, read, length_slice]
    omega
  position_read h n s full := by
    simp only [handler, read, ByteFile.position_moveTo]
    exact congrArg _ full
  read_fresh h n s full fresh := by
    simp only [handler, read, view] at full ⊢
    cases kept : s.snapshots h with
    | none => rfl
    | some snapshot =>
        rw [kept] at full
        refine slice_eq_of_agree full fun i b first inside cached => fresh i b first inside ?_
        rw [kept]
        exact cached
  write_full h data s _ := ⟨rfl, by simp [handler, write, ByteFile.write]⟩
  content_flush _ _ := rfl
  position_flush _ _ := rfl

theorem takes (h : Handle) (offset : Nat) (data : List UInt8) (s : SnapshotFile) :
    Takes handler h offset data s :=
  ⟨ByteFile.reliable.seek_ok h offset s.file, rfl⟩

end SnapshotFile

end FujiNet
