import FujiNet.Data.Bytes

/-!
# File handlers

The media types reach their image through the virtual functions of the class
`FileHandler`. The model keeps every open file in one world `φ`, and a handler
object is a number; a null pointer is `none`. All seeks of the media types are
absolute, so `seek` takes the offset alone.

`SeekableBytes` says what it means that the handlers behave as a byte array with
a current position. It promises nothing about a call that fails: a failed seek
and a short transfer may leave the position anywhere, and a short write may have
written anything. `Reliable` handlers do not fail.
-/

namespace FujiNet

/-- The identity of a `FileHandler` object. -/
abbrev Handle := Nat

/-- The virtual functions of `FileHandler`. `read` returns the bytes it stored at the
start of the caller's buffer, and `write` the number of bytes it took. -/
structure FileHandler (φ : Type*) where
  seek : Handle → Int → φ → Int × φ
  read : Handle → Nat → φ → List UInt8 × φ
  write : Handle → List UInt8 → φ → Nat × φ
  flush : Handle → φ → Int × φ
  close : Handle → φ → Int × φ

variable {φ : Type*}

/-- A seek that the caller leaves out when it takes the position to be right. -/
def FileHandler.seekUnless (files : FileHandler φ) (skip : Bool) (h : Handle) (offset : Int)
    (s : φ) : Int × φ :=
  if skip then (0, s) else files.seek h offset s

/-- The handlers act on one byte array, each with its own current position. -/
structure SeekableBytes (files : FileHandler φ) where
  content : φ → List UInt8
  position : Handle → φ → Nat
  content_seek : ∀ h offset s, content (files.seek h offset s).2 = content s
  position_seek : ∀ h offset s, (files.seek h offset s).1 = 0 →
    (position h (files.seek h offset s).2 : Int) = offset
  content_read : ∀ h n s, content (files.read h n s).2 = content s
  read_le : ∀ h n s, (files.read h n s).1.length ≤ n
  read_full : ∀ h n s, (files.read h n s).1.length = n →
    (files.read h n s).1 = slice (content s) (position h s) n ∧
      position h (files.read h n s).2 = position h s + n
  write_full : ∀ h bytes s, (files.write h bytes s).1 = bytes.length →
    content (files.write h bytes s).2 = writeAt (content s) (position h s) bytes ∧
      position h (files.write h bytes s).2 = position h s + bytes.length
  content_flush : ∀ h s, content (files.flush h s).2 = content s
  position_flush : ∀ h s, position h (files.flush h s).2 = position h s

namespace SeekableBytes

variable {files : FileHandler φ} (bytes : SeekableBytes files)

theorem content_seekUnless (skip : Bool) (h : Handle) (offset : Int) (s : φ) :
    bytes.content (files.seekUnless skip h offset s).2 = bytes.content s := by
  cases skip with
  | true => rfl
  | false => exact bytes.content_seek h offset s

/-- A seek that was made and succeeded, or that was left out rightly, ends at the offset. -/
theorem position_seekUnless {skip : Bool} {h : Handle} {offset : Nat} {s : φ}
    (already : skip = true → bytes.position h s = offset)
    (sought : (files.seekUnless skip h offset s).1 = 0) :
    bytes.position h (files.seekUnless skip h offset s).2 = offset := by
  cases skip with
  | true => exact already rfl
  | false => exact Int.natCast_inj.mp (bytes.position_seek h offset s sought)

section Transfer

variable {skip : Bool} {h : Handle} {offset : Nat} {s : φ}
  (already : skip = true → bytes.position h s = offset)
  (sought : (files.seekUnless skip h offset s).1 = 0)
include already sought

/-- A full read after the seek returns what the file holds at the offset. -/
theorem read_sought {n : Nat}
    (full : (files.read h n (files.seekUnless skip h offset s).2).1.length = n) :
    (files.read h n (files.seekUnless skip h offset s).2).1 =
        slice (bytes.content s) offset n ∧
      bytes.position h (files.read h n (files.seekUnless skip h offset s).2).2 = offset + n := by
  obtain ⟨got, moved⟩ := bytes.read_full h n _ full
  rw [bytes.position_seekUnless already sought] at got moved
  rw [bytes.content_seekUnless] at got
  exact ⟨got, moved⟩

/-- A full write after the seek changes the file at the offset. -/
theorem write_sought {data : List UInt8}
    (full : (files.write h data (files.seekUnless skip h offset s).2).1 = data.length) :
    bytes.content (files.write h data (files.seekUnless skip h offset s).2).2 =
        writeAt (bytes.content s) offset data ∧
      bytes.position h (files.write h data (files.seekUnless skip h offset s).2).2 =
        offset + data.length := by
  obtain ⟨put, moved⟩ := bytes.write_full h data _ full
  rw [bytes.position_seekUnless already sought] at put moved
  rw [bytes.content_seekUnless] at put
  exact ⟨put, moved⟩

end Transfer

/-- Handlers that do not fail: every seek to an offset succeeds, a read returns all
there is and moves by what it returned, a write takes everything. -/
structure Reliable : Prop where
  seek_ok : ∀ h (offset : Nat) s, (files.seek h offset s).1 = 0
  read_eq : ∀ h n s, (files.read h n s).1 = slice (bytes.content s) (bytes.position h s) n
  position_read : ∀ h n s, bytes.position h (files.read h n s).2 =
    bytes.position h s + (files.read h n s).1.length
  write_ok : ∀ h data s, (files.write h data s).1 = data.length

end SeekableBytes

/-! ## Two files in memory -/

/-- A byte array and the positions of its handlers. -/
structure ByteFile where
  content : List UInt8
  position : Handle → Nat := fun _ => 0

namespace ByteFile

def moveTo (s : ByteFile) (h : Handle) (position : Nat) : ByteFile :=
  { s with position := Function.update s.position h position }

def seek (h : Handle) (offset : Int) (s : ByteFile) : Int × ByteFile :=
  if offset < 0 then (-1, s) else (0, s.moveTo h offset.toNat)

def read (h : Handle) (n : Nat) (s : ByteFile) : List UInt8 × ByteFile :=
  let bytes := slice s.content (s.position h) n
  (bytes, s.moveTo h (s.position h + bytes.length))

def write (h : Handle) (data : List UInt8) (s : ByteFile) : Nat × ByteFile :=
  (data.length,
    { s with content := writeAt s.content (s.position h) data }.moveTo h
      (s.position h + data.length))

def handler : FileHandler ByteFile where
  seek := seek
  read := read
  write := write
  flush _ s := (0, s)
  close _ s := (0, s)

@[simp] theorem position_moveTo (s : ByteFile) (h : Handle) (position : Nat) :
    (s.moveTo h position).position h = position := by
  simp [moveTo]

theorem position_seek {h : Handle} {offset : Int} {s : ByteFile}
    (sought : (seek h offset s).1 = 0) : ((seek h offset s).2.position h : Int) = offset := by
  simp only [seek] at sought ⊢
  split at sought
  · simp at sought
  · next nonneg =>
    rw [if_neg nonneg, position_moveTo]
    omega

theorem content_seek (h : Handle) (offset : Int) (s : ByteFile) :
    (seek h offset s).2.content = s.content := by
  simp only [seek]
  split <;> rfl

def bytes : SeekableBytes handler where
  content := content
  position h s := s.position h
  content_seek := content_seek
  position_seek _ _ _ sought := position_seek sought
  content_read _ _ _ := rfl
  read_le h n s := by
    simp only [handler, read, length_slice]
    omega
  read_full h n s full := by
    refine ⟨rfl, ?_⟩
    simp only [handler, read, position_moveTo]
    exact congrArg _ full
  write_full h data s _ := ⟨rfl, by simp [handler, write]⟩
  content_flush _ _ := rfl
  position_flush _ _ := rfl

theorem reliable : bytes.Reliable where
  seek_ok h offset s := by
    have nonneg : ¬ (offset : Int) < 0 := by omega
    simp [handler, seek, nonneg]
  read_eq _ _ _ := rfl
  position_read h n s := by simp [bytes, handler, read]
  write_ok _ _ _ := rfl

end ByteFile

/-- The same with a list that says, call by call, whether the call fails: `some k`
stops a transfer after `k` bytes and refuses a seek. Calls beyond the list go through. -/
structure ScriptedFile where
  file : ByteFile
  limits : List (Option Nat)

namespace ScriptedFile

/-- What the list says about the next call. -/
def limit (s : ScriptedFile) : Option Nat := s.limits.head?.join

def seek (h : Handle) (offset : Int) (s : ScriptedFile) : Int × ScriptedFile :=
  let (e, file) := if s.limit.isSome then (-1, s.file) else s.file.seek h offset
  (e, ⟨file, s.limits.tail⟩)

def read (h : Handle) (n : Nat) (s : ScriptedFile) : List UInt8 × ScriptedFile :=
  let (bytes, file) := s.file.read h (min n (s.limit.getD n))
  (bytes, ⟨file, s.limits.tail⟩)

def write (h : Handle) (data : List UInt8) (s : ScriptedFile) : Nat × ScriptedFile :=
  let (taken, file) := s.file.write h (data.take (s.limit.getD data.length))
  (taken, ⟨file, s.limits.tail⟩)

def handler : FileHandler ScriptedFile where
  seek := seek
  read := read
  write := write
  flush _ s := (0, s)
  close _ s := (0, s)

/-- It is a seekable byte array, whatever its list of failures: a transfer of full
length was not stopped. -/
def bytes : SeekableBytes handler where
  content s := s.file.content
  position h s := s.file.position h
  content_seek h offset s := by
    simp only [handler, seek]
    split
    · rfl
    · exact ByteFile.content_seek h offset s.file
  position_seek h offset s sought := by
    simp only [handler, seek] at sought ⊢
    split at sought
    · simp at sought
    · next allowed =>
      rw [if_neg allowed]
      exact ByteFile.position_seek sought
  content_read h n s := rfl
  read_le h n s := by
    simp only [handler, read, ByteFile.read, length_slice]
    omega
  read_full h n s full := by
    have unstopped : min n (s.limit.getD n) = n := by
      simp only [handler, read, ByteFile.read, length_slice] at full
      omega
    simp only [handler, read, unstopped] at full ⊢
    exact ByteFile.bytes.read_full h n s.file full
  write_full h data s full := by
    have unstopped : data.take (s.limit.getD data.length) = data := by
      simp only [handler, write, ByteFile.write, List.length_take] at full
      apply List.take_of_length_le
      omega
    simp only [handler, write, unstopped] at full ⊢
    exact ByteFile.bytes.write_full h data s.file full
  content_flush _ _ := rfl
  position_flush _ _ := rfl

end ScriptedFile

end FujiNet
