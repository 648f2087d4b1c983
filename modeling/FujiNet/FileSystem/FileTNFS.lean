import FujiNet.TNFSlib.File

/-!
# Files on a TNFS server

`FileHandlerTNFS` is the file object that the rest of the firmware works with. It
splits reads into requests of the library, and when the server does not know its
handle any more it opens the file again, goes to the last known position and tries
once more.

The handlers of one file system share the table of open files. `FileSystemTNFS` is
such a file system with the handlers that live on it.

`errno` appears as the result code that the source translates for it, where it sets
one. The position of a handler's file in the table, and the record of the OPENs made
for it, are there for statements about the code; no decision depends on them.
-/

namespace FujiNet.FileSystem

open TNFS

/-- Conversion of an `int` to `uint8_t`. -/
def toUint8 (n : Int) : UInt8 := UInt8.ofNat (n % 256).toNat

/-- Conversion of a `long` to `int32_t`. -/
def toInt32 (n : Int) : Int := i32 (toUint32 n)

/-- `FileHandlerTNFS`, with the place of the table that was taken for its file. -/
structure FileHandlerTNFS where
  handle : Int
  slot : Fin maxFileHandles
  deriving DecidableEq, Repr

/-- A file opened by the server: the table before, the place of the file that is about
to be replaced, and the handle. -/
structure Opening where
  table : Fin maxFileHandles → Option FileHandleInfo
  replaces : Option (Fin maxFileHandles)
  handleId : UInt8

/-- A handler during one of its operations, and the files it opened, latest first. -/
structure Handling (ν : Type) where
  handler : FileHandlerTNFS
  client : Client ν
  openings : List Opening := []

section

variable {ν : Type} (tx : Transact ν) (fuel : Nat)

/-- `tnfs_open`, with the handler for a file that was opened. -/
def openFile (path : List UInt8) (mode perms : UInt16) (replaces : Option (Fin maxFileHandles))
    (c : Client ν) : Option ((Int × Option (FileHandlerTNFS × Opening)) × Client ν) := do
  let slot := c.mInfo.newFilehandleinfo.map Prod.fst
  let ((result, handle), c') ← tnfsOpen tx path mode perms c
  some ((result, if result ≠ code Result.success then none else slot.map fun slot =>
    (⟨handle, slot⟩, ⟨c.mInfo.fileHandles, replaces, toUint8 handle⟩)), c')

/-! ## Recovery -/

/-- `_bad_fd_recovery`. -/
def badFdRecovery (s : Handling ν) : Option (UInt8 × Handling ν) := do
  match s.client.mInfo.getFilehandleinfo (toUint8 s.handler.handle) with
  | none => some (Result.badFilenum, s)
  | some i =>
    let f ← s.client.mInfo.fileHandles i
    let ((result, opened), c) ← openFile tx f.filename openmodeRead 0 (some i) s.client
    match opened with
    | none => some (toUint8 result, { s with client := c })
    | some (handler, opening) =>
      let f ← c.mInfo.fileHandles i
      let c := { c with mInfo := c.mInfo.deleteFilehandleinfo i }
      let ((result, _), c) ← tnfsLseek tx handler.handle f.cachedPos seekSet false c
      some (toUint8 result, ⟨handler, c, opening :: s.openings⟩)

/-- An operation that is tried once more after a recovery. -/
def withRecovery {σ : Type} (op : σ → Option (Int × σ)) (recovery : σ → Option (UInt8 × σ))
    (s : σ) : Option (Int × σ) := do
  let (result, s) ← op s
  if result = code Result.badFilenum then
    let (recovered, s) ← recovery s
    if recovered = Result.success then op s else some (result, s)
  else some (result, s)

/-! ## Reading -/

/-- The loop of `read` at its head, with the memory at the destination. -/
structure Transfer (ν : Type) where
  handling : Handling ν
  buffer : List UInt8
  totalBytesRead : Nat := 0
  bytesRead : Nat := 0

/-- The call of `tnfs_read` in the loop. -/
def readRequest (readSize : Nat) (t : Transfer ν) : Option (Int × Transfer ν) :=
  (tnfsRead tx fuel t.handling.handler.handle readSize t.handling.client).map
    fun ((result, data), c) =>
      (result, { t with
        handling := { t.handling with client := c }
        buffer := overlay t.buffer t.totalBytesRead data
        bytesRead := data.length })

/-- `_bad_fd_recovery` in the loop. -/
def readRecovery (t : Transfer ν) : Option (UInt8 × Transfer ν) :=
  (badFdRecovery tx t.handling).map fun (recovered, handling) => (recovered, { t with handling })

/-- One pass of the loop of `read`; it leaves with the code for `errno`. -/
def readPass (bytesRequested : Nat) (t : Transfer ν) :
    Option (Transfer ν ⊕ (Option Int × Transfer ν)) :=
  if t.totalBytesRead < bytesRequested then
    let readSize := min (bytesRequested - t.totalBytesRead) maxReadwritePayload
    (withRecovery (readRequest tx fuel readSize) (readRecovery tx) { t with bytesRead := 0 }).bind
      fun (result, t) =>
    if result ≠ code Result.success then
      if result = code Result.endOfFile ∧ t.bytesRead > 0 then
        some (.inr (none, { t with totalBytesRead := t.totalBytesRead + t.bytesRead }))
      else some (.inr (some result, t))
    else some (.inl { t with totalBytesRead := t.totalBytesRead + t.bytesRead })
  else some (.inr (none, t))

/-- What `read` returns and leaves in the caller's memory, and the number of bytes it
counted. -/
structure ReadAnswer where
  returned : Nat
  errno : Option Int := none
  totalBytesRead : Nat := 0
  buffer : List UInt8
  deriving DecidableEq, Repr

/-- Values of `size_t`. -/
def sizeMax : Nat := 18446744073709551616

/-- `read`. Every pass that goes on has counted at least one byte. -/
def read (buffer : List UInt8) (size count : Nat) (s : Handling ν) :
    Option (ReadAnswer × Handling ν) :=
  let bytesRequested := size * count % sizeMax
  if bytesRequested = 0 then some ({ returned := 0, buffer }, s)
  else
    (Loop.run (readPass tx fuel bytesRequested) (bytesRequested + 1) ⟨s, buffer, 0, 0⟩).map
      fun (errno, t) =>
        ({ returned := if bytesRequested = t.totalBytesRead then count
             else t.totalBytesRead / size
           errno
           totalBytesRead := t.totalBytesRead
           buffer := t.buffer }, t.handling)

/-! ## Writing -/

/-- The loop of `write` at its head. -/
structure Sending (ν : Type) where
  handling : Handling ν
  totalBytesWritten : Nat := 0

/-- One pass of the loop of `write`; it leaves with the code for `errno`. -/
def writePass (bytesRequested : Nat) (buffer : List UInt8) (t : Sending ν) :
    Option (Sending ν ⊕ (Option Int × Sending ν)) :=
  if t.totalBytesWritten < bytesRequested then
    let writeSize := min (bytesRequested - t.totalBytesWritten) maxReadwritePayload
    (tnfsWrite tx t.handling.handler.handle (slice buffer t.totalBytesWritten writeSize)
      t.handling.client).bind fun ((result, bytesWritten), c) =>
    let t := { t with handling := { t.handling with client := c } }
    if result ≠ code Result.success then some (.inr (some result, t))
    else some (.inl { t with totalBytesWritten := t.totalBytesWritten + bytesWritten })
  else some (.inr (none, t))

/-- What `write` returns, and the number of bytes it counted. -/
structure WriteAnswer where
  returned : Nat
  errno : Option Int := none
  totalBytesWritten : Nat := 0
  deriving DecidableEq, Repr

/-- `write`. `bytes_requested` is a `uint16_t`. -/
def write (buffer : List UInt8) (size count : Nat) (s : Handling ν) :
    Option (WriteAnswer × Handling ν) :=
  let bytesRequested := size * count % 65536
  if bytesRequested = 0 then some ({ returned := 0 }, s)
  else
    (Loop.run (writePass tx bytesRequested buffer) (bytesRequested + 1) ⟨s, 0⟩).map
      fun (errno, t) =>
        ({ returned := if bytesRequested = t.totalBytesWritten then count
             else t.totalBytesWritten / size
           errno
           totalBytesWritten := t.totalBytesWritten }, t.handling)

/-! ## Seeking and closing -/

/-- The call of `tnfs_lseek` in `seek`. -/
def seekRequest (off whence : Int) (s : Handling ν) : Option (Int × Handling ν) :=
  (tnfsLseek tx s.handler.handle (toInt32 off) (toUint8 whence) false s.client).map
    fun ((result, _), c) => (result, { s with client := c })

/-- `seek`: what it returns and the code for `errno`. -/
def seek (off whence : Int) (s : Handling ν) : Option ((Int × Int) × Handling ν) :=
  (withRecovery (seekRequest tx off whence) (badFdRecovery tx) s).map fun (result, s) =>
    if result ≠ code Result.success then ((-1, result), s) else ((0, code Result.success), s)

/-- `tell`. -/
def tell (s : Handling ν) : Int :=
  match (s.client.mInfo.getFilehandleinfo (toUint8 s.handler.handle)).bind
    s.client.mInfo.fileHandles with
  | none => -1
  | some f => f.cachedPos

/-- `close` of a handler with a file. -/
def close (s : Handling ν) : Option (Int × Client ν) :=
  if s.handler.handle ≠ -1 then tnfsClose tx s.handler.handle s.client else some (0, s.client)

/-! ## The file system -/

def openmodeReadwrite : UInt16 := openmodeRead ||| openmodeWrite
def openmodeWriteCreate : UInt16 := 0x0100
def createpermOwner : UInt16 := 0x0100 ||| 0x0080 ||| 0x0040

/-- The open mode after one more character of the mode string. -/
def nextOpenMode (openMode : UInt16) (m : Char) : UInt16 :=
  if m = 'r' then openmodeRead
  else if m = 'w' then openmodeWrite ||| openmodeWriteCreate ||| openmodeWriteTruncate
  else if m = 'a' then openmodeWrite ||| openmodeWriteCreate
  else if m = '+' then
    if openMode = openmodeRead then openmodeReadwrite
    else if openMode = openmodeWrite ||| openmodeWriteCreate ||| openmodeWriteTruncate then
      openmodeReadwrite ||| openmodeWriteCreate ||| openmodeWriteTruncate
    else if openMode = openmodeWrite ||| openmodeWriteCreate then
      openmodeReadwrite ||| openmodeWriteCreate
    else openMode
  else openMode

/-- `filehandler_open` of a mounted file system. -/
def filehandlerOpen (path : List UInt8) (mode : List Char) (c : Client ν) :
    Option ((Int × Option (FileHandlerTNFS × Opening)) × Client ν) :=
  let openMode := mode.foldl nextOpenMode 0
  if openMode = 0 then some ((-1, none), c)
  else openFile tx path openMode createpermOwner none c

end

/-- A file system and the handlers that live on it. -/
structure FileSystemTNFS (ν : Type) where
  client : Client ν
  handlers : Nat → Option FileHandlerTNFS := fun _ => none

/-- An operation of the program on one of its handlers. -/
inductive HandlerOp where
  | open_ (key : Nat) (path : List UInt8) (mode : List Char)
  | read (key : Nat) (buffer : List UInt8) (size count : Nat)
  | seek (key : Nat) (off whence : Int)
  | close (key : Nat)

/-- What an operation returns, and the files that it opened. -/
structure HandlerAnswer where
  result : Int
  openings : List Opening := []

section

variable {ν : Type} (tx : Transact ν) (fuel : Nat)

/-- Perform an operation. A handler is opened under a key that is not in use, and the
other operations are for handlers that live. -/
def HandlerOp.perform (op : HandlerOp) (fs : FileSystemTNFS ν) :
    Option (HandlerAnswer × FileSystemTNFS ν) := do
  match op with
  | .open_ key path mode =>
    match fs.handlers key with
    | some _ => none
    | none =>
      let ((result, opened), c) ← filehandlerOpen tx path mode fs.client
      match opened with
      | none => some (⟨result, []⟩, { fs with client := c })
      | some (handler, opening) =>
        some (⟨result, [opening]⟩, ⟨c, Function.update fs.handlers key (some handler)⟩)
  | .read key buffer size count =>
    let handler ← fs.handlers key
    let (answer, s) ← FileSystem.read tx fuel buffer size count ⟨handler, fs.client, []⟩
    some (⟨answer.returned, s.openings⟩,
      ⟨s.client, Function.update fs.handlers key (some s.handler)⟩)
  | .seek key off whence =>
    let handler ← fs.handlers key
    let ((result, _), s) ← FileSystem.seek tx off whence ⟨handler, fs.client, []⟩
    some (⟨result, s.openings⟩, ⟨s.client, Function.update fs.handlers key (some s.handler)⟩)
  | .close key =>
    let handler ← fs.handlers key
    let (result, c) ← FileSystem.close tx ⟨handler, fs.client, []⟩
    some (⟨result, []⟩, ⟨c, Function.update fs.handlers key none⟩)

end

end FujiNet.FileSystem
