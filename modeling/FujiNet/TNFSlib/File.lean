import FujiNet.TNFSlib.Transaction

/-!
# File operations

The operations of `tnfslib.cpp` on open files, over an arbitrary transaction
function. An operation returns its result code, what it stores through its other
pointers, and the client; `none` means that it does not return within its budget,
or that the source would read or write outside an object.

A `tnfsFileHandleInfo *` is an index of the table. The internal functions take the
record itself and return it changed, which makes no difference because a
transaction neither reads nor writes the table.
-/

namespace FujiNet.TNFS

/-- Values of `uint32_t`. -/
abbrev word : Nat := 4294967296

/-- Conversion of an `int32_t` to `uint32_t`. -/
def toUint32 (n : Int) : Nat := (n % word).toNat

def seekSet : UInt8 := 0
def seekCur : UInt8 := 1
def seekEnd : UInt8 := 2

/-- `TNFS_VALID_AS_UINT8`, with the byte. -/
def validAsUint8 (value : Int) : Option UInt8 :=
  if 0 ≤ value ∧ value ≤ 255 then some (UInt8.ofNat value.toNat) else none

def openmodeRead : UInt16 := 0x0001
def openmodeWrite : UInt16 := 0x0002
def openmodeWriteAppend : UInt16 := 0x0008
def openmodeWriteTruncate : UInt16 := 0x0200

/-- `_tnfs_adjust_with_full_path` into `bufflen` bytes: the length it returns and
the string it leaves in the buffer. -/
def adjustWithFullPath (m : MountInfo) (source : List UInt8) (bufflen : Nat) :
    Int × List UInt8 :=
  let buffer := strlcpy m.currentWorkingDirectory bufflen
  if buffer.length < 1 ∨ buffer.length > bufflen - 2 then (-1, buffer)
  else
    let dirSlash := buffer.getLast? = some 0x2F
    let needsSlash := source.head? ≠ some 0x2F
    let buffer :=
      if needsSlash ∧ ¬ dirSlash then buffer ++ [0x2F]
      else if ¬ needsSlash ∧ dirSlash then buffer.dropLast
      else buffer
    let buffer := buffer ++ strlcpy source (bufflen - buffer.length)
    (buffer.length, buffer)

/-- `tnfsStat`. -/
structure Stat where
  isDir : Bool
  filesize : Nat
  aTime : Nat
  mTime : Nat
  cTime : Nat
  mode : Nat
  deriving DecidableEq, Repr

/-- A 32-bit value at an offset of the payload. -/
def Packet.payloadU32 (p : Packet) (i : Nat) : Nat :=
  u32 (p.payloadByte i) (p.payloadByte (i + 1)) (p.payloadByte (i + 2)) (p.payloadByte (i + 3))

/-- A 16-bit value at an offset of the payload. -/
def Packet.payloadU16 (p : Packet) (i : Nat) : Nat :=
  u16 (p.payloadByte i) (p.payloadByte (i + 1))

section

variable {ν : Type} (tx : Transact ν)

/-! ## Opening and closing -/

/-- `tnfs_stat`. The file type `S_IFDIR` is bit 14 of the mode. -/
def tnfsStat (filepath : List UInt8) (c : Client ν) : Option ((Int × Option Stat) × Client ν) := do
  let (len, path) := adjustWithFullPath c.mInfo filepath payloadSize
  match ← tx (.request Cmd.stat (path ++ [0])) (len + 1).toNat c with
  | (none, c) => some ((-1, none), c)
  | (some packet, c) =>
    let stat : Stat :=
      { mode := packet.payloadU16 1
        isDir := (packet.payloadU16 1).testBit 14
        filesize := packet.payloadU32 7
        aTime := packet.payloadU32 11
        mTime := packet.payloadU32 15
        cTime := packet.payloadU32 19 }
    some ((code (packet.payloadByte 0),
      if packet.payloadByte 0 = Result.success then some stat else none), c)

/-- What `tnfs_open` stores about a file once the server has opened it. -/
def FileHandleInfo.opened (f : FileHandleInfo) (handleId : UInt8) (openMode : UInt16)
    (fileExists : Bool) : FileHandleInfo :=
  let f := { f with handleId, filePosition := 0, cachedPos := 0 }
  if fileExists ∧ openMode &&& openmodeWrite ≠ 0 then
    if openMode &&& openmodeWriteAppend ≠ 0 then
      { f with filePosition := f.fileSize, cachedPos := f.fileSize }
    else if openMode &&& openmodeWriteTruncate ≠ 0 then { f with fileSize := 0 }
    else f
  else f

/-- `tnfs_open`: the result and the file handle, -1 unless the file was opened. -/
def tnfsOpen (filepath : List UInt8) (openMode createPerms : UInt16) (c : Client ν) :
    Option ((Int × Int) × Client ν) := do
  match c.mInfo.newFilehandleinfo with
  | none => some ((code Result.tooManyFilesOpen, -1), c)
  | some (i, m) =>
    let ((rs, stat), c) ← tnfsStat tx filepath { c with mInfo := m }
    if rs ≠ code Result.success ∧ rs ≠ code Result.fileNotFound then
      some ((rs, -1), { c with mInfo := c.mInfo.deleteFilehandleinfo i })
    else
      let (len, path) := adjustWithFullPath c.mInfo filepath (payloadSize - 4)
      let f ← c.mInfo.fileHandles i
      let f := { f with
        fileSize := (stat.map Stat.filesize).getD f.fileSize
        filename := strlcpy path maxFilelen }
      let payload := [lobyte openMode.toNat, hibyte openMode.toNat,
        lobyte createPerms.toNat, hibyte createPerms.toNat] ++ path ++ [0]
      let (reply, c) ← tx (.request Cmd.open_ payload) (len + 4 + 1).toNat c
      match reply with
      | none => some ((-1, -1), { c with mInfo := c.mInfo.deleteFilehandleinfo i })
      | some packet =>
        if packet.payloadByte 0 = Result.success then
          let f := f.opened (packet.payloadByte 1) openMode stat.isSome
          some ((code Result.success, f.handleId.toNat), { c with mInfo := c.mInfo.setFile i f })
        else
          some ((code (packet.payloadByte 0), -1),
            { c with mInfo := c.mInfo.deleteFilehandleinfo i })

/-- `tnfs_close`. -/
def tnfsClose (fileHandle : Int) (c : Client ν) : Option (Int × Client ν) := do
  match validAsUint8 fileHandle with
  | none => some (-1, c)
  | some h =>
    match c.mInfo.getFilehandleinfo h with
    | none => some (code Result.badFileDescriptor, c)
    | some i =>
      match ← tx (.request Cmd.close [h]) 1 c with
      | (none, c) => some (-1, c)
      | (some packet, c) =>
        some (code (packet.payloadByte 0), { c with mInfo := c.mInfo.deleteFilehandleinfo i })

/-! ## Reading -/

/-- One past the last cached byte. -/
def FileHandleInfo.cacheEnd (f : FileHandleInfo) : Nat := (f.cacheStart + f.cacheAvailable) % word

/-- `_tnfs_read_from_cache`, with room for `destFree` more bytes at the destination:
the result, the bytes provided and the file. -/
def readFromCache (f : FileHandleInfo) (destFree : Nat) :
    Int × List UInt8 × FileHandleInfo :=
  if f.cachedPos ≥ f.fileSize then (code Result.endOfFile, [], f)
  else if f.cacheAvailable = 0 then (-1, [], f)
  else
    let provided :=
      if f.cachedPos ≥ f.cacheStart ∧ f.cachedPos < f.cacheEnd then
        min destFree (f.cacheEnd - f.cachedPos)
      else 0
    let bytes := slice f.cache (f.cachedPos - f.cacheStart) provided
    (if destFree - provided ≠ 0 then -1 else 0, bytes,
      { f with cachedPos := (f.cachedPos + provided) % word })

/-- The loop of `_tnfs_fill_cache` at its head. -/
structure Filling (ν : Type) where
  client : Client ν
  file : FileHandleInfo
  remaining : Nat

/-- One pass of the loop of `_tnfs_fill_cache`; it leaves with the error. More bytes
than asked for would be copied past the end of the cache. -/
def fillPass (s : Filling ν) : Option (Filling ν ⊕ (Int × Filling ν)) :=
  if s.remaining = 0 then some (.inr (0, s))
  else
    let bytesToRead := min s.remaining maxReadwritePayload
    (tx (.request Cmd.read [s.file.handleId, lobyte bytesToRead, hibyte bytesToRead]) 3
      s.client).bind fun (reply, c) =>
    match reply with
    | none => some (.inr (-1, { s with client := c }))
    | some packet =>
      if packet.payloadByte 0 = Result.success then
        let bytesRead := packet.payloadU16 1
        if bytesRead > s.remaining then none
        else
          some (.inl
            { client := c
              file := { s.file with
                cache := overlay s.file.cache (fileCacheSize - s.remaining)
                  (slice packet.payload 3 bytesRead)
                filePosition := (s.file.filePosition + bytesRead) % word }
              remaining := s.remaining - bytesRead })
      else some (.inr (code (packet.payloadByte 0), { s with client := c }))

/-- `_tnfs_fill_cache`. -/
def fillCache (fuel : Nat) (f : FileHandleInfo) (c : Client ν) :
    Option (Int × FileHandleInfo × Client ν) := do
  let f := { f with cacheAvailable := 0, cacheStart := f.filePosition }
  let (error, s) ← Loop.run (fillPass tx) fuel ⟨c, f, fileCacheSize⟩
  if error = 0 ∨ error = code Result.endOfFile then
    let f := { s.file with cacheAvailable := fileCacheSize - s.remaining }
    some (if f.cacheAvailable > 0 then 0 else error, f, s.client)
  else some (error, s.file, s.client)

/-- The loop of `tnfs_read` at its head: the bytes delivered so far. -/
structure Reading (ν : Type) where
  client : Client ν
  file : FileHandleInfo
  data : List UInt8

/-- One pass of the loop of `tnfs_read`. -/
def readPass (fuel bufflen : Nat) (s : Reading ν) : Option (Reading ν ⊕ (Int × Reading ν)) :=
  let (result, bytes, f) := readFromCache s.file (bufflen - s.data.length)
  let s := { s with file := f, data := s.data ++ bytes }
  if result = 0 ∨ result = code Result.endOfFile then some (.inr (result, s))
  else
    (fillCache tx fuel s.file s.client).bind fun (result, f, c) =>
    let s := { s with client := c, file := f }
    if result ≠ 0 then some (.inr (result, s)) else some (.inl s)

/-- `tnfs_read`: the result and the bytes placed in the buffer. -/
def tnfsRead (fuel : Nat) (fileHandle : Int) (bufflen : Nat) (c : Client ν) :
    Option ((Int × List UInt8) × Client ν) := do
  match validAsUint8 fileHandle with
  | none => some ((-1, []), c)
  | some h =>
    if bufflen > payloadSize - 3 then some ((-1, []), c)
    else
      match c.mInfo.getFilehandleinfo h with
      | none => some ((code Result.badFileDescriptor, []), c)
      | some i =>
        let f ← c.mInfo.fileHandles i
        let (result, s) ← Loop.run (readPass tx fuel bufflen) fuel ⟨c, f, []⟩
        some ((result, s.data), { s.client with mInfo := s.client.mInfo.setFile i s.file })

/-! ## Seeking and writing -/

/-- The position a seek leads to, as the client computes it. -/
def FileHandleInfo.destination (f : FileHandleInfo) (current : Nat) (position : Int)
    (type : UInt8) : Nat :=
  if type = seekSet then toUint32 position
  else if type = seekCur then toUint32 (current + position)
  else toUint32 (f.fileSize + position)

/-- `_tnfs_cache_seek`: the file moved within its cached region, if it can be. -/
def cacheSeek (f : FileHandleInfo) (position : Int) (type : UInt8) : Option FileHandleInfo :=
  if f.cacheAvailable = 0 then none
  else
    let destination := f.destination f.cachedPos position type
    if destination ≥ f.cacheStart ∧ destination < f.cacheEnd then
      some { f with cachedPos := destination }
    else none

/-- `tnfs_lseek`: the result and the new position, if one is stored. -/
def tnfsLseek (fileHandle position : Int) (type : UInt8) (skipCache : Bool) (c : Client ν) :
    Option ((Int × Option Nat) × Client ν) := do
  match validAsUint8 fileHandle with
  | none => some ((-1, none), c)
  | some h =>
    if type ≠ seekSet ∧ type ≠ seekCur ∧ type ≠ seekEnd then
      some ((code Result.invalidArgument, none), c)
    else
      match c.mInfo.getFilehandleinfo h with
      | none => some ((code Result.badFileDescriptor, none), c)
      | some i =>
        let f ← c.mInfo.fileHandles i
        match if skipCache then none else cacheSeek f position type with
        | some f => some ((0, some f.cachedPos), { c with mInfo := c.mInfo.setFile i f })
        | none =>
          let f := { f with cacheAvailable := 0 }
          let payload := [h, type] ++ le32 (toUint32 position)
          let (reply, c) ← tx (.request Cmd.lseek payload) 6 c
          match reply with
          | none => some ((-1, none), { c with mInfo := c.mInfo.setFile i f })
          | some packet =>
            if packet.payloadByte 0 = Result.success then
              let destination := f.destination f.filePosition position type
              let f := { f with filePosition := destination, cachedPos := destination }
              some ((code Result.success, some destination),
                { c with mInfo := c.mInfo.setFile i f })
            else
              some ((code (packet.payloadByte 0), none), { c with mInfo := c.mInfo.setFile i f })

/-- `tnfs_write` of the bytes of `buffer`: the result and the number of bytes written. -/
def tnfsWrite (fileHandle : Int) (buffer : List UInt8) (c : Client ν) :
    Option ((Int × Nat) × Client ν) := do
  match validAsUint8 fileHandle with
  | none => some ((-1, 0), c)
  | some h =>
    if buffer.length > payloadSize - 3 then some ((-1, 0), c)
    else
      match c.mInfo.getFilehandleinfo h with
      | none => some ((code Result.badFileDescriptor, 0), c)
      | some i =>
        let f ← c.mInfo.fileHandles i
        let f := { f with cacheAvailable := 0 }
        let c := { c with mInfo := c.mInfo.setFile i f }
        -- the server stands at `file_position`, the client at `cached_pos`
        let ((seek, _), c) ← (if f.cachedPos = f.filePosition then some ((0, none), c)
          else tnfsLseek tx fileHandle f.cachedPos seekSet true c)
        if seek ≠ 0 then some ((seek, 0), c)
        else
          let payload := [h, lobyte buffer.length, hibyte buffer.length] ++ buffer
          let (reply, c) ← tx (.request Cmd.write payload) (buffer.length + 3) c
          match reply with
          | none => some ((-1, 0), c)
          | some packet =>
            if packet.payloadByte 0 = Result.success then
              let f ← c.mInfo.fileHandles i
              let newPos := (f.filePosition + packet.payloadU16 1) % word
              let f := { f with filePosition := newPos, cachedPos := newPos }
              some ((code Result.success, packet.payloadU16 1),
                { c with mInfo := c.mInfo.setFile i f })
            else some ((code (packet.payloadByte 0), 0), c)

end

end FujiNet.TNFS
