import FujiNet.TNFSlib.File

/-!
# Directory operations

The operations of `tnfslib.cpp` on the directory that is open in a mount. A reply
to READDIRX holds several entries, which go into the directory cache; further reads
are answered from there. What the source stores through its pointers is returned,
as `none` where it stores nothing.
-/

namespace FujiNet.TNFS

/-- `TNFS_READDIRX_STATUS_EOF` is bit 0 of the status. -/
def readdirxStatusEof : UInt8 := 0x01

/-- `_readdirx_fill_response`: the caller's `tnfsStat` and the name, cut to the size of
the caller's buffer. `TNFS_READDIRX_DIR` is bit 0 of the flags, and the mode is not
touched. -/
def readdirxFillResponse (cached : DirCacheEntry) (filestat : Stat) (dirEntryLen : Nat) :
    Stat × List UInt8 :=
  ({ filestat with
      isDir := cached.flags &&& 0x01 ≠ 0
      filesize := cached.filesize
      mTime := cached.mTime
      cTime := cached.cTime
      aTime := 0 },
    strlcpy cached.entryname dirEntryLen)

/-- The entry at an offset of the payload of a READDIRX reply, and the length of its
name there. -/
def readdirxEntry (packet : Packet) (dirpos offset : Nat) : DirCacheEntry × Nat :=
  let name := packet.payload.drop (offset + 13)
  ({ dirpos := dirpos % 65536
     flags := packet.payloadByte offset
     filesize := packet.payloadU32 (offset + 1)
     mTime := packet.payloadU32 (offset + 5)
     cTime := packet.payloadU32 (offset + 9)
     entryname := strlcpy name maxFilelen },
    (name.takeWhile (· ≠ 0)).length)

/-- The loop that fills the directory cache, with `n` entries to come. Flags, size, times
and the NUL behind the name make 14 bytes. -/
def fillDircache (packet : Packet) : Nat → Nat → Nat → MountInfo → MountInfo
  | 0, _, _, m => m
  | n + 1, dirpos, offset, m =>
    let (entry, nameLen) := readdirxEntry packet dirpos offset
    match m.newDircacheEntry entry with
    | none => m
    | some m => fillDircache packet n (dirpos + 1) (offset + (14 + nameLen)) m

section

variable {ν : Type} (tx : Transact ν)

/-- `tnfs_opendirx`. -/
def tnfsOpendirx (directory : List UInt8) (sortopts diropts : UInt8) (pattern : List UInt8)
    (maxresults : UInt16) (c : Client ν) : Option (Int × Client ν) := do
  let m := c.mInfo.emptyDircache
  let header := [diropts, sortopts, lobyte maxresults.toNat, hibyte maxresults.toNat] ++
    strlcpy pattern (payloadSize - 4 - 1) ++ [0]
  let (pathlen, path) := adjustWithFullPath m directory (payloadSize - header.length)
  match ← tx (.request Cmd.opendirx (header ++ path ++ [0])) (header.length + pathlen + 1).toNat
      { c with mInfo := m } with
  | (none, c) => some (-1, c)
  | (some packet, c) =>
    if packet.payloadByte 0 = Result.success then
      some (code (packet.payloadByte 0), { c with
        mInfo.dirHandle := (packet.payloadByte 1).toNat
        mInfo.dirEntries := packet.payloadU16 2 })
    else some (code (packet.payloadByte 0), c)

/-- `tnfs_readdirx`. -/
def tnfsReaddirx (filestat : Stat) (dirEntryLen : Nat) (c : Client ν) :
    Option ((Int × Option (Stat × List UInt8)) × Client ν) := do
  match validAsUint8 c.mInfo.dirHandle with
  | none => some ((-1, none), c)
  | some h =>
    match c.mInfo.nextDircacheEntry with
    | some (cached, m) =>
      some ((0, some (readdirxFillResponse cached filestat dirEntryLen)), { c with mInfo := m })
    | none =>
      if c.mInfo.dirCacheEof then some ((code Result.endOfFile, none), c)
      else
        let c := { c with mInfo := c.mInfo.emptyDircache }
        match ← tx (.request Cmd.readdirx [h, UInt8.ofNat maxDircacheEntries]) 2 c with
        | (none, c) => some ((-1, none), c)
        | (some packet, c) =>
          if packet.payloadByte 0 = Result.success then
            let m := if packet.payloadByte 2 &&& readdirxStatusEof ≠ 0 then
              { c.mInfo with dirCacheEof := true } else c.mInfo
            let m := fillDircache packet (packet.payloadByte 1).toNat (packet.payloadU16 3) 5 m
            match m.nextDircacheEntry with
            | some (cached, m) =>
              some ((code Result.success, some (readdirxFillResponse cached filestat dirEntryLen)),
                { c with mInfo := m })
            | none => some ((code Result.success, none), { c with mInfo := m })
          else some ((code (packet.payloadByte 0), none), c)

/-- `tnfs_telldir`. The position is a `uint16_t`. -/
def tnfsTelldir (c : Client ν) : Option ((Int × Option Nat) × Client ν) := do
  match validAsUint8 c.mInfo.dirHandle with
  | none => some ((-1, none), c)
  | some h =>
    let cached := c.mInfo.tellDircacheEntry
    if cached > -1 then some ((0, some cached.toNat), c)
    else
      match ← tx (.request Cmd.telldir [h]) 1 c with
      | (none, c) => some ((-1, none), c)
      | (some packet, c) =>
        some ((code (packet.payloadByte 0),
          if packet.payloadByte 0 = Result.success then some (packet.payloadU32 1 % 65536)
          else none), c)

/-- `tnfs_seekdir`. -/
def tnfsSeekdir (position : Nat) (c : Client ν) : Option (Int × Client ν) := do
  match validAsUint8 c.mInfo.dirHandle with
  | none => some (-1, c)
  | some h =>
    match ← tx (.request Cmd.seekdir (h :: le32 position)) 5
        { c with mInfo := c.mInfo.emptyDircache } with
    | (none, c) => some (-1, c)
    | (some packet, c) => some (code (packet.payloadByte 0), c)

end

end FujiNet.TNFS
