import FujiNet.Data.Bytes

/-!
# TNFS packets

A packet is the buffer of 532 bytes that a transaction sends from and receives
into: two bytes of session id, a sequence number, a command and 528 bytes of
payload. The same buffer is used for the request and for every datagram that
comes in, so a short datagram leaves the bytes behind its end as they were.

A caller sets the command and the first bytes of the payload; the rest of the
buffer is not initialised by the source and zero in the model.
-/

namespace FujiNet.TNFS

/-- `TNFS_PAYLOAD_SIZE`. -/
def payloadSize : Nat := 528
/-- `TNFS_MAX_READWRITE_PAYLOAD`. -/
def maxReadwritePayload : Nat := payloadSize - 3

/-! ## Command and result codes -/

namespace Cmd

def mount : UInt8 := 0x00
def unmount : UInt8 := 0x01
def opendir : UInt8 := 0x10
def mkdir : UInt8 := 0x13
def rmdir : UInt8 := 0x14
def telldir : UInt8 := 0x15
def seekdir : UInt8 := 0x16
def opendirx : UInt8 := 0x17
def readdirx : UInt8 := 0x18
def read : UInt8 := 0x21
def write : UInt8 := 0x22
def close : UInt8 := 0x23
def stat : UInt8 := 0x24
def lseek : UInt8 := 0x25
def unlink : UInt8 := 0x26
def chmod : UInt8 := 0x27
def rename : UInt8 := 0x28
def open_ : UInt8 := 0x29
def size : UInt8 := 0x30
def free : UInt8 := 0x31

end Cmd

namespace Result

def success : UInt8 := 0x00
def fileNotFound : UInt8 := 0x02
def badFilenum : UInt8 := 0x06
def tryAgain : UInt8 := 0x07
def notADirectory : UInt8 := 0x0C
def invalidArgument : UInt8 := 0x0E
def tooManyFilesOpen : UInt8 := 0x10
def fileTooLarge : UInt8 := 0x11
def functionUnimplemented : UInt8 := 0x16
def badFileDescriptor : UInt8 := 0x1C
def endOfFile : UInt8 := 0x21
def invalidHandle : UInt8 := 0xFF

end Result

/-- `tnfsPacket`. -/
structure Packet where
  rawData : List UInt8
  length_rawData : rawData.length = 532
  deriving DecidableEq, Repr

namespace Packet

@[ext] theorem ext {p q : Packet} (h : p.rawData = q.rawData) : p = q := by
  cases p
  cases q
  simpa using h

/-- A packet with a command and the first bytes of its payload set. -/
def request (command : UInt8) (payload : List UInt8) : Packet where
  rawData := [0, 0, 0, command] ++ payload.take 528 ++ List.replicate (528 - payload.length) 0
  length_rawData := by
    simp only [List.length_append, List.length_cons, List.length_nil, List.length_take,
      List.length_replicate]
    omega

/-- The byte at an index of the buffer. -/
def byte (p : Packet) (i : Nat) : UInt8 := p.rawData.getD i 0

def sequenceNum (p : Packet) : UInt8 := p.byte 2
def command (p : Packet) : UInt8 := p.byte 3
def payload (p : Packet) : List UInt8 := p.rawData.drop 4
def payloadByte (p : Packet) (i : Nat) : UInt8 := p.payload.getD i 0

/-- Session id as the two header bytes give it. -/
def session (p : Packet) : Nat := u16 (p.byte 0) (p.byte 1)

def set (p : Packet) (i : Nat) (b : UInt8) : Packet :=
  ⟨p.rawData.set i b, by rw [List.length_set, p.length_rawData]⟩

/-- Set both bytes of the session id. -/
def setSession (p : Packet) (session : Nat) : Packet :=
  (p.set 0 (lobyte session)).set 1 (hibyte session)

/-- Set the first byte of the payload. -/
def setPayload0 (p : Packet) (b : UInt8) : Packet := p.set 4 b

/-- The datagram sent for a request with `payloadSize` bytes of payload. -/
def datagram (p : Packet) (size : Nat) : List UInt8 := p.rawData.take (4 + size)

/-- `udp.read(pkt.rawData, sizeof(pkt.rawData))`: at most 532 bytes are copied and
the bytes behind a shorter datagram stay. -/
def read (p : Packet) (d : List UInt8) : Packet where
  rawData := d.take 532 ++ p.rawData.drop d.length
  length_rawData := by
    have h := p.length_rawData
    simp only [List.length_append, List.length_take, List.length_drop]
    omega

/-! ## Reading the buffer -/

theorem byte_set (p : Packet) (i j : Nat) (b : UInt8) (h : i < 532) :
    (p.set i b).byte j = if i = j then b else p.byte j := by
  have hlen := p.length_rawData
  simp only [byte, set, List.getD_eq_getElem?_getD, List.getElem?_set]
  split
  · subst_vars
    simp [hlen, h]
  · rfl

theorem byte_setSession (p : Packet) (session j : Nat) : (p.setSession session).byte j =
    if j = 0 then lobyte session else if j = 1 then hibyte session else p.byte j := by
  simp only [setSession, byte_set _ _ _ _ (show 1 < 532 by omega),
    byte_set _ _ _ _ (show 0 < 532 by omega), eq_comm (b := j)]
  by_cases h : j = 1
  · subst h
    rfl
  · simp only [if_neg h]

theorem byte_setPayload0 (p : Packet) (b : UInt8) (j : Nat) :
    (p.setPayload0 b).byte j = if j = 4 then b else p.byte j := by
  rw [setPayload0, byte_set _ _ _ _ (by omega)]
  simp only [eq_comm]

theorem byte_read (p : Packet) (d : List UInt8) (j : Nat) (h : j < 532) :
    (p.read d).byte j = (d[j]?).getD (p.byte j) := by
  simp only [byte, read, List.getD_eq_getElem?_getD, List.getElem?_append, List.length_take,
    List.getElem?_take, List.getElem?_drop]
  by_cases hj : j < d.length
  · rw [if_pos (by omega), if_pos h, List.getElem?_eq_getElem hj]
    rfl
  · have past : d[j]? = none := by simpa using hj
    rw [if_neg (by omega), past, Option.getD_none, Nat.min_eq_right (by omega)]
    congr 2
    omega

theorem payloadByte_eq_byte (p : Packet) (i : Nat) : p.payloadByte i = p.byte (4 + i) := by
  simp [payloadByte, byte, payload, List.getD_eq_getElem?_getD]

/-- Two packets send the same datagram if they agree on the bytes that are sent. -/
theorem datagram_eq_iff {p q : Packet} {size : Nat} : p.datagram size = q.datagram size ↔
    ∀ j < 4 + size, j < 532 → p.byte j = q.byte j := by
  have hp := p.length_rawData
  have hq := q.length_rawData
  simp only [datagram, byte, List.getD_eq_getElem?_getD]
  constructor
  · intro same j hj _
    have at_j := congrArg (·[j]?) same
    simp only [List.getElem?_take, if_pos hj] at at_j
    rw [at_j]
  · intro same
    refine List.ext_getElem (by simp [hp, hq]) fun j hj hj' => ?_
    rw [List.length_take, hp] at hj
    have at_j := same j (by omega) (by omega)
    rw [List.getElem?_eq_getElem (by omega), List.getElem?_eq_getElem (by omega)] at at_j
    simpa using at_j

end Packet

end FujiNet.TNFS
