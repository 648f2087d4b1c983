import Mathlib.Data.List.GetD
import FujiNet.Control.Loop
import FujiNet.Data.Bytes
import FujiNet.Sio.Bus

/-!
# The cassette

`sioCassette` plays a file to the computer, one block for each call of `sio_handle_cassette`. A file
that begins with `FUJI` is a sequence of chunks, any other file is sent as records of 128 bytes. The
offset of the next block is all that a call leaves for the next one, and 0 stops the tape.

The file is read exactly; its length is the `filesize` that it was mounted with. `fuel` bounds the
passes of the scan for the next data chunk.
-/

namespace FujiNet.Device

open FujiNet SIO

def CASSETTE_BAUDRATE : Nat := 600

def BLOCK_LEN : Nat := 128

inductive CassetteMode
  | playback | record
deriving DecidableEq, Repr

/-! ## The sector buffer -/

/-- `atari_sector_buffer`. -/
@[ext]
structure SectorBuffer where
  bytes : List UInt8
  length : bytes.length = 256

namespace SectorBuffer

variable (b : SectorBuffer)

/-- What was read, over the bytes at the front. -/
def load (data : List UInt8) : SectorBuffer where
  bytes := (data ++ b.bytes.drop data.length).take 256
  length := by
    rw [List.length_take, List.length_append, List.length_drop, b.length]
    omega

def set (i : Nat) (v : UInt8) : SectorBuffer := ⟨b.bytes.set i v, by rw [List.length_set, b.length]⟩

@[simp] theorem bytes_set (i : Nat) (v : UInt8) : (b.set i v).bytes = b.bytes.set i v := rfl

/-- The loop that shifts the front of the buffer three bytes right, the last byte first. -/
def shiftFrom : Nat → List UInt8 → List UInt8
  | 0, bytes => bytes
  | i + 1, bytes => shiftFrom i (bytes.set (i + 3) (bytes.getD i 0))

theorem length_shiftFrom (i : Nat) (bytes : List UInt8) :
    (shiftFrom i bytes).length = bytes.length := by
  induction i generalizing bytes with
  | zero => rfl
  | succ i ih => rw [shiftFrom, ih, List.length_set]

def shift : SectorBuffer := ⟨shiftFrom BLOCK_LEN b.bytes, by rw [length_shiftFrom, b.length]⟩

/-- `Clear_atari_sector_buffer`. -/
def clear (len : Nat) : SectorBuffer := b.load (List.replicate len 0)

/-- The members of `tape_FUJI_hdr`. -/
def chunkType : List UInt8 := b.bytes.take 4

def chunkLength : Nat := u16 (b.bytes.getD 4 0) (b.bytes.getD 5 0)

def irgLength : Nat := u16 (b.bytes.getD 6 0) (b.bytes.getD 7 0)

/-- A short read leaves what was behind it. -/
theorem bytes_load {data : List UInt8} (fits : data.length ≤ 256) :
    (b.load data).bytes = data ++ b.bytes.drop data.length := by
  refine List.take_of_length_le ?_
  rw [List.length_append, List.length_drop, b.length]
  omega

theorem take_load {data : List UInt8} (fits : data.length ≤ 256) :
    (b.load data).bytes.take data.length = data := by
  rw [b.bytes_load fits, List.take_left]

end SectorBuffer

/-! ## The port -/

/-- The speed of the port, and what was written to it, each time at which speed. -/
structure TapePort where
  baudrate : Nat
  sent : List (Nat × List UInt8) := []
deriving DecidableEq, Repr

def TapePort.write (bytes : List UInt8) (p : TapePort) : TapePort :=
  { p with sent := p.sent ++ [(p.baudrate, bytes)] }

def TapePort.setBaudrate (baud : Nat) (p : TapePort) : TapePort := { p with baudrate := baud }

/-! ## The device -/

/-- `sioCassette`, with the content of the file that is mounted. -/
structure SioCassette where
  file : List UInt8
  cassetteActive : Bool := false
  pulldown : Bool := true
  cassetteMode : CassetteMode := .playback
  tapeOffset : Nat := 0
  fuji : Bool := false
  turbo : Bool := false
  buffer : SectorBuffer
  port : TapePort

def DATA : List UInt8 := [0x64, 0x61, 0x74, 0x61]

def BAUD : List UInt8 := [0x62, 0x61, 0x75, 0x64]

def FUJI : List UInt8 := [0x46, 0x55, 0x4A, 0x49]

namespace SioCassette

/-- `sio_disable_cassette`, in playback mode. -/
def disable (c : SioCassette) : SioCassette :=
  if c.cassetteActive then
    { c with cassetteActive := false, port := c.port.setBaudrate SIO_STANDARD_BAUDRATE }
  else c

/-- A header, read into the buffer. -/
def readHeader (offset : Nat) (c : SioCassette) : SioCassette :=
  { c with buffer := c.buffer.load (slice c.file offset 8) }

/-- `check_for_FUJI_file`. -/
def checkForFujiFile (c : SioCassette) : SioCassette :=
  let c := c.readHeader 0
  { c with fuji := c.buffer.chunkType = FUJI }

/-- `mount_cassette_file`. -/
def mountCassetteFile (file : List UInt8) (c : SioCassette) : SioCassette :=
  let c := { c with file := file, tapeOffset := 0 }
  match c.cassetteMode with
  | .playback => c.checkForFujiFile
  | .record => c

/-- `send_tape_block`: the next offset. -/
def sendTapeBlock (offset : Nat) (c : SioCassette) : Nat × SioCassette :=
  let data := slice c.file offset BLOCK_LEN
  let (next, buffer) :=
    if offset < c.file.length then
      let buffer := (c.buffer.load data).shift
      (offset + data.length,
        if data.length < BLOCK_LEN then (buffer.set 2 0xFA).set 130 (UInt8.ofNat data.length)
        else buffer.set 2 0xFC)
    else (0, (c.buffer.clear (BLOCK_LEN + 3)).set 2 0xFE)
  let buffer := (buffer.set 0 0x55).set 1 0x55
  let record := buffer.bytes.take (BLOCK_LEN + 3)
  (next, { c with
    buffer := buffer, port := (c.port.write record).write [sioChecksum record] })

/-- One pass of the scan for a data chunk. With the turbo flag, a baud chunk is met again. -/
def scanPass : Nat × SioCassette → Option ((Nat × SioCassette) ⊕ (Nat × SioCassette))
  | (offset, c) =>
    if offset < c.file.length then
      let c := c.readHeader offset
      let next := offset + 8 + c.buffer.chunkLength
      if c.buffer.chunkType = DATA then some (.inr (offset, c))
      else if c.buffer.chunkType = BAUD then
        if c.turbo then some (.inl (offset, c))
        else some (.inl (next, { c with port := c.port.setBaudrate c.buffer.irgLength }))
      else some (.inl (next, c))
    else some (.inr (offset, c))

/-- The gap before a block is cut short, in its time, when the motor stops. `motor` is asked with the
time that is left. -/
def gapAborts (motor : Nat → Bool) (pulldown : Bool) : Nat → Bool
  | 0 => false
  | gap + 1 =>
    if pulldown = true ∧ motor gap = false ∧ gap > 1000 then true
    else gapAborts motor pulldown gap

/-- The payload of a data chunk, in slices of 256 bytes at most. A short read is filled up with what
is in the buffer. -/
def sendData (len offset : Nat) (c : SioCassette) : Nat × SioCassette :=
  if 0 < len then
    let buflen := min len 256
    let data := slice c.file offset buflen
    let buffer := c.buffer.load data
    sendData (len - buflen) (offset + data.length)
      { c with buffer := buffer, port := c.port.write (buffer.bytes.take buflen) }
  else (offset, c)
termination_by len

/-- `send_FUJI_tape_block`: the next offset. -/
def sendFujiTapeBlock (fuel : Nat) (motor : Nat → Bool) (startingOffset : Nat) (c : SioCassette) :
    Option (Nat × SioCassette) :=
  (Loop.run scanPass fuel (startingOffset, c)).map fun (offset, c) =>
    if gapAborts motor c.pulldown c.buffer.irgLength then (startingOffset, c)
    else if offset < c.file.length then sendData c.buffer.chunkLength (offset + 8) c
    else (0, c)

/-- The offset of the next block; at the start, or if it is not active, the tape is turned off. -/
def continueAt (offset : Nat) (c : SioCassette) : SioCassette :=
  let c := { c with tapeOffset := offset }
  if offset = 0 ∨ c.cassetteActive = false then c.disable else c

theorem continueAt_of_active {offset : Nat} {c : SioCassette} (moves : offset ≠ 0)
    (active : c.cassetteActive = true) : c.continueAt offset = { c with tapeOffset := offset } := by
  rw [continueAt]
  exact if_neg (by simp [moves, active])

theorem continueAt_zero {c : SioCassette} (active : c.cassetteActive = true) :
    c.continueAt 0 = { c with
      tapeOffset := 0, cassetteActive := false, port := c.port.setBaudrate SIO_STANDARD_BAUDRATE } := by
  rw [continueAt]
  exact (if_pos (.inl rfl)).trans (if_pos active)

/-- `sio_handle_cassette`. Recording is not implemented. -/
def handleCassette (fuel : Nat) (motor : Nat → Bool) (c : SioCassette) : Option SioCassette :=
  match c.cassetteMode with
  | .playback =>
    let sent := if c.fuji then c.sendFujiTapeBlock fuel motor c.tapeOffset
      else some (c.sendTapeBlock c.tapeOffset)
    sent.map fun (offset, c) => c.continueAt offset
  | .record => some c

/-- A call returns. -/
def Returns (motor : Nat → Bool) (c c' : SioCassette) : Prop :=
  ∃ fuel, c.handleCassette fuel motor = some c'

/-- So many calls return, one after the other. -/
def Plays (motor : Nat → Bool) : Nat → SioCassette → SioCassette → Prop
  | 0, c, c' => c' = c
  | n + 1, c, c' => ∃ d, c.Returns motor d ∧ Plays motor n d c'

/-- So many calls are made for an active tape, and the last one stops it. -/
def RunsOut (motor : Nat → Bool) : Nat → SioCassette → SioCassette → Prop
  | 0, c, c' => c' = c ∧ c.cassetteActive = false
  | n + 1, c, c' => c.cassetteActive = true ∧ ∃ d, c.Returns motor d ∧ RunsOut motor n d c'

end SioCassette

end FujiNet.Device
