import FujiNet.Data.Bytes

/-!
# The SIO bus

A device answers a command frame with protocol bytes and data frames. `Bus` has
what the functions of `virtualDevice` read and change: the mode of the port, the
speed of the bus and, as a record for the proofs, everything that was sent.

A data frame from the computer is the bytes that arrived before the read ended,
at most the length asked for, and the checksum byte after them. What did not
arrive keeps its old value in the buffer.
-/

namespace FujiNet.SIO

def SIO_STANDARD_BAUDRATE : Nat := 19200

/-- What a device sends. A late acknowledge is sent when the hub asks for data. -/
inductive BusEvent
  | ack (late : Bool)
  | nak
  | complete
  | error
  | frame (bytes : List UInt8) (checksum : UInt8)
deriving DecidableEq, Repr

/-- The protocol bytes. -/
inductive Reply
  | ack | nak | complete | error
deriving DecidableEq, Repr

def BusEvent.reply : BusEvent → Option Reply
  | .ack _ => some .ack
  | .nak => some .nak
  | .complete => some .complete
  | .error => some .error
  | .frame _ _ => none

/-- The loop of `sio_checksum`, with the carry added back. -/
def sumWithCarry : Nat → List UInt8 → Nat
  | chk, [] => chk
  | chk, b :: rest => sumWithCarry ((chk + b.toNat) / 256 + (chk + b.toNat) % 256) rest

/-- `sio_checksum`. -/
def sioChecksum (buf : List UInt8) : UInt8 := UInt8.ofNat (sumWithCarry 0 buf)

/-- The mode and the speed of the bus. -/
structure Bus where
  netsio : Bool := false
  commandProcessed : Bool := false
  sioBaud : Nat := SIO_STANDARD_BAUDRATE
  sioBaudHigh : Nat
  sioBaudUltraHigh : Nat
  useUltraHigh : Bool := false
  highSpeedIndex : Option UInt8
  sent : List BusEvent := []

/-- A data frame from the computer. -/
structure DataFrame where
  bytes : List UInt8
  checksum : UInt8

namespace Bus

def send (event : BusEvent) (bus : Bus) : Bus := { bus with sent := bus.sent ++ [event] }

def setCommandProcessed (bus : Bus) : Bus := { bus with commandProcessed := true }

/-- `virtualDevice::sio_nak`. -/
def sioNak (bus : Bus) : Bus := (bus.send .nak).setCommandProcessed

/-- `virtualDevice::sio_ack`. -/
def sioAck (bus : Bus) : Bus := (bus.send (.ack false)).setCommandProcessed

/-- `virtualDevice::sio_late_ack`. -/
def sioLateAck (bus : Bus) : Bus :=
  if bus.netsio then (bus.send (.ack true)).setCommandProcessed else bus.sioAck

/-- `virtualDevice::sio_complete`. -/
def sioComplete (bus : Bus) : Bus := bus.send .complete

/-- `virtualDevice::sio_error`. -/
def sioError (bus : Bus) : Bus := bus.send .error

/-- `virtualDevice::bus_to_computer`. -/
def busToComputer (buf : List UInt8) (err : Bool) (bus : Bus) : Bus :=
  let bus := if err then bus.sioError else bus.sioComplete
  bus.send (.frame buf (sioChecksum buf))

/-- The buffer after a data frame of `len` bytes was read into it. -/
def receive (frame : DataFrame) (buf : List UInt8) (len : Nat) : List UInt8 :=
  overlay buf 0 (frame.bytes.take len)

/-- `virtualDevice::bus_to_peripheral`: the buffer and the checksum that was received.
The checksum is tested here, and the callers have to test it again. -/
def busToPeripheral (frame : DataFrame) (buf : List UInt8) (len : Nat) (bus : Bus) :
    (List UInt8 × UInt8) × Bus :=
  let buf := receive frame buf len
  let bus := if frame.checksum ≠ sioChecksum (buf.take len) then bus.sioNak else bus.sioAck
  ((buf, frame.checksum), bus)

/-- `virtualDevice::sio_high_speed`; there is no index when high speed is disabled. -/
def sioHighSpeed (bus : Bus) : Bus := bus.busToComputer [bus.highSpeedIndex.getD 40] false

/-- `systemBus::toggleBaudrate`. -/
def toggleBaudrate (bus : Bus) : Bus :=
  let high := if bus.useUltraHigh then bus.sioBaudUltraHigh else bus.sioBaudHigh
  { bus with
    sioBaud := if bus.sioBaud = SIO_STANDARD_BAUDRATE then high else SIO_STANDARD_BAUDRATE }

/-- The protocol bytes among what was sent. -/
def replies (bus : Bus) : List Reply := bus.sent.filterMap BusEvent.reply

section Replies

variable (bus : Bus)

@[simp] theorem replies_send (event : BusEvent) :
    (bus.send event).replies = bus.replies ++ event.reply.toList := by
  cases event <;> simp [replies, send, BusEvent.reply]

@[simp] theorem replies_sioNak : bus.sioNak.replies = bus.replies ++ [.nak] :=
  bus.replies_send .nak

@[simp] theorem replies_sioAck : bus.sioAck.replies = bus.replies ++ [.ack] :=
  bus.replies_send (.ack false)

@[simp] theorem replies_sioLateAck : bus.sioLateAck.replies = bus.replies ++ [.ack] := by
  unfold sioLateAck
  split
  · exact bus.replies_send (.ack true)
  · exact bus.replies_sioAck

@[simp] theorem replies_sioComplete : bus.sioComplete.replies = bus.replies ++ [.complete] :=
  bus.replies_send .complete

@[simp] theorem replies_sioError : bus.sioError.replies = bus.replies ++ [.error] :=
  bus.replies_send .error

@[simp] theorem replies_busToComputer (buf : List UInt8) (err : Bool) :
    (bus.busToComputer buf err).replies =
      bus.replies ++ [if err then .error else .complete] := by
  cases err <;> simp [busToComputer, BusEvent.reply]

@[simp] theorem replies_busToPeripheral (frame : DataFrame) (buf : List UInt8) (len : Nat) :
    (bus.busToPeripheral frame buf len).2.replies = bus.replies ++
      [if frame.checksum ≠ sioChecksum ((receive frame buf len).take len) then .nak else .ack] := by
  simp only [busToPeripheral]
  split
  · exact bus.replies_sioNak
  · exact bus.replies_sioAck

@[simp] theorem replies_toggleBaudrate : bus.toggleBaudrate.replies = bus.replies := rfl

end Replies

end Bus

end FujiNet.SIO
