import FujiNet.Control.Loop
import FujiNet.Data.Bytes

/-!
# The NetSIO port

`NetSioPort`: the serial bus as datagrams between the device and a hub. All that happens
outside is a list of polls, one for each call of `handle_netsio`; an operation that waits
for more of them than there are does not return. The pings that find out about the hub are
part of the outcome of a poll.

`wire` is kept for the proofs: the messages that were processed, the datagrams that were
sent, and what was left of the credit each time a message was charged for.
-/

namespace FujiNet.NetSIO

def NETSIO_DATA_BYTE : UInt8 := 0x01
def NETSIO_DATA_BLOCK : UInt8 := 0x02
def NETSIO_DATA_BYTE_SYNC : UInt8 := 0x09
def NETSIO_COMMAND_OFF : UInt8 := 0x10
def NETSIO_COMMAND_ON : UInt8 := 0x11
def NETSIO_COMMAND_OFF_SYNC : UInt8 := 0x18
def NETSIO_MOTOR_OFF : UInt8 := 0x20
def NETSIO_MOTOR_ON : UInt8 := 0x21
def NETSIO_PROCEED_OFF : UInt8 := 0x30
def NETSIO_PROCEED_ON : UInt8 := 0x31
def NETSIO_INTERRUPT_OFF : UInt8 := 0x40
def NETSIO_INTERRUPT_ON : UInt8 := 0x41
def NETSIO_SPEED_CHANGE : UInt8 := 0x80
def NETSIO_SYNC_RESPONSE : UInt8 := 0x81
def NETSIO_DEVICE_DISCONNECT : UInt8 := 0xC0
def NETSIO_DEVICE_CONNECT : UInt8 := 0xC1
def NETSIO_ALIVE_REQUEST : UInt8 := 0xC4
def NETSIO_CREDIT_STATUS : UInt8 := 0xC6
def NETSIO_CREDIT_UPDATE : UInt8 := 0xC7
def NETSIO_COLD_RESET : UInt8 := 0xFF

def NETSIO_EMPTY_SYNC : UInt8 := 0x00
def NETSIO_ACK_SYNC : UInt8 := 0x01

def SIOPORT_DEFAULT_BAUD : Nat := 19200

/-- The messages that `handle_netsio` tells apart. A sync request that is too short to have
a number is the same message without one. -/
inductive Message
  | dataByte (b : UInt8)
  | dataByteSync (num b : UInt8)
  | dataBlock (bytes : List UInt8)
  | commandOff
  | commandOffSync (num : UInt8)
  | commandOn
  | motorOff
  | motorOn
  | speedChange (baud : Nat)
  | creditUpdate (credit : UInt8)
  | coldReset
  | other
deriving DecidableEq, Repr

/-- How an attempt to connect ends. With a socket, a failed attempt closes it again. -/
inductive Connect
  | noSocket
  | noHub
  | connected
deriving DecidableEq, Repr

/-- What `keep_alive` comes to: nothing, a request, a hub that is lost or one that is
connected to again. -/
inductive Alive
  | idle
  | request
  | lost
  | reconnect (outcome : Connect)
deriving DecidableEq, Repr

/-- What the outside does in one call of `handle_netsio`. -/
structure Poll where
  /-- Whether something could be read before a wait for data ran out of time. -/
  readable : Bool
  /-- The end of a suspension, if its time has come. -/
  resume : Option Connect
  /-- The datagram, empty when there is none. -/
  datagram : List UInt8
  /-- What the second byte of the buffer was before. -/
  stale : UInt8
  alive : Alive
deriving DecidableEq, Repr

/-- The size of the buffer a datagram is received in; what is longer is cut off. -/
def RXBUF_SIZE : Nat := 514

/-- The message in a poll. -/
def Poll.message? (p : Poll) : Option Message :=
  match p.datagram.take RXBUF_SIZE with
  | [] => none
  | kind :: rest =>
    let received := rest.length + 1
    let second := rest.headD p.stale
    if kind = NETSIO_DATA_BYTE_SYNC then
      if 3 ≤ received then some (.dataByteSync (rest.getD 1 0) second) else some (.dataByte second)
    else if kind = NETSIO_DATA_BYTE then some (.dataByte second)
    else if kind = NETSIO_DATA_BLOCK then some (.dataBlock (rest.take (received - 2)))
    else if kind = NETSIO_COMMAND_OFF_SYNC then
      if 2 ≤ received then some (.commandOffSync second) else some .commandOff
    else if kind = NETSIO_COMMAND_OFF then some .commandOff
    else if kind = NETSIO_COMMAND_ON then some .commandOn
    else if kind = NETSIO_MOTOR_OFF then some .motorOff
    else if kind = NETSIO_MOTOR_ON then some .motorOn
    else if kind = NETSIO_SPEED_CHANGE then
      if 5 ≤ received then
        some (.speedChange
          (u32 (rest.getD 0 0) (rest.getD 1 0) (rest.getD 2 0) (rest.getD 3 0)))
      else some .other
    else if kind = NETSIO_CREDIT_UPDATE then some (.creditUpdate second)
    else if kind = NETSIO_COLD_RESET then some .coldReset
    else some .other

inductive Io
  | received (message : Message)
  | sent (datagram : List UInt8)
  | charged (left : Int)
deriving DecidableEq, Repr

/-- The members of the port. The levels that were sent last are `static` in the source. -/
structure NetSioPort where
  baud : Nat
  baudPeer : Nat
  /-- Whether there is a socket. -/
  fd : Bool
  initialized : Bool
  /-- Whether there is a time to resume at. -/
  suspended : Bool
  commandAsserted : Bool
  motorAsserted : Bool
  rxbuf : List UInt8
  syncRequestNum : Option UInt8
  syncAckByte : UInt8
  syncWriteSize : Option Nat
  credit : Int
  lastProceed : Option Bool
  lastInterrupt : Option Bool
  polls : List Poll
  /-- Whether the next calls of `write_sock` succeed, as all later ones do. -/
  writes : List Bool
  wire : List Io

namespace NetSioPort

/-- The port as it is constructed. -/
def constructed (polls : List Poll) (writes : List Bool) : NetSioPort where
  baud := SIOPORT_DEFAULT_BAUD
  baudPeer := SIOPORT_DEFAULT_BAUD
  fd := false
  initialized := false
  suspended := false
  commandAsserted := false
  motorAsserted := false
  rxbuf := []
  syncRequestNum := none
  syncAckByte := 0
  syncWriteSize := none
  credit := 3
  lastProceed := none
  lastInterrupt := none
  polls
  writes
  wire := []

/-! ## Connecting -/

def log (io : Io) (s : NetSioPort) : NetSioPort := { s with wire := s.wire ++ [io] }

/-- `send`, where nothing depends on its success. -/
def send (datagram : List UInt8) (s : NetSioPort) : NetSioPort := s.log (.sent datagram)

def setBaudrate (baud : Nat) (s : NetSioPort) : NetSioPort :=
  if !s.initialized then s
  else { s.send (NETSIO_SPEED_CHANGE :: le32 baud) with baud }

/-- `end`. -/
def end' (s : NetSioPort) : NetSioPort :=
  let s := if s.fd then { s.send [NETSIO_DEVICE_DISCONNECT] with fd := false } else s
  { s with initialized := false }

def suspend (s : NetSioPort) : NetSioPort := { s with suspended := true }.end'

/-- `begin`. -/
def begin' (outcome : Connect) (baud : Nat) (s : NetSioPort) : NetSioPort :=
  let s := if s.initialized then s.end' else s
  let s := { s with
    suspended := false
    commandAsserted := false
    motorAsserted := false
    rxbuf := [] }
  match outcome with
  | .noSocket => s.suspend
  | .noHub => { s with fd := true }.suspend
  | .connected =>
    { { s with fd := true }.send [NETSIO_DEVICE_CONNECT] with initialized := true }.setBaudrate baud

def resumeTest (resume : Option Connect) (s : NetSioPort) : NetSioPort :=
  if s.initialized then s
  else if s.suspended then
    match resume with
    | none => s
    | some outcome => s.begin' outcome s.baud
  else s

def keepAlive (alive : Alive) (s : NetSioPort) : NetSioPort :=
  match alive with
  | .idle => s
  | .request => s.send [NETSIO_ALIVE_REQUEST]
  | .lost => s.suspend
  | .reconnect outcome => s.end'.begin' outcome s.baud

/-! ## Messages -/

/-- A byte from the peer, which is corrupt when the rates are too far apart. -/
def incoming (baud baudPeer : Nat) (b : UInt8) : UInt8 :=
  if baudPeer < baud * 95 % 4294967296 / 100 ∨ baudPeer > baud * 105 % 4294967296 / 100 then
    b ^^^ UInt8.ofNat baudPeer ^^^ UInt8.ofNat baud
  else b

/-- `rxbuffer_put`. The oldest byte is lost when the buffer is full. -/
def rxbufferPut (b : UInt8) (s : NetSioPort) : NetSioPort :=
  { s with rxbuf := (if s.rxbuf.length = 1024 then s.rxbuf.tail else s.rxbuf) ++ [b] }

/-- A byte that arrives. -/
def arrive (s : NetSioPort) (b : UInt8) : NetSioPort :=
  s.rxbufferPut (incoming s.baud s.baudPeer b)

/-- The `switch` in `handle_netsio`. A cold reset of the emulator restarts the device. -/
def handleMessage (message : Message) (s : NetSioPort) : Option NetSioPort :=
  match message with
  | .dataByte b => some (s.arrive b)
  | .dataByteSync num b => some ({ s with syncRequestNum := some num }.arrive b)
  | .dataBlock bytes => some (bytes.foldl arrive s)
  | .commandOff => some { s with commandAsserted := false }
  | .commandOffSync num => some { s with syncRequestNum := some num, commandAsserted := false }
  | .commandOn =>
    some { s with
      commandAsserted := true
      syncRequestNum := none
      syncWriteSize := none
      rxbuf := [] }
  | .motorOff => some { s with motorAsserted := false }
  | .motorOn => some { s with motorAsserted := true }
  | .speedChange baud => some { s with baudPeer := baud }
  | .creditUpdate credit => some { s with credit := credit.toNat }
  | .coldReset => none
  | .other => some s

/-- `handle_netsio` with what a poll brings. -/
def handlePoll (p : Poll) (s : NetSioPort) : Option NetSioPort :=
  let s := s.resumeTest p.resume
  if !s.initialized then some s
  else
    match p.message? with
    | none => some (s.keepAlive p.alive)
    | some message => ((s.log (.received message)).handleMessage message).map (keepAlive p.alive)

def handleNetsio (s : NetSioPort) : Option NetSioPort :=
  match s.polls with
  | [] => none
  | p :: polls => handlePoll p { s with polls }

/-! ## Waiting -/

/-- One pass of the loop in `wait_for_credit`. -/
def creditPass (needed : Int) (status : List UInt8) (s : NetSioPort) :
    Option (NetSioPort ⊕ Bool × NetSioPort) :=
  if needed ≤ s.credit then
    let credit := s.credit - needed
    some (.inr (true, { s with credit }.log (.charged credit)))
  else if !s.initialized then some (.inr (false, s))
  else (s.send status).handleNetsio.map .inl

def waitForCredit (needed : Int) (s : NetSioPort) : Option (Bool × NetSioPort) :=
  Loop.run (creditPass needed [NETSIO_CREDIT_STATUS, UInt8.ofInt s.credit]) (s.polls.length + 1) s

/-- One pass of the loop in `wait_for_data`. Without a socket the wait runs out of time. -/
def dataPass (s : NetSioPort) : Option (NetSioPort ⊕ Bool × NetSioPort) :=
  if s.rxbuf ≠ [] then some (.inr (true, s))
  else if !s.fd then some (.inr (false, s))
  else
    match s.polls with
    | [] => none
    | p :: polls =>
      if !p.readable then some (.inr (false, { s with polls })) else s.handleNetsio.map .inl

def waitForData (s : NetSioPort) : Option (Bool × NetSioPort) :=
  Loop.run dataPass (s.polls.length + 1) s

/-- `write_sock`, and whether it succeeds. -/
def writeSock (datagram : List UInt8) (s : NetSioPort) : Bool × NetSioPort :=
  if !s.fd then (false, s)
  else
    match s.writes with
    | [] => (true, s.send datagram)
    | true :: writes => (true, { s with writes }.send datagram)
    | false :: writes => (false, { s with writes })

/-- A message that costs one credit. The senders that do not look at the result of
`wait_for_credit` find the socket closed when there was none. -/
def charge (datagram : List UInt8) (s : NetSioPort) : Option (Bool × NetSioPort) :=
  (s.waitForCredit 1).bind fun (_, s) => some (s.writeSock datagram)

/-! ## The operations of the port -/

def flushInput (s : NetSioPort) : NetSioPort := if s.initialized then { s with rxbuf := [] } else s

def flush (s : NetSioPort) : NetSioPort := s.flushInput

def available (s : NetSioPort) : Option (Nat × NetSioPort) :=
  if s.rxbuf = [] then s.handleNetsio.map fun s => (s.rxbuf.length, s)
  else some (s.rxbuf.length, s)

/-- `command_asserted`. -/
def isCommandAsserted (s : NetSioPort) : Option (Bool × NetSioPort) :=
  s.handleNetsio.map fun s => (s.commandAsserted, s)

/-- `motor_asserted`. -/
def isMotorAsserted (s : NetSioPort) : Option (Bool × NetSioPort) :=
  s.handleNetsio.map fun s => (s.motorAsserted, s)

def setProceed (level : Bool) (s : NetSioPort) : Option NetSioPort :=
  if !s.initialized then some s
  else if s.lastProceed = some level then some s
  else
    ({ s with lastProceed := some level }.charge
      [if level then NETSIO_PROCEED_ON else NETSIO_PROCEED_OFF]).map Prod.snd

def setInterrupt (level : Bool) (s : NetSioPort) : Option NetSioPort :=
  if !s.initialized then some s
  else if s.lastInterrupt = some level then some s
  else
    ({ s with lastInterrupt := some level }.charge
      [if level then NETSIO_INTERRUPT_ON else NETSIO_INTERRUPT_OFF]).map Prod.snd

def setSyncAckByte (ackByte : UInt8) (s : NetSioPort) : NetSioPort :=
  { s with syncAckByte := ackByte, syncWriteSize := some 0 }

def setSyncWriteSize (writeSize : Nat) (s : NetSioPort) : NetSioPort :=
  { s with syncWriteSize := some writeSize }

/-- The datagram that answers a sync request. -/
def syncResponse (num responseType ackByte : UInt8) (syncWriteSize : Nat) : List UInt8 :=
  [NETSIO_SYNC_RESPONSE, num, responseType, ackByte, lobyte syncWriteSize, hibyte syncWriteSize]

/-- `send_sync_response` for the request `num`, which is pending. -/
def sendSyncResponse (num responseType ackByte : UInt8) (syncWriteSize : Nat) (s : NetSioPort) :
    Option (Nat × NetSioPort) :=
  ({ s with syncRequestNum := none, syncWriteSize := none }.charge
    (syncResponse num responseType ackByte syncWriteSize)).map fun (sent, s) =>
      (if sent && responseType != NETSIO_EMPTY_SYNC then 1 else 0, s)

def sendEmptySync (s : NetSioPort) : Option NetSioPort :=
  match s.syncRequestNum with
  | none => some s
  | some num => (s.sendSyncResponse num NETSIO_EMPTY_SYNC 0 0).map Prod.snd

/-- `read` of one byte. -/
def read (s : NetSioPort) : Option (Option UInt8 × NetSioPort) :=
  if !s.initialized then some (none, s)
  else
    s.waitForData.map fun (ready, s) =>
      if ready then (s.rxbuf.head?, { s with rxbuf := s.rxbuf.tail }) else (none, s)

/-- The loop in `read` of a block. -/
def readLoop : Nat → NetSioPort → Option (List UInt8 × NetSioPort)
  | 0, s => some ([], s)
  | n + 1, s =>
    s.read.bind fun (result, s) =>
      match result with
      | none => some ([], s)
      | some b => (readLoop n s).map fun (buffer, s) => (b :: buffer, s)

/-- `read` of a block of `length` bytes. -/
def readBytes (length : Nat) (s : NetSioPort) : Option (List UInt8 × NetSioPort) :=
  if !s.initialized then some ([], s)
  else
    match s.syncRequestNum, s.syncWriteSize with
    | some num, some size =>
      (s.sendSyncResponse num NETSIO_ACK_SYNC s.syncAckByte size).bind fun (_, s) =>
        s.readLoop length
    | _, _ => s.readLoop length

/-- A data byte as `write` sends it when no sync request is pending. -/
def writeData (c : UInt8) (s : NetSioPort) : Option (Nat × NetSioPort) :=
  (s.waitForCredit 1).map fun (granted, s) =>
    if !granted then (0, s)
    else
      match s.writeSock [NETSIO_DATA_BYTE, c] with
      | (sent, s) => (if sent then 1 else 0, s)

/-- `write` of one byte. -/
def write (c : UInt8) (s : NetSioPort) : Option (Nat × NetSioPort) :=
  if !s.initialized then some (0, s)
  else
    match s.syncRequestNum with
    | none => s.writeData c
    | some num =>
      match s.syncWriteSize with
      | none => s.sendSyncResponse num NETSIO_ACK_SYNC c 0
      | some size =>
        -- a late ACK that no read came after
        (s.sendSyncResponse num NETSIO_ACK_SYNC s.syncAckByte size).bind fun (_, s) =>
          s.writeData c

/-- One pass of the loop in `write` of a block: `txbytes` are sent, and `rest` is not. -/
def blockPass (state : Nat × List UInt8 × NetSioPort) :
    Option ((Nat × List UInt8 × NetSioPort) ⊕ Nat × NetSioPort) :=
  match state with
  | (txbytes, rest, s) =>
    if rest = [] then some (.inr (txbytes, s))
    else
      (s.waitForCredit 1).map fun (granted, s) =>
        if !granted then .inr (txbytes, s)
        else
          match s.writeSock (NETSIO_DATA_BLOCK :: rest.take 512) with
          | (false, s) => .inr (txbytes, s)
          | (true, s) => .inl (txbytes + (rest.take 512).length, rest.drop 512, s)

/-- `write` of a block. -/
def writeBlock (buffer : List UInt8) (s : NetSioPort) : Option (Nat × NetSioPort) :=
  if !s.initialized then some (0, s)
  else Loop.run blockPass (buffer.length + 1) (0, buffer, s)

end NetSioPort

/-- The operations that a program calls on an open port. -/
inductive PortOp
  | setBaudrate (baud : Nat)
  | setProceed (level : Bool)
  | setInterrupt (level : Bool)
  | flushInput
  | flush
  | available
  | isCommandAsserted
  | isMotorAsserted
  | read
  | readBytes (length : Nat)
  | write (c : UInt8)
  | writeBlock (buffer : List UInt8)
  | setSyncAckByte (ackByte : UInt8)
  | setSyncWriteSize (writeSize : Nat)
  | sendEmptySync
deriving DecidableEq, Repr

/-- An operation with the bytes it reads. A number or a level that is returned is one byte. -/
def PortOp.run (op : PortOp) (s : NetSioPort) : Option (List UInt8 × NetSioPort) :=
  match op with
  | setBaudrate baud => some ([], s.setBaudrate baud)
  | setProceed level => (s.setProceed level).map fun s => ([], s)
  | setInterrupt level => (s.setInterrupt level).map fun s => ([], s)
  | flushInput => some ([], s.flushInput)
  | flush => some ([], s.flush)
  | available => s.available.map fun (n, s) => ([UInt8.ofNat n], s)
  | isCommandAsserted => s.isCommandAsserted.map fun (level, s) => ([if level then 1 else 0], s)
  | isMotorAsserted => s.isMotorAsserted.map fun (level, s) => ([if level then 1 else 0], s)
  | read => s.read.map fun (result, s) => (result.toList, s)
  | readBytes length => s.readBytes length
  | write c => (s.write c).map fun (n, s) => ([UInt8.ofNat n], s)
  | writeBlock buffer => (s.writeBlock buffer).map fun (n, s) => ([UInt8.ofNat n], s)
  | setSyncAckByte ackByte => some ([], s.setSyncAckByte ackByte)
  | setSyncWriteSize writeSize => some ([], s.setSyncWriteSize writeSize)
  | sendEmptySync => s.sendEmptySync.map fun s => ([], s)

/-- All that a program calls. -/
inductive Call
  | begin' (outcome : Connect) (baud : Nat)
  | end'
  | perform (op : PortOp)
deriving DecidableEq, Repr

def Call.run (call : Call) (s : NetSioPort) : Option NetSioPort :=
  match call with
  | begin' outcome baud => some (s.begin' outcome baud)
  | end' => some s.end'
  | perform op => (op.run s).map Prod.snd

/-- The state after a list of calls, if they all return. -/
def runCalls : List Call → NetSioPort → Option NetSioPort
  | [], s => some s
  | call :: calls, s => (call.run s).bind (runCalls calls)

end FujiNet.NetSIO
