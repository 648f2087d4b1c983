import FujiNet.Control.Loop
import FujiNet.TNFSlib.MountInfo
import FujiNet.TNFSlib.Packet

/-!
# One request and its reply

`_tnfs_transaction` sends a request, waits for a reply and sends again when the
time is up. The network is a parameter: it takes each datagram and says what the
successive passes of the waiting loop find until the deadline. Waiting itself
takes no time in the model.

When the server reports an expired session the transaction mounts anew, which is
itself a transaction. The recursion and the retry loop share one budget `fuel`; a
transaction that does not return within it is `none`.
-/

namespace FujiNet.TNFS

/-- What one pass of the waiting loop finds: whether the system is shutting down,
and the datagram that has arrived, empty if there is none. -/
structure Poll where
  shuttingDown : Bool := false
  datagram : List UInt8
  deriving DecidableEq, Repr

/-- A network, with states in `ν`: sending may fail, and otherwise determines what
is found while waiting. -/
structure Net (ν : Type*) where
  send : List UInt8 → ν → Option (List Poll) × ν

/-- The client's side and the network it talks to. -/
structure Client (ν : Type*) where
  mInfo : MountInfo
  net : ν

/-- A transaction takes a packet and the size of its payload. It returns the packet
as the reply left it, or `none` where the source returns false. -/
abbrev Transact (ν : Type*) :=
  Packet → Nat → Client ν → Option (Option Packet × Client ν)

/-- A result code as the `int` that the operations return. -/
def code (result : UInt8) : Int := result.toNat

theorem code_ne {a b : UInt8} (h : a ≠ b) : code a ≠ code b := by
  intro same
  simp only [code, Int.natCast_inj, UInt8.toNat_inj] at same
  exact h same

/-! ## Mounting -/

section Mount

variable {ν : Type*} (tx : Transact ν)

/-- `tnfs_umount`. -/
def tnfsUmount (c : Client ν) : Option (Int × Client ν) := do
  match ← tx (.request Cmd.unmount []) 0 c with
  | (none, c) => some (-1, c)
  | (some packet, c) =>
    if packet.payloadByte 0 = Result.success then
      some (code (packet.payloadByte 0), { c with mInfo.session := invalidSession })
    else some (code (packet.payloadByte 0), c)

/-- The payload of a MOUNT request: version 1.0, then path, user and password. -/
def mountPayload (m : MountInfo) : List UInt8 :=
  let payload := [0x00, 0x01]
  let payload := payload ++ strlcpy m.mountpath (payloadSize - payload.length) ++ [0]
  let payload := payload ++ strlcpy m.user (payloadSize - payload.length) ++ [0]
  payload ++ strlcpy m.password (payloadSize - payload.length) ++ [0]

/-- What `tnfs_mount` sets before it sends its request. -/
def MountInfo.prepareMount (m : MountInfo) : MountInfo :=
  { m with
    session := invalidSession
    mountpath := if m.mountpath = [] then [0x2F] else m.mountpath
    currentWorkingDirectory := 0x2F :: m.currentWorkingDirectory.tail }

/-- What `tnfs_mount` takes from a successful reply. -/
def MountInfo.mounted (m : MountInfo) (packet : Packet) : MountInfo :=
  { m with
    session := packet.session
    serverVersion := u16 (packet.payloadByte 1) (packet.payloadByte 2)
    minRetryMs := u16 (packet.payloadByte 3) (packet.payloadByte 4) }

/-- `tnfs_mount`. -/
def tnfsMount (c : Client ν) : Option (Int × Client ν) := do
  let c ← if c.mInfo.session = invalidSession then some c else (tnfsUmount tx c).map Prod.snd
  let c := { c with mInfo := c.mInfo.prepareMount }
  let payload := mountPayload c.mInfo
  match ← tx (.request Cmd.mount payload) payload.length c with
  | (none, c) => some (-1, c)
  | (some packet, c) =>
    if packet.payloadByte 0 = Result.success then
      let c := { c with mInfo := c.mInfo.mounted packet }
      if c.mInfo.serverVersion < 0x0102 then do
        let (_, c) ← tnfsUmount tx c
        some (code Result.functionUnimplemented, c)
      else some (code (packet.payloadByte 0), c)
    else some (code (packet.payloadByte 0), c)

/-- The commands that need no handle of the old session. -/
def retriable (command : UInt8) : Bool :=
  command ∈ [Cmd.opendir, Cmd.mkdir, Cmd.rmdir, Cmd.opendirx, Cmd.stat, Cmd.unlink, Cmd.chmod,
    Cmd.rename, Cmd.open_, Cmd.size, Cmd.free]

/-- `_tnfs_session_recovery`. -/
def sessionRecovery (command : UInt8) (c : Client ν) : Option (UInt8 × Client ν) := do
  let (result, c) ← tnfsMount tx { c with mInfo.session := invalidSession }
  if result ≠ code Result.success then some (Result.invalidHandle, c)
  else if retriable command then some (Result.success, c)
  else some (Result.badFilenum, c)

end Mount

/-! ## The transaction -/

/-- How the waiting loop ends. -/
inductive Wait where
  | timedOut
  | shutDown
  | answered
  | expired
  deriving DecidableEq, Repr

/-- The waiting loop: the packet buffer as it leaves the loop, the datagrams read
into it, and the reason for leaving. A datagram with another sequence number, or
asking to try again, is read and waiting goes on. -/
def receive (expected : UInt8) (pkt : Packet) :
    List Poll → Packet × List (List UInt8) × Wait
  | [] => (pkt, [], .timedOut)
  | poll :: polls =>
    if poll.shuttingDown then (pkt, [], .shutDown)
    else if poll.datagram = [] then receive expected pkt polls
    else
      let pkt := pkt.read poll.datagram
      if pkt.sequenceNum ≠ expected ∨ pkt.payloadByte 0 = Result.tryAgain then
        let (pkt, ds, wait) := receive expected pkt polls
        (pkt, poll.datagram :: ds, wait)
      else if pkt.payloadByte 0 = Result.invalidHandle ∧ pkt.command ≠ Cmd.mount ∧
          pkt.command ≠ Cmd.unmount then
        (pkt, [poll.datagram], .expired)
      else (pkt, [poll.datagram], .answered)

/-- The retry loop at its head. -/
structure Attempt (ν : Type*) where
  retry : Nat
  pkt : Packet
  client : Client ν

section Transaction

variable {ν : Type*} (net : Net ν)

/-- Before the loop: session and sequence number are filled in. -/
def firstAttempt (pkt : Packet) (c : Client ν) : Attempt ν where
  retry := 0
  pkt := (pkt.setSession c.mInfo.session).set 2 c.mInfo.currentSequenceNum
  client := { c with mInfo.currentSequenceNum := c.mInfo.currentSequenceNum + 1 }

/-- One pass of the retry loop, with the session recovery it may call. -/
def attempt (recovery : UInt8 → Client ν → Option (UInt8 × Client ν)) (payload0 : UInt8)
    (size : Nat) (a : Attempt ν) : Option (Attempt ν ⊕ (Option Packet × Client ν)) :=
  if a.retry < a.client.mInfo.maxRetries then
    match net.send (a.pkt.datagram size) a.client.net with
    | (none, n) => some (.inl { a with retry := a.retry + 1, client.net := n })
    | (some polls, n) =>
      let c := { a.client with net := n }
      match receive a.pkt.sequenceNum a.pkt polls with
      | (pkt, _, .timedOut) => some (.inl ⟨a.retry + 1, pkt, c⟩)
      | (pkt, _, .shutDown) => some (.inr (some pkt, c))
      | (pkt, _, .answered) => some (.inr (some pkt, c))
      | (pkt, _, .expired) => do
        let (result, c) ← recovery pkt.command c
        if result ≠ Result.success then some (.inr (some (pkt.setPayload0 result), c))
        else some (.inl ⟨0, (pkt.setSession c.mInfo.session).setPayload0 payload0, c⟩)
  else some (.inr (none, a.client))

/-- `_tnfs_transaction`. -/
def transaction : Nat → Transact ν
  | 0 => fun _ _ _ => none
  | fuel + 1 => fun pkt size c =>
    Loop.run (attempt net (sessionRecovery (transaction fuel)) (pkt.payloadByte 0) size)
      (fuel + 1) (firstAttempt pkt c)

end Transaction

end FujiNet.TNFS
