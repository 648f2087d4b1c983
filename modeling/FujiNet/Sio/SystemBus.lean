import FujiNet.Sio.Bus
import FujiNet.Sio.Disk
import FujiNet.Sio.NetSio

/-!
# Command frames on the NetSIO port

`systemBus::_sio_process_cmd` with the port in NetSIO mode. What a device does with a
command frame is a `Reaction`: it calls one function of the bus after another, and each call
may depend on the bytes that the calls before it have read.
-/

namespace FujiNet.NetSIO

open SIO (CmdFrame sioChecksum SIO_STANDARD_BAUDRATE SIO_DEVICEID_DISK)

def COMMAND_FRAME_SPEED_CHANGE_THRESHOLD : Nat := 2
def SIO_DEVICEID_TYPE3POLL : UInt8 := 0x4F

/-- What a device calls while it handles a command: the functions of `virtualDevice`, those
of the bus and, from `readBytes` on, those of the port. A buffer for the computer's data is
given as it is before. -/
inductive BusOp
  | sioAck
  | sioNak
  | sioLateAck
  | sioComplete
  | sioError
  | busToComputer (buf : List UInt8) (err : Bool)
  | busToPeripheral (buf : List UInt8)
  | setBaudrate (baud : Nat)
  | readBytes (length : Nat)
  | write (c : UInt8)
  | writeBlock (buffer : List UInt8)
  | flush
  | setProceed (level : Bool)
  | setInterrupt (level : Bool)
  | setPortBaudrate (baud : Nat)
deriving DecidableEq, Repr

inductive Reaction
  | done
  | call (op : BusOp) (next : List UInt8 → Reaction)

structure VirtualDevice where
  devnum : UInt8
  listenToType3Polls : Bool
  sioProcess : CmdFrame → Reaction

/-- The members of `sioFuji` that are read, with those of its boot disk. -/
structure FujiDev where
  bootConfig : Bool
  statusWaitEnabled : Bool
  statusWaitCount : Nat
  bootdisk : CmdFrame → Reaction

/-- The members of `systemBus` that are read or changed. -/
structure SystemBus where
  netSio : NetSioPort
  commandProcessed : Bool
  commandFrameCounter : Nat
  sioBaud : Nat
  sioBaudHigh : Nat
  sioBaudUltraHigh : Nat
  useUltraHigh : Bool
  /-- `modemActive` of the modem, if there is one. -/
  modemActive : Bool
  fujiDev : Option FujiDev
  daisyChain : List VirtualDevice

namespace SystemBus

/-- An operation of the port. -/
def onPort (op : PortOp) (bus : SystemBus) : Option (List UInt8 × SystemBus) :=
  (op.run bus.netSio).map fun (bytes, netSio) => (bytes, { bus with netSio })

/-- An operation of the port of which nothing is read. -/
def doPort (op : PortOp) (bus : SystemBus) : Option SystemBus := (bus.onPort op).map Prod.snd

def setCommandProcessed (processed : Bool) (bus : SystemBus) : SystemBus :=
  { bus with commandProcessed := processed }

/-! ## The functions of `virtualDevice` -/

/-- The characters of the protocol. -/
def ackChar : UInt8 := 0x41
def nakChar : UInt8 := 0x4E
def completeChar : UInt8 := 0x43
def errorChar : UInt8 := 0x45

def sioNak (bus : SystemBus) : Option SystemBus :=
  (bus.doPort (.write nakChar)).bind fun bus =>
    (bus.doPort .flush).map (setCommandProcessed true)

def sioAck (bus : SystemBus) : Option SystemBus :=
  (bus.doPort (.write ackChar)).bind fun bus =>
    (bus.doPort .flush).map (setCommandProcessed true)

def sioLateAck (bus : SystemBus) : Option SystemBus :=
  (bus.doPort (.setSyncAckByte ackChar)).map (setCommandProcessed true)

def sioComplete (bus : SystemBus) : Option SystemBus := bus.doPort (.write completeChar)

def sioError (bus : SystemBus) : Option SystemBus := bus.doPort (.write errorChar)

def busToComputer (buf : List UInt8) (err : Bool) (bus : SystemBus) : Option SystemBus :=
  (if err then bus.sioError else bus.sioComplete).bind fun bus =>
    (bus.doPort (.writeBlock buf)).bind fun bus =>
      (bus.doPort (.write (sioChecksum buf))).bind (doPort .flush)

/-- One pass of the loop in `bus_to_peripheral` that waits for the checksum. -/
def checksumPass (bus : SystemBus) : Option (SystemBus ⊕ SystemBus) :=
  (bus.netSio.available).map fun (n, netSio) =>
    if n = 0 then .inl { bus with netSio } else .inr { bus with netSio }

/-- `bus_to_peripheral`: the buffer, and behind it the checksum that was received. -/
def busToPeripheral (buf : List UInt8) (bus : SystemBus) : Option (List UInt8 × SystemBus) :=
  (bus.doPort (.setSyncWriteSize (buf.length + 1))).bind fun bus =>
    (bus.onPort (.readBytes buf.length)).bind fun (bytes, bus) =>
      (Loop.run checksumPass (bus.netSio.polls.length + 2) bus).bind fun bus =>
        (bus.onPort .read).bind fun (result, bus) =>
          let buf := bytes ++ buf.drop bytes.length
          let ckRcv := result.headD 0xFF
          (if ckRcv ≠ sioChecksum buf then bus.sioNak else bus.sioAck).map fun bus =>
            (buf ++ [ckRcv], bus)

/-! ## Changes of speed -/

def toggleBaudrate (bus : SystemBus) : Option SystemBus :=
  let high := if bus.useUltraHigh then bus.sioBaudUltraHigh else bus.sioBaudHigh
  let sioBaud := if bus.sioBaud = SIO_STANDARD_BAUDRATE then high else SIO_STANDARD_BAUDRATE
  { bus with sioBaud }.doPort (.setBaudrate sioBaud)

def setBaudrate (baud : Nat) (bus : SystemBus) : Option SystemBus :=
  if bus.sioBaud = baud then some bus
  else { bus with sioBaud := baud }.doPort (.setBaudrate baud)

/-- A command frame that came in badly. Two of them change the speed. -/
def countBadFrame (bus : SystemBus) : Option SystemBus :=
  if bus.commandFrameCounter + 1 = COMMAND_FRAME_SPEED_CHANGE_THRESHOLD then
    { bus with commandFrameCounter := 0 }.toggleBaudrate
  else some { bus with commandFrameCounter := bus.commandFrameCounter + 1 }

end SystemBus

/-! ## Devices -/

def BusOp.run (op : BusOp) (bus : SystemBus) : Option (List UInt8 × SystemBus) :=
  match op with
  | sioAck => bus.sioAck.map fun bus => ([], bus)
  | sioNak => bus.sioNak.map fun bus => ([], bus)
  | sioLateAck => bus.sioLateAck.map fun bus => ([], bus)
  | sioComplete => bus.sioComplete.map fun bus => ([], bus)
  | sioError => bus.sioError.map fun bus => ([], bus)
  | busToComputer buf err => (bus.busToComputer buf err).map fun bus => ([], bus)
  | busToPeripheral buf => bus.busToPeripheral buf
  | setBaudrate baud => (bus.setBaudrate baud).map fun bus => ([], bus)
  | readBytes length => bus.onPort (.readBytes length)
  | write c => (bus.doPort (.write c)).map fun bus => ([], bus)
  | writeBlock buffer => (bus.doPort (.writeBlock buffer)).map fun bus => ([], bus)
  | flush => (bus.doPort .flush).map fun bus => ([], bus)
  | setProceed level => (bus.doPort (.setProceed level)).map fun bus => ([], bus)
  | setInterrupt level => (bus.doPort (.setInterrupt level)).map fun bus => ([], bus)
  | setPortBaudrate baud => (bus.doPort (.setBaudrate baud)).map fun bus => ([], bus)

def Reaction.run : Reaction → SystemBus → Option SystemBus
  | done, bus => some bus
  | call op next, bus => (op.run bus).bind fun (bytes, bus) => (next bytes).run bus

/-- The reactions of several devices, one after another. -/
def runReactions : List Reaction → SystemBus → Option SystemBus
  | [], bus => some bus
  | reaction :: rest, bus => (reaction.run bus).bind (runReactions rest)

namespace SystemBus

/-! ## Command frames -/

/-- One pass of the loop that waits for the end of the command: `i` passes were made, and the
hundredth is the last. -/
def deassertPass (state : Nat × SystemBus) : Option ((Nat × SystemBus) ⊕ Bool × SystemBus) :=
  match state with
  | (i, bus) =>
    bus.netSio.isCommandAsserted.map fun (asserted, netSio) =>
      let bus := { bus with netSio }
      if !asserted then .inr (true, bus)
      else if i + 1 = 100 then .inr (false, bus)
      else .inl (i + 1, bus)

/-- Whether the command was for the boot disk that is to be read again. -/
def bootsConfig (frame : CmdFrame) (bus : SystemBus) : Option FujiDev :=
  bus.fujiDev.filter fun fuji => frame.device = SIO_DEVICEID_DISK && fuji.bootConfig

/-- The devices that a command frame is passed to. -/
def addressed (frame : CmdFrame) (bus : SystemBus) : List VirtualDevice :=
  if frame.device = SIO_DEVICEID_TYPE3POLL then bus.daisyChain.filter (·.listenToType3Polls)
  else bus.daisyChain.filter (·.devnum = frame.device)

/-- The reactions to a command frame with a valid checksum. -/
def reactions (frame : CmdFrame) (bus : SystemBus) : List Reaction :=
  match bus.bootsConfig frame with
  | some fuji => [fuji.bootdisk frame]
  | none => (bus.addressed frame).map fun device => device.sioProcess frame

/-- A command frame that ends the boot from CONFIG. -/
def endsConfigBoot (frame : CmdFrame) (bus : SystemBus) : Bool :=
  match bus.bootsConfig frame with
  | none => false
  | some fuji => fuji.statusWaitCount > 0 && frame.comnd = 0x52 && fuji.statusWaitEnabled

/-- `sio_empty_ack`, if no device has handled the command. -/
def emptyAck (bus : SystemBus) : Option SystemBus :=
  if bus.commandProcessed then some bus else bus.doPort .sendEmptySync

/-- The rest of `_sio_process_cmd`, with the frame and its checksum. -/
def serve (frame : CmdFrame) (checksum : UInt8) (bus : SystemBus) : Option SystemBus :=
  if sioChecksum [frame.device, frame.comnd, frame.aux1, frame.aux2] = checksum then
    let bus := { bus with commandFrameCounter := 0 }
    if bus.endsConfigBoot frame then
      some { bus with fujiDev := bus.fujiDev.map fun fuji => { fuji with bootConfig := false } }
    else (runReactions (bus.reactions frame) bus).bind emptyAck
  else bus.countBadFrame.bind emptyAck

/-- The start of `_sio_process_cmd`: a modem that was active loses its speed. -/
def enter (bus : SystemBus) : SystemBus :=
  let bus := { bus with commandProcessed := false }
  if bus.modemActive then
    { bus with
      modemActive := false
      netSio := bus.netSio.setBaudrate bus.sioBaud }
  else bus

/-- `_sio_process_cmd`. The read returns no more than five bytes. -/
def sioProcessCmd (bus : SystemBus) : Option SystemBus :=
  (bus.enter.onPort (.readBytes 5)).bind fun (bytes, bus) =>
    match bytes with
    | [device, comnd, aux1, aux2, checksum] =>
      (Loop.run deassertPass 101 (0, bus)).bind fun (deasserted, bus) =>
        if !deasserted then some bus
        else
          (bus.doPort .available).bind (serve ⟨device, comnd, aux1, aux2⟩ checksum)
    | _ => some bus

end SystemBus

end FujiNet.NetSIO
