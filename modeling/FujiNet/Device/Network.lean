import FujiNet.Device.Prefix
import FujiNet.Sio.Disk

/-!
# The commands of the N: device

`sioNetwork` carries out a command frame on a protocol object that an open creates and a close
deletes, and on an `FNJSON` object that is attached to it. Objects are numbered in the order of
their allocation, so a pointer to an object that was deleted can be told from one to an object that
is alive. What a command sends and which objects it uses is recorded as a list of events; what the
protocol, the memory and the computer do comes from outside. Nothing is said about a command that
follows a null pointer or a deleted object, or uses a byte that is not of the prefix: `undefined` drops
all of its events.
-/

namespace FujiNet.Device

open SIO (CmdFrame)

/-- `channelMode`. -/
inductive ChannelMode
  | protocol | json
deriving DecidableEq, Repr

/-- What is done with a protocol object: a call of a method, an access to a member, `delete`. -/
inductive Method
  | opens | close | read | write | status | specialInquiry | special00 | special40 | special80
  | performIdempotent80 | member | destroy
deriving DecidableEq, Repr

/-- What a command does: it sends a byte, or it uses an object. The pointers are recorded as they
were, with the protocol objects alive at that time. -/
inductive Event
  | reply (reply : SIO.Reply)
  | call (method : Method) (protocol : Option Nat) (live : List Nat)
  | useJson (json : Option (Option Nat)) (protocol : Option Nat) (live : List Nat)
deriving DecidableEq, Repr

/-- The pointers of `sioNetwork`. `json` points to an object with the protocol that is attached to
it; like all device objects this one has static storage, so all of its pointers start as null. -/
structure SioNetwork where
  protocol : Option Nat := none
  live : List Nat := []
  allocated : Nat := 0
  json : Option (Option Nat) := none
  channelMode : ChannelMode := .protocol
  newData : Bool := false
  prefix_ : List UInt8 := []
  events : List Event := []
deriving DecidableEq, Repr

/-- What happens outside during one command: whether `malloc` gives a buffer, the data frame from the
computer and whether it has a good checksum, whether the URL is valid and a protocol is created for
it, whether it fails to open, whether the operation of the command fails, what the protocol answers
to an inquiry, and whether what the JSON object computes comes to an end. -/
structure Outside where
  mallocSucceeds : Bool
  payload : PrefixFrame
  frameGood : Bool
  validUrl : Bool
  created : Bool
  openFails : Bool
  fails : Bool
  inquiry : UInt8
  jsonEnds : Bool
deriving DecidableEq, Repr

namespace SioNetwork

/-- A protocol can be made for the devicespec. -/
def protocolMade (outside : Outside) : Bool := outside.validUrl && outside.created

variable (outside : Outside) (frame : CmdFrame)

def emit (event : Event) (n : SioNetwork) : SioNetwork := { n with events := n.events ++ [event] }

def sioAck (n : SioNetwork) : SioNetwork := n.emit (.reply .ack)
def sioNak (n : SioNetwork) : SioNetwork := n.emit (.reply .nak)
def sioComplete (n : SioNetwork) : SioNetwork := n.emit (.reply .complete)
def sioError (n : SioNetwork) : SioNetwork := n.emit (.reply .error)

/-- `sio_late_ack`, which is an acknowledge in any case. -/
def sioLateAck (n : SioNetwork) : SioNetwork := n.sioAck

/-- `bus_to_computer`. -/
def busToComputer (err : Bool) (n : SioNetwork) : SioNetwork :=
  if err then n.sioError else n.sioComplete

/-- `bus_to_peripheral`. -/
def busToPeripheral (n : SioNetwork) : SioNetwork := if outside.frameGood then n.sioAck else n.sioNak

/-- A COMPLETE or an ERROR by what a method returned. -/
def sioOutcome (err : Bool) (n : SioNetwork) : SioNetwork :=
  if err then n.sioError else n.sioComplete

def call (method : Method) (n : SioNetwork) : SioNetwork := n.emit (.call method n.protocol n.live)

def useJson (n : SioNetwork) : SioNetwork := n.emit (.useJson n.json n.protocol n.live)

/-- Whatever was sent or used, nothing can be said about it. -/
def undefined (n : SioNetwork) : SioNetwork := { n with events := [] }

/-- `delete protocol`, and the pointer is set to null. -/
def deleteProtocol (n : SioNetwork) : SioNetwork :=
  { n.call .destroy with
    live := n.live.filter fun id => some id ≠ n.protocol
    protocol := none }

/-- `instantiate_protocol`. An object that `protocol` pointed to before is not deleted. -/
def instantiateProtocol (n : SioNetwork) : SioNetwork :=
  if outside.created then
    { n with
      protocol := some n.allocated
      live := n.allocated :: n.live
      allocated := n.allocated + 1 }
  else { n with protocol := none }

/-- `parse_and_instantiate_protocol`. When the checksum is bad, the devicespec of an earlier frame
is used. -/
def parseAndInstantiateProtocol (n : SioNetwork) : SioNetwork :=
  let n := n.busToPeripheral outside
  if outside.validUrl = false then n.sioError
  else
    let n := n.instantiateProtocol outside
    if n.protocol = none then n.sioError else n

def setNewData (newData : Bool) (n : SioNetwork) : SioNetwork := { n with newData }

def setChannelMode (channelMode : ChannelMode) (n : SioNetwork) : SioNetwork := { n with channelMode }

def setJson (json : Option (Option Nat)) (n : SioNetwork) : SioNetwork := { n with json }

/-- Another open before a close shuts down the protocol. -/
def shutDown (n : SioNetwork) : SioNetwork :=
  if n.protocol ≠ none then (n.call .close).deleteProtocol else n

/-- `sio_open` in front of the devicespec. -/
def prepareOpen (n : SioNetwork) : SioNetwork :=
  let n := n.sioLateAck.setNewData outside.mallocSucceeds
  let n := if n.newData = false then n.sioError else n
  (n.setChannelMode .protocol).shutDown

/-- `sio_open` with a protocol. -/
def openProtocol (n : SioNetwork) : SioNetwork :=
  let n := n.call .opens
  if outside.openFails then ((n.call .member).deleteProtocol.setNewData false).sioError
  else ((n.call .member).setJson (some n.protocol)).sioComplete

/-- `sio_open`. -/
def sioOpen (n : SioNetwork) : SioNetwork :=
  let n := (n.prepareOpen outside).parseAndInstantiateProtocol outside
  if n.protocol = none then n.setNewData false else n.openProtocol outside

/-- `sio_close`. -/
def sioClose (n : SioNetwork) : SioNetwork :=
  let n := n.sioAck
  if n.protocol = none then n.sioComplete
  else
    let n := ((n.call .close).sioOutcome outside.fails).deleteProtocol
    (n.setJson none).setNewData false

/-- `sio_read`; the constructor has allocated `receiveBuffer`. -/
def sioRead (n : SioNetwork) : SioNetwork :=
  let n := n.sioAck
  if n.protocol = none then n.sioError
  else
    match n.channelMode with
    | .protocol => (n.call .read).busToComputer outside.fails
    | .json => n.busToComputer false

/-- `sio_write`. -/
def sioWrite (n : SioNetwork) : SioNetwork :=
  if n.newData = false then n.sioError
  else if n.protocol = none then n.sioError
  else
    let n := n.sioLateAck.busToPeripheral outside
    match n.channelMode with
    | .protocol => (n.call .write).sioOutcome outside.fails
    | .json => n.sioOutcome true

/-- `sio_status`. -/
def sioStatus (n : SioNetwork) : SioNetwork :=
  let n := n.sioAck
  if n.protocol = none then n.busToComputer false
  else
    match n.channelMode with
    | .protocol => ((n.call .status).call .member).busToComputer outside.fails
    | .json => (n.call .member).busToComputer false

/-- The answers to an inquiry that `do_inquiry` has itself. -/
def localInquiry (channelMode : ChannelMode) (inqCmd : UInt8) : UInt8 :=
  if inqCmd ∈ [0x20, 0x21, 0x23, 0x24, 0x2A, 0x2B, 0x2C, 0xFD, 0xFE] then 0x80
  else if inqCmd = 0xFC then 0x00
  else if inqCmd = 0xFB then if channelMode = .json then 0x00 else 0xFF
  else if inqCmd = 0x30 then 0x40
  else if inqCmd = 0x5A then 0x00
  else if inqCmd = 0x54 then 0x00
  else if inqCmd = 0x50 then if channelMode = .json then 0x00 else 0xFF
  else if inqCmd = 0x51 then if channelMode = .json then 0x80 else 0xFF
  else 0xFF

/-- `inq_dstats` after `do_inquiry`. -/
def inqDstats (inqCmd : UInt8) (n : SioNetwork) : UInt8 :=
  if n.protocol ≠ none ∧ outside.inquiry ≠ 0xFF then outside.inquiry
  else localInquiry n.channelMode inqCmd

/-- `do_inquiry`. -/
def doInquiry (n : SioNetwork) : SioNetwork :=
  if n.protocol ≠ none then n.call .specialInquiry else n

/-- `sio_special_inquiry`. -/
def sioSpecialInquiry (n : SioNetwork) : SioNetwork := n.sioAck.doInquiry.busToComputer false

/-- There is a JSON object, and the protocol attached to it is alive. -/
def JsonAttached (n : SioNetwork) : Prop :=
  ∃ attached ∈ n.json, ∀ protocol ∈ attached, protocol ∈ n.live

instance decidableJsonAttached (n : SioNetwork) : Decidable n.JsonAttached :=
  inferInstanceAs (Decidable (∃ attached ∈ n.json, ∀ protocol ∈ attached, protocol ∈ n.live))

/-- `sio_parse_json`. The object reads from the protocol. -/
def sioParseJson (n : SioNetwork) : SioNetwork :=
  if n.JsonAttached ∧ outside.jsonEnds = true then n.useJson.sioComplete else n.undefined

/-- `sio_set_json_query`. -/
def sioSetJsonQuery (n : SioNetwork) : SioNetwork :=
  let n := n.busToPeripheral outside
  if outside.frameGood = false then n
  else if n.json ≠ none ∧ outside.jsonEnds = true then n.useJson.sioComplete
  else n.undefined

/-- A member of the JSON object is set. -/
def setJsonMember (n : SioNetwork) : SioNetwork :=
  if n.json ≠ none then n.useJson.sioComplete else n.undefined

/-- `sio_set_json_parameters`. -/
def sioSetJsonParameters (n : SioNetwork) : SioNetwork :=
  if frame.aux1 = 0 then if frame.aux2 > 2 then n.sioError else n.setJsonMember
  else if frame.aux1 = 1 then n.setJsonMember
  else n.sioError

/-- `sio_set_prefix`, which looks at the text also when the checksum is bad. -/
def sioSetPrefix (n : SioNetwork) : SioNetwork :=
  let n := n.busToPeripheral outside
  match Device.sioSetPrefix outside.payload n.prefix_ with
  | .ok prefix_ => { n with prefix_ }.sioComplete
  | .error _ => n.undefined

/-- `sio_get_prefix`. -/
def sioGetPrefix (n : SioNetwork) : SioNetwork :=
  match Device.sioGetPrefix n.prefix_ with
  | .ok _ => n.busToComputer false
  | .error _ => n.undefined

/-- `sio_set_channel_mode`. -/
def sioSetChannelMode (n : SioNetwork) : SioNetwork :=
  if frame.aux2 = 0 then (n.setChannelMode .protocol).sioComplete
  else if frame.aux2 = 1 then (n.setChannelMode .json).sioComplete
  else n.sioError

/-- `sio_do_idempotent_command_80`. -/
def sioDoIdempotentCommand80 (n : SioNetwork) : SioNetwork :=
  let n := n.parseAndInstantiateProtocol outside
  if n.protocol = none then n.sioError
  else (n.call .performIdempotent80).sioOutcome outside.fails

/-- `sio_special_00`. Setting the translation and the timer always completes. -/
def sioSpecial00 (n : SioNetwork) : SioNetwork :=
  if frame.comnd = 0x50 then if n.channelMode = .json then n.sioParseJson outside else n
  else if frame.comnd = 0x54 then n.sioComplete
  else if frame.comnd = 0x5A then n.sioComplete
  else if frame.comnd = 0xFB then n.sioSetJsonParameters frame
  else if frame.comnd = 0xFC then n.sioSetChannelMode frame
  else (n.call .special00).sioOutcome outside.fails

/-- `sio_special_40`. -/
def sioSpecial40 (n : SioNetwork) : SioNetwork :=
  if frame.comnd = 0x30 then n.sioGetPrefix
  else (n.call .special40).busToComputer outside.fails

/-- The idempotent commands on files: rename, delete, lock, unlock, mkdir and rmdir. -/
def IDEMPOTENT : List UInt8 := [0x20, 0x21, 0x23, 0x24, 0x2A, 0x2B]

/-- `sio_special_80`; the commands 0xFD and 0xFE set login and password. -/
def sioSpecial80 (n : SioNetwork) : SioNetwork :=
  if frame.comnd ∈ IDEMPOTENT then n.sioDoIdempotentCommand80 outside
  else if frame.comnd = 0x2C then n.sioSetPrefix outside
  else if frame.comnd = 0x51 then if n.channelMode = .json then n.sioSetJsonQuery outside else n
  else if frame.comnd ∈ [0xFD, 0xFE] then (n.busToPeripheral outside).sioComplete
  else ((n.busToPeripheral outside).call .special80).sioOutcome outside.fails

/-- `sio_special`. -/
def sioSpecial (n : SioNetwork) : SioNetwork :=
  let inqDstats := n.inqDstats outside frame.comnd
  let n := n.doInquiry
  if inqDstats = 0x00 then n.sioAck.sioSpecial00 outside frame
  else if inqDstats = 0x40 then n.sioAck.sioSpecial40 outside frame
  else if inqDstats = 0x80 then n.sioLateAck.sioSpecial80 outside frame
  else n.sioNak

/-- `sio_process`. -/
def sioProcess (n : SioNetwork) : SioNetwork :=
  if frame.comnd = 0x3F then n.sioAck.busToComputer false
  else if frame.comnd = 0x4F then n.sioOpen outside
  else if frame.comnd = 0x43 then n.sioClose outside
  else if frame.comnd = 0x52 then n.sioRead outside
  else if frame.comnd = 0x57 then n.sioWrite outside
  else if frame.comnd = 0x53 then n.sioStatus outside
  else if frame.comnd = 0xFF then n.sioSpecialInquiry
  else n.sioSpecial outside frame

/-- One command, and only what it does. -/
def command (n : SioNetwork) : SioNetwork := { n with events := [] }.sioProcess outside frame

/-! ## What the protocol pointer is -/

variable (n : SioNetwork)

theorem protocol_instantiateProtocol : (n.instantiateProtocol outside).protocol =
    if outside.created then some n.allocated else none := by
  rw [instantiateProtocol]
  split_ifs <;> rfl

/-- What `protocol` points to then: nothing is changed by an invalid devicespec. -/
theorem protocol_parseAndInstantiateProtocol :
    (n.parseAndInstantiateProtocol outside).protocol =
      if outside.validUrl then if outside.created then some n.allocated else none
      else n.protocol := by
  have frame : (n.busToPeripheral outside).protocol = n.protocol ∧
      (n.busToPeripheral outside).allocated = n.allocated := by
    rw [busToPeripheral]
    split_ifs <;> exact ⟨rfl, rfl⟩
  rw [parseAndInstantiateProtocol]
  cases outside.validUrl with
  | false =>
    rw [if_pos rfl, if_neg (by decide)]
    exact frame.1
  | true =>
    rw [if_neg (by decide), if_pos rfl, ← frame.2, ← protocol_instantiateProtocol]
    dsimp only
    split_ifs
    · rfl
    · rfl

theorem protocol_shutDown : n.shutDown.protocol = none := by
  rw [shutDown]
  split_ifs with open'
  · rfl
  · exact not_not.mp open'

theorem protocol_prepareOpen : (n.prepareOpen outside).protocol = none :=
  protocol_shutDown _

/-- Without a protocol before, there is one afterwards if it can be made. -/
theorem protocol_parse_eq_none_iff {n : SioNetwork} (none : n.protocol = none) :
    (n.parseAndInstantiateProtocol outside).protocol = .none ↔ protocolMade outside = false := by
  rw [protocol_parseAndInstantiateProtocol, protocolMade, none]
  cases outside.validUrl <;> cases outside.created <;> simp

end SioNetwork

end FujiNet.Device
