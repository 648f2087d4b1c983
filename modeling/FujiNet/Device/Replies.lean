import FujiNet.Device.Network

/-!
# Which replies the N: device sends

A command is to be answered by one of a few sequences of protocol bytes. The commands that take a data
frame go on when its checksum is bad, `sio_write` reports an error before it has acknowledged, and
the helper that makes a protocol object reports errors that its callers report again. The JSON commands
look at the channel mode, which a close does not change, and not at the object that it deletes.
-/

namespace FujiNet.Device

open SIO (CmdFrame)

def Event.toReply : Event → Option SIO.Reply
  | .reply r => some r
  | _ => none

def Event.carriesOut : Event → Bool
  | .call .opens _ _ => true
  | .call .performIdempotent80 _ _ => true
  | _ => false

namespace SioNetwork

/-- The protocol bytes that were sent. -/
def replies (n : SioNetwork) : List SIO.Reply := n.events.filterMap Event.toReply

/-- A refusal; an acknowledged command, completed or in error; the same with a data frame from the
computer; an acknowledged command of which the data frame was refused. -/
def replySequences : List (List SIO.Reply) :=
  [[.nak], [.ack, .complete], [.ack, .error], [.ack, .ack, .complete], [.ack, .ack, .error],
    [.ack, .nak]]

/-- The calls that carry out the command of a frame with a devicespec. -/
def carriedOut (n : SioNetwork) : List Event := n.events.filter Event.carriesOut

/-- The command is answered by one of the sequences, and if no protocol can be made for a devicespec,
nothing is carried out on one that is left over. -/
structure Conforms (outside : Outside) (frame : CmdFrame) (n : SioNetwork) : Prop where
  replies : (n.command outside frame).replies ∈ replySequences
  leftover : protocolMade outside = false → (n.command outside frame).carriedOut = []

/-- A command without a payload: the JSON commands find an object, parse also the protocol that is
attached to it, and what it computes comes to an end. A parameter out of range is only refused. -/
def Regular00 (outside : Outside) (frame : CmdFrame) (n : SioNetwork) : Prop :=
  if frame.comnd = 0x50 then
    n.channelMode = .json ∧ n.JsonAttached ∧ outside.jsonEnds = true
  else if frame.comnd = 0xFB then
    n.json ≠ none ∨ frame.aux1 = 0 ∧ 2 < frame.aux2 ∨ frame.aux1 ≠ 0 ∧ frame.aux1 ≠ 1
  else True

/-- A command with a payload from the computer: its data frame is good; the devicespec of a command on
a file is, the prefix can be set, and a query with a good frame finds an object and a value that is
computed at all. -/
def Regular80 (outside : Outside) (frame : CmdFrame) (n : SioNetwork) : Prop :=
  if frame.comnd ∈ IDEMPOTENT then outside.frameGood = true ∧ protocolMade outside = true
  else if frame.comnd = 0x2C then
    outside.frameGood = true ∧ SettableFrame outside.payload n.prefix_
  else if frame.comnd = 0x51 then
    n.channelMode = .json ∧
      (outside.frameGood = true → n.json ≠ none ∧ outside.jsonEnds = true)
  else outside.frameGood = true

/-- A command that is asked about first. -/
def RegularSpecial (outside : Outside) (frame : CmdFrame) (n : SioNetwork) : Prop :=
  if n.inqDstats outside frame.comnd = 0x00 then Regular00 outside frame n
  else if n.inqDstats outside frame.comnd = 0x40 then frame.comnd = 0x30 → n.prefix_.length ≤ 255
  else if n.inqDstats outside frame.comnd = 0x80 then Regular80 outside frame n
  else True

/-- Memory can be allocated and the data frame of an open is good, a write comes after an open, and the
other commands are regular. -/
def Regular (outside : Outside) (frame : CmdFrame) (n : SioNetwork) : Prop :=
  if frame.comnd = 0x4F then outside.mallocSucceeds = true ∧ outside.frameGood = true
  else if frame.comnd = 0x57 then
    n.newData = true ∧ n.protocol ≠ none ∧ outside.frameGood = true
  else if frame.comnd ∈ [0x3F, 0x43, 0x52, 0x53, 0xFF] then True
  else RegularSpecial outside frame n

/-! ## The replies of the parts -/

section Parts

variable (outside : Outside) (frame : CmdFrame) (n : SioNetwork)

@[simp] theorem replies_emit (event : Event) :
    (n.emit event).replies = n.replies ++ event.toReply.toList := by
  simp [replies, emit, Option.toList]
  cases event <;> rfl

@[simp] theorem replies_sioAck : n.sioAck.replies = n.replies ++ [.ack] := n.replies_emit _

@[simp] theorem replies_sioNak : n.sioNak.replies = n.replies ++ [.nak] := n.replies_emit _

@[simp] theorem replies_sioComplete : n.sioComplete.replies = n.replies ++ [.complete] :=
  n.replies_emit _

@[simp] theorem replies_sioError : n.sioError.replies = n.replies ++ [.error] := n.replies_emit _

@[simp] theorem replies_sioLateAck : n.sioLateAck.replies = n.replies ++ [.ack] := n.replies_emit _

/-- The reply to a data frame. -/
def frameReply : SIO.Reply := if outside.frameGood then .ack else .nak

/-- The reply at the end of a command. -/
def endReply (err : Bool) : SIO.Reply := if err then .error else .complete

@[simp] theorem replies_busToPeripheral :
    (n.busToPeripheral outside).replies = n.replies ++ [frameReply outside] := by
  rw [busToPeripheral, frameReply]
  split_ifs
  · exact n.replies_sioAck
  · exact n.replies_sioNak

@[simp] theorem replies_busToComputer (err : Bool) :
    (n.busToComputer err).replies = n.replies ++ [endReply err] := by
  rw [busToComputer, endReply]
  split_ifs
  · exact n.replies_sioError
  · exact n.replies_sioComplete

@[simp] theorem replies_sioOutcome (err : Bool) :
    (n.sioOutcome err).replies = n.replies ++ [endReply err] := n.replies_busToComputer err

@[simp] theorem replies_call (method : Method) : (n.call method).replies = n.replies := by
  rw [call, replies_emit]
  exact List.append_nil _

@[simp] theorem replies_useJson : n.useJson.replies = n.replies := by
  rw [useJson, replies_emit]
  exact List.append_nil _

@[simp] theorem replies_deleteProtocol : n.deleteProtocol.replies = n.replies := n.replies_call _

@[simp] theorem replies_setNewData (newData : Bool) : (n.setNewData newData).replies = n.replies := rfl

@[simp] theorem replies_setChannelMode (channelMode : ChannelMode) :
    (n.setChannelMode channelMode).replies = n.replies := rfl

@[simp] theorem replies_setJson (json : Option (Option Nat)) : (n.setJson json).replies = n.replies := rfl

@[simp] theorem replies_shutDown : n.shutDown.replies = n.replies := by
  rw [shutDown]
  split_ifs
  · rw [replies_deleteProtocol, replies_call]
  · rfl

@[simp] theorem replies_doInquiry : n.doInquiry.replies = n.replies := by
  rw [doInquiry]
  split_ifs
  · exact n.replies_call _
  · rfl

theorem replies_instantiateProtocol : (n.instantiateProtocol outside).replies = n.replies := by
  rw [instantiateProtocol]
  split_ifs <;> rfl

/-- The helper that makes the protocol reports an error itself. -/
theorem replies_parseAndInstantiateProtocol :
    (n.parseAndInstantiateProtocol outside).replies = n.replies ++ [frameReply outside] ++
      if protocolMade outside then [] else [.error] := by
  rw [parseAndInstantiateProtocol, protocolMade]
  cases outside.validUrl with
  | false => simp
  | true =>
    cases created : outside.created <;>
      simp [protocol_instantiateProtocol, replies_instantiateProtocol, created]

end Parts

/-! ## The replies of the commands -/

section Commands

variable (outside : Outside) (frame : CmdFrame) (n : SioNetwork)

theorem replies_prepareOpen : (n.prepareOpen outside).replies = n.replies ++ [.ack] ++
    if outside.mallocSucceeds then [] else [.error] := by
  rw [prepareOpen, replies_shutDown, replies_setChannelMode]
  cases malloc : outside.mallocSucceeds with
  | false => exact (replies_sioError _).trans (by simp)
  | true => exact (replies_setNewData _ _).trans (by simp)

theorem replies_openProtocol : (n.openProtocol outside).replies =
    n.replies ++ [endReply outside.openFails] := by
  rw [openProtocol, endReply]
  split_ifs <;> simp

theorem replies_sioOpen : (n.sioOpen outside).replies = n.replies ++ [.ack] ++
    (if outside.mallocSucceeds then [] else [.error]) ++ [frameReply outside] ++
    [endReply (!protocolMade outside || outside.openFails)] := by
  have replies := replies_parseAndInstantiateProtocol outside (n.prepareOpen outside)
  rw [replies_prepareOpen] at replies
  have made := protocol_parse_eq_none_iff outside (protocol_prepareOpen outside n)
  rw [sioOpen]
  cases bad : protocolMade outside with
  | false =>
    rw [if_pos (made.mpr bad), replies_setNewData, replies, bad]
    simp [endReply]
  | true =>
    rw [if_neg (fun none => by simp [made.mp none] at bad), replies_openProtocol, replies, bad]
    simp [endReply]

theorem replies_sioClose : (n.sioClose outside).replies = n.replies ++ [.ack] ++
    [endReply (n.protocol.isSome && outside.fails)] := by
  simp only [sioClose]
  by_cases none : n.protocol = none
  · rw [if_pos (show n.sioAck.protocol = .none from none), none]
    simp [endReply]
  · rw [if_neg (show n.sioAck.protocol ≠ .none from none)]
    simp [Option.isSome_iff_ne_none.mpr none]

/-- One COMPLETE or ERROR follows. -/
def Ends (n n' : SioNetwork) : Prop := ∃ err, n'.replies = n.replies ++ [endReply err]

theorem ends_sioComplete : Ends n n.sioComplete := ⟨false, n.replies_sioComplete⟩

theorem ends_sioError : Ends n n.sioError := ⟨true, n.replies_sioError⟩

theorem ends_busToComputer (err : Bool) : Ends n (n.busToComputer err) :=
  ⟨err, n.replies_busToComputer err⟩

/-- Calls do not show on the bus. -/
theorem Ends.of_replies {n' n'' : SioNetwork} (ends : Ends n' n'') (same : n'.replies = n.replies) :
    Ends n n'' := by
  obtain ⟨err, replies⟩ := ends
  exact ⟨err, by rw [replies, same]⟩

theorem ends_sioRead : Ends n.sioAck (n.sioRead outside) := by
  simp only [sioRead]
  split_ifs
  · exact ends_sioError _
  · cases n.sioAck.channelMode with
    | protocol => exact (ends_busToComputer _ _).of_replies _ (replies_call _ _)
    | json => exact ends_busToComputer _ _

theorem ends_sioStatus : Ends n.sioAck (n.sioStatus outside) := by
  simp only [sioStatus]
  split_ifs
  · exact ends_busToComputer _ _
  · cases n.sioAck.channelMode with
    | protocol => exact (ends_busToComputer _ _).of_replies _ (by simp)
    | json => exact (ends_busToComputer _ _).of_replies _ (replies_call _ _)

theorem ends_sioSpecialInquiry : Ends n.sioAck n.sioSpecialInquiry :=
  (ends_busToComputer _ _).of_replies _ (replies_doInquiry _)

/-- A write without a buffer or without a protocol only reports an error. -/
theorem replies_sioWrite_unopened (unopened : ¬ (n.newData = true ∧ n.protocol ≠ none)) :
    (n.sioWrite outside).replies = n.replies ++ [.error] := by
  rw [sioWrite]
  split_ifs with newData protocol
  · exact n.replies_sioError
  · exact n.replies_sioError
  · exact absurd ⟨by simpa using newData, protocol⟩ unopened

theorem ends_sioWrite (newData : n.newData = true) (opened : n.protocol ≠ none) :
    Ends (n.sioLateAck.busToPeripheral outside) (n.sioWrite outside) := by
  rw [sioWrite, if_neg (by rw [newData]; decide), if_neg opened]
  dsimp only
  cases (n.sioLateAck.busToPeripheral outside).channelMode with
  | protocol => exact (ends_busToComputer _ _).of_replies _ (replies_call _ _)
  | json => exact ends_busToComputer _ _

@[simp] theorem replies_undefined : n.undefined.replies = [] := rfl

theorem ends_setJsonMember (json : n.json ≠ none) : Ends n n.setJsonMember := by
  rw [setJsonMember, if_pos json]
  exact (ends_sioComplete _).of_replies _ (replies_useJson _)

/-- The other commands without a payload end. -/
theorem ends_sioSpecial00 (parse : frame.comnd ≠ 0x50) (parameters : frame.comnd ≠ 0xFB) :
    Ends n (n.sioSpecial00 outside frame) := by
  rw [sioSpecial00, if_neg parse, if_neg parameters]
  split_ifs
  · exact ends_sioComplete _
  · exact ends_sioComplete _
  · rw [sioSetChannelMode]
    split_ifs
    · exact (ends_sioComplete _).of_replies _ (replies_setChannelMode _ _)
    · exact (ends_sioComplete _).of_replies _ (replies_setChannelMode _ _)
    · exact ends_sioError _
  · exact (ends_busToComputer _ _).of_replies _ (replies_call _ _)

/-- The prefix is sent if it leaves a byte of its frame for the end of the line. -/
theorem replies_sioGetPrefix : n.sioGetPrefix.replies =
    if n.prefix_.length ≤ 255 then n.replies ++ [.complete] else [] := by
  have sent := @sioGetPrefix_iff n.prefix_
  rw [sioGetPrefix]
  cases got : Device.sioGetPrefix n.prefix_ with
  | ok reply =>
    have short : n.prefix_.length ≤ 255 := by
      rw [Device.sioGetPrefix] at got
      split_ifs at got
      omega
    rw [if_pos short]
    exact replies_busToComputer _ _
  | error e =>
    rw [if_neg fun short => ?_]
    · rfl
    · obtain ⟨reply, ok, -⟩ := sent.mpr short
      exact absurd (got.symm.trans ok) (by rintro ⟨⟩)

/-- A command with a payload for the computer ends, unless the prefix does not fit its frame. -/
theorem ends_sioSpecial40 (other : frame.comnd ≠ 0x30) :
    Ends n (n.sioSpecial40 outside frame) := by
  rw [sioSpecial40, if_neg other]
  exact (ends_busToComputer _ _).of_replies _ (replies_call _ _)

@[simp] theorem prefix_busToPeripheral : (n.busToPeripheral outside).prefix_ = n.prefix_ := by
  rw [busToPeripheral]
  split_ifs <;> rfl

@[simp] theorem json_busToPeripheral : (n.busToPeripheral outside).json = n.json := by
  rw [busToPeripheral]
  split_ifs <;> rfl

/-- The prefix is set if the text can be gone to, also when its data frame was refused. -/
theorem replies_sioSetPrefix (settable : SettableFrame outside.payload n.prefix_) :
    (n.sioSetPrefix outside).replies = n.replies ++ [frameReply outside] ++ [.complete] := by
  obtain ⟨path, set⟩ := sioSetPrefix_ok_iff.mpr settable
  simp only [sioSetPrefix, prefix_busToPeripheral, set]
  rw [replies_sioComplete, ← replies_busToPeripheral outside n]
  rfl

theorem replies_sioSetPrefix_undefined (bad : ¬ SettableFrame outside.payload n.prefix_) :
    (n.sioSetPrefix outside).replies = [] := by
  simp only [sioSetPrefix, prefix_busToPeripheral]
  cases got : Device.sioSetPrefix outside.payload n.prefix_ with
  | ok path => exact absurd (sioSetPrefix_ok_iff.mp ⟨path, got⟩) bad
  | error e => rfl

/-- A command on a file reports twice that there is no protocol for it. -/
theorem replies_sioDoIdempotentCommand80 :
    ∃ err, (n.sioDoIdempotentCommand80 outside).replies = n.replies ++ [frameReply outside] ++
      (if protocolMade outside then [] else [.error]) ++ [endReply err] := by
  have replies := replies_parseAndInstantiateProtocol outside n
  generalize (if protocolMade outside then ([] : List SIO.Reply) else [.error]) = reported at replies ⊢
  rw [sioDoIdempotentCommand80]
  split_ifs
  · exact ⟨true, by rw [replies_sioError, replies]; rfl⟩
  · exact ⟨outside.fails, by rw [replies_sioOutcome, replies_call, replies]⟩

/-- A query with a bad data frame is only refused. -/
theorem replies_sioSetJsonQuery : (n.sioSetJsonQuery outside).replies =
    if outside.frameGood = true then
      if n.json ≠ none ∧ outside.jsonEnds = true then n.replies ++ [.ack] ++ [.complete] else []
    else n.replies ++ [.nak] := by
  have framed := replies_busToPeripheral outside n
  simp only [sioSetJsonQuery, json_busToPeripheral]
  cases good : outside.frameGood with
  | false =>
    rw [frameReply, good] at framed
    exact framed
  | true =>
    rw [frameReply, good] at framed
    simp only [Bool.true_eq_false, if_false, if_true]
    split_ifs
    · rw [replies_sioComplete, replies_useJson, framed]
      rfl
    · rfl

end Commands

/-! ## What is carried out -/

section CarriedOut

variable (outside : Outside) (frame : CmdFrame) (n : SioNetwork)

theorem carriedOut_emit (event : Event) (plain : event.carriesOut = false) :
    (n.emit event).carriedOut = n.carriedOut := by
  simp [carriedOut, emit, plain]

@[simp] theorem carriedOut_sioAck : n.sioAck.carriedOut = n.carriedOut := n.carriedOut_emit _ rfl

@[simp] theorem carriedOut_sioNak : n.sioNak.carriedOut = n.carriedOut := n.carriedOut_emit _ rfl

@[simp] theorem carriedOut_sioComplete : n.sioComplete.carriedOut = n.carriedOut :=
  n.carriedOut_emit _ rfl

@[simp] theorem carriedOut_sioError : n.sioError.carriedOut = n.carriedOut := n.carriedOut_emit _ rfl

@[simp] theorem carriedOut_sioLateAck : n.sioLateAck.carriedOut = n.carriedOut := n.carriedOut_emit _ rfl

@[simp] theorem carriedOut_busToPeripheral : (n.busToPeripheral outside).carriedOut = n.carriedOut := by
  rw [busToPeripheral]
  split_ifs <;> simp

@[simp] theorem carriedOut_busToComputer (err : Bool) :
    (n.busToComputer err).carriedOut = n.carriedOut := by
  rw [busToComputer]
  split_ifs <;> simp

@[simp] theorem carriedOut_sioOutcome (err : Bool) : (n.sioOutcome err).carriedOut = n.carriedOut :=
  n.carriedOut_busToComputer err

@[simp] theorem carriedOut_useJson : n.useJson.carriedOut = n.carriedOut := n.carriedOut_emit _ rfl

@[simp] theorem carriedOut_setNewData (newData : Bool) :
    (n.setNewData newData).carriedOut = n.carriedOut := rfl

@[simp] theorem carriedOut_setChannelMode (channelMode : ChannelMode) :
    (n.setChannelMode channelMode).carriedOut = n.carriedOut := rfl

@[simp] theorem carriedOut_setJson (json : Option (Option Nat)) :
    (n.setJson json).carriedOut = n.carriedOut := rfl

@[simp] theorem carriedOut_deleteProtocol : n.deleteProtocol.carriedOut = n.carriedOut :=
  n.carriedOut_emit _ rfl

/-- The calls that carry nothing out. -/
theorem carriedOut_call {method : Method} (opens : method ≠ .opens)
    (perform : method ≠ .performIdempotent80) : (n.call method).carriedOut = n.carriedOut := by
  refine n.carriedOut_emit _ ?_
  cases method <;> first | rfl | exact absurd rfl opens | exact absurd rfl perform

@[simp] theorem carriedOut_doInquiry : n.doInquiry.carriedOut = n.carriedOut := by
  rw [doInquiry]
  split_ifs
  · exact n.carriedOut_call (by decide) (by decide)
  · rfl

@[simp] theorem carriedOut_instantiateProtocol :
    (n.instantiateProtocol outside).carriedOut = n.carriedOut := by
  rw [instantiateProtocol]
  split_ifs <;> rfl

@[simp] theorem carriedOut_parseAndInstantiateProtocol :
    (n.parseAndInstantiateProtocol outside).carriedOut = n.carriedOut := by
  simp only [parseAndInstantiateProtocol]
  split_ifs <;> simp

@[simp] theorem carriedOut_prepareOpen : (n.prepareOpen outside).carriedOut = n.carriedOut := by
  simp only [prepareOpen, shutDown]
  split_ifs <;> simp [carriedOut_call]

/-- Without a protocol nothing is opened. -/
theorem carriedOut_sioOpen (bad : protocolMade outside = false) :
    (n.sioOpen outside).carriedOut = n.carriedOut := by
  have none := (protocol_parse_eq_none_iff outside (protocol_prepareOpen outside n)).mpr bad
  rw [sioOpen, if_pos none]
  simp

@[simp] theorem carriedOut_sioClose : (n.sioClose outside).carriedOut = n.carriedOut := by
  simp only [sioClose]
  split_ifs <;> simp [carriedOut_call]

@[simp] theorem carriedOut_sioRead : (n.sioRead outside).carriedOut = n.carriedOut := by
  simp only [sioRead]
  split_ifs
  · simp
  · cases n.sioAck.channelMode <;> simp [carriedOut_call]

@[simp] theorem carriedOut_sioWrite : (n.sioWrite outside).carriedOut = n.carriedOut := by
  simp only [sioWrite]
  split_ifs
  · simp
  · simp
  · cases (n.sioLateAck.busToPeripheral outside).channelMode <;> simp [carriedOut_call]

@[simp] theorem carriedOut_sioStatus : (n.sioStatus outside).carriedOut = n.carriedOut := by
  simp only [sioStatus]
  split_ifs
  · simp
  · cases n.sioAck.channelMode <;> simp [carriedOut_call]

@[simp] theorem carriedOut_sioSpecialInquiry : n.sioSpecialInquiry.carriedOut = n.carriedOut := by
  simp [sioSpecialInquiry]

/-- Nothing more than before. -/
theorem carriedOut_undefined (nothing : n.carriedOut = []) : n.undefined.carriedOut = n.carriedOut :=
  nothing.symm

theorem carriedOut_sioSpecial00 (nothing : n.carriedOut = []) :
    (n.sioSpecial00 outside frame).carriedOut = n.carriedOut := by
  have undefined := carriedOut_undefined n nothing
  simp only [sioSpecial00, sioParseJson, sioSetJsonParameters, setJsonMember, sioSetChannelMode]
  split_ifs <;> simp [carriedOut_call, undefined]

theorem carriedOut_sioSpecial40 (nothing : n.carriedOut = []) :
    (n.sioSpecial40 outside frame).carriedOut = n.carriedOut := by
  simp only [sioSpecial40, sioGetPrefix]
  split_ifs
  · cases Device.sioGetPrefix n.prefix_ with
    | ok _ => exact carriedOut_busToComputer _ _
    | error _ => exact carriedOut_undefined n nothing
  · simp [carriedOut_call]

theorem carriedOut_sioSetPrefix (nothing : n.carriedOut = []) :
    (n.sioSetPrefix outside).carriedOut = n.carriedOut := by
  have framed := carriedOut_busToPeripheral outside n
  rw [sioSetPrefix]
  cases Device.sioSetPrefix outside.payload (n.busToPeripheral outside).prefix_ with
  | ok _ => exact (carriedOut_sioComplete _).trans framed
  | error _ => exact nothing.symm

theorem carriedOut_sioSpecial80 (setting : frame.comnd ∉ IDEMPOTENT) (nothing : n.carriedOut = []) :
    (n.sioSpecial80 outside frame).carriedOut = n.carriedOut := by
  have set := carriedOut_sioSetPrefix outside n nothing
  have undefined := carriedOut_undefined (n.busToPeripheral outside)
    ((carriedOut_busToPeripheral outside n).trans nothing)
  simp only [sioSpecial80, if_neg setting, sioSetJsonQuery]
  split_ifs <;> simp [carriedOut_call, set, undefined]

end CarriedOut

/-! ## Each command -/

section Grammar

variable {outside : Outside} {frame : CmdFrame} {n n' : SioNetwork}

/-- An acknowledged command that ends. -/
theorem grammar_of_ends (silent : n.replies = []) (ends : Ends n.sioAck n') :
    n'.replies ∈ replySequences := by
  obtain ⟨err, replies⟩ := ends
  rw [replies, replies_sioAck, silent]
  cases err <;> decide

/-- An acknowledged command that ends behind a data frame. -/
theorem grammar_framed_iff (silent : n.replies = [])
    (ends : Ends (n.sioAck.busToPeripheral outside) n') :
    n'.replies ∈ replySequences ↔ outside.frameGood = true := by
  obtain ⟨err, replies⟩ := ends
  rw [replies, replies_busToPeripheral, replies_sioAck, silent, frameReply]
  cases outside.frameGood <;> cases err <;> decide

theorem grammar_open_iff (silent : n.replies = []) :
    (n.sioOpen outside).replies ∈ replySequences ↔
      outside.mallocSucceeds = true ∧ outside.frameGood = true := by
  rw [replies_sioOpen, silent, frameReply]
  generalize (!protocolMade outside || outside.openFails) = err
  cases outside.mallocSucceeds <;> cases outside.frameGood <;> cases err <;> decide

theorem grammar_write_iff (silent : n.replies = []) :
    (n.sioWrite outside).replies ∈ replySequences ↔
      n.newData = true ∧ n.protocol ≠ none ∧ outside.frameGood = true := by
  rw [← and_assoc]
  by_cases opened : n.newData = true ∧ n.protocol ≠ none
  · rw [and_iff_right opened]
    exact grammar_framed_iff silent (ends_sioWrite outside n opened.1 opened.2)
  · rw [replies_sioWrite_unopened outside n opened, silent]
    exact iff_of_false (by decide) fun regular => opened regular.1

theorem grammar_idempotent_iff (silent : n.replies = []) :
    (n.sioAck.sioDoIdempotentCommand80 outside).replies ∈ replySequences ↔
      outside.frameGood = true ∧ protocolMade outside = true := by
  obtain ⟨err, replies⟩ := replies_sioDoIdempotentCommand80 outside n.sioAck
  rw [replies, replies_sioAck, silent, frameReply]
  cases outside.frameGood <;> cases protocolMade outside <;> cases err <;> decide

theorem grammar_special00_iff (silent : n.replies = []) :
    (n.sioAck.sioSpecial00 outside frame).replies ∈ replySequences ↔ Regular00 outside frame n := by
  have ack : n.sioAck.replies = [.ack] := by rw [replies_sioAck, silent]; rfl
  have refused : ([] : List SIO.Reply) ∉ replySequences ∧ [.ack] ∉ replySequences := by decide
  rw [Regular00]
  by_cases parse : frame.comnd = 0x50
  · rw [if_pos parse, sioSpecial00, if_pos parse]
    by_cases json : n.channelMode = .json
    · rw [if_pos (show n.sioAck.channelMode = .json from json), sioParseJson, and_iff_right json]
      by_cases usable : n.JsonAttached ∧ outside.jsonEnds = true
      · rw [if_pos (show n.sioAck.JsonAttached ∧ outside.jsonEnds = true from usable)]
        exact iff_of_true (grammar_of_ends silent
          ((ends_sioComplete _).of_replies _ (replies_useJson _))) usable
      · rw [if_neg (show ¬ (n.sioAck.JsonAttached ∧ outside.jsonEnds = true) from usable)]
        exact iff_of_false refused.1 usable
    · rw [if_neg (show n.sioAck.channelMode ≠ .json from json), ack]
      exact iff_of_false refused.2 fun all => json all.1
  rw [if_neg parse]
  by_cases parameters : frame.comnd = 0xFB
  · rw [if_pos parameters, sioSpecial00, if_neg parse, if_neg (by rw [parameters]; decide),
      if_neg (by rw [parameters]; decide), if_pos parameters, sioSetJsonParameters]
    by_cases json : n.json ≠ none
    · refine iff_of_true (grammar_of_ends silent ?_) (.inl json)
      have member := ends_setJsonMember n.sioAck json
      split_ifs
      · exact ends_sioError _
      · exact member
      · exact member
      · exact ends_sioError _
    · have member : n.sioAck.setJsonMember.replies ∉ replySequences := by
        rw [setJsonMember, if_neg (show ¬ n.sioAck.json ≠ none from json)]
        exact refused.1
      have error : n.sioAck.sioError.replies ∈ replySequences :=
        grammar_of_ends silent (ends_sioError _)
      rw [or_iff_right json]
      split_ifs with query large line
      · exact iff_of_true error (.inl ⟨query, large⟩)
      · exact iff_of_false member fun out => out.elim (fun h => large h.2) fun h => h.1 query
      · exact iff_of_false member fun out => out.elim (fun h => query h.1) fun h => h.2 line
      · exact iff_of_true error (.inr ⟨query, line⟩)
  · rw [if_neg parameters]
    exact iff_of_true (grammar_of_ends silent (ends_sioSpecial00 outside frame _ parse parameters))
      trivial

theorem grammar_special40_iff (silent : n.replies = []) :
    (n.sioAck.sioSpecial40 outside frame).replies ∈ replySequences ↔
      (frame.comnd = 0x30 → n.prefix_.length ≤ 255) := by
  by_cases get : frame.comnd = 0x30
  · rw [sioSpecial40, if_pos get, replies_sioGetPrefix, replies_sioAck, silent, forall_prop_of_true get]
    change (if n.prefix_.length ≤ 255 then _ else _) ∈ replySequences ↔ _
    split_ifs with short
    · exact iff_of_true (by decide) short
    · exact iff_of_false (by decide) short
  · exact iff_of_true (grammar_of_ends silent (ends_sioSpecial40 outside frame _ get))
      fun same => absurd same get

theorem grammar_special80_iff (silent : n.replies = []) :
    (n.sioAck.sioSpecial80 outside frame).replies ∈ replySequences ↔ Regular80 outside frame n := by
  rw [sioSpecial80, Regular80]
  by_cases idempotent : frame.comnd ∈ IDEMPOTENT
  · rw [if_pos idempotent, if_pos idempotent]
    exact grammar_idempotent_iff silent
  rw [if_neg idempotent, if_neg idempotent]
  by_cases set : frame.comnd = 0x2C
  · rw [if_pos set, if_pos set]
    by_cases settable : SettableFrame outside.payload n.prefix_
    · rw [replies_sioSetPrefix outside n.sioAck settable, replies_sioAck, silent, frameReply,
        and_iff_left settable]
      cases outside.frameGood <;> decide
    · rw [replies_sioSetPrefix_undefined outside n.sioAck settable]
      exact iff_of_false (by decide) fun all => settable all.2
  rw [if_neg set, if_neg set]
  by_cases query : frame.comnd = 0x51
  · rw [if_pos query, if_pos query]
    by_cases json : n.channelMode = .json
    · rw [if_pos (show n.sioAck.channelMode = .json from json), replies_sioSetJsonQuery,
        replies_sioAck, silent, and_iff_right json]
      change (if _ then if n.json ≠ none ∧ outside.jsonEnds = true then _ else _ else _) ∈
        replySequences ↔ _
      cases outside.frameGood with
      | false =>
        rw [if_neg (by decide)]
        exact iff_of_true (by decide) fun good => absurd good (by decide)
      | true =>
        rw [if_pos rfl, forall_prop_of_true rfl]
        split_ifs with usable
        · exact iff_of_true (by decide) usable
        · exact iff_of_false (by decide) usable
    · rw [if_neg (show n.sioAck.channelMode ≠ .json from json), replies_sioAck, silent]
      exact iff_of_false (by decide) fun all => json all.1
  · rw [if_neg query, if_neg query]
    split_ifs
    · exact grammar_framed_iff silent (ends_sioComplete _)
    · exact grammar_framed_iff silent ((ends_busToComputer _ _).of_replies _ (replies_call _ _))

/-- An inquiry is only recorded. -/
theorem doInquiry_eq (n : SioNetwork) : ∃ events, n.doInquiry = { n with events } := by
  rw [doInquiry]
  split_ifs
  · exact ⟨_, rfl⟩
  · exact ⟨_, rfl⟩

theorem grammar_special_iff (silent : n.replies = []) :
    (n.sioSpecial outside frame).replies ∈ replySequences ↔ RegularSpecial outside frame n := by
  have silent' : n.doInquiry.replies = [] := n.replies_doInquiry.trans silent
  rw [sioSpecial, RegularSpecial]
  generalize n.inqDstats outside frame.comnd = d
  obtain ⟨events, asked⟩ := n.doInquiry_eq
  rw [asked] at silent' ⊢
  by_cases none : d = 0x00
  · rw [if_pos none, if_pos none]
    exact grammar_special00_iff silent'
  rw [if_neg none, if_neg none]
  by_cases toAtari : d = 0x40
  · rw [if_pos toAtari, if_pos toAtari]
    exact grammar_special40_iff silent'
  rw [if_neg toAtari, if_neg toAtari]
  by_cases toPeripheral : d = 0x80
  · rw [if_pos toPeripheral, if_pos toPeripheral]
    exact grammar_special80_iff silent'
  · rw [if_neg toPeripheral, if_neg toPeripheral, replies_sioNak, silent']
    exact iff_of_true (by decide) trivial

/-- Nothing is carried out on a protocol that is left over when the replies are as they should be. -/
theorem carriedOut_sioSpecial (bad : protocolMade outside = false)
    (grammar : (n.sioSpecial outside frame).replies ∈ replySequences) (silent : n.replies = [])
    (nothing : n.carriedOut = []) : (n.sioSpecial outside frame).carriedOut = [] := by
  have regular := (grammar_special_iff silent).mp grammar
  have asked : n.doInquiry.carriedOut = [] := (carriedOut_doInquiry n).trans nothing
  have acknowledged : n.doInquiry.sioAck.carriedOut = [] := (carriedOut_sioAck _).trans asked
  rw [RegularSpecial] at regular
  rw [sioSpecial]
  split_ifs at regular ⊢ with none toAtari toPeripheral
  · exact (carriedOut_sioSpecial00 outside frame _ acknowledged).trans acknowledged
  · exact (carriedOut_sioSpecial40 outside frame _ acknowledged).trans acknowledged
  · have setting : frame.comnd ∉ IDEMPOTENT := by
      intro idempotent
      rw [Regular80, if_pos idempotent, bad] at regular
      exact absurd regular.2 (by decide)
    have late : n.doInquiry.sioLateAck.carriedOut = [] := (carriedOut_sioLateAck _).trans asked
    exact (carriedOut_sioSpecial80 outside frame _ setting late).trans late
  · exact (carriedOut_sioNak _).trans asked

end Grammar

/-- High speed, close, read, status and inquiry are acknowledged and end. -/
theorem answered (outside : Outside) {frame : CmdFrame} {n : SioNetwork} (silent : n.replies = [])
    (plain : frame.comnd ∈ [0x3F, 0x43, 0x52, 0x53, 0xFF]) :
    (n.sioProcess outside frame).replies ∈ replySequences ∧
      (n.sioProcess outside frame).carriedOut = n.carriedOut := by
  simp only [List.mem_cons, List.not_mem_nil, or_false] at plain
  have other : ∀ {a b : UInt8}, frame.comnd = a → a ≠ b → frame.comnd ≠ b :=
    fun same ne => same ▸ ne
  rw [sioProcess]
  rcases plain with code | code | code | code | code
  · rw [if_pos code]
    exact ⟨grammar_of_ends silent (ends_busToComputer _ _), by simp⟩
  · rw [if_neg (other code (by decide)), if_neg (other code (by decide)), if_pos code]
    refine ⟨?_, by simp⟩
    rw [replies_sioClose, silent]
    generalize (n.protocol.isSome && outside.fails) = err
    cases err <;> decide
  · rw [if_neg (other code (by decide)), if_neg (other code (by decide)),
      if_neg (other code (by decide)), if_pos code]
    exact ⟨grammar_of_ends silent (ends_sioRead outside n), by simp⟩
  · rw [if_neg (other code (by decide)), if_neg (other code (by decide)),
      if_neg (other code (by decide)), if_neg (other code (by decide)),
      if_neg (other code (by decide)), if_pos code]
    exact ⟨grammar_of_ends silent (ends_sioStatus outside n), by simp⟩
  · rw [if_neg (other code (by decide)), if_neg (other code (by decide)),
      if_neg (other code (by decide)), if_neg (other code (by decide)),
      if_neg (other code (by decide)), if_neg (other code (by decide)), if_pos code]
    exact ⟨grammar_of_ends silent (ends_sioSpecialInquiry n), by simp⟩

end SioNetwork

end FujiNet.Device
