import FujiNet.Media.Atari.DiskTypeAtr
import FujiNet.Sio.Disk

/-!
# The replies to a disk command

The protocol bytes that a command puts on the bus follow a grammar: nothing, a
refusal, an acknowledge and the outcome, or, for the commands that receive a data
frame, an acknowledge of this frame in between. Two commands break it. The high
speed put falls out of the switch and sends a refusal after its outcome, and
writing the PERCOM block completes a data frame that it has just refused.
-/

namespace FujiNet.SIO

open FujiNet.Atari

def DiskCommand.receivesData : DiskCommand → Bool
  | .put | .hsioPut | .write | .hsioWrite | .percomWrite => true
  | _ => false

/-- The sequences of protocol bytes a command may send. -/
def replySequences (receivesData : Bool) : List (List Reply) :=
  [[], [.nak], [.ack, .complete], [.ack, .error]] ++
    if receivesData then
      [[.ack, .ack, .complete], [.ack, .ack, .error], [.ack, .nak], [.ack, .nak, .error]]
    else []

/-! ## The drive without its data

What a command may send, and whether the media layer is asked for the sector. This
depends on four things only: the command, whether high speed is allowed, whether the
sector is one of the disk, and whether the data frame has a wrong checksum.
-/

/-- What a drive does on the bus: the protocol bytes, and whether it uses the sector. -/
abbrev Outcome := List Reply × Bool

def refused : List Outcome := [([.nak], false)]

def readOutcomes : List Outcome := [([.ack, .complete], true), ([.ack, .error], true)]

def formatOutcomes : List Outcome := [([.ack, .complete], false), ([.ack, .error], false)]

def statusOutcomes : List Outcome := [([], false), ([.ack, .complete], false)]

def writeOutcomes (bad : Bool) : List Outcome :=
  if bad then [([.ack, .nak, .error], false)]
  else [([.ack, .ack, .complete], true), ([.ack, .ack, .error], true)]

def outcomes (hsio inRange bad : Bool) : Option DiskCommand → List Outcome
  | some .read => if inRange then readOutcomes else refused
  | some .hsioRead => if hsio then readOutcomes else refused
  | some .put | some .write => if inRange then writeOutcomes bad else refused
  | some .hsioPut =>
      if hsio then
        if inRange then (writeOutcomes bad).map fun o => (o.1 ++ [.nak], o.2) else refused
      else refused
  | some .hsioWrite =>
      if hsio then if inRange then writeOutcomes bad else refused else refused
  | some .status => statusOutcomes
  | some .hsioStatus => if hsio then statusOutcomes else ([.nak], false) :: statusOutcomes
  | some .format | some .formatMedium => formatOutcomes
  | some .hsioFormat | some .hsioFormatMedium => if hsio then formatOutcomes else refused
  | some .percomRead => [([.ack, .complete], false)]
  | some .percomWrite => [([.ack, if bad then .nak else .ack, .complete], false)]
  | some .hsioIndex => if hsio then [([.ack, .complete], false)] else refused
  | none => refused

/-- Exactly two commands leave the grammar. -/
theorem outcomes_grammar (c : Option DiskCommand) (hsio inRange bad : Bool) :
    ∀ o ∈ outcomes hsio inRange bad c,
      (o.1 ∈ replySequences ((c.map DiskCommand.receivesData).getD false) ↔
        ¬ (c = some .hsioPut ∧ hsio = true ∧ inRange = true ∨
          c = some .percomWrite ∧ bad = true)) := by
  cases c with
  | none => revert hsio inRange bad; decide
  | some c => cases c <;> revert hsio inRange bad <;> decide

/-- Only a high speed read uses a sector that is not one of the disk. -/
theorem outcomes_sector (c : Option DiskCommand) (hsio inRange bad : Bool) :
    ∀ o ∈ outcomes hsio inRange bad c,
      ((o.2 = true → inRange = true) ↔
        ¬ (c = some .hsioRead ∧ hsio = true ∧ inRange = false)) := by
  cases c with
  | none => revert hsio inRange bad; decide
  | some c => cases c <;> revert hsio inRange bad <;> decide

/-! ## The drive follows it -/

section

variable {φ : Type} {ops : MediaOps φ} (around : Surroundings) (frame : CmdFrame)
  (disk : MediaType)

/-- The sector buffer after a sector was received, and the sector in it. -/
def receivedBuffer : List UInt8 :=
  Bus.receive around.incoming (List.replicate DISK_SECTORBUF_SIZE 0)
    (disk.sectorSize frame.sectorNum)

def receivedSector : List UInt8 :=
  (receivedBuffer around frame disk).take (disk.sectorSize frame.sectorNum)

/-- The PERCOM block, as it is received. -/
def receivedBlock : List UInt8 :=
  (Bus.receive around.incoming disk.percomBlock.toBytes 12).take 12

/-- The command receives a data frame with a wrong checksum. -/
def badChecksum : Bool :=
  match DiskCommand.ofCode frame.comnd with
  | some .put | some .hsioPut | some .write | some .hsioWrite =>
    around.incoming.checksum != sioChecksum (receivedSector around frame disk)
  | some .percomWrite => around.incoming.checksum != sioChecksum (receivedBlock around disk)
  | _ => false

/-- The sector of the command is one of the disk. -/
def InRange : Prop := 1 ≤ frame.sectorNum ∧ frame.sectorNum ≤ disk.diskNumSectors

instance : Decidable (InRange frame disk) := inferInstanceAs (Decidable (_ ∧ _))

/-- The files and the PERCOM block are as before. -/
def Kept (drive out : Drive φ) : Prop :=
  out.files = drive.files ∧ out.disk.map (·.percomBlock) = some disk.percomBlock

/-- The command sent a sequence of the grammar, and a data frame with a wrong checksum
changed neither the files nor the PERCOM block. -/
structure Conforms (drive out : Drive φ) : Prop where
  grammar : ∃ replies ∈ replySequences
      (((DiskCommand.ofCode frame.comnd).map DiskCommand.receivesData).getD false),
    out.bus.replies = drive.bus.replies ++ replies
  untouched : badChecksum around frame disk = true → Kept disk drive out

/-- A command did one of several things. -/
def Follows (drive out : Drive φ) (possible : List Outcome) : Prop :=
  ∃ o ∈ possible, out.bus.replies = drive.bus.replies ++ o.1 ∧
    out.accessed = drive.accessed ++ if o.2 then [frame.sectorNum] else []

/-- A command returns, does one of several things, and leaves bad data unused. -/
def Handled (drive : Drive φ) (result : Option (Drive φ)) (possible : List Outcome)
    (bad : Prop) : Prop :=
  ∃ out, result = some out ∧ Follows frame drive out possible ∧ (bad → Kept disk drive out)

variable {around frame disk} {drive : Drive φ}

theorem Handled.mono {result : Option (Drive φ)} {possible : List Outcome} {bad bad' : Prop}
    (handled : Handled frame disk drive result possible bad) (implies : bad' → bad) :
    Handled frame disk drive result possible bad' := by
  obtain ⟨out, ran, follows, kept⟩ := handled
  exact ⟨out, ran, follows, fun h => kept (implies h)⟩

/-- What follows when control leaves the switch. -/
theorem Handled.thenNak {result : Option (Drive φ)} {possible : List Outcome} {bad : Prop}
    (handled : Handled frame disk drive result possible bad) :
    Handled frame disk drive (result.map fun drive => drive.onBus Bus.sioNak)
      (possible.map fun o => (o.1 ++ [.nak], o.2)) bad := by
  obtain ⟨out, rfl, ⟨o, mem, replies, accessed⟩, kept⟩ := handled
  refine ⟨out.onBus Bus.sioNak, rfl, ⟨_, List.mem_map_of_mem mem, ?_, accessed⟩, kept⟩
  simp [replies]

/-! ## One command after the other -/

section Operations

variable (mounted : drive.disk = some disk) (returns : ops.Returns disk drive.files)
include mounted

theorem sioNak_handled (bad : Prop) :
    Handled frame disk drive (some (drive.onBus Bus.sioNak)) refused bad := by
  refine ⟨_, rfl, ⟨([.nak], false), by decide, by simp, by simp⟩, ?_⟩
  intro _
  exact ⟨rfl, by simp [mounted]⟩

theorem sioRead_handled (returns : ops.Returns disk drive.files) :
    Handled frame disk drive (sioRead ops around frame (drive.onBus Bus.sioAck)) readOutcomes
      False := by
  obtain ⟨⟨err, readcount⟩, disk', files', ran⟩ := returns.read _ (u16_lt frame.aux1 frame.aux2)
  simp only [sioRead, Drive.onBus_disk, mounted, Drive.onBus_files, CmdFrame.sectorNum, ran,
    Option.bind_eq_bind, Option.bind_some]
  refine ⟨_, rfl, ⟨([.ack, if err then .error else .complete], true), ?_, ?_, rfl⟩, False.elim⟩
  · cases err <;> decide
  · simp

theorem sioFormat_handled (returns : ops.Returns disk drive.files) :
    Handled frame disk drive (sioFormat ops around (drive.onBus Bus.sioAck)) formatOutcomes
      False := by
  obtain ⟨⟨err, responsesize⟩, disk', files', ran⟩ := returns.format
  simp only [sioFormat, Drive.onBus_disk, mounted, Drive.onBus_files, ran, Option.bind_eq_bind,
    Option.bind_some]
  refine ⟨_, rfl, ⟨([.ack, if err then .error else .complete], false), ?_, ?_, ?_⟩, False.elim⟩
  · cases err <;> decide
  · simp
  · simp

omit mounted in
/-- The media layer is asked for the sector, and its answer is sent. -/
theorem storeSector_spec (returns : ops.Returns disk drive.files) (verify : Bool)
    (sectorbuff : List UInt8) (received : Drive φ) (files : received.files = drive.files) :
    ∃ out, ∃ err : Bool, storeSector ops verify frame.sectorNum { disk with diskSectorbuff := sectorbuff }
        received = some out ∧
      out.bus.replies = received.bus.replies ++ [if err then .error else .complete] ∧
      out.accessed = received.accessed ++ [frame.sectorNum] := by
  obtain ⟨err, disk', files', ran⟩ :=
    returns.write _ (u16_lt frame.aux1 frame.aux2) verify sectorbuff
  rw [← files] at ran
  refine ⟨_, err, congrArg (Option.bind · _) ran, ?_, rfl⟩
  cases err <;> simp

/-- The media layer sees the data only if the checksum is right. -/
theorem sioWrite_handled (returns : ops.Returns disk drive.files) (verify : Bool) :
    let bad := around.incoming.checksum != sioChecksum (receivedSector around frame disk)
    Handled frame disk drive (sioWrite ops around verify frame (drive.onBus Bus.sioLateAck))
      (writeOutcomes bad) (bad = true) := by
  have answer : ∀ bus : Bus, (bus.busToPeripheral around.incoming
      (List.replicate DISK_SECTORBUF_SIZE 0) (disk.sectorSize frame.sectorNum)).2.replies =
        bus.replies ++ [if around.incoming.checksum ≠
          sioChecksum (receivedSector around frame disk) then .nak else .ack] := by
    intro bus
    exact bus.replies_busToPeripheral _ _ _
  have fits := returns.sectorSize_le frame.sectorNum
  simp only [sioWrite, Drive.onBus_disk, mounted, if_neg (Nat.not_lt.mpr fits)]
  split
  · next good =>
    have good : around.incoming.checksum = sioChecksum (receivedSector around frame disk) := good
    obtain ⟨out, err, ran, replies, accessed⟩ := storeSector_spec returns verify
      (receivedBuffer around frame disk)
      { drive with
        disk := some { disk with diskSectorbuff := receivedBuffer around frame disk }
        bus := (drive.bus.sioLateAck.busToPeripheral around.incoming
          (List.replicate DISK_SECTORBUF_SIZE 0) (disk.sectorSize frame.sectorNum)).2 } rfl
    refine ⟨out, ran, ⟨([.ack, .ack, if err then .error else .complete], true), ?_, ?_, accessed⟩,
      ?_⟩
    · cases err <;> simp [good, writeOutcomes]
    · rw [replies, answer]
      simp [good]
    · intro bad
      simp [good] at bad
  · next wrong =>
    have wrong : around.incoming.checksum ≠ sioChecksum (receivedSector around frame disk) := wrong
    refine ⟨_, rfl, ⟨([.ack, .nak, .error], false), ?_, ?_, ?_⟩, fun _ => ⟨rfl, rfl⟩⟩
    · simp [wrong, writeOutcomes]
    · simp [answer, wrong]
    · simp

theorem sioReadPercomBlock_handled :
    Handled frame disk drive (some (sioReadPercomBlock (drive.onBus Bus.sioAck)))
      [([.ack, .complete], false)] False := by
  refine ⟨_, rfl, ⟨([.ack, .complete], false), by decide, ?_, ?_⟩, False.elim⟩
  · simp [sioReadPercomBlock, mounted]
  · simp [sioReadPercomBlock, mounted]

/-- The PERCOM block is completed, whatever the checksum. -/
theorem sioWritePercomBlock_handled :
    Handled frame disk drive (some (sioWritePercomBlock around (drive.onBus Bus.sioLateAck)))
      [([.ack, if around.incoming.checksum != sioChecksum (receivedBlock around disk) then .nak
        else .ack, .complete], false)] False := by
  refine ⟨_, rfl, ⟨_, List.mem_singleton_self _, ?_, ?_⟩, False.elim⟩
  · simp [sioWritePercomBlock, mounted, receivedBlock]
  · simp [sioWritePercomBlock, mounted]

end Operations

theorem sioHighSpeed_handled (drive : Drive φ) :
    Handled frame disk drive
      (some (drive.onBus fun bus => bus.sioAck.sioHighSpeed.toggleBaudrate))
      [([.ack, .complete], false)] False := by
  refine ⟨_, rfl, ⟨([.ack, .complete], false), by decide, ?_, ?_⟩, False.elim⟩
  · simp [Bus.sioHighSpeed]
  · simp

section Status

variable (drive)

theorem sioStatus_follows : Follows frame drive (sioStatus ops (drive.onBus Bus.sioAck))
    statusOutcomes :=
  ⟨([.ack, .complete], false), by decide, by simp [sioStatus], by simp [sioStatus]⟩

variable {drive} in
theorem silent_follows {out : Drive φ} (bus : out.bus = drive.bus)
    (accessed : out.accessed = drive.accessed) : Follows frame drive out statusOutcomes :=
  ⟨([], false), by decide, by simp [bus], by simp [accessed]⟩

/-- A status command is left unanswered, answered or, at high speed only, refused. -/
theorem statusOrWait_follows (hsio : Bool) :
    Follows frame drive (statusOrWait ops around disk hsio drive)
      (if hsio then if disk.allowHsio then statusOutcomes else ([.nak], false) :: statusOutcomes
        else statusOutcomes) := by
  have weaken : ∀ out, Follows frame drive out statusOutcomes → Follows frame drive out
      (if hsio then if disk.allowHsio then statusOutcomes else ([.nak], false) :: statusOutcomes
        else statusOutcomes) := by
    intro out ⟨o, possible, effect⟩
    refine ⟨o, ?_, effect⟩
    split_ifs
    · exact possible
    · exact List.mem_cons_of_mem _ possible
    · exact possible
  unfold statusOrWait
  split
  · apply weaken
    split
    · split
      · exact silent_follows rfl rfl
      · exact sioStatus_follows { drive with deviceActive := true }
    · exact silent_follows rfl rfl
  · split
    · next slow =>
      rw [slow.1, slow.2]
      exact ⟨([.nak], false), List.mem_cons_self, by simp, by simp⟩
    · exact weaken _ (sioStatus_follows drive)

end Status

variable (frame disk drive) in
/-- The range check of the source is the one that is meant. -/
theorem inRangeOrNak_eq (accept : Drive φ → Option (Drive φ)) :
    inRangeOrNak frame disk drive accept =
      if InRange frame disk then accept drive else some (drive.onBus Bus.sioNak) := by
  have zero : frame.aux1 = 0 ∧ frame.aux2 = 0 ↔ frame.sectorNum = 0 := by
    simp only [CmdFrame.sectorNum, u16, ← UInt8.toNat_inj]
    simp only [UInt8.toNat_zero]
    omega
  by_cases inside : InRange frame disk
  · have ⟨first, last⟩ := inside
    rw [if_pos inside, inRangeOrNak, if_neg (Nat.not_lt.mpr last), if_neg]
    rw [zero]
    omega
  · rw [if_neg inside, inRangeOrNak]
    split
    · rfl
    · next last =>
      rw [if_pos]
      rw [zero]
      simp only [InRange] at inside
      omega

section Switch

variable (mounted : drive.disk = some disk) (returns : ops.Returns disk drive.files)
include mounted

/-- The range check in front of a command. -/
theorem inRangeOrNak_handled {accept : Drive φ → Option (Drive φ)} {possible : List Outcome}
    {bad : Prop} (accepted : Handled frame disk drive (accept drive) possible bad) :
    Handled frame disk drive (inRangeOrNak frame disk drive accept)
      (if InRange frame disk then possible else refused) bad := by
  rw [inRangeOrNak_eq]
  split
  · exact accepted
  · exact sioNak_handled mounted bad

/-- The test for high speed in front of a command. -/
theorem allowHsio_handled {result : Option (Drive φ)} {possible : List Outcome} {bad : Prop}
    (accepted : Handled frame disk drive result possible bad) :
    Handled frame disk drive (if disk.allowHsio then result else some (drive.onBus Bus.sioNak))
      (if disk.allowHsio then possible else refused) bad := by
  split
  · exact accepted
  · exact sioNak_handled mounted bad

include returns

/-- Each command does one of the things it may do. Data with a wrong checksum is not
used, except by the write of the PERCOM block. -/
theorem sioSwitch_handled (around : Surroundings) (frame : CmdFrame) :
    Handled frame disk drive (sioSwitch ops around frame disk drive)
      (outcomes disk.allowHsio (InRange frame disk) (badChecksum around frame disk)
        (DiskCommand.ofCode frame.comnd))
      (badChecksum around frame disk = true ∧
        DiskCommand.ofCode frame.comnd ≠ some .percomWrite) := by
  have read : Handled frame disk drive (sioRead ops around frame (drive.onBus Bus.sioAck))
      readOutcomes False := sioRead_handled mounted returns
  have format : Handled frame disk drive (sioFormat ops around (drive.onBus Bus.sioAck))
      formatOutcomes False := sioFormat_handled mounted returns
  let bad := around.incoming.checksum != sioChecksum (receivedSector around frame disk)
  have write : ∀ verify, Handled frame disk drive
      (sioWrite ops around verify frame (drive.onBus Bus.sioLateAck)) (writeOutcomes bad)
      (bad = true) := sioWrite_handled mounted returns
  unfold sioSwitch badChecksum
  cases DiskCommand.ofCode frame.comnd with
  | none => exact sioNak_handled mounted _
  | some c =>
    cases c with simp only [outcomes, decide_eq_true_eq]
    | read => exact (inRangeOrNak_handled mounted read).mono (by simp)
    | hsioRead => exact (allowHsio_handled mounted read).mono (by simp)
    | put => exact (inRangeOrNak_handled mounted (write false)).mono And.left
    | hsioPut =>
        apply allowHsio_handled mounted
        exact (inRangeOrNak_handled mounted (write false).thenNak).mono And.left
    | status => exact ⟨_, rfl, statusOrWait_follows drive false, by simp⟩
    | hsioStatus => exact ⟨_, rfl, statusOrWait_follows drive true, by simp⟩
    | write => exact (inRangeOrNak_handled mounted (write true)).mono And.left
    | hsioWrite =>
        apply allowHsio_handled mounted
        exact (inRangeOrNak_handled mounted (write true)).mono And.left
    | format => exact format.mono (by simp)
    | formatMedium => exact format.mono (by simp)
    | hsioFormat => exact (allowHsio_handled mounted format).mono (by simp)
    | hsioFormatMedium => exact (allowHsio_handled mounted format).mono (by simp)
    | percomRead => exact (sioReadPercomBlock_handled mounted).mono (by simp)
    | percomWrite => exact (sioWritePercomBlock_handled mounted).mono (by simp)
    | hsioIndex => exact (allowHsio_handled mounted (sioHighSpeed_handled drive)).mono (by simp)

end Switch

/-! ## The grammar -/

/-- The command is an accepted high speed put. -/
def AcceptedHsioPut (frame : CmdFrame) (disk : MediaType) : Prop :=
  frame.comnd = 0xD0 ∧ disk.allowHsio = true ∧ InRange frame disk

/-- The command writes the PERCOM block with a wrong checksum. -/
def SpoiledPercomWrite (around : Surroundings) (frame : CmdFrame) (disk : MediaType) : Prop :=
  frame.comnd = 0x4F ∧ around.incoming.checksum ≠ sioChecksum (receivedBlock around disk)

theorem ofCode_eq_some_iff {comnd : UInt8} {c : DiskCommand} :
    DiskCommand.ofCode comnd = some c ↔ comnd = c.code := by
  constructor
  · intro found
    exact (DiskCommand.code_of_ofCode found).symm
  · rintro rfl
    exact DiskCommand.ofCode_code c

/-- The two commands, in terms of the switch. -/
theorem leaves_grammar_iff (around : Surroundings) (frame : CmdFrame) (disk : MediaType) :
    (DiskCommand.ofCode frame.comnd = some .hsioPut ∧ disk.allowHsio = true ∧
        decide (InRange frame disk) = true ∨
      DiskCommand.ofCode frame.comnd = some .percomWrite ∧ badChecksum around frame disk = true) ↔
    AcceptedHsioPut frame disk ∨ SpoiledPercomWrite around frame disk := by
  apply or_congr
  · rw [ofCode_eq_some_iff, decide_eq_true_eq]
    rfl
  · rw [SpoiledPercomWrite, ofCode_eq_some_iff]
    apply and_congr_right
    intro code
    rw [badChecksum, ofCode_eq_some_iff.mpr code, bne_iff_ne]

/-- What a command sends decides whether it conforms. -/
theorem conforms_iff_of_replies {out : Drive φ} {replies : List Reply}
    (sent : out.bus.replies = drive.bus.replies ++ replies)
    (kept : replies ∈ replySequences
        (((DiskCommand.ofCode frame.comnd).map DiskCommand.receivesData).getD false) →
      badChecksum around frame disk = true → Kept disk drive out) :
    Conforms around frame disk drive out ↔ replies ∈ replySequences
      (((DiskCommand.ofCode frame.comnd).map DiskCommand.receivesData).getD false) := by
  constructor
  · rintro ⟨⟨replies', possible, sent'⟩, -⟩
    have same : replies = replies' := List.append_cancel_left (sent.symm.trans sent')
    rw [same]
    exact possible
  · intro possible
    exact ⟨⟨replies, possible, sent⟩, kept possible⟩

/-- A drive with a mounted image handles every command, and its replies follow the
grammar unless one of the two commands above is answered. -/
theorem replies_conform_iff (mounted : drive.disk = some disk)
    (returns : ops.Returns disk drive.files) (around : Surroundings) (frame : CmdFrame) :
    ∃ out, sioProcess ops around frame drive = some out ∧
      (Conforms around frame disk drive out ↔
        ¬ (answers around frame disk drive = true ∧
          (AcceptedHsioPut frame disk ∨ SpoiledPercomWrite around frame disk))) := by
  unfold sioProcess
  rw [mounted]
  by_cases answered : answers around frame disk drive = true
  · obtain ⟨out, ran, ⟨o, possible, replies, -⟩, kept⟩ :=
      sioSwitch_handled mounted returns around frame
    have grammar := outcomes_grammar _ _ _ _ o possible
    refine ⟨out, (if_pos answered).trans ran, ?_⟩
    rw [and_iff_right answered, ← leaves_grammar_iff, ← grammar]
    apply conforms_iff_of_replies replies
    intro inGrammar bad
    apply kept
    refine ⟨bad, ?_⟩
    intro percomWrite
    exact grammar.mp inGrammar (.inr ⟨percomWrite, bad⟩)
  · refine ⟨drive, if_neg answered, ?_⟩
    have silent : Conforms around frame disk drive drive := by
      refine ⟨⟨[], ?_, (List.append_nil _).symm⟩, ?_⟩
      · exact List.mem_append_left _ List.mem_cons_self
      · intro _
        exact ⟨rfl, by simp [mounted]⟩
    exact iff_of_true silent fun both => answered both.1

end

/-! ## A small disk -/

/-- An ATR image of four sectors in an active drive. -/
def fourSectors : MediaType := { diskFileh := some 0, diskNumSectors := 4, diskType := .atr }

def fourSectorDrive : Drive ByteFile where
  disk := some fourSectors
  deviceActive := true
  isConfigDevice := false
  statusWaitCount := 0
  files := ⟨List.replicate 528 0, fun _ => 0⟩
  bus := { sioBaudHigh := 68837, sioBaudUltraHigh := 68837, highSpeedIndex := some 6 }
  accessed := []

/-- The computer sends the given data frame. -/
def sending (bytes : List UInt8) (checksum : UInt8) : Surroundings where
  bootConfig := false
  statusWaitEnabled := false
  incoming := ⟨bytes, checksum⟩
  uninitialised := 0
  beyond _ := 0

theorem fourSectors_returns :
    (MediaTypeATR.ops ByteFile.handler none).Returns fourSectors fourSectorDrive.files := by
  apply MediaTypeATR.ops_returns ByteFile.bytes none rfl rfl
  intro sectornum
  rw [MediaType.sectorSize, if_neg (by decide)]
  split <;> decide

/-- A read of the third sector. -/
theorem replies_conform_iff_of_read : ∃ out,
    sioProcess (MediaTypeATR.ops ByteFile.handler none) (sending [] 0) ⟨0x31, 0x52, 3, 0⟩
        fourSectorDrive = some out ∧
      (Conforms (sending [] 0) ⟨0x31, 0x52, 3, 0⟩ fourSectors fourSectorDrive out ↔
        ¬ (answers (sending [] 0) ⟨0x31, 0x52, 3, 0⟩ fourSectors fourSectorDrive = true ∧
          (AcceptedHsioPut ⟨0x31, 0x52, 3, 0⟩ fourSectors ∨
            SpoiledPercomWrite (sending [] 0) ⟨0x31, 0x52, 3, 0⟩ fourSectors))) :=
  replies_conform_iff rfl fourSectors_returns (sending [] 0) ⟨0x31, 0x52, 3, 0⟩

theorem not_conforms_of_replies {around : Surroundings} {frame : CmdFrame} {out : Drive ByteFile}
    {replies : List Reply} (sent : out.bus.replies = replies)
    (outside : replies ∉ replySequences
      (((DiskCommand.ofCode frame.comnd).map DiskCommand.receivesData).getD false)) :
    ¬ Conforms around frame fourSectors fourSectorDrive out := by
  rintro ⟨⟨replies', possible, sent'⟩, -⟩
  have same : replies = replies' := sent.symm.trans sent'
  exact outside (same ▸ possible)

/-- A PERCOM block of ones with the checksum 0 is refused, completed and kept. A high speed
put of a sector of zeros is completed and then refused. -/
theorem refused_and_completed :
    (∃ out, sioProcess (MediaTypeATR.ops ByteFile.handler none)
        (sending (List.replicate 12 1) 0) ⟨0x31, 0x4F, 0, 0⟩ fourSectorDrive = some out ∧
      out.bus.replies = [.ack, .nak, .complete] ∧
      out.disk.map (·.percomBlock.toBytes) = some (List.replicate 12 1) ∧
      ¬ Conforms (sending (List.replicate 12 1) 0) ⟨0x31, 0x4F, 0, 0⟩ fourSectors fourSectorDrive
        out) ∧
    ∃ out, sioProcess (MediaTypeATR.ops ByteFile.handler none)
        (sending (List.replicate 128 0) 0) ⟨0x31, 0xD0, 2, 0⟩ fourSectorDrive = some out ∧
      out.bus.replies = [.ack, .ack, .complete, .nak] ∧
      ¬ Conforms (sending (List.replicate 128 0) 0) ⟨0x31, 0xD0, 2, 0⟩ fourSectors
        fourSectorDrive out := by
  constructor
  · have ran : (sioProcess (MediaTypeATR.ops ByteFile.handler none)
        (sending (List.replicate 12 1) 0) ⟨0x31, 0x4F, 0, 0⟩ fourSectorDrive).map
          (fun out => (out.bus.replies, out.disk.map (·.percomBlock.toBytes))) =
        some ([.ack, .nak, .complete], some (List.replicate 12 1)) := by decide +kernel
    obtain ⟨out, ran, sent⟩ := Option.map_eq_some_iff.mp ran
    obtain ⟨sent, block⟩ := Prod.mk.inj sent
    exact ⟨out, ran, sent, block, not_conforms_of_replies sent (by decide)⟩
  · have ran : (sioProcess (MediaTypeATR.ops ByteFile.handler none)
        (sending (List.replicate 128 0) 0) ⟨0x31, 0xD0, 2, 0⟩ fourSectorDrive).map
          (fun out => out.bus.replies) =
        some [.ack, .ack, .complete, .nak] := by decide +kernel
    obtain ⟨out, ran, sent⟩ := Option.map_eq_some_iff.mp ran
    exact ⟨out, ran, sent, not_conforms_of_replies sent (by decide)⟩

end FujiNet.SIO
