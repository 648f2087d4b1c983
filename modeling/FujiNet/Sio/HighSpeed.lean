import FujiNet.Sio.ReplyGrammar

/-!
# High speed commands and their twins

A high speed command is a copy of the normal one, behind a test whether high speed
is allowed. Where it is, the two agree, except in two of the copies: the read has
lost its range check, and the put falls out of the switch.
-/

namespace FujiNet.SIO

open FujiNet.Atari

/-- The high speed commands and the normal ones. -/
def twins : List (UInt8 × UInt8) :=
  [(0xD2, 0x52), (0xD0, 0x50), (0xD7, 0x57), (0xA1, 0x21), (0xA2, 0x22), (0xD3, 0x53)]

section

variable {φ : Type} {ops : MediaOps φ} {drive : Drive φ} {disk : MediaType}

/-- The media layer was asked for sectors of the disk only. -/
def WithinDisk (disk : MediaType) (drive out : Drive φ) : Prop :=
  ∃ sectors, out.accessed = drive.accessed ++ sectors ∧
    ∀ sectornum ∈ sectors, 1 ≤ sectornum ∧ sectornum ≤ disk.diskNumSectors

theorem withinDisk_iff {drive out : Drive φ} {frame : CmdFrame} {used : Bool}
    (accessed : out.accessed = drive.accessed ++ if used then [frame.sectorNum] else []) :
    WithinDisk disk drive out ↔ (used = true → InRange frame disk) := by
  constructor
  · rintro ⟨sectors, accessed', within⟩ rfl
    have same : [frame.sectorNum] = sectors :=
      List.append_cancel_left (accessed.symm.trans accessed')
    apply within
    rw [← same]
    exact List.mem_singleton_self _
  · intro within
    refine ⟨_, accessed, ?_⟩
    intro sectornum mem
    split at mem
    · next used =>
      rw [List.mem_singleton.mp mem]
      exact within used
    · exact absurd mem List.not_mem_nil

theorem Drive.ne_of_replies {drive out out' : Drive φ} {replies replies' : List Reply}
    (sent : out.bus.replies = drive.bus.replies ++ replies)
    (sent' : out'.bus.replies = drive.bus.replies ++ replies') (ne : replies ≠ replies') :
    out ≠ out' := by
  rintro rfl
  exact ne (List.append_cancel_left (sent.symm.trans sent'))

section Twins

variable (mounted : drive.disk = some disk) (returns : ops.Returns disk drive.files)
  (hsio : disk.allowHsio = true) (around : Surroundings) (frame : CmdFrame)

include hsio

/-- Four of the copies are exact. -/
theorem sioSwitch_twin {high normal : UInt8}
    (exact : (high, normal) ∈
      [((0xD7 : UInt8), (0x57 : UInt8)), (0xA1, 0x21), (0xA2, 0x22), (0xD3, 0x53)]) :
    sioSwitch ops around { frame with comnd := high } disk drive =
      sioSwitch ops around { frame with comnd := normal } disk drive := by
  simp only [List.mem_cons, Prod.mk.injEq, List.not_mem_nil, or_false] at exact
  rcases exact with ⟨rfl, rfl⟩ | ⟨rfl, rfl⟩ | ⟨rfl, rfl⟩ | ⟨rfl, rfl⟩
  · exact if_pos hsio
  · exact if_pos hsio
  · exact if_pos hsio
  · apply congrArg some
    simp [statusOrWait, hsio]

include mounted returns

/-- The high speed read has no range check. -/
theorem sioSwitch_read_twin_iff :
    sioSwitch ops around { frame with comnd := 0xD2 } disk drive =
      sioSwitch ops around { frame with comnd := 0x52 } disk drive ↔ InRange frame disk := by
  have high : sioSwitch ops around { frame with comnd := 0xD2 } disk drive =
      sioRead ops around frame (drive.onBus Bus.sioAck) := if_pos hsio
  have normal : sioSwitch ops around { frame with comnd := 0x52 } disk drive =
      if InRange frame disk then sioRead ops around frame (drive.onBus Bus.sioAck)
      else some (drive.onBus Bus.sioNak) :=
    inRangeOrNak_eq frame disk drive fun drive =>
      sioRead ops around frame (drive.onBus Bus.sioAck)
  rw [high, normal]
  by_cases inRange : InRange frame disk
  · exact iff_of_true (if_pos inRange).symm inRange
  · rw [if_neg inRange]
    refine iff_of_false ?_ inRange
    have handled : Handled frame disk drive (sioRead ops around frame (drive.onBus Bus.sioAck))
        readOutcomes False := sioRead_handled mounted returns
    obtain ⟨out, ran, ⟨o, possible, replies, -⟩, -⟩ := handled
    have accepted : ∀ o ∈ readOutcomes, o.1 ≠ [.nak] := by decide
    rw [ran, Option.some_inj]
    exact Drive.ne_of_replies replies drive.bus.replies_sioNak (accepted o possible)

/-- The high speed put refuses what it has accepted. -/
theorem sioSwitch_put_twin_iff :
    sioSwitch ops around { frame with comnd := 0xD0 } disk drive =
      sioSwitch ops around { frame with comnd := 0x50 } disk drive ↔ ¬ InRange frame disk := by
  have high : sioSwitch ops around { frame with comnd := 0xD0 } disk drive =
      if InRange frame disk then
        (sioWrite ops around false frame (drive.onBus Bus.sioLateAck)).map
          fun drive => drive.onBus Bus.sioNak
      else some (drive.onBus Bus.sioNak) :=
    (if_pos hsio).trans (inRangeOrNak_eq frame disk drive fun drive =>
      (sioWrite ops around false frame (drive.onBus Bus.sioLateAck)).map
        fun drive : Drive φ => drive.onBus Bus.sioNak)
  have normal : sioSwitch ops around { frame with comnd := 0x50 } disk drive =
      if InRange frame disk then sioWrite ops around false frame (drive.onBus Bus.sioLateAck)
      else some (drive.onBus Bus.sioNak) :=
    inRangeOrNak_eq frame disk drive fun drive =>
      sioWrite ops around false frame (drive.onBus Bus.sioLateAck)
  rw [high, normal]
  by_cases inRange : InRange frame disk
  · rw [if_pos inRange, if_pos inRange]
    refine iff_of_false ?_ (not_not_intro inRange)
    obtain ⟨out, ran, -⟩ : Handled frame disk drive
      (sioWrite ops around false frame (drive.onBus Bus.sioLateAck)) _ _ :=
        sioWrite_handled mounted returns false
    rw [ran, Option.map_some, Option.some_inj]
    exact Drive.ne_of_replies out.bus.replies_sioNak (List.append_nil _).symm (by decide)
  · rw [if_neg inRange, if_neg inRange]
    exact iff_of_true rfl inRange

/-- The six pairs, as the switch sees them. -/
theorem sioSwitch_twins_iff {pair : UInt8 × UInt8} (twin : pair ∈ twins) :
    sioSwitch ops around { frame with comnd := pair.1 } disk drive =
      sioSwitch ops around { frame with comnd := pair.2 } disk drive ↔
    ¬ (pair.1 = 0xD2 ∧ ¬ InRange frame disk ∨ pair.1 = 0xD0 ∧ InRange frame disk) := by
  rcases List.mem_cons.mp twin with rfl | twin
  · rw [sioSwitch_read_twin_iff mounted returns hsio]
    simp
  · rcases List.mem_cons.mp twin with rfl | twin
    · rw [sioSwitch_put_twin_iff mounted returns hsio]
      simp
    · have other : ∀ pair ∈ [((0xD7 : UInt8), (0x57 : UInt8)), (0xA1, 0x21), (0xA2, 0x22),
          (0xD3, 0x53)], pair.1 ≠ 0xD2 ∧ pair.1 ≠ 0xD0 := by
        simp
      refine iff_of_true (sioSwitch_twin hsio around frame twin) ?_
      simp [other pair twin]

end Twins

/-- Where high speed is allowed, a high speed command does exactly what its twin does, and
no command uses a sector outside of the disk; except that the high speed read of such a
sector is not refused, and that the high speed put of a sector is refused after it. -/
theorem high_speed_agrees_iff (mounted : drive.disk = some disk)
    (returns : ops.Returns disk drive.files) (hsio : disk.allowHsio = true)
    (around : Surroundings) (frame : CmdFrame) :
    (∀ pair ∈ twins,
      (sioProcess ops around { frame with comnd := pair.1 } drive =
          sioProcess ops around { frame with comnd := pair.2 } drive ↔
        ¬ (answers around frame disk drive = true ∧
          (pair.1 = 0xD2 ∧ ¬ InRange frame disk ∨ pair.1 = 0xD0 ∧ InRange frame disk)))) ∧
    ∃ out, sioProcess ops around frame drive = some out ∧
      (WithinDisk disk drive out ↔
        ¬ (answers around frame disk drive = true ∧
          frame.comnd = 0xD2 ∧ ¬ InRange frame disk)) := by
  constructor
  · intro pair twin
    have process : ∀ comnd, sioProcess ops around { frame with comnd := comnd } drive =
        if answers around frame disk drive then
          sioSwitch ops around { frame with comnd := comnd } disk drive
        else some drive := by
      intro comnd
      rw [sioProcess, mounted]
      rfl
    rw [process, process]
    by_cases answered : answers around frame disk drive = true
    · rw [if_pos answered, if_pos answered, and_iff_right answered]
      exact sioSwitch_twins_iff mounted returns hsio around frame twin
    · rw [if_neg answered, if_neg answered]
      exact iff_of_true rfl fun both => answered both.1
  · rw [sioProcess, mounted]
    by_cases answered : answers around frame disk drive = true
    · obtain ⟨out, ran, ⟨o, possible, -, accessed⟩, -⟩ :=
        sioSwitch_handled mounted returns around frame
      have sector := outcomes_sector _ _ _ _ o possible
      rw [decide_eq_true_eq, decide_eq_false_iff_not, ofCode_eq_some_iff, and_iff_right hsio]
        at sector
      refine ⟨out, (if_pos answered).trans ran, ?_⟩
      rw [withinDisk_iff accessed, sector, and_iff_right answered]
      rfl
    · refine ⟨drive, if_neg answered, iff_of_true ?_ fun both => answered both.1⟩
      exact ⟨[], (List.append_nil _).symm, by simp⟩

end

/-- The third sector of a small disk. -/
theorem high_speed_agrees_iff_of_third_sector :
    (∀ pair ∈ twins,
      (sioProcess (MediaTypeATR.ops ByteFile.handler none) (sending [] 0) ⟨0x31, pair.1, 3, 0⟩
            fourSectorDrive =
          sioProcess (MediaTypeATR.ops ByteFile.handler none) (sending [] 0) ⟨0x31, pair.2, 3, 0⟩
            fourSectorDrive ↔
        ¬ (answers (sending [] 0) ⟨0x31, 0xD2, 3, 0⟩ fourSectors fourSectorDrive = true ∧
          (pair.1 = 0xD2 ∧ ¬ InRange ⟨0x31, 0xD2, 3, 0⟩ fourSectors ∨
            pair.1 = 0xD0 ∧ InRange ⟨0x31, 0xD2, 3, 0⟩ fourSectors)))) ∧
    ∃ out, sioProcess (MediaTypeATR.ops ByteFile.handler none) (sending [] 0)
        ⟨0x31, 0xD2, 3, 0⟩ fourSectorDrive = some out ∧
      (WithinDisk fourSectors fourSectorDrive out ↔
        ¬ (answers (sending [] 0) ⟨0x31, 0xD2, 3, 0⟩ fourSectors fourSectorDrive = true ∧
          (0xD2 : UInt8) = 0xD2 ∧ ¬ InRange ⟨0x31, 0xD2, 3, 0⟩ fourSectors)) :=
  high_speed_agrees_iff rfl fourSectors_returns rfl (sending [] 0) ⟨0x31, 0xD2, 3, 0⟩

/-- Sector 0 is refused at normal speed and handed to the media layer at high speed, and
the put of a sector of zeros at high speed ends with a refusal. -/
theorem high_speed_reads_sector_zero :
    (sioProcess (MediaTypeATR.ops ByteFile.handler none) (sending [] 0) ⟨0x31, 0x52, 0, 0⟩
        fourSectorDrive).map (fun out => (out.bus.replies, out.accessed)) =
      some ([.nak], []) ∧
    (sioProcess (MediaTypeATR.ops ByteFile.handler none) (sending [] 0) ⟨0x31, 0xD2, 0, 0⟩
        fourSectorDrive).map (fun out => (out.bus.replies, out.accessed)) =
      some ([.ack, .error], [0]) ∧
    (sioProcess (MediaTypeATR.ops ByteFile.handler none) (sending (List.replicate 128 0) 0)
        ⟨0x31, 0x50, 2, 0⟩ fourSectorDrive).map (fun out => (out.bus.replies, out.accessed)) =
      some ([.ack, .ack, .complete], [2]) ∧
    (sioProcess (MediaTypeATR.ops ByteFile.handler none) (sending (List.replicate 128 0) 0)
        ⟨0x31, 0xD0, 2, 0⟩ fourSectorDrive).map (fun out => (out.bus.replies, out.accessed)) =
      some ([.ack, .ack, .complete, .nak], [2]) := by
  refine ⟨?_, ?_, ?_, ?_⟩ <;> decide +kernel

end FujiNet.SIO
