import FujiNet.FileSystem.SecondHandle
import FujiNet.Media.Apple.BlockArray
import FujiNet.Media.Atari.AtrSectors

/-!
# High score writes

Images that are mounted for reading may name a sector, or a range of blocks, that
is written all the same: through a second handler, which takes the place of the
first one for the time of the write. Both media types put the first one back at the
end of a write that succeeded. After a failed seek or a short write they return at
once, so the second handler stays where it is and is not closed; and the handler of
a failed open is a null pointer, which is followed.

A ProDOS-order image also leaves the seek out on the second handler when the block
follows the last one read, and takes its mark for no block, 65536, for a block.

The first handler does not learn of the write. If it has bytes of the sector cached, the
next read returns those.
-/

namespace FujiNet

namespace Atari.MediaTypeATR

/-- Where a sector starts: the first three have 128 bytes, except on disks with 512 bytes
a sector. -/
def sectorStart (sectorSize sectornum : Nat) : Nat :=
  if sectorSize = 512 then 16 + 512 * (sectornum - 1)
  else if sectornum ≤ 3 then 16 + 128 * (sectornum - 1)
  else 400 + sectorSize * (sectornum - 4)

theorem Gapless.sectorToOffset_eq {d : Disk} (gapless : Gapless d) {sectornum : Nat}
    (first : 1 ≤ sectornum) (inside : sectornum ≤ d.diskNumSectors) (word : sectornum < 65536) :
    sectorToOffset d sectornum = sectorStart d.diskSectorSize sectornum := by
  rw [MediaTypeATR.sectorToOffset_eq d first word, sectorStart]
  obtain size | size | ⟨size, few⟩ := gapless <;> rw [size] <;> split_ifs <;> omega

variable {φ : Type} {files : FileHandler φ} (bytes : SharedBytes files)

/-- The call keeps the drive usable: a read finds nothing of its sector in the cache that
has changed in the file, and a write goes through the second handler from the opening to
the last byte. Where there is no host the first handler is used, and it is lost unless it
refuses the write. -/
def SectorOp.Careful (host : Option (φ → Option Handle × φ)) (f : Handle) (op : SectorOp)
    (state : Disk × φ × List Handle) : Prop :=
  match op with
  | .read sectornum =>
    bytes.Fresh f (sectorToOffset state.1 sectornum.toNat) (state.1.sectorSize sectornum.toNat)
      state.2.1
  | .write sectornum _ sectorbuff =>
    let offset := sectorToOffset state.1 sectornum.toNat
    let data := sectorbuff.toList.take (state.1.sectorSize sectornum.toNat)
    match host with
    | some filehandlerOpen => SecondTakes files filehandlerOpen offset data state.2.1
    | none => ¬ Takes files f offset data state.2.1

/-- After the call the drive reads through its first handler and has no other one, and
the call acted on the bytes of its sector. -/
structure SectorOp.Usable (f : Handle) (op : SectorOp) (before : Disk × φ × List Handle)
    (answer : Bool × List UInt8) (after : Disk × φ × List Handle) : Prop where
  fileh : after.1.diskFileh = some f
  closed : after.2.2 = []
  exact_ : op.Exact bytes.seekable.tracking before answer after
  place : sectorToOffset before.1 op.sectornum =
    sectorStart before.1.diskSectorSize op.sectornum

variable {bytes} {d : Disk} {s : φ} {sectornum : Nat}

/-- Every write seeks. -/
theorem seekUnless_write (word : sectornum < 65536) (h : Handle) (offset : Int) :
    files.seekUnless (sectornum == INVALID_SECTOR_VALUE + 1) h offset s =
      files.seek h offset s := by
  have seeks : (sectornum == INVALID_SECTOR_VALUE + 1) = false := by
    rw [beq_eq_false_iff_ne, INVALID_SECTOR_VALUE]
    omega
  rw [seeks]
  rfl

section

variable (word : sectornum < 65536) (inside : sectornum ≤ d.diskNumSectors)
  (fits : d.sectorSize sectornum ≤ DISK_SECTORBUF_SIZE) (scored : d.highScoreSector ≠ 0)
include word inside fits scored

/-- A high score write whose second handler does what it is asked. -/
theorem write_of_second {filehandlerOpen : φ → Option Handle × φ} {h : Handle} {s' : φ}
    (opened : filehandlerOpen s = (some h, s'))
    (takes : Takes files h (sectorToOffset d sectornum)
      (d.diskSectorbuff.take (d.sectorSize sectornum)) s')
    (buffer : d.diskSectorbuff.length = DISK_SECTORBUF_SIZE) (verify : Bool) :
    write files (some filehandlerOpen) sectornum verify d s =
      (let put := files.write h (d.diskSectorbuff.take (d.sectorSize sectornum))
        (files.seek h (sectorToOffset d sectornum) s').2
      some (false, { d with diskLastSector := INVALID_SECTOR_VALUE },
        (files.close h (files.flush h put.2).2).2)) := by
  have swapped : swapHandles (some filehandlerOpen) d s =
      ((d.diskFileh, some h), { d with diskFileh := some h }, s') := by
    simp only [swapHandles, opened]
    exact if_pos scored
  have place : sectorToOffset { d with diskFileh := some h } sectornum =
      sectorToOffset d sectornum := rfl
  have same : MediaType.sectorSize { d with diskFileh := some h } sectornum =
      d.sectorSize sectornum := rfl
  obtain ⟨sought, full⟩ := takes
  rw [List.length_take, buffer, Nat.min_eq_left fits] at full
  rw [write, if_neg (Nat.not_lt.mpr inside), swapped]
  simp only [Option.bind_eq_bind, Option.bind_some, place, same, seekUnless_write word, sought,
    if_neg (Nat.not_lt.mpr fits), full, ne_eq, not_true_eq_false, if_false, scored,
    not_false_eq_true, if_true]

/-- The second handler is closed behind the write, which is in the file. -/
theorem write_of_second_tracking {filehandlerOpen : φ → Option Handle × φ}
    (second : SecondHandles bytes filehandlerOpen)
    (takes : SecondTakes files filehandlerOpen (sectorToOffset d sectornum)
      (d.diskSectorbuff.take (d.sectorSize sectornum)) s)
    (buffer : d.diskSectorbuff.length = DISK_SECTORBUF_SIZE) (verify : Bool) :
    ∃ s', write files.tracking (some (trackedOpen filehandlerOpen)) sectornum verify d (s, []) =
        some (false, { d with diskLastSector := INVALID_SECTOR_VALUE }, s', []) ∧
      bytes.content s' = writeAt (bytes.content s) (sectorToOffset d sectornum)
        (d.diskSectorbuff.take (d.sectorSize sectornum)) := by
  obtain ⟨h, opened, takes⟩ := takes
  have pair : trackedOpen filehandlerOpen (s, []) = (some h, (filehandlerOpen s).2, [h]) := by
    simp [trackedOpen, opened]
  have takes' : Takes files.tracking h (sectorToOffset d sectornum)
      (d.diskSectorbuff.take (d.sectorSize sectornum)) ((filehandlerOpen s).2, [h]) := takes
  have written := write_of_second word inside fits scored pair takes' buffer verify
  simp only [FileHandler.tracking_seek, FileHandler.tracking_write, FileHandler.tracking_flush,
    FileHandler.tracking_close, List.erase_cons_head] at written
  refine ⟨_, written, ?_⟩
  rw [second.content_close, bytes.content_flush, takes.content_shared bytes, second.content_open]

/-- A high score write on a drive without a host that its own handler refuses. -/
theorem write_of_refused {f : Handle} (fileh : d.diskFileh = some f)
    (refused : ¬ Takes files f (sectorToOffset d sectornum)
      (d.diskSectorbuff.take (d.sectorSize sectornum)) s)
    (buffer : d.diskSectorbuff.length = DISK_SECTORBUF_SIZE) (verify : Bool) :
    ∃ s', write files none sectornum verify d s =
        some (true, { d with diskLastSector := INVALID_SECTOR_VALUE }, s') ∧
      (s' = (files.seek f (sectorToOffset d sectornum) s).2 ∨
        s' = (files.write f (d.diskSectorbuff.take (d.sectorSize sectornum))
          (files.seek f (sectorToOffset d sectornum) s).2).2) := by
  have swapped : swapHandles none d s = ((none, none), d, s) := by
    simp only [swapHandles]
    exact if_pos scored
  rw [Takes, List.length_take, buffer, Nat.min_eq_left fits] at refused
  rw [write, if_neg (Nat.not_lt.mpr inside), swapped]
  simp only [Option.bind_eq_bind, Option.bind_some, fileh, seekUnless_write word,
    if_neg (Nat.not_lt.mpr fits)]
  split
  · exact ⟨_, rfl, .inl rfl⟩
  · next sought =>
    rw [if_pos fun full => refused ⟨not_not.mp sought, full⟩]
    exact ⟨_, rfl, .inr rfl⟩

end

/-- A read opens and closes nothing. -/
theorem read_tracking (sectornum : Nat) (d : Disk) (s : φ) (opened : List Handle) :
    read files.tracking sectornum d (s, opened) =
      (read files sectornum d s).map fun (answer, d', s') => (answer, d', s', opened) := by
  simp only [read]
  split
  · rfl
  · cases d.diskFileh with
    | none => rfl
    | some f =>
        simp only [Option.bind_eq_bind, Option.bind_some, FileHandler.tracking_seekUnless,
          FileHandler.tracking_read]
        split_ifs <;> rfl

/-- A read that finds its sector fresh is one that asks the file. -/
theorem read_uncached {f : Handle} (standing : Standing bytes.seekable f d s)
    {sectornum : UInt16} (inside : sectornum.toNat ≤ d.diskNumSectors)
    (fresh : bytes.Fresh f (sectorToOffset d sectornum.toNat) (d.sectorSize sectornum.toNat) s) :
    read bytes.uncached sectornum.toNat d s = read files sectornum.toNat d s := by
  have already := standing.already inside
  rw [read_of_fileh _ inside standing.fileh, read_of_fileh _ inside standing.fileh]
  by_cases sought : (files.seekUnless (sectornum.toNat == d.diskLastSector + 1) f
      (sectorToOffset d sectornum.toNat) s).1 = 0
  · simp only [SharedBytes.uncached_seekUnless, sought, ne_eq, not_true_eq_false, if_false,
      SharedBytes.read_uncached_sought already sought fresh]
  · simp only [SharedBytes.uncached_seekUnless, sought, ne_eq, not_false_eq_true, if_true]

section

variable {host : Option (φ → Option Handle × φ)} {f : Handle}
  (standing : Standing bytes.seekable.tracking f d (s, [])) (scored : d.highScoreSector ≠ 0)
include standing scored

theorem usable_read (host : Option (φ → Option Handle × φ)) {sectornum : UInt16}
    (inRange : (SectorOp.read sectornum).InRange d)
    (careful : (SectorOp.read sectornum).Careful bytes host f (d, s, [])) :
    ∃ answer d' s', (SectorOp.read sectornum).perform files.tracking (host.map trackedOpen)
        (d, s, []) = some (answer, d', s', []) ∧
      (SectorOp.read sectornum).Usable bytes f (d, s, []) answer (d', s', []) ∧
      Standing bytes.seekable.tracking f d' (s', []) ∧ d'.highScoreSector ≠ 0 := by
  have plain : Standing bytes.seekable f d s :=
    ⟨standing.fileh, standing.gapless, standing.last_le, standing.position⟩
  obtain ⟨answer, buffer, last, ⟨s', opened⟩, performed, exact_, standing'⟩ :=
    standing.read (host.map trackedOpen) inRange
  have performed : (SectorOp.read sectornum).perform files.tracking (host.map trackedOpen)
      (d, s, []) = some (answer, { d with diskSectorbuff := buffer, diskLastSector := last },
        s', opened) := by
    rw [← performed]
    simp only [SectorOp.perform, read_tracking, read_uncached plain inRange.2 careful]
  obtain rfl : opened = [] := by
    have kept := performed
    simp only [SectorOp.perform, read_tracking, Option.map_map] at kept
    obtain ⟨result, -, kept⟩ := Option.map_eq_some_iff.mp kept
    exact (congrArg (fun r => r.2.2.2) kept).symm
  refine ⟨answer, _, s', performed, ⟨standing'.fileh, rfl, exact_, ?_⟩, standing', scored⟩
  exact standing.gapless.sectorToOffset_eq inRange.1 inRange.2 sectornum.toNat_lt

theorem usable_write (second : ∀ filehandlerOpen, host = some filehandlerOpen →
      SecondHandles bytes filehandlerOpen) {sectornum : UInt16} {verify : Bool}
    {sectorbuff : Vector UInt8 512}
    (inRange : (SectorOp.write sectornum verify sectorbuff).InRange d)
    (careful : (SectorOp.write sectornum verify sectorbuff).Careful bytes host f (d, s, [])) :
    ∃ answer d' s', (SectorOp.write sectornum verify sectorbuff).perform files.tracking
        (host.map trackedOpen) (d, s, []) = some (answer, d', s', []) ∧
      (SectorOp.write sectornum verify sectorbuff).Usable bytes f (d, s, []) answer
        (d', s', []) ∧
      Standing bytes.seekable.tracking f d' (s', []) ∧ d'.highScoreSector ≠ 0 := by
  have inside : sectornum.toNat ≤ d.diskNumSectors := inRange.2
  have fits := standing.sectorSize_le sectornum.toNat
  have buffer : sectorbuff.toList.length = DISK_SECTORBUF_SIZE := by simp [DISK_SECTORBUF_SIZE]
  have place := standing.gapless.sectorToOffset_eq inRange.1 inside sectornum.toNat_lt
  cases host with
  | none =>
      have refused : ¬ Takes files.tracking f (sectorToOffset d sectornum.toNat)
          (sectorbuff.toList.take (d.sectorSize sectornum.toNat)) (s, []) := careful
      obtain ⟨⟨s', opened⟩, written, ends⟩ := write_of_refused
        (d := { d with diskSectorbuff := sectorbuff.toList }) sectornum.toNat_lt inside fits scored
        standing.fileh refused buffer verify
      obtain rfl : opened = [] := by
        rcases ends with ends | ends <;> exact congrArg Prod.snd ends
      have forgotten := standing.forget sectorbuff.toList (s', [])
      refine ⟨(true, []), _, s', ?_, ⟨forgotten.fileh, rfl, (by rintro ⟨⟩), place⟩, forgotten, scored⟩
      simp only [SectorOp.perform, Option.map_none, written, Option.map_some]
  | some filehandlerOpen =>
      obtain ⟨s', written, content⟩ := write_of_second_tracking
        (d := { d with diskSectorbuff := sectorbuff.toList }) sectornum.toNat_lt inside fits scored
        (second _ rfl) careful buffer verify
      have forgotten := standing.forget sectorbuff.toList (s', [])
      refine ⟨(false, []), _, s', ?_, ⟨forgotten.fileh, rfl, fun _ => content, place⟩, forgotten,
        scored⟩
      simp only [SectorOp.perform, Option.map_some, written]

end

/-- In every run of careful calls on a mounted image with a high score sector, each call
leaves the drive usable. -/
theorem keeps_usable {host : Option (φ → Option Handle × φ)}
    (second : ∀ filehandlerOpen, host = some filehandlerOpen → SecondHandles bytes filehandlerOpen)
    {f : Handle} {disksize : Nat} {s₀ : φ} (mounted : mount files f disksize {} s₀ = some (d, s))
    (atr : d.diskType = .atr) (scored : d.highScoreSector ≠ 0) (gapless : Gapless d) :
    Machine.Keeps (SectorOp.perform files.tracking (host.map trackedOpen))
      (fun op state => op.InRange state.1 ∧ op.Careful bytes host f state)
      (fun op => op.Usable bytes f) (d, s, []) := by
  have initial : Standing bytes.seekable.tracking f d (s, []) := by
    obtain ⟨fileh, last⟩ := mount_fileh mounted atr
    refine ⟨fileh, gapless, Nat.le_of_eq last, fun known => ?_⟩
    exact absurd (last ▸ known) (Nat.lt_irrefl _)
  apply Machine.Keeps.of_invariant (fun state => Standing bytes.seekable.tracking f state.1 state.2 ∧
    state.2.2 = [] ∧ state.1.highScoreSector ≠ 0) ⟨initial, rfl, scored⟩
  rintro op ⟨d, s, opened⟩ ⟨standing, none_open, scored⟩ ⟨inRange, careful⟩
  obtain rfl : opened = [] := none_open
  cases op with
  | read sectornum =>
      obtain ⟨answer, d', s', performed, usable, standing', scored'⟩ :=
        usable_read standing scored host inRange careful
      exact ⟨answer, _, performed, usable, standing', rfl, scored'⟩
  | write sectornum verify sectorbuff =>
      obtain ⟨answer, d', s', performed, usable, standing', scored'⟩ :=
        usable_write standing scored second inRange careful
      exact ⟨answer, _, performed, usable, standing', rfl, scored'⟩

end Atari.MediaTypeATR

namespace Apple

open MediaTypePO

section

variable {φ : Type} (files : FileHandler φ) (filehandlerOpen : φ → Option Handle × φ)

/-- A mounted image with the list of its second handlers, and whether the call before was
for a block of the high score range. -/
structure ScoredDrive (φ : Type) where
  drive : BlockDrive (φ × List Handle)
  inRange : Bool := false

/-- Make the call. -/
def BlockOp.performScored (op : BlockOp) (d : ScoredDrive φ) :
    Option ((Bool × List UInt8) × ScoredDrive φ) :=
  (op.perform files.tracking (trackedOpen filehandlerOpen) d.drive).map fun (answer, drive) =>
    (answer, ⟨drive, d.drive.media.inHighScoreRange op.blockNum⟩)

variable {files} (bytes : SharedBytes files)

/-- The call keeps the drive usable: if it leaves the seek out, the first handler stands at
its block; a read finds nothing of its block in the cache that has changed in the file; and
a write to the high score range seeks, and goes through the second handler from the opening
to the last byte. -/
def BlockOp.Careful (f : Handle) (op : BlockOp) (d : ScoredDrive φ) : Prop :=
  (op.skipsSeek d.drive.media = true → d.drive.media.lastBlockNum ≠ 0xFFFFFFFF ∧
    d.drive.failedRead = false ∧ d.inRange = false) ∧
  match op with
  | .read blockNum =>
    bytes.Fresh f (blockNum.toNat * 512 + d.drive.media.offset) 512 d.drive.files.1
  | .write blockNum buffer =>
    d.drive.media.inHighScoreRange blockNum.toNat = true →
      op.skipsSeek d.drive.media = false ∧
      SecondTakes files filehandlerOpen (blockNum.toNat * 512 + d.drive.media.offset)
        buffer.toList d.drive.files.1

/-- After the call the drive reads through its first handler and has no other one, and
the call acted on its block. -/
structure BlockOp.Usable (f : Handle) (h : Nat) (op : BlockOp)
    (before : ScoredDrive φ) (answer : Bool × List UInt8) (after : ScoredDrive φ) : Prop where
  fileh : after.drive.media.mediaFileh = some f
  closed : after.drive.files.2 = []
  exact_ : op.Exact bytes.seekable.tracking h before.drive answer after.drive

variable {bytes} {filehandlerOpen}

/-- A read opens and closes nothing. -/
theorem MediaTypePO.read_tracking (blockNum count : Nat) (m : MediaTypePO) (s : φ)
    (opened : List Handle) :
    MediaTypePO.read files.tracking blockNum count m (s, opened) =
      (MediaTypePO.read files blockNum count m s).map fun (answer, m', s') =>
        (answer, m', s', opened) := by
  simp only [MediaTypePO.read]
  cases m.mediaFileh with
  | none => rfl
  | some f =>
      simp only [Option.bind_eq_bind, Option.bind_some, FileHandler.tracking_seekUnless,
        FileHandler.tracking_read]
      split_ifs <;> rfl

/-- A read of a block that finds it fresh is one that asks the file. -/
theorem MediaTypePO.read_uncached {m : MediaTypePO} {f : Handle} (fileh : m.mediaFileh = some f)
    {blockNum : Nat} {s : φ}
    (already : (!(blockNum == 0 || blockNum != m.nextBlockNum)) = true →
      bytes.position f s = blockNum * 512 + m.offset)
    (fresh : bytes.Fresh f (blockNum * 512 + m.offset) 512 s) :
    MediaTypePO.read bytes.uncached blockNum 512 m s = MediaTypePO.read files blockNum 512 m s := by
  rw [read_of_fileh _ fileh, read_of_fileh _ fileh]
  by_cases sought : (files.seekUnless (!(blockNum == 0 || blockNum != m.nextBlockNum)) f
      (blockNum * 512 + m.offset : Nat) s).1 = 0
  · simp only [SharedBytes.uncached_seekUnless, sought, if_true,
      SharedBytes.read_uncached_sought already sought fresh]
  · simp only [SharedBytes.uncached_seekUnless, sought, if_false]

/-- Nor does a write outside the range. -/
theorem MediaTypePO.opened_of_outside {m : MediaTypePO} {f : Handle} (fileh : m.mediaFileh = some f)
    {blockNum : Nat} (outside : m.inHighScoreRange blockNum = false) (buffer : List UInt8)
    (s : φ) (opened : List Handle) {err : Bool} {m' : MediaTypePO} {s' : φ × List Handle}
    (written : MediaTypePO.write files.tracking (trackedOpen filehandlerOpen) blockNum buffer m
      (s, opened) = some (err, m', s')) : s'.2 = opened := by
  rw [write_of_outside _ fileh outside] at written
  simp only [FileHandler.tracking_seekUnless, FileHandler.tracking_write] at written
  split_ifs at written <;> · cases written; rfl

/-- A write to the range whose second handler does what it is asked. -/
theorem MediaTypePO.write_of_second {m : MediaTypePO} {blockNum : Nat}
    (scored : m.inHighScoreRange blockNum = true) (seeks : blockNum ≠ m.nextBlockNum)
    {buffer : List UInt8} {h : Handle} {s s' : φ} (opened : filehandlerOpen s = (some h, s'))
    (takes : Takes files h (blockNum * buffer.length + m.offset) buffer s') :
    MediaTypePO.write files filehandlerOpen blockNum buffer m s =
      some (false,
        { m with
          oldFileh := m.mediaFileh, hsFileh := some h, lastBlockNum := INVALID_SECTOR_VALUE },
        (files.close h (files.write h buffer
          (files.seek h (blockNum * buffer.length + m.offset : Nat) s').2).2).2) := by
  obtain ⟨sought, full⟩ := takes
  have swapped : swapHandles filehandlerOpen blockNum m s =
      ({ m with oldFileh := m.mediaFileh, hsFileh := some h, mediaFileh := some h }, s') := by
    simp only [swapHandles, scored, if_true, opened]
  have reverted (s : φ) : revertHandles files blockNum
      { m with oldFileh := m.mediaFileh, hsFileh := some h, mediaFileh := some h,
               lastBlockNum := blockNum } s =
      ({ m with oldFileh := m.mediaFileh, hsFileh := some h,
                lastBlockNum := INVALID_SECTOR_VALUE }, (files.close h s).2) :=
    if_pos scored
  have seeks : (!(blockNum != nextBlockNum { m with
      oldFileh := m.mediaFileh, hsFileh := some h, mediaFileh := some h })) = false :=
    congrArg not (bne_iff_ne.mpr seeks)
  rw [MediaTypePO.write, swapped]
  simp only [Option.bind_eq_bind, Option.bind_some, seeks, FileHandler.seekUnless,
    Bool.false_eq_true, if_false, sought, full, ne_eq, not_true_eq_false, reverted]

/-- The second handler is closed behind the write, which is in the file. -/
theorem MediaTypePO.write_of_second_tracking
    (second : SecondHandles bytes filehandlerOpen) {m : MediaTypePO} {blockNum : Nat}
    (scored : m.inHighScoreRange blockNum = true) (seeks : blockNum ≠ m.nextBlockNum)
    {buffer : List UInt8} (length : buffer.length = 512) {s : φ}
    (takes : SecondTakes files filehandlerOpen (blockNum * 512 + m.offset) buffer s) :
    ∃ g s', MediaTypePO.write files.tracking (trackedOpen filehandlerOpen) blockNum buffer m
        (s, []) = some (false, { m with
          oldFileh := m.mediaFileh, hsFileh := some g, lastBlockNum := INVALID_SECTOR_VALUE },
          s', []) ∧
      bytes.content s' = writeAt (bytes.content s) (blockNum * 512 + m.offset) buffer := by
  rw [← length] at takes ⊢
  obtain ⟨g, opened, takes⟩ := takes
  have pair : trackedOpen filehandlerOpen (s, []) = (some g, (filehandlerOpen s).2, [g]) := by
    simp [trackedOpen, opened]
  have takes' : Takes files.tracking g (blockNum * buffer.length + m.offset) buffer
      ((filehandlerOpen s).2, [g]) := takes
  have written := MediaTypePO.write_of_second scored seeks pair takes'
  simp only [FileHandler.tracking_seek, FileHandler.tracking_write, FileHandler.tracking_close,
    List.erase_cons_head] at written
  refine ⟨g, _, written, ?_⟩
  rw [second.content_close, takes.content_shared bytes, second.content_open]

/-- Between two calls no second handler is open, and the first one stands behind the last
block unless the call before failed or was for the range. -/
structure ScoredDrive.Sound (bytes : SharedBytes files) (f : Handle) (h : Nat)
    (d : ScoredDrive φ) : Prop where
  poised : Poised bytes.seekable.tracking (d.drive.failedRead = false ∧ d.inRange = false) f h d.drive
  none_open : d.drive.files.2 = []

section

variable {f : Handle} {h : Nat} {d : ScoredDrive φ} (sound : d.Sound bytes f h)
include sound

theorem ScoredDrive.Sound.read {blockNum : UInt32}
    (careful : (BlockOp.read blockNum).Careful filehandlerOpen bytes f d) :
    ∃ answer after, (BlockOp.read blockNum).performScored files filehandlerOpen d =
        some (answer, after) ∧
      (BlockOp.read blockNum).Usable bytes f h d answer after ∧ after.Sound bytes f h := by
  obtain ⟨⟨m, ⟨s, opened⟩, failed⟩, touched⟩ := d
  obtain ⟨poised, none_open⟩ := sound
  obtain rfl : opened = [] := none_open
  obtain rfl : m.offset = h := poised.offset
  obtain ⟨answer, last, ⟨s', opened⟩, performed, exact_, poised'⟩ :=
    poised.read (trackedOpen filehandlerOpen) blockNum careful.1
  have performed : (BlockOp.read blockNum).perform files.tracking (trackedOpen filehandlerOpen)
      ⟨m, (s, []), failed⟩ =
        some (answer, ⟨{ m with lastBlockNum := last }, (s', opened), answer.1⟩) := by
    rw [← performed]
    simp only [BlockOp.perform, MediaTypePO.read_tracking,
      MediaTypePO.read_uncached poised.fileh (poised.already_read careful.1) careful.2]
  obtain rfl : opened = [] := by
    have kept := performed
    simp only [BlockOp.perform, MediaTypePO.read_tracking, Option.map_map] at kept
    obtain ⟨result, -, kept⟩ := Option.map_eq_some_iff.mp kept
    exact (congrArg (fun r => r.2.files.2) kept).symm
  refine ⟨answer, ⟨_, _⟩, ?_, ⟨poised'.fileh, rfl, exact_⟩, ⟨poised', rfl⟩⟩
  rw [BlockOp.performScored, performed]
  rfl

theorem ScoredDrive.Sound.write_outside {blockNum : UInt32} {buffer : Vector UInt8 512}
    (outside : d.drive.media.inHighScoreRange blockNum.toNat = false)
    (careful : (BlockOp.write blockNum buffer).Careful filehandlerOpen bytes f d) :
    ∃ answer after, (BlockOp.write blockNum buffer).performScored files filehandlerOpen d =
        some (answer, after) ∧
      (BlockOp.write blockNum buffer).Usable bytes f h d answer after ∧ after.Sound bytes f h := by
  obtain ⟨⟨m, ⟨s, opened⟩, failed⟩, touched⟩ := d
  obtain ⟨poised, none_open⟩ := sound
  obtain rfl : opened = [] := none_open
  obtain ⟨answer, last, ⟨s', opened⟩, performed, exact_, poised'⟩ :=
    poised.write (trackedOpen filehandlerOpen) blockNum buffer outside careful.1
  -- a write does not read
  have performed : (BlockOp.write blockNum buffer).perform files.tracking
      (trackedOpen filehandlerOpen) ⟨m, (s, []), failed⟩ =
        some (answer, ⟨{ m with lastBlockNum := last }, (s', opened), false⟩) := performed
  obtain rfl : opened = [] := by
    have kept := performed
    rw [BlockOp.perform] at kept
    obtain ⟨⟨err, m', s''⟩, written, kept⟩ := Option.map_eq_some_iff.mp kept
    have none_open := MediaTypePO.opened_of_outside poised.fileh outside buffer.toList s [] written
    have same : s'' = (s', opened) := congrArg (fun r => r.2.files) kept
    rw [same] at none_open
    exact none_open
  refine ⟨answer, ⟨_, m.inHighScoreRange blockNum.toNat⟩, ?_, ⟨poised'.fileh, rfl, exact_⟩,
    ⟨?_, rfl⟩⟩
  · rw [BlockOp.performScored, performed]
    rfl
  · exact ⟨poised'.fileh, poised'.offset, poised'.last_lt,
      fun last _ => poised'.position last trivial⟩

theorem ScoredDrive.Sound.write_range (second : SecondHandles bytes filehandlerOpen)
    {blockNum : UInt32} {buffer : Vector UInt8 512}
    (scored : d.drive.media.inHighScoreRange blockNum.toNat = true)
    (careful : (BlockOp.write blockNum buffer).Careful filehandlerOpen bytes f d) :
    ∃ answer after, (BlockOp.write blockNum buffer).performScored files filehandlerOpen d =
        some (answer, after) ∧
      (BlockOp.write blockNum buffer).Usable bytes f h d answer after ∧ after.Sound bytes f h := by
  obtain ⟨⟨m, ⟨s, opened⟩, failed⟩, touched⟩ := d
  obtain ⟨poised, none_open⟩ := sound
  obtain rfl : opened = [] := none_open
  obtain ⟨seeks, takes⟩ := careful.2 scored
  obtain rfl := poised.offset
  have seeks : blockNum.toNat ≠ m.nextBlockNum := by simpa [BlockOp.skipsSeek] using seeks
  obtain ⟨g, s', written, content⟩ := MediaTypePO.write_of_second_tracking second scored seeks
    (show buffer.toList.length = 512 by simp) takes
  have place : blockNum.toNat * 512 + m.offset = m.offset + 512 * blockNum.toNat := by omega
  rw [place] at content
  refine ⟨(false, []), ⟨⟨{ m with
      oldFileh := m.mediaFileh, hsFileh := some g, lastBlockNum := INVALID_SECTOR_VALUE },
      (s', []), false⟩, m.inHighScoreRange blockNum.toNat⟩, ?_,
    ⟨poised.fileh, rfl, fun _ => content⟩, ⟨?_, rfl⟩⟩
  · rw [BlockOp.performScored, BlockOp.perform, written]
    rfl
  · refine ⟨poised.fileh, rfl, show INVALID_SECTOR_VALUE < 4294967296 by decide, ?_⟩
    rintro - ⟨-, untouched⟩
    exact absurd (scored.symm.trans untouched) (by decide)

theorem ScoredDrive.Sound.step (second : SecondHandles bytes filehandlerOpen) {op : BlockOp}
    (careful : op.Careful filehandlerOpen bytes f d) :
    ∃ answer after, op.performScored files filehandlerOpen d = some (answer, after) ∧
      op.Usable bytes f h d answer after ∧ after.Sound bytes f h := by
  cases op with
  | read blockNum => exact sound.read careful
  | write blockNum buffer =>
      cases scored : d.drive.media.inHighScoreRange blockNum.toNat with
      | true => exact sound.write_range second scored careful
      | false => exact sound.write_outside scored careful

end

/-- A new `MediaTypePO` after `mount`. -/
def scoredDrive (files : FileHandler φ) (f : Handle) (disksize : Nat) (stack : Vector UInt8 64)
    (s : φ) : ScoredDrive φ :=
  let (m, s) := mount files f disksize stack {} s
  ⟨⟨m, (s, []), false⟩, false⟩

/-- In every run of careful calls on a mounted 2IMG file, each call leaves the drive
usable. -/
theorem keeps_usable (second : SecondHandles bytes filehandlerOpen)
    {f : Handle} (disksize : Nat) {stack : Vector UInt8 64} {s : φ}
    (image : is2IMG (overlay stack.toList 0 (files.read f 64 s).1) = true) :
    Machine.Keeps (BlockOp.performScored files filehandlerOpen)
      (BlockOp.Careful filehandlerOpen bytes f) (fun op => op.Usable bytes f 64)
      (scoredDrive files f disksize stack s) := by
  obtain ⟨fileh, last, offset⟩ := mount_spec files f disksize stack s
  rw [if_pos image] at offset
  have initial : (scoredDrive files f disksize stack s).Sound bytes f 64 := by
    refine ⟨⟨fileh, offset, ?_, fun known => absurd last known⟩, rfl⟩
    exact Nat.lt_of_le_of_lt (Nat.le_of_eq last) (by decide)
  apply Machine.Keeps.of_invariant (ScoredDrive.Sound bytes f 64) initial
  intro op d sound careful
  exact sound.step second careful

end

end Apple

section

open Atari.MediaTypeATR Apple Machine

/-- In every run of careful calls on a mounted image with a high score sector or range,
each call leaves the drive usable. -/
theorem high_score_drives_usable {φ : Type} {files : FileHandler φ} (bytes : SharedBytes files)
    (f : Handle) (disksize : Nat) (s₀ : φ) :
    (∀ host, (∀ filehandlerOpen, host = some filehandlerOpen →
        SecondHandles bytes filehandlerOpen) →
      ∀ d s, Atari.MediaTypeATR.mount files f disksize {} s₀ = some (d, s) →
      d.diskType = .atr → d.highScoreSector ≠ 0 → Gapless d →
      Keeps (SectorOp.perform files.tracking (host.map trackedOpen))
        (fun op state => op.InRange state.1 ∧ op.Careful bytes host f state)
        (fun op => op.Usable bytes f) (d, s, [])) ∧
    ∀ filehandlerOpen, SecondHandles bytes filehandlerOpen →
      ∀ stack : Vector UInt8 64,
      MediaTypePO.is2IMG (overlay stack.toList 0 (files.read f 64 s₀).1) = true →
      (scoredDrive files f disksize stack s₀).drive.media.highScoreEnabled = true →
      Keeps (BlockOp.performScored files filehandlerOpen)
        (BlockOp.Careful filehandlerOpen bytes f) (fun op => op.Usable bytes f 64)
        (scoredDrive files f disksize stack s₀) :=
  ⟨fun _ second _ _ mounted atr scored gapless =>
      Atari.MediaTypeATR.keeps_usable second mounted atr scored gapless,
    fun _ second _ image _ => Apple.keeps_usable second disksize image⟩

/-- A disk of three sectors whose second one is the high score sector. -/
def scoredDisk : List UInt8 := (header 128 3).set 13 2 ++ List.replicate 384 0x55

/-- A 2IMG file of two blocks whose second one is the high score range. -/
def scoredImage : List UInt8 :=
  [0x32, 0x49, 0x4D, 0x47] ++ List.replicate 44 0 ++ [0x48, 0x49, 0x01, 0x00] ++
    List.replicate 12 0 ++ List.replicate 1024 0x11

theorem byteFile_secondHandles : SecondHandles ByteFile.bytes.shared (fun s => (some 1, s)) where
  content_open _ := rfl
  content_close _ _ := rfl

theorem snapshotFile_secondHandles :
    SecondHandles SnapshotFile.bytes (fun s => (some 1, s)) where
  content_open _ := rfl
  content_close _ _ := rfl

/-- The file of `scoredDisk`, before any handler has read from it. -/
def scoredSnapshot : SnapshotFile := { file := ⟨scoredDisk, fun _ => 0⟩ }

/-- Writing the high score sector, and the high score block, of a new drive. -/
theorem high_score_drives_usable_of_first_write :
    (∃ d s, Atari.MediaTypeATR.mount SnapshotFile.handler 0 400 {} scoredSnapshot =
        some (d, s) ∧ ∃ answer after,
      (SectorOp.write 2 true (Vector.replicate 512 0x77)).perform SnapshotFile.handler.tracking
        (some (trackedOpen fun s => (some 1, s))) (d, s, []) = some (answer, after) ∧
      (SectorOp.write 2 true (Vector.replicate 512 0x77)).Usable SnapshotFile.bytes 0 (d, s, [])
        answer after) ∧
    ∃ answer after, (BlockOp.write 1 (Vector.replicate 512 0x77)).performScored ByteFile.handler
        (fun s => (some 1, s))
        (scoredDrive ByteFile.handler 0 1088 (Vector.replicate 64 0) ⟨scoredImage, fun _ => 0⟩) =
          some (answer, after) ∧
      (BlockOp.write 1 (Vector.replicate 512 0x77)).Usable ByteFile.bytes.shared 0 64
        (scoredDrive ByteFile.handler 0 1088 (Vector.replicate 64 0) ⟨scoredImage, fun _ => 0⟩)
        answer after := by
  constructor
  · have computed : (Atari.MediaTypeATR.mount SnapshotFile.handler 0 400 {}
        scoredSnapshot).map (fun r =>
          (r.1.diskType, [r.1.diskSectorSize, r.1.highScoreSector, r.1.diskNumSectors])) =
        some (.atr, [128, 2, 3]) := by
      decide +kernel
    obtain ⟨⟨d, s⟩, mounted, values⟩ := Option.map_eq_some_iff.mp computed
    simp only [Prod.mk.injEq, List.cons.injEq, and_true] at values
    obtain ⟨atr, size, scored, count⟩ := values
    have keeps := (high_score_drives_usable SnapshotFile.bytes 0 400 scoredSnapshot).1
      (some fun s => (some 1, s)) (by rintro _ ⟨⟩; exact snapshotFile_secondHandles) d s mounted
      atr (by rw [scored]; decide) (.inl size)
    refine ⟨d, s, mounted, keeps _ .refl _ ⟨⟨by decide, ?_⟩, 1, rfl, ?_⟩⟩
    · rw [count]
      decide
    · exact SnapshotFile.takes _ _ _ _
  · have keeps := (high_score_drives_usable ByteFile.bytes.shared 0 1088
      ⟨scoredImage, fun _ => 0⟩).2 (fun s => (some 1, s)) byteFile_secondHandles
      (Vector.replicate 64 0) (by decide +kernel) (by decide +kernel)
    refine keeps _ .refl _ ⟨?_, fun _ => ⟨by decide +kernel, 1, rfl, ?_⟩⟩
    · intro skips
      revert skips
      decide +kernel
    · exact ⟨ByteFile.reliable.seek_ok _ _ _, ByteFile.reliable.write_ok _ _ _⟩

/-- When the seek on the second handler fails, the drive is left with that handler. After
block 0 was read, the high score block is written over the header of the file. And a
handler that has the file cached reads the old bytes of the high score sector. -/
theorem high_score_handler_stays :
    (∃ d s answer after, Atari.MediaTypeATR.mount ScriptedFile.handler 0 400 {}
        ⟨⟨scoredDisk, fun _ => 0⟩, [none, none, some 0]⟩ = some (d, s) ∧
      (SectorOp.write 2 true (Vector.replicate 512 0x77)).perform ScriptedFile.handler.tracking
        (some (trackedOpen fun s => (some 1, s))) (d, s, []) = some (answer, after) ∧
      answer.1 = true ∧ after.1.diskFileh = some 1 ∧ after.2.2 = [1] ∧
      ¬ (SectorOp.write 2 true (Vector.replicate 512 0x77)).Usable ScriptedFile.bytes.shared 0
        (d, s, []) answer after) ∧
    (∃ first read second after, (BlockOp.read 0).performScored ByteFile.handler
        (fun s => (some 1, s))
        (scoredDrive ByteFile.handler 0 1088 (Vector.replicate 64 0) ⟨scoredImage, fun _ => 0⟩) =
          some (first, read) ∧
      (BlockOp.write 1 (Vector.replicate 512 0x77)).performScored ByteFile.handler
        (fun s => (some 1, s)) read = some (second, after) ∧
      second.1 = false ∧ after.drive.files.1.content.take 4 = [0x77, 0x77, 0x77, 0x77] ∧
      ¬ (BlockOp.write 1 (Vector.replicate 512 0x77)).Usable ByteFile.bytes.shared 0 64 read
        second after) ∧
    ∃ d s first written second after,
      Atari.MediaTypeATR.mount SnapshotFile.handler 0 400 {} scoredSnapshot = some (d, s) ∧
      (SectorOp.write 2 true (Vector.replicate 512 0x77)).perform SnapshotFile.handler.tracking
        (some (trackedOpen fun s => (some 1, s))) (d, s, []) = some (first, written) ∧
      (SectorOp.read 2).perform SnapshotFile.handler.tracking
        (some (trackedOpen fun s => (some 1, s))) written = some (second, after) ∧
      first.1 = false ∧ second.1 = false ∧
      ¬ (SectorOp.read 2).Usable SnapshotFile.bytes 0 written second after := by
  refine ⟨?_, ?_, ?_⟩
  · have computed : (Atari.MediaTypeATR.mount ScriptedFile.handler 0 400 {}
        ⟨⟨scoredDisk, fun _ => 0⟩, [none, none, some 0]⟩).bind (fun r =>
          ((SectorOp.write 2 true (Vector.replicate 512 0x77)).perform
            ScriptedFile.handler.tracking (some (trackedOpen fun s => (some 1, s)))
            (r.1, r.2, [])).map fun r' => (r'.1.1, r'.2.1.diskFileh, r'.2.2.2)) =
        some (true, some 1, [1]) := by
      decide +kernel
    obtain ⟨⟨d, s⟩, mounted, rest⟩ := Option.bind_eq_some_iff.mp computed
    obtain ⟨⟨answer, after⟩, performed, values⟩ := Option.map_eq_some_iff.mp rest
    simp only [Prod.mk.injEq] at values
    obtain ⟨failed, fileh, opened⟩ := values
    refine ⟨d, s, answer, after, mounted, performed, failed, fileh, opened, fun usable => ?_⟩
    have closed := usable.closed
    rw [opened] at closed
    cases closed
  · have computed : ((BlockOp.read 0).performScored ByteFile.handler (fun s => (some 1, s))
        (scoredDrive ByteFile.handler 0 1088 (Vector.replicate 64 0)
          ⟨scoredImage, fun _ => 0⟩)).bind (fun r =>
          ((BlockOp.write 1 (Vector.replicate 512 0x77)).performScored ByteFile.handler
            (fun s => (some 1, s)) r.2).map fun r' =>
              (r'.1.1, r'.2.drive.files.1.content.take 4, r.2.drive.files.1.content)) =
        some (false, [0x77, 0x77, 0x77, 0x77], scoredImage) := by
      decide +kernel
    obtain ⟨⟨first, read⟩, performed, rest⟩ := Option.bind_eq_some_iff.mp computed
    obtain ⟨⟨second, after⟩, performed', values⟩ := Option.map_eq_some_iff.mp rest
    simp only [Prod.mk.injEq] at values
    obtain ⟨success, head, before⟩ := values
    refine ⟨first, read, second, after, performed, performed', success, head, fun usable => ?_⟩
    have written : after.drive.files.1.content = writeAt read.drive.files.1.content
        (64 + 512 * 1) (Vector.replicate 512 (0x77 : UInt8)).toList := usable.exact_ success
    rw [written, before, take_writeAt _ _ _ (by decide) (by decide +kernel)] at head
    revert head
    decide +kernel
  · have computed : (Atari.MediaTypeATR.mount SnapshotFile.handler 0 400 {} scoredSnapshot).bind
        (fun r => ((SectorOp.write 2 true (Vector.replicate 512 0x77)).perform
            SnapshotFile.handler.tracking (some (trackedOpen fun s => (some 1, s)))
            (r.1, r.2, [])).bind fun r' =>
          ((SectorOp.read 2).perform SnapshotFile.handler.tracking
            (some (trackedOpen fun s => (some 1, s))) r'.2).map fun r'' =>
              (r'.1.1, r''.1.1, decide (r''.1.2 =
                slice r'.2.2.1.file.content (sectorToOffset r'.2.1 2) (r'.2.1.sectorSize 2)))) =
        some (false, false, false) := by
      decide +kernel
    obtain ⟨⟨d, s⟩, mounted, rest⟩ := Option.bind_eq_some_iff.mp computed
    obtain ⟨⟨first, written⟩, performed, rest⟩ := Option.bind_eq_some_iff.mp rest
    obtain ⟨⟨second, after⟩, performed', values⟩ := Option.map_eq_some_iff.mp rest
    simp only [Prod.mk.injEq] at values
    obtain ⟨success, success', stale⟩ := values
    refine ⟨d, s, first, written, second, after, mounted, performed, performed', success, success',
      fun usable => ?_⟩
    exact of_decide_eq_false stale (usable.exact_ success').1

end

end FujiNet
