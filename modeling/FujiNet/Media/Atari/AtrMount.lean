import FujiNet.Media.Atari.AtrSectors

/-!
# Mounting any ATR file

`MediaTypeATR::mount` takes the size of a sector and the number of paragraphs, of
16 bytes each, as they stand in the header. A size of zero makes it divide by zero,
and with a size beyond the sector buffer every later transfer of the fourth sector
leaves the buffer. All other headers are harmless.

The PERCOM block comes out of a table of known geometries. The disks of eight
inches are the entries that do not multiply out: the number of tracks is changed
and the 18 sectors of a track are kept.
-/

namespace FujiNet

/-- The same handlers with a list of how many bytes each read and each write was to
transfer, the last one first. -/
def FileHandler.recording {φ : Type*} (files : FileHandler φ) : FileHandler (φ × List Nat) where
  seek h offset s := ((files.seek h offset s.1).1, (files.seek h offset s.1).2, s.2)
  read h n s := ((files.read h n s.1).1, (files.read h n s.1).2, n :: s.2)
  write h data s := ((files.write h data s.1).1, (files.write h data s.1).2, data.length :: s.2)
  flush h s := ((files.flush h s.1).1, (files.flush h s.1).2, s.2)
  close h s := ((files.close h s.1).1, (files.close h s.1).2, s.2)

namespace Atari

namespace PercomBlock

/-- The sectors of a drive of this layout; sides are counted from 0. -/
def sectors (p : PercomBlock) : Nat :=
  p.numTracks.toNat * (p.numSides.toNat + 1) * u16 p.sectorsPerTrackL p.sectorsPerTrackH

def sectorSize (p : PercomBlock) : Nat := u16 p.sectorSizeL p.sectorSizeH

/-- The block multiplies out to the disk and has its sector size. -/
structure Describes (p : PercomBlock) (d : MediaType) : Prop where
  sectors : p.sectors = d.diskNumSectors
  sectorSize : p.sectorSize = d.diskSectorSize

end PercomBlock

namespace MediaType

/-- Every entry of the table has the sector size it was given. -/
theorem derivedBlock_sectorSize (numSectors : Nat) {size : Nat} (word : size < 65536) :
    (derivedBlock numSectors size).sectorSize = size := by
  have bytes : (derivedBlock numSectors size).sectorSizeL = lobyte size ∧
      (derivedBlock numSectors size).sectorSizeH = hibyte size := by
    simp only [derivedBlock]
    split_ifs <;> exact ⟨rfl, rfl⟩
  rw [PercomBlock.sectorSize, bytes.1, bytes.2, u16_lobyte_hibyte word]

/-- The entries of the table for disks of eight inches. -/
def EightInch (numSectors size : Nat) : Prop :=
  (numSectors = 2002 ∨ numSectors = 4004) ∧ (size = 128 ∨ size = 256)

/-- Exactly the other entries multiply out. -/
theorem derivedBlock_sectors_iff {numSectors : Nat} (word : numSectors < 65536) (size : Nat) :
    (derivedBlock numSectors size).sectors = numSectors ↔ ¬ EightInch numSectors size := by
  simp only [derivedBlock]
  split_ifs with mfm ssdd dsdd dsqd sssd8 ssdd8 dssd8 dsdd8 hd
  · subst mfm
    exact iff_of_true (by simp [PercomBlock.sectors, u16]) (by simp [EightInch])
  · obtain ⟨rfl, rfl⟩ := ssdd
    exact iff_of_true (by simp [PercomBlock.sectors, u16]) (by simp [EightInch])
  · subst dsdd
    exact iff_of_true (by simp [PercomBlock.sectors, u16]) (by simp [EightInch])
  · subst dsqd
    exact iff_of_true (by simp [PercomBlock.sectors, u16]) (by simp [EightInch])
  · obtain ⟨rfl, rfl⟩ := sssd8
    exact iff_of_false (by decide) (by simp [EightInch])
  · obtain ⟨rfl, rfl⟩ := ssdd8
    exact iff_of_false (by decide) (by simp [EightInch])
  · obtain ⟨rfl, rfl⟩ := dssd8
    exact iff_of_false (by decide) (by simp [EightInch])
  · obtain ⟨rfl, rfl⟩ := dsdd8
    exact iff_of_false (by decide) (by simp [EightInch])
  · subst hd
    exact iff_of_true (by simp [PercomBlock.sectors, u16]) (by simp [EightInch])
  · refine iff_of_true ?_ ?_
    · show 1 * (0 + 1) * u16 (lobyte numSectors) (hibyte numSectors) = numSectors
      rw [u16_lobyte_hibyte word]
      omega
    · rintro ⟨rfl | rfl, rfl | rfl⟩ <;> simp_all

end MediaType

namespace MediaTypeATR

/-! ## Headers -/

/-- The size of a sector, as the header has it. -/
def headerSectorSize (buf : List UInt8) : Nat := u16 (buf.getD 4 0) (buf.getD 5 0)

/-- The number of paragraphs, as the header has it. -/
def headerParagraphs (buf : List UInt8) : Nat :=
  u16 (buf.getD 2 0) (buf.getD 3 0) + 65536 * (buf.getD 6 0).toNat

/-- The number of sectors on the disk: the first three have 128 bytes also where the
others have 256. -/
def headerSectors (buf : List UInt8) : Nat :=
  if headerSectorSize buf = 256 then headerParagraphs buf * 16 / headerSectorSize buf + 2
  else headerParagraphs buf * 16 / headerSectorSize buf

theorem setGeometry_of_zero {buf : List UInt8} (zero : headerSectorSize buf = 0) (d : Disk) :
    setGeometry buf d = none :=
  if_pos zero

theorem setGeometry_of_ne_zero {buf : List UInt8} (nonzero : headerSectorSize buf ≠ 0) (d : Disk) :
    setGeometry buf d = some { d with
      diskSectorSize := headerSectorSize buf, diskNumSectors := headerSectors buf,
      percomBlock :=
        MediaType.derivedBlock (headerSectors buf % 65536) (headerSectorSize buf) } :=
  if_neg nonzero

section

variable {φ : Type} (files : FileHandler φ)

/-- The header of an image that `mount` does not refuse. -/
def acceptedHeader (f : Handle) (s : φ) : Option (List UInt8) :=
  let (i, s) := files.seek f 0 s
  let buf := (files.read f 16 s).1
  if i < 0 ∨ buf.length ≠ 16 ∨ u16 (buf.getD 0 0) (buf.getD 1 0) ≠ ATR_MAGIC_HEADER then none
  else some buf

variable {files} {f : Handle} {disksize : Nat} {d d' : Disk} {s s' : φ} {buf : List UInt8}

theorem mount_of_refused (disksize : Nat) (d : Disk)
    (refused : acceptedHeader files f s = none) :
    ∃ s', mount files f disksize d s = some ({ d with diskType := .unknown }, s') := by
  have asked : (files.seek f 0 s).1 < 0 ∨ (files.read f 16 (files.seek f 0 s).2).1.length ≠ 16 ∨
      u16 ((files.read f 16 (files.seek f 0 s).2).1.getD 0 0)
        ((files.read f 16 (files.seek f 0 s).2).1.getD 1 0) ≠ ATR_MAGIC_HEADER := by
    simpa only [acceptedHeader, ite_eq_left_iff, reduceCtorEq, imp_false, not_not] using refused
  simp only [mount]
  split_ifs with seeked short magic
  · exact ⟨_, rfl⟩
  · exact ⟨_, rfl⟩
  · exact ⟨_, rfl⟩
  · exact absurd asked (not_or.mpr ⟨seeked, not_or.mpr ⟨short, magic⟩⟩)

theorem mount_of_accepted (disksize : Nat) (d : Disk)
    (accepted : acceptedHeader files f s = some buf) :
    ∃ s', mount files f disksize d s =
      (setGeometry buf { d with diskType := .unknown }).map fun d =>
        ({ d with
          diskFileh := some f, diskImageSize := disksize, diskLastSector := INVALID_SECTOR_VALUE,
          highScoreSector := u16 (buf.getD 13 0) (buf.getD 14 0),
          highScoreNumSectors := buf.getD 12 0 - 1, diskType := .atr }, s') := by
  simp only [acceptedHeader, Option.ite_none_left_eq_some, not_or, not_not] at accepted
  obtain ⟨⟨sought, length, magic⟩, got⟩ := accepted
  have got := Option.some.inj got
  rw [got] at length magic
  refine ⟨(files.read f 16 (files.seek f 0 s).2).2, ?_⟩
  simp only [mount, if_neg sought, got, length, magic]
  cases setGeometry buf { d with diskType := .unknown } <;> rfl

/-- A mounted disk has the geometry of the header. -/
theorem geometry_of_mount (accepted : acceptedHeader files f s = some buf)
    (mounted : mount files f disksize d s = some (d', s')) :
    headerSectorSize buf ≠ 0 ∧ d'.diskType = .atr ∧ d'.diskSectorSize = headerSectorSize buf ∧
      d'.diskNumSectors = headerSectors buf ∧
      d'.percomBlock =
        MediaType.derivedBlock (headerSectors buf % 65536) (headerSectorSize buf) := by
  obtain ⟨t, eq⟩ := mount_of_accepted disksize d accepted
  rw [eq] at mounted
  by_cases zero : headerSectorSize buf = 0
  · rw [setGeometry_of_zero zero] at mounted
    cases mounted
  · rw [setGeometry_of_ne_zero zero] at mounted
    cases mounted
    exact ⟨zero, rfl, rfl, rfl, rfl⟩

theorem headerSectorSize_lt (buf : List UInt8) : headerSectorSize buf < 65536 := u16_lt _ _

end

/-! ## The block after mounting -/

/-- The header is that of a disk of eight inches: 2002 or 4004 sectors of 128 bytes,
which are 8 paragraphs each, or of 256 bytes, where three sectors take 24 paragraphs. -/
def EightInchHeader (buf : List UInt8) : Prop :=
  headerSectorSize buf = 128 ∧
      (headerParagraphs buf / 8 = 2002 ∨ headerParagraphs buf / 8 = 4004) ∨
    headerSectorSize buf = 256 ∧
      (headerParagraphs buf / 16 = 2000 ∨ headerParagraphs buf / 16 = 4002)

theorem eightInch_header_iff (buf : List UInt8) :
    MediaType.EightInch (headerSectors buf) (headerSectorSize buf) ↔ EightInchHeader buf := by
  simp only [MediaType.EightInch, EightInchHeader, headerSectors]
  split_ifs with double
  · rw [double]
    omega
  · by_cases single : headerSectorSize buf = 128
    · rw [single]
      omega
    · simp [single, double]

/-- The block of a mounted disk of at most 65535 sectors, of whatever size, describes it,
unless the disk is one of eight inches. -/
theorem percom_block_describes_iff {φ : Type} {files : FileHandler φ} {f : Handle}
    {disksize : Nat} {d d' : Disk} {s s' : φ} {buf : List UInt8}
    (accepted : acceptedHeader files f s = some buf)
    (mounted : mount files f disksize d s = some (d', s'))
    (count : d'.diskNumSectors ≤ 65535) :
    d'.percomBlock.Describes d' ↔ ¬ EightInchHeader buf := by
  obtain ⟨-, -, sectorSize, numSectors, block⟩ := geometry_of_mount accepted mounted
  have word : headerSectors buf < 65536 := by omega
  have multiplies := MediaType.derivedBlock_sectors_iff word (headerSectorSize buf)
  rw [eightInch_header_iff] at multiplies
  rw [Nat.mod_eq_of_lt word] at block
  constructor
  · intro describes
    have sectors := describes.sectors
    rw [block, numSectors] at sectors
    exact multiplies.mp sectors
  · intro other
    constructor
    · rw [block, numSectors]
      exact multiplies.mpr other
    · rw [block, sectorSize]
      exact MediaType.derivedBlock_sectorSize _ (headerSectorSize_lt buf)

/-- The header of a disk of 1040 sectors. -/
theorem percom_block_describes_enhanced :
    ∃ d' s', mount ByteFile.handler 0 133136 {} ⟨header 128 1040, fun _ => 0⟩ = some (d', s') ∧
      (d'.percomBlock.Describes d' ↔ ¬ EightInchHeader (header 128 1040)) := by
  have computed : (mount ByteFile.handler 0 133136 {} ⟨header 128 1040, fun _ => 0⟩).map
      (fun r => r.1.diskNumSectors) = some 1040 := by
    decide +kernel
  obtain ⟨⟨d', s'⟩, mounted, count⟩ := Option.map_eq_some_iff.mp computed
  refine ⟨d', s', mounted, percom_block_describes_iff ?_ mounted ?_⟩
  · decide +kernel
  · rw [show d'.diskNumSectors = 1040 from count]
    decide

/-- The single-sided disk of 2002 sectors is described as 77 tracks of 18 sectors. -/
theorem percom_block_of_eight_inches :
    ∃ d' s', mount ByteFile.handler 0 256272 {} ⟨header 128 2002, fun _ => 0⟩ = some (d', s') ∧
      d'.diskType = .atr ∧ d'.diskSectorSize = 128 ∧ d'.diskNumSectors = 2002 ∧
      d'.percomBlock.sectors = 1386 ∧ ¬ d'.percomBlock.Describes d' := by
  have computed : (mount ByteFile.handler 0 256272 {} ⟨header 128 2002, fun _ => 0⟩).map
      (fun r => (r.1.diskType, r.1.diskSectorSize, r.1.diskNumSectors, r.1.percomBlock.sectors)) =
      some (.atr, 128, 2002, 1386) := by
    decide +kernel
  obtain ⟨⟨d', s'⟩, mounted, values⟩ := Option.map_eq_some_iff.mp computed
  simp only [Prod.mk.injEq] at values
  obtain ⟨atr, size, count, sectors⟩ := values
  refine ⟨d', s', mounted, atr, size, count, sectors, fun describes => ?_⟩
  have same := describes.sectors
  rw [sectors, count] at same
  omega

/-! ## Transfers after mounting -/

/-- The handler a call goes to. -/
def SectorOp.fileh {φ : Type} (host : Option (φ → Option Handle × φ)) (op : SectorOp) :
    Disk × φ → Option Handle
  | (d, s) =>
    match op with
    | .read _ => d.diskFileh
    | .write .. => (swapHandles host d s).2.1.diskFileh

/-- The host's function beside a list of transfers. -/
def recordingHost {φ : Type} (host : Option (φ → Option Handle × φ)) :
    Option (φ × List Nat → Option Handle × φ × List Nat) :=
  host.map fun filehandlerOpen s => ((filehandlerOpen s.1).1, (filehandlerOpen s.1).2, s.2)

section

variable {φ : Type} (files : FileHandler φ) (host : Option (φ → Option Handle × φ))

/-- A mounted disk is safe: no sector is larger than the sector buffer, and in every
run of calls on its sectors no transfer is, and a call that goes to a handler returns. -/
def SafeDisk (d : Disk) (s : φ) : Prop :=
  (∀ sectornum, d.sectorSize sectornum ≤ DISK_SECTORBUF_SIZE) ∧
    ∀ state, Machine.Reaches (SectorOp.perform files.recording (recordingHost host))
        (fun op state _ _ => op.InRange state.1) (d, s, []) state →
      (∀ n ∈ state.2.2, n ≤ DISK_SECTORBUF_SIZE) ∧
      ∀ op : SectorOp, op.InRange state.1 → op.fileh (recordingHost host) state ≠ none →
        op.perform files.recording (recordingHost host) state ≠ none

/-- Mounting returns, and leaves a safe disk unless it refused the image. -/
def MountSafe (f : Handle) (disksize : Nat) (d : Disk) (s : φ) : Prop :=
  ∃ d' s', mount files f disksize d s = some (d', s') ∧
    (d'.diskType ≠ .unknown → SafeDisk files host d' s')

variable {files host}

/-- Between two calls the sectors fit into the buffer, and all transfers did. -/
structure Fitting (d : Disk) (transfers : List Nat) : Prop where
  sectorSize_le : d.diskSectorSize ≤ DISK_SECTORBUF_SIZE
  transfers : ∀ n ∈ transfers, n ≤ DISK_SECTORBUF_SIZE

section Step

variable {d : Disk} {s : φ} {transfers : List Nat} (fitting : Fitting d transfers)
include fitting

theorem Fitting.sector (sectornum : Nat) : d.sectorSize sectornum ≤ DISK_SECTORBUF_SIZE := by
  have size := fitting.sectorSize_le
  simp only [MediaType.sectorSize, DISK_SECTORBUF_SIZE] at size ⊢
  split_ifs <;> omega

theorem Fitting.keep {d' : Disk} (size : d'.diskSectorSize = d.diskSectorSize) :
    Fitting d' transfers where
  sectorSize_le := size ▸ fitting.sectorSize_le
  transfers := fitting.transfers

theorem Fitting.transfer {d' : Disk} (size : d'.diskSectorSize = d.diskSectorSize) {n : Nat}
    (fits : n ≤ DISK_SECTORBUF_SIZE) : Fitting d' (n :: transfers) where
  sectorSize_le := size ▸ fitting.sectorSize_le
  transfers := List.forall_mem_cons.mpr ⟨fits, fitting.transfers⟩

omit fitting in
theorem recording_seekUnless (files : FileHandler φ) (s : φ) (transfers : List Nat) (skip : Bool)
    (h : Handle) (offset : Int) :
    ∃ e s', files.recording.seekUnless skip h offset (s, transfers) = (e, s', transfers) := by
  cases skip <;> exact ⟨_, _, rfl⟩

/-- A read through a handler that is there. -/
theorem Fitting.read (read_le : ∀ h n s, (files.read h n s).1.length ≤ n) {f : Handle}
    (fileh : d.diskFileh = some f) {sectornum : Nat} (inside : sectornum ≤ d.diskNumSectors) :
    ∃ answer d' s' transfers',
      MediaTypeATR.read files.recording sectornum d (s, transfers) =
        some (answer, d', s', transfers') ∧ Fitting d' transfers' := by
  have room := fitting.sector sectornum
  obtain ⟨e, s', sought⟩ := recording_seekUnless files s transfers
    (sectornum == d.diskLastSector + 1) f (sectorToOffset d sectornum)
  have delivered : (files.recording.read f (d.sectorSize sectornum) (s', transfers)).1.length ≤
      DISK_SECTORBUF_SIZE := Nat.le_trans (read_le f (d.sectorSize sectornum) s') room
  rw [read_of_fileh files.recording inside fileh, sought]
  dsimp only
  by_cases failed : e ≠ 0
  · rw [if_pos failed]
    exact ⟨_, _, _, _, rfl, fitting.keep rfl⟩
  · rw [if_neg failed, if_neg (Nat.not_lt.mpr delivered)]
    have put (d' : Disk) (size : d'.diskSectorSize = d.diskSectorSize) :
        Fitting d' (d.sectorSize sectornum :: transfers) := fitting.transfer size room
    exact ⟨_, _, _, _, rfl, put _ rfl⟩

omit fitting in
theorem swapHandles_recording (host : Option (φ → Option Handle × φ)) (d : Disk) (s : φ)
    (transfers : List Nat) :
    ∃ handles fileh s', swapHandles (recordingHost host) d (s, transfers) =
      (handles, { d with diskFileh := fileh }, s', transfers) := by
  simp only [swapHandles]
  split
  · cases host with
    | none => exact ⟨_, d.diskFileh, _, rfl⟩
    | some filehandlerOpen => exact ⟨_, (filehandlerOpen s).1, _, rfl⟩
  · exact ⟨_, d.diskFileh, _, rfl⟩

/-- A write through a handler that is there, once it was opened. -/
theorem Fitting.write (files : FileHandler φ)
    (fileh : (swapHandles (recordingHost host) d (s, transfers)).2.1.diskFileh ≠ none)
    {sectornum : Nat} (inside : sectornum ≤ d.diskNumSectors) (verify : Bool) :
    ∃ err d' s' transfers',
      MediaTypeATR.write files.recording (recordingHost host) sectornum verify d (s, transfers) =
        some (err, d', s', transfers') ∧ Fitting d' transfers' := by
  have room := fitting.sector sectornum
  obtain ⟨⟨oldFileh, hsFileh⟩, fileh', s', swapped⟩ :=
    swapHandles_recording host d s transfers
  rw [swapped] at fileh
  obtain ⟨f, opened⟩ := Option.ne_none_iff_exists'.mp fileh
  obtain rfl : fileh' = some f := opened
  obtain ⟨e, s'', sought⟩ := recording_seekUnless files s' transfers
    (sectornum == INVALID_SECTOR_VALUE + 1) f (sectorToOffset d sectornum)
  have place : sectorToOffset { d with diskFileh := some f } sectornum =
      sectorToOffset d sectornum := rfl
  have same : MediaType.sectorSize { d with diskFileh := some f } sectornum =
      d.sectorSize sectornum := rfl
  have taken : (d.diskSectorbuff.take (d.sectorSize sectornum)).length ≤ DISK_SECTORBUF_SIZE :=
    Nat.le_trans (List.length_take_le _ _) room
  have put (d' : Disk) (size : d'.diskSectorSize = d.diskSectorSize) : Fitting d'
      ((d.diskSectorbuff.take (d.sectorSize sectornum)).length :: transfers) :=
    fitting.transfer size taken
  rw [MediaTypeATR.write, if_neg (Nat.not_lt.mpr inside), swapped]
  simp only [Option.bind_eq_bind, Option.bind_some, place, same, sought,
    if_neg (Nat.not_lt.mpr room)]
  split
  · exact ⟨_, _, _, _, rfl, fitting.keep rfl⟩
  · split
    · exact ⟨_, _, _, _, rfl, put _ rfl⟩
    · split
      · cases hsFileh <;> exact ⟨_, _, _, _, rfl, put _ rfl⟩
      · exact ⟨_, _, _, _, rfl, put _ rfl⟩

end Step

/-- The handler of a write does not depend on the data. -/
theorem fileh_sectorbuff (host : Option (φ → Option Handle × φ)) (d : Disk) (s : φ)
    (buffer : List UInt8) :
    (swapHandles host { d with diskSectorbuff := buffer } s).2.1.diskFileh =
      (swapHandles host d s).2.1.diskFileh := by
  simp only [swapHandles]
  split
  · cases host <;> rfl
  · rfl

/-- A call for a sector of the disk that has no handler does not return. -/
theorem perform_of_null {op : SectorOp} {state : Disk × φ} (inRange : op.InRange state.1)
    (null : op.fileh host state = none) : op.perform files host state = none := by
  obtain ⟨d, s⟩ := state
  cases op with
  | read sectornum =>
      have null : d.diskFileh = none := null
      have inside : sectornum.toNat ≤ d.diskNumSectors := inRange.2
      simp only [SectorOp.perform]
      rw [MediaTypeATR.read, if_neg (Nat.not_lt.mpr inside), null]
      rfl
  | write sectornum verify sectorbuff =>
      have null : (swapHandles host { d with diskSectorbuff := sectorbuff.toList }
          s).2.1.diskFileh = none := (fileh_sectorbuff host d s _).trans null
      have inside : sectornum.toNat ≤
          ({ d with diskSectorbuff := sectorbuff.toList } : Disk).diskNumSectors := inRange.2
      simp only [SectorOp.perform]
      rw [MediaTypeATR.write, if_neg (Nat.not_lt.mpr inside)]
      generalize swapHandles host { d with diskSectorbuff := sectorbuff.toList } s = swapped at null
      obtain ⟨handles, d', s'⟩ := swapped
      simp only [Option.bind_eq_bind, show d'.diskFileh = none from null, Option.bind_none,
        Option.map_none]

/-- A call for a sector of the disk, to a handler that is there, returns and its transfers
fit. -/
theorem Fitting.step (read_le : ∀ h n s, (files.read h n s).1.length ≤ n) {d : Disk} {s : φ}
    {transfers : List Nat} (fitting : Fitting d transfers) {op : SectorOp} (inRange : op.InRange d)
    (fileh : op.fileh (recordingHost host) (d, s, transfers) ≠ none) :
    ∃ answer d' s' transfers',
      op.perform files.recording (recordingHost host) (d, s, transfers) =
        some (answer, d', s', transfers') ∧ Fitting d' transfers' := by
  cases op with
  | read sectornum =>
      have inside : sectornum.toNat ≤ d.diskNumSectors := inRange.2
      obtain ⟨f, opened⟩ := Option.ne_none_iff_exists'.mp fileh
      obtain ⟨answer, d', s', transfers', got, fitting'⟩ :=
        fitting.read (s := s) read_le opened inside
      refine ⟨(answer.1, d'.diskSectorbuff.take answer.2), d', s', transfers', ?_, fitting'⟩
      simp only [SectorOp.perform]
      rw [got]
      rfl
  | write sectornum verify sectorbuff =>
      have inside : sectornum.toNat ≤ d.diskNumSectors := inRange.2
      have filled : Fitting { d with diskSectorbuff := sectorbuff.toList } transfers :=
        fitting.keep rfl
      have opened : (swapHandles (recordingHost host)
          { d with diskSectorbuff := sectorbuff.toList } (s, transfers)).2.1.diskFileh ≠ none := by
        rw [fileh_sectorbuff]
        exact fileh
      obtain ⟨err, d', s', transfers', put, fitting'⟩ :=
        filled.write files opened inside verify
      refine ⟨(err, []), d', s', transfers', ?_, fitting'⟩
      simp only [SectorOp.perform]
      rw [put]
      rfl

theorem Fitting.safe (read_le : ∀ h n s, (files.read h n s).1.length ≤ n) {d : Disk} {s : φ}
    (fitting : Fitting d []) : SafeDisk files host d s := by
  refine ⟨fitting.sector, fun (d', s', transfers) reached => ?_⟩
  have fitting' : Fitting d' transfers := by
    apply reached.invariant (fun state => Fitting state.1 state.2.2) fitting
    intro op (d, s, transfers) answer after fitting performed inRange
    by_cases null : op.fileh (recordingHost host) (d, s, transfers) = none
    · rw [perform_of_null inRange null] at performed
      cases performed
    · obtain ⟨answer', d', s', transfers', performed', fitting'⟩ :=
        fitting.step read_le inRange null
      cases Option.some.inj (performed'.symm.trans performed)
      exact fitting'
  refine ⟨fitting'.transfers, fun op inRange fileh => ?_⟩
  obtain ⟨answer, d'', s'', transfers', performed, -⟩ := fitting'.step read_le inRange fileh
  rw [performed]
  exact Option.some_ne_none _

/-- Mounting a file is safe exactly if its header is refused or has a sector size between
one byte and the size of the sector buffer. -/
theorem mountSafe_iff (read_le : ∀ h n s, (files.read h n s).1.length ≤ n) (f : Handle)
    (disksize : Nat) (d : Disk) (s : φ) :
    MountSafe files host f disksize d s ↔ ∀ buf, acceptedHeader files f s = some buf →
      1 ≤ headerSectorSize buf ∧ headerSectorSize buf ≤ DISK_SECTORBUF_SIZE := by
  constructor
  · rintro ⟨d', s', mounted, safe⟩ buf accepted
    obtain ⟨nonzero, atr, size, -, -⟩ := geometry_of_mount accepted mounted
    have known : d'.diskType ≠ .unknown := by
      rw [atr]
      exact DiskType.noConfusion
    have fourth := (safe known).1 4
    simp only [MediaType.sectorSize, size, DISK_SECTORBUF_SIZE] at fourth ⊢
    split_ifs at fourth <;> omega
  · intro fits
    cases header : acceptedHeader files f s with
    | none =>
        obtain ⟨s', refused⟩ := mount_of_refused disksize d header
        exact ⟨_, s', refused, fun known => absurd rfl known⟩
    | some buf =>
        obtain ⟨positive, small⟩ := fits buf header
        obtain ⟨s', mounted⟩ := mount_of_accepted disksize d header
        rw [setGeometry_of_ne_zero (by omega)] at mounted
        exact ⟨_, s', mounted, fun _ => Fitting.safe read_le
          ⟨small, fun _ mem => absurd mem List.not_mem_nil⟩⟩

end

/-- A disk of 720 sectors of 128 bytes. -/
theorem mountSafe_of_single_density :
    MountSafe ByteFile.handler none 0 92176 {} ⟨header 128 720, fun _ => 0⟩ := by
  refine (mountSafe_iff ByteFile.bytes.read_le 0 92176 {} _).mpr fun buf accepted => ?_
  have size : (acceptedHeader ByteFile.handler 0 ⟨header 128 720, fun _ => 0⟩).map headerSectorSize =
      some 128 := by
    decide +kernel
  rw [accepted, Option.map_some, Option.some.injEq] at size
  rw [size]
  decide

/-- A header with a sector size of zero is divided by, and one with a size of 1024 is
accepted. -/
theorem mount_of_unchecked_header :
    ¬ MountSafe ByteFile.handler none 0 16 {} ⟨header 0 0, fun _ => 0⟩ ∧
      ¬ MountSafe ByteFile.handler none 0 16400 {}
        ⟨header 1024 16 ++ List.replicate 16384 0, fun _ => 0⟩ := by
  constructor
  · rintro ⟨d', s', mounted, -⟩
    have refuted : (mount ByteFile.handler 0 16 {} ⟨header 0 0, fun _ => 0⟩).isSome = false := by
      decide +kernel
    rw [mounted] at refuted
    cases refuted
  · rintro ⟨d', s', mounted, safe⟩
    have computed : (mount ByteFile.handler 0 16400 {}
        ⟨header 1024 16 ++ List.replicate 16384 0, fun _ => 0⟩).map
          (fun r => (r.1.diskType, r.1.diskSectorSize)) = some (.atr, 1024) := by
      decide +kernel
    rw [mounted] at computed
    obtain ⟨atr, size⟩ := Prod.mk.inj (Option.some.inj computed)
    have fourth := (safe (by rw [atr]; exact DiskType.noConfusion)).1 4
    simp [MediaType.sectorSize, show d'.diskSectorSize = 1024 from size, DISK_SECTORBUF_SIZE]
      at fourth

end MediaTypeATR

end Atari

end FujiNet
