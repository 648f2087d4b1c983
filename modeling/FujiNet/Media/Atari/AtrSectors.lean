import FujiNet.Control.Machine
import FujiNet.Media.Atari.AtrLayout

/-!
# Sectors of a mounted ATR image

Reads and writes of a mounted image, one after another, with handlers that may
refuse any seek and cut any transfer short. The sectors follow each other without
a gap, and every call that fails forgets the last sector. So the handler stands
behind the last sector whenever one is remembered, and a read that leaves the seek
out finds its sector there.
-/

namespace FujiNet.Atari.MediaTypeATR

/-- One call. A write is handed its data in the sector buffer. -/
inductive SectorOp
  | read (sectornum : UInt16)
  | write (sectornum : UInt16) (verify : Bool) (sectorbuff : Vector UInt8 512)

def SectorOp.sectornum : SectorOp → Nat
  | read sectornum | write sectornum _ _ => sectornum.toNat

/-- The call is for a sector of the disk. -/
def SectorOp.InRange (op : SectorOp) (d : Disk) : Prop :=
  1 ≤ op.sectornum ∧ op.sectornum ≤ d.diskNumSectors

section

variable {φ : Type} (files : FileHandler φ) (host : Option (φ → Option Handle × φ))

/-- Make the call: whether it failed, and what a read left in the sector buffer. -/
def SectorOp.perform (op : SectorOp) : Disk × φ → Option ((Bool × List UInt8) × Disk × φ)
  | (d, s) =>
    match op with
    | .read sectornum =>
      (MediaTypeATR.read files sectornum.toNat d s).map fun ((err, readcount), d, s) =>
        ((err, d.diskSectorbuff.take readcount), d, s)
    | .write sectornum verify sectorbuff =>
      (MediaTypeATR.write files host sectornum.toNat verify
        { d with diskSectorbuff := sectorbuff.toList } s).map fun (err, d, s) => ((err, []), d, s)

variable {files} (bytes : SeekableBytes files)

/-- A successful read returns the sector of the file, a successful write changes the
sector and nothing else. -/
def SectorOp.Exact (op : SectorOp) (before : Disk × φ) (answer : Bool × List UInt8)
    (after : Disk × φ) : Prop :=
  let offset := sectorToOffset before.1 op.sectornum
  let size := before.1.sectorSize op.sectornum
  answer.1 = false →
    match op with
    | .read _ =>
      answer.2 = slice (bytes.content before.2) offset size ∧ answer.2.length = size ∧
        bytes.content after.2 = bytes.content before.2
    | .write _ _ sectorbuff =>
      bytes.content after.2 =
        writeAt (bytes.content before.2) offset (sectorbuff.toList.take size)

/-- The sectors of the disk lie one behind the other: there are no sectors of 512 bytes
behind the third. -/
def Gapless (d : Disk) : Prop :=
  d.diskSectorSize = 128 ∨ d.diskSectorSize = 256 ∨
    d.diskSectorSize = 512 ∧ d.diskNumSectors ≤ 3

theorem Gapless.sectorToOffset_succ {d : Disk} (gapless : Gapless d) {sectorNum : Nat}
    (first : 1 ≤ sectorNum) (inside : sectorNum + 1 ≤ d.diskNumSectors)
    (word : sectorNum + 1 < 65536) :
    sectorToOffset d (sectorNum + 1) = sectorToOffset d sectorNum + d.sectorSize sectorNum := by
  obtain size | size | ⟨size, few⟩ := gapless
  · exact MediaTypeATR.sectorToOffset_succ (.inl size) first word
  · exact MediaTypeATR.sectorToOffset_succ (.inr size) first word
  · rw [sectorToOffset_eq d (by omega) word, sectorToOffset_eq d first (by omega),
      MediaType.sectorSize]
    split_ifs <;> omega

/-- The handler stands behind the last sector, if there is one. -/
structure Standing (f : Handle) (d : Disk) (s : φ) : Prop where
  fileh : d.diskFileh = some f
  gapless : Gapless d
  last_le : d.diskLastSector ≤ INVALID_SECTOR_VALUE
  position : d.diskLastSector < INVALID_SECTOR_VALUE → 1 ≤ d.diskLastSector ∧
    bytes.position f s = sectorToOffset d d.diskLastSector + d.sectorSize d.diskLastSector

/-- The same on a disk with one sector size and no high score sector. -/
structure BehindLast (f : Handle) (d : Disk) (s : φ) : Prop extends Standing bytes f d s where
  size : d.diskSectorSize = 128 ∨ d.diskSectorSize = 256
  plain : d.highScoreSector = 0

variable {bytes} {host} {f : Handle} {d : Disk} {s : φ}

theorem Standing.already (standing : Standing bytes f d s) {sectornum : UInt16}
    (inside : sectornum.toNat ≤ d.diskNumSectors)
    (next : (sectornum.toNat == d.diskLastSector + 1) = true) :
    bytes.position f s = sectorToOffset d sectornum.toNat := by
  have next := beq_iff_eq.mp next
  have word := sectornum.toNat_lt
  have known : d.diskLastSector < INVALID_SECTOR_VALUE := by
    rw [INVALID_SECTOR_VALUE]
    omega
  obtain ⟨first, position⟩ := standing.position known
  rw [position, next, standing.gapless.sectorToOffset_succ first (by omega) (by omega)]

theorem Standing.sectorSize_le (standing : Standing bytes f d s) (sectornum : Nat) :
    d.sectorSize sectornum ≤ DISK_SECTORBUF_SIZE := by
  have gapless := standing.gapless
  simp only [MediaType.sectorSize, Gapless, DISK_SECTORBUF_SIZE] at gapless ⊢
  split_ifs <;> omega

/-- A call that failed, or was not finished, leaves no last sector. -/
theorem Standing.forget (standing : Standing bytes f d s) (buffer : List UInt8) (s' : φ) :
    Standing bytes f
      { d with diskSectorbuff := buffer, diskLastSector := INVALID_SECTOR_VALUE } s' where
  fileh := standing.fileh
  gapless := standing.gapless
  last_le := Nat.le_refl _
  position known := absurd known (Nat.lt_irrefl _)

/-- A call that ended on its sector leaves the handler behind it. -/
theorem Standing.after (standing : Standing bytes f d s) (buffer : List UInt8)
    {sectornum : UInt16} (first : 1 ≤ sectornum.toNat) {s' : φ}
    (moved : bytes.position f s' =
      sectorToOffset d sectornum.toNat + d.sectorSize sectornum.toNat) :
    Standing bytes f { d with diskSectorbuff := buffer, diskLastSector := sectornum.toNat }
      s' where
  fileh := standing.fileh
  gapless := standing.gapless
  last_le := Nat.le_of_lt sectornum.toNat_lt
  position _ := ⟨first, moved⟩

/-- One read of a sector of the disk. -/
theorem Standing.read (standing : Standing bytes f d s)
    (host : Option (φ → Option Handle × φ)) {sectornum : UInt16}
    (inRange : (SectorOp.read sectornum).InRange d) :
    ∃ answer buffer last s', (SectorOp.read sectornum).perform files host (d, s) =
        some (answer, { d with diskSectorbuff := buffer, diskLastSector := last }, s') ∧
      (SectorOp.read sectornum).Exact bytes (d, s) answer
        ({ d with diskSectorbuff := buffer, diskLastSector := last }, s') ∧
      Standing bytes f { d with diskSectorbuff := buffer, diskLastSector := last } s' := by
  have inside : sectornum.toNat ≤ d.diskNumSectors := inRange.2
  have fits := standing.sectorSize_le sectornum.toNat
  have started : (sectornum.toNat == d.diskLastSector + 1) = true →
      bytes.position f s = sectorToOffset d sectornum.toNat := standing.already inside
  simp only [SectorOp.perform, read_of_fileh files inside standing.fileh]
  generalize (sectornum.toNat == d.diskLastSector + 1) = skip at started
  split
  · exact ⟨_, _, _, _, rfl, fun success => absurd success (by simp), standing.forget _ _⟩
  · next sought =>
    have sought := not_not.mp sought
    have room := bytes.read_le f (d.sectorSize sectornum.toNat)
      (files.seekUnless skip f (sectorToOffset d sectornum.toNat) s).2
    rw [if_neg (by omega)]
    by_cases full : (files.read f (d.sectorSize sectornum.toNat)
      (files.seekUnless skip f (sectorToOffset d sectornum.toNat) s).2).1.length =
        d.sectorSize sectornum.toNat
    · obtain ⟨got, moved⟩ := bytes.read_sought started sought full
      have whole : ((files.read f (d.sectorSize sectornum.toNat)
        (files.seekUnless skip f (sectorToOffset d sectornum.toNat) s).2).1.length !=
          d.sectorSize sectornum.toNat) = false := by simpa using full
      rw [whole]
      have data := (congrArg (List.take · _) full.symm).trans (MediaType.take_fillSectorbuff _ d)
      refine ⟨_, _, _, _, rfl, fun _ => ⟨?_, ?_, ?_⟩, standing.after _ inRange.1 moved⟩
      · exact data.trans got
      · exact (congrArg List.length data).trans full
      · exact (bytes.content_read _ _ _).trans (bytes.content_seekUnless _ _ _ _)
    · have cut : ((files.read f (d.sectorSize sectornum.toNat)
        (files.seekUnless skip f (sectorToOffset d sectornum.toNat) s).2).1.length !=
          d.sectorSize sectornum.toNat) = true := by simpa using full
      rw [cut]
      exact ⟨_, _, _, _, rfl, fun success => absurd success (by simp), standing.forget _ _⟩

/-- A call that only changes the sector buffer and the last sector keeps the rest. -/
theorem BehindLast.of_standing (behind : BehindLast bytes f d s) {buffer : List UInt8} {last : Nat}
    {s' : φ}
    (standing : Standing bytes f { d with diskSectorbuff := buffer, diskLastSector := last } s') :
    BehindLast bytes f { d with diskSectorbuff := buffer, diskLastSector := last } s' :=
  ⟨standing, behind.size, behind.plain⟩

/-- One read of a sector of the disk. -/
theorem BehindLast.read (behind : BehindLast bytes f d s) {sectornum : UInt16}
    (inRange : (SectorOp.read sectornum).InRange d) :
    ∃ answer d' s', (SectorOp.read sectornum).perform files host (d, s) = some (answer, d', s') ∧
      (SectorOp.read sectornum).Exact bytes (d, s) answer (d', s') ∧ BehindLast bytes f d' s' := by
  obtain ⟨answer, buffer, last, s', performed, exact_, standing⟩ :=
    behind.toStanding.read host inRange
  exact ⟨answer, _, s', performed, exact_, behind.of_standing standing⟩

/-- Writing the sector buffer to a sector of the disk. -/
theorem BehindLast.writeBuffer (behind : BehindLast bytes f d s)
    (host : Option (φ → Option Handle × φ))
    (buffer : d.diskSectorbuff.length = DISK_SECTORBUF_SIZE) {sectornum : UInt16}
    (first : 1 ≤ sectornum.toNat) (inside : sectornum.toNat ≤ d.diskNumSectors) (verify : Bool) :
    ∃ err d' s', MediaTypeATR.write files host sectornum.toNat verify d s = some (err, d', s') ∧
      (err = false → bytes.content s' =
        writeAt (bytes.content s) (sectorToOffset d sectornum.toNat)
          (d.diskSectorbuff.take (d.sectorSize sectornum.toNat))) ∧
      BehindLast bytes f d' s' := by
  have fits := behind.toStanding.sectorSize_le sectornum.toNat
  have seeks : (sectornum.toNat == INVALID_SECTOR_VALUE + 1) = true →
      bytes.position f s = sectorToOffset d sectornum.toNat := by
    intro skip
    have word := sectornum.toNat_lt
    rw [beq_iff_eq, INVALID_SECTOR_VALUE] at skip
    omega
  have length : (d.diskSectorbuff.take (d.sectorSize sectornum.toNat)).length =
      d.sectorSize sectornum.toNat := by
    rw [List.length_take]
    omega
  simp only [write_of_plain files inside behind.fileh behind.plain]
  generalize (sectornum.toNat == INVALID_SECTOR_VALUE + 1) = skip at seeks
  split
  · exact ⟨_, _, _, rfl, fun success => absurd success (by simp),
      behind.of_standing (behind.toStanding.forget _ _)⟩
  · next sought =>
    rw [if_neg (Nat.not_lt.mpr fits)]
    split
    · exact ⟨_, _, _, rfl, fun success => absurd success (by simp),
      behind.of_standing (behind.toStanding.forget _ _)⟩
    · next full =>
      obtain ⟨written, moved⟩ :=
        bytes.write_sought seeks (not_not.mp sought) ((not_not.mp full).trans length.symm)
      refine ⟨_, _, _, rfl, fun _ => ?_, behind.of_standing (behind.toStanding.after _ first ?_)⟩
      · rw [bytes.content_flush]
        exact written
      · rw [bytes.position_flush, moved, length]

/-- One write to a sector of the disk. -/
theorem BehindLast.write (behind : BehindLast bytes f d s) {sectornum : UInt16} {verify : Bool}
    {sectorbuff : Vector UInt8 512}
    (inRange : (SectorOp.write sectornum verify sectorbuff).InRange d) :
    ∃ answer d' s',
      (SectorOp.write sectornum verify sectorbuff).perform files host (d, s) =
        some (answer, d', s') ∧
      (SectorOp.write sectornum verify sectorbuff).Exact bytes (d, s) answer (d', s') ∧
      BehindLast bytes f d' s' := by
  have filled : BehindLast bytes f { d with diskSectorbuff := sectorbuff.toList } s :=
    { behind with }
  obtain ⟨err, d', s', written, exact_, behind'⟩ :=
    filled.writeBuffer host (by simp [DISK_SECTORBUF_SIZE]) inRange.1 inRange.2 verify
  refine ⟨(err, []), d', s', ?_, exact_, behind'⟩
  simp only [SectorOp.perform, written, Option.map_some]

theorem BehindLast.step (behind : BehindLast bytes f d s)
    (host : Option (φ → Option Handle × φ)) {op : SectorOp} (inRange : op.InRange d) :
    ∃ answer d' s', op.perform files host (d, s) = some (answer, d', s') ∧
      op.Exact bytes (d, s) answer (d', s') ∧ BehindLast bytes f d' s' := by
  cases op with
  | read sectornum => exact behind.read inRange
  | write sectornum verify sectorbuff => exact behind.write inRange

/-- A disk that was mounted as an ATR image has its handler and no last sector. -/
theorem mount_fileh {disksize : Nat} {d₀ : Disk} {s₀ : φ}
    (mounted : mount files f disksize d₀ s₀ = some (d, s)) (atr : d.diskType = .atr) :
    d.diskFileh = some f ∧ d.diskLastSector = INVALID_SECTOR_VALUE := by
  simp only [mount] at mounted
  split at mounted
  · cases mounted
    cases atr
  · split at mounted
    · cases mounted
      cases atr
    · split at mounted
      · cases mounted
        cases atr
      · obtain ⟨d', -, mounted⟩ := Option.bind_eq_some_iff.mp mounted
        cases mounted
        exact ⟨rfl, rfl⟩

theorem Standing.of_mount {disksize : Nat} {d₀ : Disk} {s₀ : φ}
    (mounted : mount files f disksize d₀ s₀ = some (d, s)) (atr : d.diskType = .atr)
    (gapless : Gapless d) : Standing bytes f d s := by
  obtain ⟨fileh, last⟩ := mount_fileh mounted atr
  exact ⟨fileh, gapless, Nat.le_of_eq last, fun known => absurd (last ▸ known) (Nat.lt_irrefl _)⟩

theorem BehindLast.of_mount {disksize : Nat} {s₀ : φ}
    (mounted : mount files f disksize {} s₀ = some (d, s)) (atr : d.diskType = .atr)
    (size : d.diskSectorSize = 128 ∨ d.diskSectorSize = 256) (plain : d.highScoreSector = 0) :
    BehindLast bytes f d s :=
  ⟨Standing.of_mount mounted atr (size.imp_right .inl), size, plain⟩

/-- Every call on a sector of a mounted image, in every run of such calls, acts on the
bytes of its sector, whichever sector was the last one. -/
theorem sectors_exact (bytes : SeekableBytes files) (host : Option (φ → Option Handle × φ))
    (f : Handle) (disksize : Nat) {s₀ : φ} (mounted : mount files f disksize {} s₀ = some (d, s))
    (atr : d.diskType = .atr) (size : d.diskSectorSize = 128 ∨ d.diskSectorSize = 256)
    (plain : d.highScoreSector = 0) {state : Disk × φ}
    (reached : Machine.Reaches (SectorOp.perform files host) (fun op state _ _ => op.InRange state.1)
      (d, s) state) (op : SectorOp) (inRange : op.InRange state.1) :
    ∃ answer after, op.perform files host state = some (answer, after) ∧
      op.Exact bytes state answer after := by
  have keeps : Machine.Keeps (SectorOp.perform files host) (fun op state => op.InRange state.1)
      (fun op => op.Exact bytes) (d, s) := by
    apply Machine.Keeps.of_invariant (fun state => BehindLast bytes f state.1 state.2)
      (BehindLast.of_mount mounted atr size plain)
    intro op state behind inRange
    obtain ⟨answer, d', s', performed, exact_, behind'⟩ := behind.step host inRange
    exact ⟨answer, (d', s'), performed, exact_, behind'⟩
  exact keeps state reached op inRange

end

/-- Reading the second sector of a disk of three sectors, right after mounting it, succeeds. -/
theorem sectors_exact_of_first_read :
    ∃ d s, mount ByteFile.handler 0 400 {}
        ⟨header 128 3 ++ List.replicate 384 0x55, fun _ => 0⟩ = some (d, s) ∧
      ∃ answer after, (SectorOp.read 2).perform ByteFile.handler none (d, s) =
          some (answer, after) ∧ answer.1 = false ∧
        (SectorOp.read 2).Exact ByteFile.bytes (d, s) answer after := by
  have computed : ((mount ByteFile.handler 0 400 {}
      ⟨header 128 3 ++ List.replicate 384 0x55, fun _ => 0⟩).bind fun r =>
        ((SectorOp.read 2).perform ByteFile.handler none r).map fun a =>
        ((r.1.diskType, [r.1.diskSectorSize, r.1.highScoreSector, r.1.diskNumSectors]), a.1.1)) =
      some ((.atr, [128, 0, 3]), false) := by
    decide +kernel
  obtain ⟨⟨d, s⟩, mounted, read⟩ := Option.bind_eq_some_iff.mp computed
  obtain ⟨done, performed, values⟩ := Option.map_eq_some_iff.mp read
  simp only [Prod.mk.injEq, List.cons.injEq, and_true] at values
  obtain ⟨⟨atr, size, plain, count⟩, succeeded⟩ := values
  have inRange : (SectorOp.read 2).InRange d := by
    constructor
    · decide
    · rw [count]
      decide
  obtain ⟨answer, after, performed', exact_⟩ := sectors_exact ByteFile.bytes none 0 400 mounted atr
    (.inl size) plain .refl (.read 2) inRange
  rw [performed, Option.some.injEq] at performed'
  refine ⟨d, s, mounted, answer, after, performed.trans (congrArg some performed'), ?_, exact_⟩
  rw [performed'] at succeeded
  exact succeeded

end FujiNet.Atari.MediaTypeATR
