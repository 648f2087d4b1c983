import FujiNet.Media.Atari.DiskTypeXex

/-!
# Loading an executable from its disk

A computer loads the file as it would load a file of a DOS disk: it reads the
directory, takes the start sector from the entry and follows the links from sector
to sector. In between it may read any other sectors.

A sector that the end of the file falls into leaves the handler at the end of the
file, and not behind the sector. This does no harm, as the sectors after it are
empty from either place. `AtSector` is the invariant.
-/

namespace FujiNet.Atari.MediaTypeXEX

/-- The number of the next sector, high byte first, in the two bytes before the last. -/
def linkOf (sectorbuff : List UInt8) : Nat := u16 (sectorbuff.getD 254 0) (sectorbuff.getD 253 0)

/-- The bytes of the file in a sector; the last byte says how many there are. -/
def dataOf (sectorbuff : List UInt8) : List UInt8 :=
  sectorbuff.take (sectorbuff.getD 255 0).toNat

/-- The start sector in the first entry of a directory sector. -/
def startOf (sectorbuff : List UInt8) : Nat := u16 (sectorbuff.getD 3 0) (sectorbuff.getD 4 0)

section

variable {φ : Type} (files : FileHandler φ) (boot : Bootloader)

/-- Read sectors without looking at them. -/
def readAll : List UInt16 → Disk × φ → Option (Disk × φ)
  | [], state => some state
  | sectornum :: rest, (d, s) => do
    let (_, d, s) ← read files boot sectornum.toNat d s
    readAll rest (d, s)

/-- Follow the links from a sector on. Before the `k`th sector of the chain the sectors
`others k` are read. Returns the sectors of the chain with their data. -/
def follow (others : Nat → List UInt16) :
    Nat → Nat → Nat → Disk × φ → Option (List (Nat × List UInt8))
  | 0, _, _, _ => none
  | fuel + 1, k, sectornum, state => do
    let (d, s) ← readAll files boot (others k) state
    let ((err, _), d, s) ← read files boot sectornum d s
    if err then none
    else
      let visited := (sectornum, dataOf d.diskSectorbuff)
      if linkOf d.diskSectorbuff = 0 then some [visited]
      else
        let rest ← follow others fuel (k + 1) (linkOf d.diskSectorbuff) (d, s)
        some (visited :: rest)

/-- Read the directory, and follow the links from the start sector in it. -/
def loadFile (others : Nat → List UInt16) (fuel : Nat) (state : Disk × φ) :
    Option (List (Nat × List UInt8)) := do
  let (d, s) ← readAll files boot (others 0) state
  let ((err, _), d, s) ← read files boot DIRECTORY_START d s
  if err then none else follow files boot others fuel 1 (startOf d.diskSectorbuff) (d, s)

variable {files} (bytes : SeekableBytes files)

/-- The data of the `k`th sector of the file. -/
def sectorData (F : List UInt8) (k : Nat) : List UInt8 := slice F (253 * k) 253

/-- What is known between two reads: if there is a last sector, it is one of the file,
and the handler stands behind it or else both lie behind the end of the file. -/
structure AtSector (f : Handle) (F : List UInt8) (d : Disk) (s : φ) : Prop where
  fileh : d.diskFileh = some f
  size : d.diskSectorSize = 256
  content : bytes.content s = F
  last : d.diskLastSector = INVALID_SECTOR_VALUE ∨
    ∃ k, d.diskLastSector = FIRST_XEX_SECTOR + k ∧ (bytes.position f s = 253 * (k + 1) ∨
      F.length ≤ bytes.position f s ∧ F.length ≤ 253 * (k + 1))

variable {bytes} {boot} {f : Handle} {F : List UInt8} {d : Disk} {s : φ}

/-- The buffer may change as long as the last sector is forgotten. -/
theorem AtSector.forget (at_ : AtSector bytes f F d s) (d' : Disk)
    (fileh : d'.diskFileh = d.diskFileh) (size : d'.diskSectorSize = d.diskSectorSize) {s' : φ}
    (content : bytes.content s' = bytes.content s) :
    AtSector bytes f F { d' with diskLastSector := INVALID_SECTOR_VALUE } s' where
  fileh := fileh.trans at_.fileh
  size := size.trans at_.size
  content := content.trans at_.content
  last := .inl rfl

/-! ## The sector buffer -/

theorem linkedSector_fileh (sectornum : Nat) (data : List UInt8) (d : Disk) :
    (linkedSector sectornum data d).diskFileh = d.diskFileh ∧
      (linkedSector sectornum data d).diskSectorSize = d.diskSectorSize := by
  simp only [linkedSector]
  split <;> exact ⟨rfl, rfl⟩

/-- What a computer finds in a sector of the file. -/
theorem linkedSector_spec (sectornum : Nat) {data : List UInt8} {d : Disk}
    (size : d.diskSectorSize = 256) (fits : data.length ≤ 253) :
    dataOf (linkedSector sectornum data d).diskSectorbuff = data ∧
      linkOf (linkedSector sectornum data d).diskSectorbuff =
        if data.length = 253 then (sectornum + 1) % 65536 else 0 := by
  have length : (d.fillSectorbuff data).diskSectorbuff.length = 512 := by
    simp only [MediaType.fillSectorbuff, DISK_SECTORBUF_SIZE, List.length_append,
      List.length_replicate]
    omega
  have head := MediaType.take_fillSectorbuff data d
  have blank : ∀ i, data.length ≤ i → i < 512 →
      (d.fillSectorbuff data).diskSectorbuff[i]? = some 0 := by
    intro i behind inside
    simp only [MediaType.fillSectorbuff, DISK_SECTORBUF_SIZE]
    rw [List.getElem?_append_right behind, List.getElem?_replicate, if_pos (by omega)]
  have count : (UInt8.ofNat data.length).toNat = data.length := by
    rw [UInt8.toNat_ofNat']
    omega
  simp only [linkedSector, size, SECTOR_LINK_SIZE]
  generalize (d.fillSectorbuff data).diskSectorbuff = buffer at length head blank
  have kept : ∀ xs : List UInt8, xs.take 253 = buffer.take 253 →
      xs[255]? = some (UInt8.ofNat data.length) → dataOf xs = data := by
    intro xs front last
    have within : min data.length 253 = data.length := by omega
    rw [dataOf, List.getD_eq_getElem?_getD, last, Option.getD_some, count, ← within,
      ← List.take_take, front, List.take_take, within, head]
  split
  · next full =>
    have full : data.length = 253 := full
    constructor
    · apply kept
      · simp [List.take_set_of_le]
      · simp [length]
    · have range : (sectornum + 1) % 65536 < 65536 := Nat.mod_lt _ (by decide)
      simp [linkOf, length, full, u16_lobyte_hibyte range]
  · next short =>
    have short : ¬ data.length = 253 := short
    constructor
    · apply kept
      · simp [List.take_set_of_le]
      · simp [length]
    · have hi := blank 253 fits (by decide)
      have lo := blank 254 (by omega) (by decide)
      simp [linkOf, hi, lo, u16]

/-! ## The reads -/

/-- Where the handler stands before the transfer, with or without a seek. -/
theorem AtSector.position_seekUnless (at_ : AtSector bytes f F d s) (reliable : bytes.Reliable)
    {k : Nat} (range : FIRST_XEX_SECTOR + k < 65536) :
    ∃ s', files.seekUnless (FIRST_XEX_SECTOR + k == d.diskLastSector + 1) f
        ((253 * k : Nat) : Int) s = (0, s') ∧ bytes.content s' = F ∧
      (bytes.position f s' = 253 * k ∨ F.length ≤ bytes.position f s' ∧ F.length ≤ 253 * k) := by
  unfold FileHandler.seekUnless
  split
  · next next =>
    have next : FIRST_XEX_SECTOR + k = d.diskLastSector + 1 := by simpa using next
    refine ⟨s, rfl, at_.content, ?_⟩
    obtain invalid | ⟨j, last, position⟩ := at_.last
    · simp only [invalid, INVALID_SECTOR_VALUE] at next
      omega
    · have : j + 1 = k := by omega
      rw [← this]
      exact position
  · have sought := reliable.seek_ok f (253 * k) s
    refine ⟨(files.seek f ((253 * k : Nat) : Int) s).2, Prod.ext sought rfl, ?_, .inl ?_⟩
    · rw [bytes.content_seek, at_.content]
    · exact Int.natCast_inj.mp (bytes.position_seek f _ s sought)

variable (boot) in
/-- A sector of the file holds its part of the file and, if that is full, the link. -/
theorem read_file_sector (reliable : bytes.Reliable) (at_ : AtSector bytes f F d s) {k : Nat}
    (range : FIRST_XEX_SECTOR + k < 65536) :
    ∃ d' s', read files boot (FIRST_XEX_SECTOR + k) d s = some ((false, 256), d', s') ∧
      AtSector bytes f F d' s' ∧ dataOf d'.diskSectorbuff = sectorData F k ∧
      linkOf d'.diskSectorbuff =
        if (sectorData F k).length = 253 then (FIRST_XEX_SECTOR + k + 1) % 65536 else 0 := by
  obtain ⟨s', sought, content, position⟩ := at_.position_seekUnless reliable range
  -- behind the end of the file nothing is read, from whichever place
  have got : (files.read f 253 s').1 = sectorData F k := by
    rw [reliable.read_eq, content, sectorData]
    obtain exactly | ⟨beyond, behind⟩ := position
    · rw [exactly]
    · rw [slice_of_length_le _ _ _ beyond, slice_of_length_le _ _ _ behind]
  have moved := reliable.position_read f 253 s'
  rw [got] at moved
  have fits : (sectorData F k).length ≤ 253 := by
    rw [sectorData, length_slice]
    exact Nat.min_le_left _ _
  obtain ⟨data, link⟩ := linkedSector_spec (FIRST_XEX_SECTOR + k) at_.size fits
  obtain ⟨fileh, size⟩ := linkedSector_fileh (FIRST_XEX_SECTOR + k) (sectorData F k) d
  refine ⟨{ linkedSector (FIRST_XEX_SECTOR + k) (sectorData F k) d with
    diskLastSector := FIRST_XEX_SECTOR + k }, (files.read f 253 s').2, ?_, ?_, data, link⟩
  · have offset : ((256 - SECTOR_LINK_SIZE : Nat) : Int) *
        (((FIRST_XEX_SECTOR + k : Nat) : Int) - FIRST_XEX_SECTOR) = ((253 * k : Nat) : Int) := by
      simp only [SECTOR_LINK_SIZE]
      omega
    have own : ¬ FIRST_XEX_SECTOR + k ≤ BOOTLOADER_END ∧ ¬ FIRST_XEX_SECTOR + k = VTOC_SECTOR ∧
        ¬ (DIRECTORY_START ≤ FIRST_XEX_SECTOR + k ∧ FIRST_XEX_SECTOR + k ≤ DIRECTORY_END) := by
      simp only [FIRST_XEX_SECTOR, BOOTLOADER_END, VTOC_SECTOR, DIRECTORY_END]
      omega
    rw [read, if_neg own.1, if_neg own.2.1, if_neg own.2.2, readFile]
    simp only [at_.size, at_.fileh, Option.bind_eq_bind, Option.bind_some, offset, sought]
    simp only [SECTOR_LINK_SIZE, Nat.reduceSub, got]
    rfl
  · refine ⟨fileh.trans at_.fileh, size.trans at_.size, ?_, .inr ⟨k, rfl, ?_⟩⟩
    · rw [bytes.content_read, content]
    · rw [moved]
      simp only [sectorData, length_slice]
      omega

/-- The boot loader is long enough for every copy, and only the buffer changes. -/
theorem bootSector_spec (long : 256 ≤ boot.size) {sectornum : Nat}
    (first : sectornum ≤ BOOTLOADER_END) (d : Disk) :
    ∃ d', bootSector boot sectornum d = some d' ∧ d'.diskFileh = d.diskFileh ∧
      d'.diskSectorSize = d.diskSectorSize := by
  have copied : ¬ bootcopy boot sectornum < 0 := by
    simp only [bootcopy, bootOffset, BOOT_SECTOR_SIZE, BOOTLOADER_END] at first ⊢
    split_ifs <;> omega
  rw [bootSector, if_neg copied]
  dsimp only
  split <;> exact ⟨_, rfl, rfl, rfl⟩

/-- A sector before the first one of the file: its offset is negative, so no seek goes
there, and it never follows a sector of the file. -/
theorem readFile_before (at_ : AtSector bytes f F d s) {sectornum : Nat}
    (before : sectornum < FIRST_XEX_SECTOR) :
    ∃ r d' s', readFile files sectornum d s = some (r, d', s') ∧ AtSector bytes f F d' s' := by
  have skip : (sectornum == d.diskLastSector + 1) = false := by
    obtain invalid | ⟨j, last, -⟩ := at_.last
    · simp only [FIRST_XEX_SECTOR] at before
      simp only [invalid, INVALID_SECTOR_VALUE, beq_eq_false_iff_ne]
      omega
    · simp only [last, beq_eq_false_iff_ne]
      omega
  simp only [readFile, at_.fileh, Option.bind_eq_bind, Option.bind_some, skip,
    FileHandler.seekUnless, Bool.false_eq_true, if_false, at_.size, SECTOR_LINK_SIZE]
  rw [if_pos]
  · refine ⟨_, _, _, rfl, at_.forget (d.fillSectorbuff []) rfl rfl ?_⟩
    exact bytes.content_seek _ _ _
  · intro sought
    have position := bytes.position_seek f _ s sought
    omega

/-- Every read of a sector leaves the invariant in place. -/
theorem read_any (reliable : bytes.Reliable) (long : 256 ≤ boot.size)
    (at_ : AtSector bytes f F d s) (sectornum : UInt16) :
    ∃ r d' s', read files boot sectornum.toNat d s = some (r, d', s') ∧
      AtSector bytes f F d' s' := by
  simp only [read]
  split
  · next first =>
    obtain ⟨d', booted, fileh, size⟩ := bootSector_spec long first d
    rw [booted]
    exact ⟨_, _, _, rfl, at_.forget d' fileh size rfl⟩
  · next notFirst =>
    split
    · exact ⟨_, _, _, rfl, at_.forget (fakeVtoc d) rfl rfl rfl⟩
    · next notVtoc =>
      split
      · exact ⟨_, _, _, rfl, at_.forget (fakeDirectoryEntry d) rfl rfl rfl⟩
      · next notDirectory =>
        rcases Nat.lt_or_ge sectornum.toNat FIRST_XEX_SECTOR with before | behind
        · exact readFile_before at_ before
        · obtain ⟨k, number⟩ := Nat.exists_eq_add_of_le behind
          have range : FIRST_XEX_SECTOR + k < 65536 := number ▸ sectornum.toNat_lt
          obtain ⟨d', s', ran, after, -⟩ := read_file_sector boot reliable at_ range
          rw [read, ← number, if_neg notFirst, if_neg notVtoc, if_neg notDirectory] at ran
          exact ⟨_, d', s', ran, after⟩

/-- A drive can handle every command for the disk. -/
theorem AtSector.returns (reliable : bytes.Reliable) (long : 256 ≤ boot.size)
    (at_ : AtSector bytes f F d s) : (ops files boot).Returns d s where
  sectorSize_le sectornum := by
    simp only [MediaType.sectorSize, at_.size, DISK_SECTORBUF_SIZE]
    split_ifs <;> omega
  read sectornum range := by
    obtain ⟨r, d', s', ran, -⟩ := read_any reliable long at_ (UInt16.ofNatLT sectornum range)
    exact ⟨r, d', s', ran⟩
  write _ _ _ _ := ⟨_, _, _, rfl⟩
  format := ⟨_, _, _, rfl⟩

theorem readAll_any (reliable : bytes.Reliable) (long : 256 ≤ boot.size)
    (sectors : List UInt16) (at_ : AtSector bytes f F d s) :
    ∃ d' s', readAll files boot sectors (d, s) = some (d', s') ∧ AtSector bytes f F d' s' := by
  induction sectors generalizing d s with
  | nil => exact ⟨d, s, rfl, at_⟩
  | cons sectornum rest ih =>
      obtain ⟨r, d', s', ran, after⟩ := read_any reliable long at_ sectornum
      obtain ⟨d'', s'', rest, final⟩ := ih after
      refine ⟨d'', s'', ?_, final⟩
      simp only [readAll, ran, Option.bind_eq_bind, Option.bind_some, rest]

variable (boot) in
/-- The directory names the first sector of the file. -/
theorem read_directory (at_ : AtSector bytes f F d s) :
    ∃ d' s', read files boot DIRECTORY_START d s = some ((false, 256), d', s') ∧
      AtSector bytes f F d' s' ∧ startOf d'.diskSectorbuff = FIRST_XEX_SECTOR := by
  refine ⟨{ fakeDirectoryEntry d with diskLastSector := INVALID_SECTOR_VALUE }, s, ?_,
    at_.forget (fakeDirectoryEntry d) rfl rfl rfl, ?_⟩
  · rw [read, if_neg (by decide), if_neg (by decide), if_pos (by decide), at_.size]
  · exact u16_lobyte_hibyte (by decide)

/-! ## The chain -/

/-- The sectors of the chain from the `k`th on, when `count` are left. -/
def chain (F : List UInt8) (k count : Nat) : List (Nat × List UInt8) :=
  (List.range' k count).map fun i => (FIRST_XEX_SECTOR + i, sectorData F i)

theorem chain_succ (F : List UInt8) (k count : Nat) :
    chain F k (count + 1) = (FIRST_XEX_SECTOR + k, sectorData F k) :: chain F (k + 1) count := by
  rw [chain, List.range'_succ]
  rfl

/-- The data of the chain is a part of the file. -/
theorem chain_data (F : List UInt8) (k count : Nat) :
    (chain F k count).flatMap Prod.snd = slice F (253 * k) (253 * count) := by
  induction count generalizing k with
  | zero => simp [chain]
  | succ count ih =>
      rw [chain_succ, List.flatMap_cons, ih, sectorData, Nat.mul_add, slice_append_slice]
      congr 1
      omega

/-- Following the links from a sector of the file visits the rest of the chain. -/
theorem follow_chain (reliable : bytes.Reliable) (long : 256 ≤ boot.size)
    (short : F.length < (65536 - 369) * 253) (others : Nat → List UInt16) (fuel step k : Nat)
    (inside : k ≤ F.length / 253) (enough : F.length / 253 - k < fuel)
    (at_ : AtSector bytes f F d s) :
    follow files boot others fuel step (FIRST_XEX_SECTOR + k) (d, s) =
      some (chain F k (F.length / 253 + 1 - k)) := by
  induction fuel generalizing step k d s with
  | zero => omega
  | succ fuel ih =>
      have range : FIRST_XEX_SECTOR + k < 65536 := by
        simp only [FIRST_XEX_SECTOR]
        omega
      obtain ⟨d₁, s₁, before, at₁⟩ := readAll_any reliable long (others step) at_
      obtain ⟨d₂, s₂, ran, at₂, data, link⟩ := read_file_sector boot reliable at₁ range
      simp only [follow, before, Option.bind_eq_bind, Option.bind_some, ran, data, link,
        Bool.false_eq_true, if_false]
      have count : (sectorData F k).length = 253 ↔ k < F.length / 253 := by
        simp only [sectorData, length_slice]
        omega
      by_cases more : k < F.length / 253
      · have next : FIRST_XEX_SECTOR + k + 1 < 65536 := by
          simp only [FIRST_XEX_SECTOR]
          omega
        have left : F.length / 253 + 1 - k = F.length / 253 + 1 - (k + 1) + 1 := by omega
        rw [if_pos (count.mpr more), Nat.mod_eq_of_lt next, if_neg (Nat.succ_ne_zero _),
          Nat.add_assoc, ih (step + 1) (k + 1) more (by omega) at₂, left, chain_succ]
        rfl
      · have last : F.length / 253 + 1 - k = 1 := by omega
        rw [if_neg (mt count.mp more), if_pos rfl, last]
        rfl

/-- After mounting, the last sector is not known. -/
theorem mount_atSector (boot : Bootloader) (f : Handle) (d : Disk) (s : φ) :
    AtSector bytes f (bytes.content s) (mount (some boot) f (bytes.content s).length d) s where
  fileh := rfl
  size := rfl
  content := rfl
  last := .inl rfl

theorem le_diskNumSectors_mount (boot : Bootloader) (f : Handle) (disksize : Nat) (d : Disk) :
    FIRST_XEX_SECTOR + disksize / 253 ≤ (mount (some boot) f disksize d).diskNumSectors := by
  have all : ∀ extra, FIRST_XEX_SECTOR + disksize / 253 ≤
      if FIRST_XEX_SECTOR + disksize / 253 + extra < 720 then 720
      else FIRST_XEX_SECTOR + disksize / 253 + extra := by
    intro extra
    split <;> omega
  exact all _

/-- A computer that follows the links, whatever it reads before and in between, comes to
the end, stays inside the disk and has the file. -/
theorem file_loaded (reliable : bytes.Reliable) (long : 256 ≤ boot.size) (f : Handle) (d : Disk)
    (s : φ) (short : (bytes.content s).length < (65536 - 369) * 253)
    (others : Nat → List UInt16) {fuel : Nat} (enough : (bytes.content s).length / 253 < fuel) :
    ∃ visited, loadFile files boot others fuel
        (mount (some boot) f (bytes.content s).length d, s) = some visited ∧
      (∀ v ∈ visited,
        v.1 ≤ (mount (some boot) f (bytes.content s).length d).diskNumSectors) ∧
      visited.flatMap Prod.snd = bytes.content s := by
  have at₀ : AtSector bytes f _ _ s := mount_atSector boot f d s
  refine ⟨chain (bytes.content s) 0 ((bytes.content s).length / 253 + 1), ?_, ?_, ?_⟩
  · obtain ⟨d₁, s₁, before, at₁⟩ := readAll_any reliable long (others 0) at₀
    obtain ⟨d₂, s₂, directory, at₂, start⟩ := read_directory boot at₁
    simp only [loadFile, before, directory, start, Option.bind_eq_bind, Option.bind_some,
      Bool.false_eq_true, if_false]
    exact follow_chain reliable long short others fuel 1 0 (Nat.zero_le _) enough at₂
  · intro v visited
    obtain ⟨k, chained, rfl⟩ := List.mem_map.mp visited
    have inside : k < (bytes.content s).length / 253 + 1 := by simpa using chained
    have covered := le_diskNumSectors_mount boot f (bytes.content s).length d
    dsimp only
    omega
  · rw [chain_data, slice, Nat.mul_zero, List.drop_zero]
    apply List.take_of_length_le
    omega

end

/-- Three bytes, with reads of a boot sector and of sectors before and behind the file. -/
theorem file_loaded_of_three_bytes : ∃ visited,
    loadFile ByteFile.handler ⟨fun _ => 0, 384⟩ (fun _ => [1, 0x100, 0x172]) 1
      (mount (some ⟨fun _ => 0, 384⟩) 0 3 {}, ⟨[1, 2, 3], fun _ => 0⟩) = some visited ∧
    (∀ v ∈ visited, v.1 ≤ (mount (some ⟨fun _ => 0, 384⟩) 0 3 {}).diskNumSectors) ∧
    visited.flatMap Prod.snd = [1, 2, 3] :=
  file_loaded ByteFile.reliable (by decide) 0 {} ⟨[1, 2, 3], fun _ => 0⟩ (by decide) _ (by decide)

end FujiNet.Atari.MediaTypeXEX
