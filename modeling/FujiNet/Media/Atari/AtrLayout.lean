import FujiNet.Media.Atari.DiskTypeAtr

/-!
# Where the sectors of an ATR image lie

Offset and size of a sector are computed in two places, and two more decide how
long a new image is and how many sectors a mounted one has. On images with 128 or
256 bytes a sector they agree: the sectors follow each other without a gap from
byte 16 to the end of the file. With 512 bytes a sector the offset of the fourth
sector and of all after it is one sector too large.
-/

namespace FujiNet.Atari.MediaTypeATR

/-- The offset in closed form. -/
theorem sectorToOffset_eq (d : Disk) {sectorNum : Nat} (first : 1 ≤ sectorNum)
    (word : sectorNum < 65536) :
    sectorToOffset d sectorNum =
      if d.diskSectorSize = 512 then
        if sectorNum ≤ 3 then 16 + 512 * (sectorNum - 1) else 16 + 512 * sectorNum
      else if sectorNum ≤ 3 then 16 + 128 * (sectorNum - 1)
      else if d.diskSectorSize = 256 then 400 + 256 * (sectorNum - 4)
      else 16 + 128 * (sectorNum - 1) := by
  match sectorNum, first with
  | 1, _ => simp [sectorToOffset]
  | 2, _ => simp [sectorToOffset]
  | 3, _ => simp [sectorToOffset]
  | k + 4, _ =>
      have beyond : ¬ k + 4 ≤ 3 := by omega
      simp only [sectorToOffset, if_neg beyond]
      split_ifs <;> omega

/-- With 128 or 256 bytes a sector, each sector ends where the next one starts. -/
theorem sectorToOffset_succ {d : Disk} (size : d.diskSectorSize = 128 ∨ d.diskSectorSize = 256)
    {sectorNum : Nat} (first : 1 ≤ sectorNum) (word : sectorNum + 1 < 65536) :
    sectorToOffset d (sectorNum + 1) = sectorToOffset d sectorNum + d.sectorSize sectorNum := by
  rw [sectorToOffset_eq d (by omega) word, sectorToOffset_eq d first (by omega),
    MediaType.sectorSize]
  split_ifs <;> omega

/-- The sectors of the disk cover the file behind its header, in order, without a gap
and without an overlap. -/
structure Partitions (d : Disk) (fileSize : Nat) : Prop where
  start : sectorToOffset d 1 = 16
  contiguous : ∀ s, 1 ≤ s → s < d.diskNumSectors →
    sectorToOffset d (s + 1) = sectorToOffset d s + d.sectorSize s
  disjoint : ∀ s t, 1 ≤ s → s < t → t ≤ d.diskNumSectors →
    sectorToOffset d s + d.sectorSize s ≤ sectorToOffset d t
  stop : sectorToOffset d d.diskNumSectors + d.sectorSize d.diskNumSectors = fileSize

/-- The length of an image with `n` sectors: the header and all sectors, three of them
short unless sectors have 512 bytes. -/
def imageSize (sectorSize n : Nat) : Nat :=
  if sectorSize = 512 then 16 + 512 * n else 400 + sectorSize * (n - 3)

/-- A disk of `n` sectors is laid out as a partition of its file exactly when it does
not have 512 bytes a sector, or has no fourth sector. -/
theorem partitions_iff {d : Disk}
    (size : d.diskSectorSize = 128 ∨ d.diskSectorSize = 256 ∨ d.diskSectorSize = 512)
    (least : 3 ≤ d.diskNumSectors) (word : d.diskNumSectors ≤ 65535) :
    Partitions d (imageSize d.diskSectorSize d.diskNumSectors) ↔
      (d.diskSectorSize = 512 → d.diskNumSectors = 3) := by
  constructor
  · intro partition large
    by_contra more
    have gap := partition.contiguous 3 (by omega) (by omega)
    rw [sectorToOffset_eq d (by omega) (by omega), sectorToOffset_eq d (by omega) (by omega),
      MediaType.sectorSize, large] at gap
    simp at gap
  · intro small
    refine ⟨rfl, ?_, ?_, ?_⟩
    · intro s first last
      rw [sectorToOffset_eq d (by omega) (by omega), sectorToOffset_eq d first (by omega),
        MediaType.sectorSize]
      split_ifs <;> omega
    · intro s t first less last
      rw [sectorToOffset_eq d first (by omega), sectorToOffset_eq d (by omega) (by omega),
        MediaType.sectorSize]
      split_ifs <;> omega
    · rw [sectorToOffset_eq d (by omega) (by omega), MediaType.sectorSize, imageSize]
      obtain same | same | same := size <;> simp only [same] <;> split_ifs <;> omega

/-! ## New images -/

@[simp] theorem length_header (sectorSize n : Nat) : (header sectorSize n).length = 16 := rfl

section

variable {φ : Type} {files : FileHandler φ} (bytes : SeekableBytes files)

/-- A file that begins with `hdr` and whose handler stands at its end. -/
structure Appended (f : Handle) (hdr : List UInt8) (p : Nat) (s : φ) : Prop where
  position : bytes.position f s = p
  length : (bytes.content s).length = p
  head : (bytes.content s).take 16 = hdr

variable {bytes} {f : Handle} {hdr : List UInt8} {p : Nat} {s : φ}

theorem Appended.write (reliable : bytes.Reliable) (appended : Appended bytes f hdr p s)
    (least : 16 ≤ p) (data : List UInt8) :
    Appended bytes f hdr (p + data.length) (files.write f data s).2 := by
  obtain ⟨written, moved⟩ := bytes.write_full f data s (reliable.write_ok f data s)
  have length := appended.length
  refine ⟨by rw [moved, appended.position], ?_, ?_⟩
  · rw [written, length_writeAt, appended.position, length]
    omega
  · rw [written, appended.position, take_writeAt _ _ _ least (by omega), appended.head]

theorem Appended.writeBootSectors (reliable : bytes.Reliable) (n offset : Nat)
    (appended : Appended bytes f hdr p s) (least : 16 ≤ p) :
    (writeBootSectors files f n offset s).1 = some (offset + 128 * n) ∧
      Appended bytes f hdr (p + 128 * n) (writeBootSectors files f n offset s).2 := by
  induction n generalizing offset p s with
  | zero => exact ⟨rfl, appended⟩
  | succ n ih =>
      have out : (files.write f (List.replicate 128 0) s).1 = 128 := by
        rw [reliable.write_ok, List.length_replicate]
      have next := appended.write reliable least (List.replicate 128 0)
      rw [List.length_replicate] at next
      obtain ⟨result, after⟩ := ih (offset + 128) next (by omega)
      simp only [MediaTypeATR.writeBootSectors, out, ne_eq, not_true_eq_false, if_false]
      refine ⟨result.trans (congrArg some (by omega)), ?_⟩
      rwa [show p + 128 * (n + 1) = p + 128 + 128 * n by omega]

/-- Writing `size` zeros behind the header, wherever that is, keeps the header. -/
theorem Appended.writeLast (reliable : bytes.Reliable) (appended : Appended bytes f hdr p s)
    (least : 16 ≤ p) (last : Nat) (behind : 16 ≤ last) (size : Nat) :
    (files.write f (List.replicate size 0) (files.seek f last s).2).1 = size ∧
      (bytes.content (files.write f (List.replicate size 0) (files.seek f last s).2).2).length =
        max p (last + size) ∧
      (bytes.content (files.write f (List.replicate size 0) (files.seek f last s).2).2).take 16 =
        hdr := by
  have moved := Int.natCast_inj.mp (bytes.position_seek f last s (reliable.seek_ok f last s))
  have out := reliable.write_ok f (List.replicate size 0) (files.seek f last s).2
  have written := (bytes.write_full f _ _ out).1
  have length := appended.length
  rw [moved, bytes.content_seek] at written
  refine ⟨by rw [out, List.length_replicate], ?_, ?_⟩
  · rw [written, length_writeAt, length, List.length_replicate]
  · rw [written, take_writeAt _ _ _ behind (by omega), appended.head]

/-- `create` on an empty file. -/
theorem create_spec (reliable : bytes.Reliable) (empty : bytes.content s = [])
    (start : bytes.position f s = 0) {sectorSize n : Nat}
    (size : sectorSize = 128 ∨ sectorSize = 256 ∨ sectorSize = 512) (least : 3 ≤ n)
    (word : n ≤ 65535) :
    (create files f sectorSize n s).1 = true ∧
      (bytes.content (create files f sectorSize n s).2).length = imageSize sectorSize n ∧
      (bytes.content (create files f sectorSize n s).2).take 16 = header sectorSize n := by
  have out := reliable.write_ok f (header sectorSize n) s
  obtain ⟨written, moved⟩ := bytes.write_full f _ _ out
  have headed : Appended bytes f (header sectorSize n) 16
      (files.write f (header sectorSize n) s).2 := by
    rw [start, empty] at written
    have content : bytes.content (files.write f (header sectorSize n) s).2 =
        header sectorSize n := by simpa [writeAt] using written
    refine ⟨by rw [moved, start, length_header], by rw [content, length_header], ?_⟩
    rw [content, List.take_of_length_le (Nat.le_of_eq (length_header sectorSize n))]
  simp only [create, out, length_header]
  by_cases small : sectorSize < 512
  · obtain ⟨boot, booted⟩ := headed.writeBootSectors reliable 3 16 (by omega)
    have place : (((16 + 128 * 3 : Nat) : Int) + ((n + 65536 - 3) % 65536 : Nat) * sectorSize -
        sectorSize) % 4294967296 = (400 + (n - 3) * sectorSize - sectorSize : Nat) := by
      obtain rfl | rfl | rfl := size <;> omega
    obtain ⟨last, length, head⟩ := booted.writeLast reliable (by omega)
      (400 + (n - 3) * sectorSize - sectorSize) (by obtain rfl | rfl | rfl := size <;> omega)
      sectorSize
    simp only [if_pos small, boot, place, last, beq_self_eq_true, true_and]
    refine ⟨?_, head⟩
    rw [length, imageSize]
    obtain rfl | rfl | rfl := size <;> simp <;> omega
  · obtain rfl : sectorSize = 512 := by omega
    have place : (((16 : Nat) : Int) + (n : Nat) * (512 : Nat) - (512 : Nat)) % 4294967296 =
        (16 + n * 512 - 512 : Nat) := by
      omega
    obtain ⟨last, length, head⟩ :=
      headed.writeLast reliable (by omega) (16 + n * 512 - 512) (by omega) 512
    simp only [if_neg small, place, last, beq_self_eq_true, true_and]
    refine ⟨?_, head⟩
    rw [length, imageSize, if_pos rfl]
    omega

/-- The number of 16-byte paragraphs in the header of a new image. -/
def paragraphs (sectorSize n : Nat) : Nat :=
  if sectorSize = 256 then 16 * n - 24 else sectorSize / 16 * n

theorem header_eq {sectorSize n : Nat}
    (size : sectorSize = 128 ∨ sectorSize = 256 ∨ sectorSize = 512) (least : 3 ≤ n)
    (word : n ≤ 65535) :
    header sectorSize n = [0x96, 0x02, lobyte (paragraphs sectorSize n),
      hibyte (paragraphs sectorSize n), lobyte sectorSize, hibyte sectorSize,
      UInt8.ofNat (paragraphs sectorSize n / 65536)] ++ List.replicate 9 0 := by
  have counted : (if sectorSize = 256 then (n * sectorSize + 4294967296 - 384) % 4294967296
      else n * sectorSize) / 16 = paragraphs sectorSize n := by
    obtain rfl | rfl | rfl := size <;> simp only [paragraphs] <;> split_ifs <;> omega
  simp only [header, counted]
  rfl

/-- The geometry read from the header of a new image is the one it was made for. -/
theorem setGeometry_header (d : Disk) {sectorSize n : Nat}
    (size : sectorSize = 128 ∨ sectorSize = 256 ∨ sectorSize = 512) (least : 3 ≤ n)
    (word : n ≤ 65535) :
    setGeometry (header sectorSize n) d = some
      ({ d with diskSectorSize := sectorSize, diskNumSectors := n }.derivePercomBlock n) := by
  have bound : paragraphs sectorSize n < 16777216 := by
    obtain rfl | rfl | rfl := size <;> simp only [paragraphs] <;> split_ifs <;> omega
  have counted : (if sectorSize = 256 then paragraphs sectorSize n * 16 / sectorSize + 2
      else paragraphs sectorSize n * 16 / sectorSize) = n := by
    obtain rfl | rfl | rfl := size <;> simp only [paragraphs] <;> split_ifs <;> omega
  have nonzero : sectorSize ≠ 0 := by omega
  rw [header_eq size least word]
  simp [setGeometry, u16_lobyte_hibyte (show sectorSize < 65536 by omega), u16_add_high bound,
    nonzero, counted]

theorem mount_created (reliable : bytes.Reliable) (g : Handle) (disksize : Nat)
    {sectorSize n : Nat} (size : sectorSize = 128 ∨ sectorSize = 256 ∨ sectorSize = 512)
    (least : 3 ≤ n) (word : n ≤ 65535)
    (head : (bytes.content s).take 16 = header sectorSize n) :
    ∃ d s', mount files g disksize {} s = some (d, s') ∧ d.diskType = .atr ∧
      d.diskSectorSize = sectorSize ∧ d.diskNumSectors = n ∧
      bytes.content s' = bytes.content s := by
  have sought : (files.seek g 0 s).1 = 0 := reliable.seek_ok g 0 s
  have moved : bytes.position g (files.seek g 0 s).2 = 0 :=
    Int.natCast_inj.mp (bytes.position_seek g 0 s sought)
  have got : (files.read g 16 (files.seek g 0 s).2).1 = header sectorSize n := by
    rw [reliable.read_eq, bytes.content_seek, moved]
    exact head
  have magic : u16 ((header sectorSize n).getD 0 0) ((header sectorSize n).getD 1 0) =
      ATR_MAGIC_HEADER := by
    rw [header_eq size least word]
    rfl
  have kept : bytes.content (files.read g 16 (files.seek g 0 s).2).2 = bytes.content s := by
    rw [bytes.content_read, bytes.content_seek]
  have mounted := mount_of_header (d := {}) files sought got (length_header ..) magic disksize
  rw [setGeometry_header _ size least word] at mounted
  exact ⟨_, _, mounted, rfl, rfl, rfl, kept⟩

/-- A new image, mounted through any handler, is partitioned by its sectors exactly
when it does not have 512 bytes a sector, or has no fourth sector. -/
theorem created_image_partitioned_iff (bytes : SeekableBytes files) (reliable : bytes.Reliable)
    (f g : Handle) (s : φ) (empty : bytes.content s = []) (start : bytes.position f s = 0)
    {sectorSize n : Nat} (size : sectorSize = 128 ∨ sectorSize = 256 ∨ sectorSize = 512)
    (least : 3 ≤ n) (word : n ≤ 65535) (disksize : Nat) :
    (create files f sectorSize n s).1 = true ∧
      ∃ d s', mount files g disksize {} (create files f sectorSize n s).2 = some (d, s') ∧
        d.diskType = .atr ∧ d.diskSectorSize = sectorSize ∧ d.diskNumSectors = n ∧
        (Partitions d (bytes.content s').length ↔ (sectorSize = 512 → n = 3)) := by
  obtain ⟨success, length, head⟩ := create_spec reliable empty start size least word
  obtain ⟨d, s', mounted, type, rfl, rfl, content⟩ :=
    mount_created reliable g disksize size least word head
  refine ⟨success, d, s', mounted, type, rfl, rfl, ?_⟩
  rw [content, length]
  exact partitions_iff size least word

end

/-- A single density disk of 720 sectors. -/
theorem created_image_partitioned_iff_of_single_density :
    (create ByteFile.handler 0 128 720 ⟨[], fun _ => 0⟩).1 = true ∧
      ∃ d s', mount ByteFile.handler 1 92176 {}
          (create ByteFile.handler 0 128 720 ⟨[], fun _ => 0⟩).2 = some (d, s') ∧
        d.diskNumSectors = 720 ∧ Partitions d s'.content.length := by
  obtain ⟨success, d, s', mounted, -, -, count, partitioned⟩ :=
    created_image_partitioned_iff ByteFile.bytes ByteFile.reliable 0 1 ⟨[], fun _ => 0⟩ rfl rfl
      (.inl rfl : 128 = 128 ∨ 128 = 256 ∨ 128 = 512) (by decide : 3 ≤ 720) (by decide) 92176
  exact ⟨success, d, s', mounted, count, partitioned.mpr (by decide)⟩

/-- On a new image with four sectors of 512 bytes the fourth sector starts 512 bytes
behind the end of the third, at the end of the file. -/
theorem fourth_sector_outside_file :
    ∃ d s', mount ByteFile.handler 1 2064 {}
        (create ByteFile.handler 0 512 4 ⟨[], fun _ => 0⟩).2 = some (d, s') ∧
      d.diskNumSectors = 4 ∧ sectorToOffset d 3 + d.sectorSize 3 = 1552 ∧
      sectorToOffset d 4 = 2064 ∧ s'.content.length = 2064 ∧
      ¬ Partitions d s'.content.length := by
  have computed : (mount ByteFile.handler 1 2064 {}
        (create ByteFile.handler 0 512 4 ⟨[], fun _ => 0⟩).2).map (fun r =>
          [r.1.diskNumSectors, sectorToOffset r.1 3 + r.1.sectorSize 3, sectorToOffset r.1 4,
            r.2.content.length]) = some [4, 1552, 2064, 2064] := by
    decide +kernel
  obtain ⟨⟨d, s'⟩, mounted, values⟩ := Option.map_eq_some_iff.mp computed
  simp only [List.cons.injEq, and_true] at values
  obtain ⟨count, third, fourth, length⟩ := values
  refine ⟨d, s', mounted, count, third, fourth, length, fun partition => ?_⟩
  have gapless : sectorToOffset d 4 = sectorToOffset d 3 + d.sectorSize 3 :=
    partition.contiguous 3 (by decide) (by omega)
  omega

end FujiNet.Atari.MediaTypeATR
