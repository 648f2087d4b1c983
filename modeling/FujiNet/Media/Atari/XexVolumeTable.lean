import Mathlib.Data.Nat.Bitwise
import FujiNet.Media.Atari.DiskTypeXex

/-!
# The volume table of an executable

The table `MediaTypeXEX` shows in sector 0x168 has the number of free sectors in
bytes 3 and 4 and a map of the 720 sectors in bytes 10 to 99, from the highest bit
of each byte down. The loop over the bits shifts once more after the last bit, so
the map moves by one place, and each byte loses its highest bit and has its lowest
one clear. The counter of sectors goes on below zero and marks what follows.
-/

namespace FujiNet.Atari.MediaTypeXEX

/-- Sector `k` is marked in a map. -/
def mapBit (map : List UInt8) (k : Nat) : Bool := (map.getD (k / 8) 0).toNat.testBit (7 - k % 8)

/-- The volume table of a disk with `n` sectors in use, which are the first ones. -/
structure VolumeTable (n : Nat) (sector : List UInt8) : Prop where
  free : u16 (sector.getD 3 0) (sector.getD 4 0) = 720 - n
  map : (List.range 720).filter (mapBit (slice sector 10 90)) = List.range n

/-! ## One byte of the map -/

theorem vtocByte_succ (j : Nat) (b : UInt8) (c : Nat) :
    vtocByte (j + 1) b c =
      vtocByte j ((if c ≠ 0 then b ||| 1 else b) <<< 1) ((c + 65535) % 65536) := by
  rw [vtocByte]

theorem counter_vtocByte (j : Nat) (b : UInt8) {c : Nat} (word : c < 65536) (small : j ≤ 8) :
    (vtocByte j b c).2 = (c + 65536 - j) % 65536 := by
  induction j generalizing b c with
  | zero => simp [vtocByte, Nat.mod_eq_of_lt word]
  | succ j ih =>
      rw [vtocByte_succ, ih _ (Nat.mod_lt _ (by decide)) (by omega)]
      cases c with
      | zero =>
          have wraps : 65535 + 65536 - j = 65536 + (0 + 65536 - (j + 1)) := by omega
          rw [Nat.zero_add, Nat.mod_eq_of_lt (by decide : 65535 < 65536), wraps, Nat.add_mod_left,
            Nat.zero_add]
      | succ c =>
          have less : c + 65536 - j = c + 1 + 65536 - (j + 1) := by omega
          rw [Nat.add_assoc, Nat.add_mod_right, Nat.mod_eq_of_lt (Nat.lt_of_succ_lt word), less]

theorem testBit_shiftLeft_one (b : UInt8) {p : Nat} (byte : p < 8) :
    (b <<< 1).toNat.testBit p = (decide (1 ≤ p) && b.toNat.testBit (p - 1)) := by
  rw [UInt8.toNat_shiftLeft]
  simp [Nat.testBit_mod_two_pow (x := b.toNat <<< 1) (j := 8), byte, Nat.testBit_shiftLeft]

theorem testBit_or_one (b : UInt8) (p : Nat) :
    (b ||| 1).toNat.testBit p = (decide (p = 0) || b.toNat.testBit p) := by
  rw [UInt8.toNat_or, Nat.testBit_or, Bool.or_comm]
  congr 1
  cases p with
  | zero => rfl
  | succ p => simp [Nat.testBit_succ]

/-- The bit that the loop puts in at its `i`-th turn ends at place `j - i`. -/
theorem testBit_vtocByte (j : Nat) {b : UInt8} (even : b.toNat.testBit 0 = false) {c : Nat}
    (word : c < 65536) (small : j ≤ 8) {p : Nat} (byte : p < 8) :
    (vtocByte j b c).1.toNat.testBit p =
      if p = 0 then false
      else if p ≤ j then decide (c ≠ j - p) else b.toNat.testBit (p - j) := by
  induction j generalizing b c with
  | zero =>
      rw [vtocByte]
      split_ifs with first
      · rw [first, even]
      · omega
      · rfl
  | succ j ih =>
      have shifted (q : Nat) (inside : q < 8) :
          ((if c ≠ 0 then b ||| 1 else b) <<< 1).toNat.testBit q =
            (decide (1 ≤ q) && (decide (q = 1 ∧ c ≠ 0) || b.toNat.testBit (q - 1))) := by
        rw [testBit_shiftLeft_one _ inside]
        split_ifs with more
        · rw [testBit_or_one]
          by_cases one : q = 1 <;> by_cases some : 1 ≤ q <;> grind
        · simp [more]
      rw [vtocByte]
      generalize (if c ≠ 0 then b ||| 1 else b) <<< 1 = next at shifted ⊢
      rw [ih (by simp [shifted 0]) (by omega) (by omega)]
      by_cases first : p = 0
      · rw [if_pos first, if_pos first]
      rw [if_neg first, if_neg first]
      rcases Nat.lt_trichotomy p (j + 1) with low | rfl | high
      · rw [if_pos (by omega), if_pos (by omega), decide_eq_decide]
        omega
      · rw [if_neg (by omega), if_pos (by omega), shifted _ (by omega)]
        simp [even]
      · rw [if_neg (by omega), if_neg (by omega), shifted _ (by omega)]
        have later : ¬ p - j = 1 := by omega
        have rest : p - j - 1 = p - (j + 1) := by omega
        simp only [later, false_and, decide_false, Bool.false_or, rest]
        rw [decide_eq_true (by omega), Bool.true_and]

/-- Sector `k` is marked unless it ends a byte of the map or the counter is zero one turn
later. -/
theorem mapBit_vtocMap (i : Nat) {c : Nat} (word : c < 65536) {k : Nat} (inside : k < 8 * i)
    (bounded : 8 * i ≤ 65536) :
    mapBit (vtocMap i c) k = decide (k % 8 ≠ 7 ∧ (k + 1) % 65536 ≠ c) := by
  induction i generalizing c k with
  | zero => omega
  | succ i ih =>
      rw [mapBit, vtocMap]
      rcases Nat.lt_or_ge k 8 with first | later
      · rw [Nat.div_eq_of_lt first, List.getD_cons_zero,
          testBit_vtocByte 8 rfl word le_rfl (by omega)]
        split_ifs with last
        · simp [show k % 8 = 7 by omega]
        · rw [decide_eq_decide]
          omega
        · omega
      · obtain ⟨m, rfl⟩ := Nat.exists_eq_add_of_le' later
        have next := ih (c := (c + 65536 - 8) % 65536) (k := m) (by omega) (by omega) (by omega)
        rw [Nat.add_div_right _ (by omega), List.getD_cons_succ, Nat.add_mod_right,
          counter_vtocByte 8 0 word le_rfl]
        rw [mapBit] at next
        rw [next, decide_eq_decide]
        omega

theorem length_vtocMap (i c : Nat) : (vtocMap i c).length = i := by
  induction i generalizing c with
  | zero => rfl
  | succ i ih => rw [vtocMap, List.length_cons, ih]

/-! ## The table -/

/-- The number of sectors a file takes. -/
def occupied (disksize : Nat) : Nat := (disksize + 252) / 253

theorem numSectors_of_small {d : Disk} (size : d.diskSectorSize = SECTOR_SIZE)
    (small : occupied d.diskImageSize ≤ 720) : numSectors d = occupied d.diskImageSize := by
  have width : d.diskSectorSize - SECTOR_LINK_SIZE = 253 := by rw [size]; rfl
  rw [occupied] at small ⊢
  rw [numSectors, width]
  split <;> omega

/-- The bytes of the table in the sector buffer. -/
theorem fakeVtoc_sectorbuff (d : Disk) :
    slice (fakeVtoc d).diskSectorbuff 10 90 = vtocMap 90 (numSectors d) ∧
      (fakeVtoc d).diskSectorbuff.getD 3 0 = lobyte ((0x2D0 + 65536 - numSectors d) % 65536) ∧
      (fakeVtoc d).diskSectorbuff.getD 4 0 = 0 := by
  refine ⟨?_, rfl, ?_⟩
  · simp only [fakeVtoc, MediaType.fillSectorbuff, slice, List.cons_append, List.nil_append,
      List.drop_succ_cons, List.drop_zero]
    rw [List.take_append_of_le_length (by rw [length_vtocMap]), List.take_of_length_le]
    rw [length_vtocMap]
  · have high : lobyte ((0x2D0 + 65536 - numSectors d) % 65536 * 256) = 0 := by
      apply UInt8.toNat_inj.mp
      simp [lobyte]
    exact high

/-- The map never marks the first `n` sectors: the last sector of each byte stays clear, and
the first sector of the second byte is marked even when it should not be. -/
theorem marked_ne_range {n : Nat} (small : n ≤ 720) :
    (List.range 720).filter (mapBit (vtocMap 90 n)) ≠ List.range n := by
  intro same
  have marked {k : Nat} (inside : k < 720) : (k % 8 ≠ 7 ∧ (k + 1) % 65536 ≠ n) ↔ k < n := by
    rw [← List.mem_range (n := n), ← same, List.mem_filter,
      mapBit_vtocMap 90 (by omega) (by omega) (by omega), List.mem_range]
    simp [inside]
  have seventh := marked (k := 7) (by omega)
  have eighth := marked (k := 8) (by omega)
  have ninth := marked (k := 9) (by omega)
  omega

/-- Reading the volume table of an executable of at most 720 sectors never gives the table
of its disk. -/
theorem read_vtoc_wrong {φ : Type} (files : FileHandler φ) (boot : Bootloader) {d : Disk}
    (size : d.diskSectorSize = SECTOR_SIZE) (small : occupied d.diskImageSize ≤ 720) (s : φ) :
    ∃ d', read files boot VTOC_SECTOR d s = some ((false, SECTOR_SIZE), d', s) ∧
      ¬ VolumeTable (occupied d.diskImageSize) d'.diskSectorbuff := by
  refine ⟨{ fakeVtoc d with diskLastSector := INVALID_SECTOR_VALUE }, ?_, fun table => ?_⟩
  · rw [← size]
    rfl
  · have map := table.map
    rw [show slice _ 10 90 = _ from (fakeVtoc_sectorbuff d).1,
      numSectors_of_small size small] at map
    exact marked_ne_range small map

/-- A file of 2530 bytes, which takes ten sectors. -/
theorem read_vtoc_wrong_of_ten :
    ∃ d', read ByteFile.handler ⟨fun _ => 0, 384⟩ VTOC_SECTOR
        (mount (some ⟨fun _ => 0, 384⟩) 0 2530 {}) ⟨List.replicate 2530 0, fun _ => 0⟩ =
          some ((false, SECTOR_SIZE), d', ⟨List.replicate 2530 0, fun _ => 0⟩) ∧
      ¬ VolumeTable (occupied 2530) d'.diskSectorbuff :=
  read_vtoc_wrong ByteFile.handler ⟨fun _ => 0, 384⟩ (d := mount (some ⟨fun _ => 0, 384⟩) 0 2530 {})
    rfl (show occupied 2530 ≤ 720 by decide) _

/-- Its table tells of 198 free sectors instead of 710, and marks sector 20. -/
theorem volume_table_of_ten :
    let d := fakeVtoc (mount (some ⟨fun _ => 0, 384⟩) 0 2530 {})
    u16 (d.diskSectorbuff.getD 3 0) (d.diskSectorbuff.getD 4 0) = 198 ∧
      mapBit (slice d.diskSectorbuff 10 90) 20 = true ∧ ¬ VolumeTable 10 d.diskSectorbuff := by
  have free : u16 ((fakeVtoc (mount (some ⟨fun _ => 0, 384⟩) 0 2530 {})).diskSectorbuff.getD 3 0)
      ((fakeVtoc (mount (some ⟨fun _ => 0, 384⟩) 0 2530 {})).diskSectorbuff.getD 4 0) = 198 := by
    decide +kernel
  refine ⟨free, by decide +kernel, fun table => ?_⟩
  have wrong := table.free
  rw [free] at wrong
  omega

end FujiNet.Atari.MediaTypeXEX
