import Mathlib.Algebra.GroupWithZero.Nat
import FujiNet.Sio.Bus

/-!
# The checksum of a frame

`sio_checksum` and `calc_checksum` add the carry of each byte back at different moments. Both
compute the sum of the bytes modulo 255, with 255 for the multiples of it that are not 0.
-/

namespace FujiNet.PCLink

/-- One step of `calc_checksum`. -/
def checksumStep (cksum b : UInt8) : UInt8 :=
  let nck := cksum.toNat + b.toNat
  UInt8.ofNat (if nck > 0x00FF then nck + 1 else nck)

/-- `calc_checksum`. -/
def calcChecksum (buf : List UInt8) : UInt8 := buf.foldl checksumStep 0

end FujiNet.PCLink

namespace FujiNet.SIO

open PCLink (checksumStep calcChecksum)

/-- The number from 1 to 255 that is the same modulo 255, and 0 for 0. -/
def carried (n : Nat) : Nat := if n = 0 then 0 else (n - 1) % 255 + 1

/-- The sum of the bytes. -/
def byteSum (buf : List UInt8) : Nat := (buf.map UInt8.toNat).sum

section Carried

variable {m n a b : Nat}

theorem carried_le (n : Nat) : carried n ≤ 255 := by
  rw [carried]
  split_ifs <;> omega

theorem carried_mod (n : Nat) : carried n % 255 = n % 255 := by
  rw [carried]
  split_ifs <;> omega

theorem carried_eq_zero_iff : carried n = 0 ↔ n = 0 := by
  by_cases zero : n = 0
  · rw [carried, if_pos zero]
    exact iff_of_true rfl zero
  · rw [carried, if_neg zero]
    exact iff_of_false (Nat.succ_ne_zero _) zero

/-- What was carried already does not matter. -/
theorem carried_add (m n : Nat) : carried (carried m + n) = carried (m + n) := by
  unfold carried
  split_ifs <;> omega

theorem carried_of_le (le : n ≤ 255) : carried n = n := by
  rw [carried]
  split_ifs <;> omega

/-- Two numbers with one remainder differ by a multiple of 255. -/
theorem eq_or_of_carried_eq (small : a ≤ 255) (small' : b ≤ 255)
    (same : carried (n + a) = carried (n + b)) : a = b ∨ a = 0 ∧ b = 255 ∨ a = 255 ∧ b = 0 := by
  have residue : (n + a) % 255 = (n + b) % 255 := by rw [← carried_mod, same, carried_mod]
  omega

end Carried

/-- The loop of `sio_checksum` never leaves the range of a byte. -/
theorem sumWithCarry_eq {chk : Nat} (le : chk ≤ 255) (buf : List UInt8) :
    sumWithCarry chk buf = carried (chk + byteSum buf) := by
  induction buf generalizing chk with
  | nil => exact (carried_of_le le).symm
  | cons b buf ih =>
      have lt := b.toNat_lt
      have step : (chk + b.toNat) / 256 + (chk + b.toNat) % 256 = carried (chk + b.toNat) := by
        rw [carried]
        split_ifs <;> omega
      rw [sumWithCarry, step, ih (carried_le _), carried_add, byteSum, byteSum, List.map_cons,
        List.sum_cons, Nat.add_assoc]

theorem toNat_sioChecksum (buf : List UInt8) : (sioChecksum buf).toNat = carried (byteSum buf) := by
  have le := carried_le (byteSum buf)
  rw [sioChecksum, sumWithCarry_eq (Nat.zero_le _), Nat.zero_add, UInt8.toNat_ofNat']
  omega

theorem toNat_checksumStep (cksum b : UInt8) :
    (checksumStep cksum b).toNat = carried (cksum.toNat + b.toNat) := by
  have lt := cksum.toNat_lt
  have lt' := b.toNat_lt
  rw [checksumStep, UInt8.toNat_ofNat', carried]
  split_ifs <;> omega

theorem toNat_foldl_checksumStep (cksum : UInt8) (buf : List UInt8) :
    (buf.foldl checksumStep cksum).toNat = carried (cksum.toNat + byteSum buf) := by
  induction buf generalizing cksum with
  | nil => exact (carried_of_le (Nat.le_of_lt_succ cksum.toNat_lt)).symm
  | cons b buf ih =>
      rw [List.foldl_cons, ih, toNat_checksumStep, carried_add, byteSum, byteSum, List.map_cons,
        List.sum_cons, Nat.add_assoc]

/-- The two loops agree. -/
theorem calcChecksum_eq (buf : List UInt8) : calcChecksum buf = sioChecksum buf := by
  apply UInt8.toNat_inj.mp
  rw [toNat_sioChecksum, calcChecksum, toNat_foldl_checksumStep]
  exact congrArg carried (Nat.zero_add _)

/-! ## Frames -/

/-- A frame ends with the checksum of what is in front of it. -/
def Accepted (checksum : List UInt8 → UInt8) (frame : List UInt8) : Prop :=
  ∃ buf, frame = buf ++ [checksum buf]

/-- One of the bytes is 0 and the other 255. -/
def Swaps (a b : UInt8) : Prop := a = 0 ∧ b = 255 ∨ a = 255 ∧ b = 0

section Frame

variable {buf : List UInt8} {i : Nat} {b : UInt8}

theorem byteSum_eq_zero_iff : byteSum buf = 0 ↔ ∀ b ∈ buf, b = 0 := by
  rw [byteSum, List.sum_eq_zero_iff_forall_eq_nat, List.forall_mem_map]
  exact forall₂_congr fun b _ => @UInt8.toNat_inj b 0

theorem byteSum_set (inside : i < buf.length) :
    byteSum (buf.set i b) + buf[i].toNat = byteSum buf + b.toNat := by
  induction buf generalizing i with
  | nil => exact absurd inside (Nat.not_lt_zero i)
  | cons c buf ih =>
      cases i with
      | zero =>
          simp only [byteSum, List.set_cons_zero, List.map_cons, List.sum_cons,
            List.getElem_cons_zero]
          omega
      | succ i =>
          have rest := ih (Nat.lt_of_succ_lt_succ inside)
          simp only [byteSum, List.set_cons_succ, List.map_cons, List.sum_cons,
            List.getElem_cons_succ] at rest ⊢
          omega

/-- A changed byte changes the checksum. -/
theorem sioChecksum_set (inside : i < buf.length) (changed : b ≠ buf[i])
    (visible : ¬ Swaps buf[i] b) : sioChecksum (buf.set i b) ≠ sioChecksum buf := by
  intro same
  have sum := byteSum_set (b := b) inside
  have residue : carried (byteSum buf + b.toNat) = carried (byteSum buf + buf[i].toNat) := by
    have equal := congrArg UInt8.toNat same
    rw [toNat_sioChecksum, toNat_sioChecksum] at equal
    rw [← sum, ← carried_add, equal, carried_add]
  have small := Nat.le_of_lt_succ buf[i].toNat_lt
  have small' := Nat.le_of_lt_succ b.toNat_lt
  rcases eq_or_of_carried_eq small small' residue.symm with eq | ⟨zero, full⟩ | ⟨full, zero⟩
  · exact changed (UInt8.toNat_inj.mp eq.symm)
  · exact visible (.inl ⟨UInt8.toNat_inj.mp zero, UInt8.toNat_inj.mp full⟩)
  · exact visible (.inr ⟨UInt8.toNat_inj.mp full, UInt8.toNat_inj.mp zero⟩)

/-- A frame with a changed byte, be it the checksum itself, is not accepted. -/
theorem not_accepted_set (inside : i < (buf ++ [sioChecksum buf]).length)
    (changed : b ≠ (buf ++ [sioChecksum buf])[i])
    (visible : ¬ Swaps (buf ++ [sioChecksum buf])[i] b) :
    ¬ Accepted sioChecksum ((buf ++ [sioChecksum buf]).set i b) := by
  rintro ⟨buf', same⟩
  by_cases front : i < buf.length
  · rw [List.getElem_append_left front] at changed visible
    rw [List.set_append_left i b front] at same
    obtain ⟨rfl, checksum⟩ := List.append_inj' same rfl
    exact sioChecksum_set front changed visible (List.singleton_inj.mp checksum).symm
  · obtain rfl : i = buf.length := by
      rw [List.length_append, List.length_singleton] at inside
      omega
    rw [List.set_append_right _ _ (Nat.le_refl _), Nat.sub_self] at same
    obtain ⟨rfl, checksum⟩ := List.append_inj' same rfl
    rw [List.getElem_append_right (Nat.le_refl _)] at changed
    refine changed ?_
    simpa using List.singleton_inj.mp checksum

end Frame

/-- Both sides compute one checksum: the sum of the bytes modulo 255, 0 only for zeros. So a frame
with it is accepted by both, and with one byte changed by neither. -/
theorem checksum_one (buf : List UInt8) :
    calcChecksum buf = sioChecksum buf ∧ sumWithCarry 0 buf ≤ 255 ∧
      (sioChecksum buf).toNat % 255 = byteSum buf % 255 ∧
      (sioChecksum buf = 0 ↔ ∀ b ∈ buf, b = 0) ∧
      ∀ checksum ∈ [sioChecksum, calcChecksum], Accepted checksum (buf ++ [sioChecksum buf]) ∧
        ∀ (i : Nat) (inside : i < (buf ++ [sioChecksum buf]).length) (b : UInt8),
          b ≠ (buf ++ [sioChecksum buf])[i] → ¬ Swaps (buf ++ [sioChecksum buf])[i] b →
          ¬ Accepted checksum ((buf ++ [sioChecksum buf]).set i b) := by
  have one : calcChecksum = sioChecksum := funext calcChecksum_eq
  refine ⟨calcChecksum_eq buf, ?_, ?_, ?_, ?_⟩
  · rw [sumWithCarry_eq (Nat.zero_le _)]
    exact carried_le _
  · rw [toNat_sioChecksum, carried_mod]
  · rw [← byteSum_eq_zero_iff, ← carried_eq_zero_iff, ← toNat_sioChecksum]
    exact UInt8.toNat_inj.symm
  · rw [one]
    simp only [List.mem_cons, List.not_mem_nil, or_false, or_self, forall_eq]
    exact ⟨⟨buf, rfl⟩, fun i inside b => not_accepted_set inside⟩

end FujiNet.SIO
