import Mathlib.Data.List.Basic
import Mathlib.Data.List.GetD
import Mathlib.Logic.Function.Basic

/-!
# Bytes carried seven bits at a time

A line that needs the top bit of every byte set carries the top bits of up to
seven bytes in a byte of their own: bit `6 - i` of it stands for bit 7 of byte
`i`. `restore` says that the byte is put together again from the two.

Shifts are those of the unbounded integers a byte is promoted to, cut to eight
bits. A buffer is a function from indices to bytes; `writeBytes` is what a
sequence of assignments to consecutive places does to it.

Nothing in this file mentions a particular program or protocol.
-/

namespace FujiNet

/-- `b << k`, cut to a byte. -/
def shl (b : UInt8) (k : Nat) : UInt8 := ⟨b.toBitVec <<< k⟩

/-- `b >> k` -/
def shr (b : UInt8) (k : Nat) : UInt8 := ⟨b.toBitVec >>> k⟩

/-- Bit `j` of a byte. -/
def bit (b : UInt8) (j : Nat) : Bool := b.toBitVec.getLsbD j

section Bits

variable (a b : UInt8) (j k : Nat)

@[simp] theorem bit_or : bit (a ||| b) j = (bit a j || bit b j) := by simp [bit]

@[simp] theorem bit_and : bit (a &&& b) j = (bit a j && bit b j) := by simp [bit]

@[simp] theorem bit_shr : bit (shr b k) j = bit b (k + j) := by simp [bit, shr]

theorem bit_shl : bit (shl b k) j = (decide (j < 8) && !decide (j < k) && bit b (j - k)) := by
  simp [bit, shl]

theorem bit_of_le (h : 8 ≤ j) : bit b j = false := BitVec.getLsbD_of_ge _ _ h

@[simp] theorem bit_0x80 : bit 0x80 j = decide (j = 7) := by
  by_cases h : j < 8
  · revert j
    decide
  · have : j ≠ 7 := by omega
    rw [bit_of_le _ _ (Nat.le_of_not_lt h), decide_eq_false this]

@[simp] theorem bit_0x7f : bit 0x7f j = decide (j < 7) := by
  by_cases h : j < 8
  · revert j
    decide
  · have : ¬ j < 7 := by omega
    rw [bit_of_le _ _ (Nat.le_of_not_lt h), decide_eq_false this]

/-- Bytes with the same bits are the same. -/
theorem eq_of_bit_eq {a b : UInt8} (h : ∀ j < 8, bit a j = bit b j) : a = b :=
  UInt8.toBitVec_inj.mp (BitVec.eq_of_getLsbD_eq h)

theorem ne_zero_of_bit {b : UInt8} {j : Nat} (h : bit b j = true) : b ≠ 0 := by
  rintro rfl
  simp [bit] at h

/-- The top bit is set from 128 on. -/
theorem le_iff_bit : 0x80 ≤ b ↔ bit b 7 = true := by
  have msb := b.toBitVec.msb_eq_decide
  rw [BitVec.msb_eq_getLsbD_last] at msb
  rw [bit, msb, decide_eq_true_iff, UInt8.le_iff_toNat_le]
  rfl

/-- The two halves of a byte whose bits were sent in turn. -/
theorem merge_bits : shl ((shr b 1 ||| 0xaa) &&& 0x55) 1 ||| ((b ||| 0xaa) &&& 0x55) = b := by
  have bit_0x55 : ∀ j < 8, bit 0x55 j = decide (j % 2 = 0) := by decide
  have bit_0xaa : ∀ j < 8, bit 0xaa j = decide (j % 2 = 1) := by decide
  apply eq_of_bit_eq
  intro j hj
  rw [bit_or, bit_shl, bit_and, bit_or, bit_shr, bit_and, bit_or, bit_0x55 j hj, bit_0xaa j hj,
    bit_0x55 (j - 1) (by omega), bit_0xaa (j - 1) (by omega)]
  rcases Nat.mod_two_eq_zero_or_one j with even | odd
  · cases j with
    | zero => simp
    | succ j =>
        have other : j % 2 = 1 := by omega
        simp [even, other]
  · cases j with
    | zero => simp at odd
    | succ j =>
        have other : j % 2 = 0 := by omega
        simp [odd, other, hj, Nat.add_comm 1 j]

theorem foldl_xor (bytes : List UInt8) (a : UInt8) :
    bytes.foldl (· ^^^ ·) a = a ^^^ bytes.foldl (· ^^^ ·) 0 := by
  induction bytes generalizing a with
  | nil => simp
  | cons b rest ih =>
      rw [List.foldl_cons, List.foldl_cons, ih (a ^^^ b), ih (0 ^^^ b), UInt8.zero_xor,
        UInt8.xor_assoc]

theorem bit_foldl_or (f : Nat → UInt8) (n : Nat) (a : UInt8) (j : Nat) :
    bit ((List.range n).foldl (fun acc i => acc ||| f i) a) j = true ↔
      bit a j = true ∨ ∃ i < n, bit (f i) j = true := by
  induction n with
  | zero => simp
  | succ n ih =>
      rw [List.range_succ, List.foldl_append, List.foldl_cons, List.foldl_nil, bit_or,
        Bool.or_eq_true, ih]
      constructor
      · rintro ((h | ⟨i, hi, h⟩) | h)
        · exact .inl h
        · exact .inr ⟨i, Nat.lt_succ_of_lt hi, h⟩
        · exact .inr ⟨n, Nat.lt_succ_self n, h⟩
      · rintro (h | ⟨i, hi, h⟩)
        · exact .inl (.inl h)
        · rcases Nat.lt_succ_iff_lt_or_eq.mp hi with hi | rfl
          · exact .inl (.inr ⟨i, hi, h⟩)
          · exact .inr h

end Bits

/-! ## Seven bits and one -/

/-- A byte is put together from its top bit, carried elsewhere, and the others. -/
theorem restore {msb b : UInt8} {i : Nat} (hi : i < 7) (carried : bit msb (6 - i) = bit b 7) :
    (shl msb (i + 1) &&& 0x80) ||| ((b ||| 0x80) &&& 0x7f) = b := by
  apply eq_of_bit_eq
  intro j hj
  by_cases top : j = 7
  · subst top
    have place : 7 - (i + 1) = 6 - i := by omega
    simp [bit_shl, place, carried]
    omega
  · have low : j < 7 := by omega
    simp [top, low]

/-- A count below 128 is read back from its byte. -/
theorem toNat_count {n : Nat} (h : n < 128) : ((n.toUInt8 ||| 0x80) &&& 0x7f).toNat = n := by
  revert n
  decide

/-- The bits gathered from a number of bytes, each in its place. -/
theorem bit_gathered (f top : Nat → UInt8) {n i : Nat} (hi : i < n) (hn : n ≤ 7) {a : UInt8}
    (empty : ∀ k < 7, bit a k = false)
    (gathered : ∀ j k, bit (f j) k = (bit (top j) 7 && decide (j + 1 + k = 7))) :
    bit ((List.range n).foldl (fun acc j => acc ||| f j) a) (6 - i) = bit (top i) 7 := by
  rw [Bool.eq_iff_iff, bit_foldl_or]
  simp only [gathered, Bool.and_eq_true, decide_eq_true_eq]
  constructor
  · rintro (h | ⟨j, hj, h, place⟩)
    · rw [empty (6 - i) (by omega)] at h
      exact absurd h Bool.false_ne_true
    · obtain rfl : j = i := by omega
      exact h
  · intro h
    exact .inr ⟨i, hi, h, by omega⟩

/-! ## Consecutive places of a buffer -/

/-- Assignments to consecutive places from an index on. -/
def writeBytes (buffer : Nat → UInt8) (i : Nat) : List UInt8 → Nat → UInt8
  | [] => buffer
  | b :: rest => writeBytes (Function.update buffer i b) (i + 1) rest

theorem writeBytes_of_lt (buffer : Nat → UInt8) {i j : Nat} (bytes : List UInt8) (h : j < i) :
    writeBytes buffer i bytes j = buffer j := by
  induction bytes generalizing buffer i with
  | nil => rfl
  | cons b rest ih =>
      rw [writeBytes, ih _ (Nat.lt_succ_of_lt h), Function.update_of_ne (Nat.ne_of_lt h)]

theorem writeBytes_of_le (buffer : Nat → UInt8) {i j : Nat} (bytes : List UInt8)
    (h : i + bytes.length ≤ j) : writeBytes buffer i bytes j = buffer j := by
  induction bytes generalizing buffer i with
  | nil => rfl
  | cons b rest ih =>
      rw [List.length_cons] at h
      rw [writeBytes, ih _ (by omega), Function.update_of_ne (by omega)]

theorem writeBytes_add (buffer : Nat → UInt8) (i : Nat) (bytes : List UInt8) {k : Nat}
    (h : k < bytes.length) : writeBytes buffer i bytes (i + k) = bytes[k] := by
  induction bytes generalizing buffer i k with
  | nil => simp at h
  | cons b rest ih =>
      cases k with
      | zero =>
          have first := writeBytes_of_lt (Function.update buffer i b) rest (Nat.lt_succ_self i)
          simpa [writeBytes] using first
      | succ k =>
          have next := ih (Function.update buffer i b) (i + 1) (Nat.lt_of_succ_lt_succ h)
          have place : i + (k + 1) = i + 1 + k := by omega
          rw [writeBytes, place, next, List.getElem_cons_succ]

/-- Blocks of one length, written from the last to the first, stand side by side. -/
theorem foldl_writeBytes_reverse (start k : Nat) {block : Nat → List UInt8}
    (len : ∀ g, (block g).length = k) (n : Nat) (buffer : Nat → UInt8) :
    let result := (List.range n).reverse.foldl
      (fun buffer g => writeBytes buffer (start + g * k) (block g)) buffer
    (∀ j, j < start ∨ start + n * k ≤ j → result j = buffer j) ∧
      ∀ g < n, ∀ i < k, result (start + g * k + i) = (block g).getD i 0 := by
  induction n generalizing buffer with
  | zero => simp
  | succ n ih =>
      obtain ⟨frame, blocks⟩ := ih (writeBytes buffer (start + n * k) (block n))
      have next : (n + 1) * k = n * k + k := Nat.succ_mul n k
      simp only [List.range_succ, List.reverse_append, List.reverse_singleton,
        List.singleton_append, List.foldl_cons]
      constructor
      · rintro j outside
        rw [frame j (by omega)]
        rcases outside with before | behind
        · exact writeBytes_of_lt _ _ (by omega)
        · exact writeBytes_of_le _ _ (by rw [len]; omega)
      · rintro g hg i hi
        rcases Nat.lt_succ_iff_lt_or_eq.mp hg with hg | rfl
        · exact blocks g hg i hi
        · have inside : i < (block g).length := by rwa [len]
          rw [frame _ (by omega), writeBytes_add _ _ _ inside,
            List.getD_eq_getElem _ _ inside]

/-! ## Reading a list place by place -/

theorem map_getD_range (xs : List UInt8) {start n : Nat} (h : start + n ≤ xs.length) :
    (List.range n).map (fun i => xs.getD (start + i) 0) = (xs.drop start).take n := by
  apply List.ext_getElem
  · simp
    omega
  · intro i hi hi'
    have inside : start + i < xs.length := by
      rw [List.length_map, List.length_range] at hi
      omega
    rw [List.getElem_map, List.getElem_range, List.getD_eq_getElem _ _ inside, List.getElem_take,
      List.getElem_drop]

/-- Blocks read one after the other are the list they are blocks of. -/
theorem flatMap_getD_range (xs : List UInt8) {start n : Nat} (k : Nat)
    (h : start + n * k ≤ xs.length) :
    ((List.range n).flatMap fun g => (List.range k).map fun i => xs.getD (start + g * k + i) 0) =
      (xs.drop start).take (n * k) := by
  induction n with
  | zero => simp
  | succ n ih =>
      rw [Nat.succ_mul, ← Nat.add_assoc] at h
      rw [List.range_succ, List.flatMap_append, List.flatMap_singleton, ih (by omega),
        map_getD_range _ h, Nat.succ_mul, List.take_add, List.drop_drop]

end FujiNet
