import Mathlib.Data.List.Basic

/-!
# Byte strings, slices and little-endian numbers

Buffers of the modelled programs are ordinary lists of bytes. `slice` is the
part of a list a bounded read returns, `overlay` the effect of copying bytes
into the middle of a buffer, `writeAt` the effect of writing to a file. Numbers
travel in little-endian order; the decoding functions are total and the round
trips carry the range of the encoded type.

Nothing in this file mentions a particular program or protocol.
-/

namespace FujiNet

/-- At most `n` elements of `xs` from position `p` on. Reading past the end
returns what is left, and nothing at all beyond the end. -/
def slice {α : Type*} (xs : List α) (p n : Nat) : List α := (xs.drop p).take n

section Slice

variable {α : Type*} (xs : List α) (p n m : Nat)

@[simp] theorem length_slice : (slice xs p n).length = min n (xs.length - p) := by
  simp [slice]

@[simp] theorem slice_zero : slice xs p 0 = [] := by simp [slice]

theorem slice_of_length_le (h : xs.length ≤ p) : slice xs p n = [] := by
  simp [slice, List.drop_eq_nil_of_le h]

/-- Two adjacent slices join to one, also across the end of the list. -/
theorem slice_append_slice : slice xs p n ++ slice xs (p + n) m = slice xs p (n + m) := by
  simp only [slice, ← List.drop_drop]
  exact List.take_add.symm

/-- A slice that already stops at the end of the list does not grow. -/
theorem slice_eq_slice_of_le {n m : Nat} (hn : xs.length - p ≤ n) (hm : xs.length - p ≤ m) :
    slice xs p n = slice xs p m := by
  simp only [slice]
  rw [List.take_of_length_le (by simpa using hn), List.take_of_length_le (by simpa using hm)]

/-- A slice is determined by its length. -/
theorem slice_length_slice : slice xs p (slice xs p n).length = slice xs p n := by
  rw [length_slice]
  rcases Nat.le_total n (xs.length - p) with h | h
  · rw [Nat.min_eq_left h]
  · rw [Nat.min_eq_right h]
    exact slice_eq_slice_of_le xs p (Nat.le_refl _) h

theorem slice_take_slice {k : Nat} (h : k ≤ n) : (slice xs p n).take k = slice xs p k := by
  simp [slice, List.take_take, Nat.min_eq_left h]

theorem slice_drop (k : Nat) : slice (xs.drop k) p n = slice xs (p + k) n := by
  simp only [slice, List.drop_drop, Nat.add_comm]

theorem slice_append_right (first : List α) :
    slice (first ++ xs) (p + first.length) n = slice xs p n := by
  rw [slice, Nat.add_comm, List.drop_length_add_append]
  rfl

theorem slice_drop_slice (k : Nat) : (slice xs p n).drop k = slice xs (p + k) (n - k) := by
  simp only [slice, List.drop_take, List.drop_drop]

theorem slice_slice (k : Nat) (h : k + m ≤ n) :
    slice (slice xs p n) k m = slice xs (p + k) m := by
  rw [slice, slice_drop_slice, slice_take_slice]
  omega

theorem slice_eq_cons {p n : Nat} (h : p < xs.length) (hn : 0 < n) :
    slice xs p n = xs[p] :: slice xs (p + 1) (n - 1) := by
  obtain ⟨n, rfl⟩ : ∃ k, n = k + 1 := ⟨n - 1, by omega⟩
  rw [slice, List.drop_eq_getElem_cons h, List.take_succ_cons]
  rfl

theorem getElem?_slice (i : Nat) : (slice xs p n)[i]? = if i < n then xs[p + i]? else none := by
  simp only [slice, List.getElem?_take, List.getElem?_drop]

end Slice

/-- Copy `ys` over the elements of `xs` from position `p` on. -/
def overlay {α : Type*} (xs : List α) (p : Nat) (ys : List α) : List α :=
  xs.take p ++ ys ++ xs.drop (p + ys.length)

section Overlay

variable {α : Type*} (xs : List α) (p : Nat) (ys : List α)

@[simp] theorem overlay_nil : overlay xs p [] = xs := by simp [overlay]

theorem length_overlay (h : p + ys.length ≤ xs.length) :
    (overlay xs p ys).length = xs.length := by
  simp only [overlay, List.length_append, List.length_take, List.length_drop]
  omega

/-- What was written can be read back, together with everything before it. -/
theorem take_overlay_add (h : p ≤ xs.length) :
    (overlay xs p ys).take (p + ys.length) = xs.take p ++ ys := by
  rw [overlay, List.take_left']
  simp [h]

end Overlay

/-! ## The content of a file after a write -/

/-- Write `bytes` at `position`, with zeros between the old end and the position. -/
def writeAt (content : List UInt8) (position : Nat) (bytes : List UInt8) : List UInt8 :=
  content.take position ++ List.replicate (position - content.length) 0 ++ bytes ++
    content.drop (position + bytes.length)

section WriteAt

variable (F : List UInt8) (p : Nat) (bytes : List UInt8)

@[simp] theorem length_writeAt : (writeAt F p bytes).length = max F.length (p + bytes.length) := by
  simp only [writeAt, List.length_append, List.length_take, List.length_replicate, List.length_drop]
  omega

theorem getElem?_writeAt (i : Nat) : (writeAt F p bytes)[i]? =
    if i < p then if i < F.length then F[i]? else some 0
    else if i < p + bytes.length then bytes[i - p]? else F[i]? := by
  have before : (F.take p ++ List.replicate (p - F.length) 0).length = p := by
    simp only [List.length_append, List.length_take, List.length_replicate]
    omega
  rw [writeAt, List.append_assoc, List.getElem?_append, before]
  split_ifs with hi hi' hi'
  · rw [List.getElem?_append, if_pos (by simp only [List.length_take]; omega),
      List.getElem?_take, if_pos hi]
  · rw [List.getElem?_append, if_neg (by simp only [List.length_take]; omega),
      List.getElem?_replicate, if_pos (by simp only [List.length_take]; omega)]
  · rw [List.getElem?_append_left (by omega)]
  · rw [List.getElem?_append_right (by omega), List.getElem?_drop]
    congr 1
    omega

/-- What was written can be read back. -/
theorem slice_writeAt : slice (writeAt F p bytes) p bytes.length = bytes := by
  refine List.ext_getElem? fun i => ?_
  rw [getElem?_slice, getElem?_writeAt]
  split_ifs with h h' h'
  · omega
  · omega
  · rw [Nat.add_sub_cancel_left]
  · omega
  · exact (List.getElem?_eq_none (by omega)).symm

/-- A write does not change the bytes in front of it, nor those behind it. -/
theorem slice_writeAt_of_disjoint (inside : p ≤ F.length) {q m : Nat}
    (disjoint : q + m ≤ p ∨ p + bytes.length ≤ q) :
    slice (writeAt F p bytes) q m = slice F q m := by
  refine List.ext_getElem? fun i => ?_
  simp only [getElem?_slice, getElem?_writeAt]
  split_ifs <;> first | rfl | omega

/-- A write that goes on behind another one. -/
theorem writeAt_writeAt (more : List UInt8) :
    writeAt (writeAt F p bytes) (p + bytes.length) more = writeAt F p (bytes ++ more) := by
  refine List.ext_getElem? fun i => ?_
  simp only [getElem?_writeAt, length_writeAt, List.length_append, List.getElem?_append]
  split_ifs <;> first | rfl | omega | (congr 1; omega)

theorem take_writeAt {n : Nat} (before : n ≤ p) (inside : n ≤ F.length) :
    (writeAt F p bytes).take n = F.take n := by
  refine List.ext_getElem? fun i => ?_
  simp only [List.getElem?_take, getElem?_writeAt]
  split_ifs <;> first | rfl | omega

end WriteAt

/-! ## Little-endian numbers -/

/-- The low byte of a 16-bit value. -/
def lobyte (n : Nat) : UInt8 := UInt8.ofNat n

/-- The high byte of a 16-bit value. -/
def hibyte (n : Nat) : UInt8 := UInt8.ofNat (n / 256)

/-- The 16-bit value with the given low and high byte. -/
def u16 (lo hi : UInt8) : Nat := lo.toNat + 256 * hi.toNat

/-- The four bytes of a 32-bit value, lowest first. -/
def le32 (n : Nat) : List UInt8 :=
  [UInt8.ofNat n, UInt8.ofNat (n / 256), UInt8.ofNat (n / 65536), UInt8.ofNat (n / 16777216)]

/-- The 32-bit value with the given bytes, lowest first. -/
def u32 (b0 b1 b2 b3 : UInt8) : Nat :=
  b0.toNat + 256 * b1.toNat + 65536 * b2.toNat + 16777216 * b3.toNat

/-- A 32-bit pattern read as a two's complement number. -/
def i32 (n : Nat) : Int := if n < 2147483648 then n else n - 4294967296

@[simp] theorem u16_lobyte_hibyte {n : Nat} (h : n < 65536) : u16 (lobyte n) (hibyte n) = n := by
  simp only [u16, lobyte, hibyte, UInt8.toNat_ofNat']
  omega

theorem u16_lt (lo hi : UInt8) : u16 lo hi < 65536 := by
  have hlo := lo.toNat_lt
  have hhi := hi.toNat_lt
  simp only [u16]
  omega

/-- Three bytes hold a 24-bit value. -/
theorem u16_add_high {n : Nat} (h : n < 16777216) :
    u16 (lobyte n) (hibyte n) + 65536 * (n / 65536 % 256) = n := by
  simp only [u16, lobyte, hibyte, UInt8.toNat_ofNat']
  omega

@[simp] theorem length_le32 (n : Nat) : (le32 n).length = 4 := rfl

@[simp] theorem u32_le32 {n : Nat} (h : n < 4294967296) :
    u32 (UInt8.ofNat n) (UInt8.ofNat (n / 256)) (UInt8.ofNat (n / 65536))
      (UInt8.ofNat (n / 16777216)) = n := by
  simp only [u32, UInt8.toNat_ofNat']
  omega

end FujiNet
