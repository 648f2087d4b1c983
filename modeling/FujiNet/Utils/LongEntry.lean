import FujiNet.Utils.Crunch
import Mathlib.Data.Nat.Log
import Mathlib.Tactic.Ring

/-!
# Long directory lines

`util_long_entry` writes a name into a line of blanks and the size into its last columns.
A name of more than 30 characters gets a line of twice the length, with an end of line in
the middle. The size is printed into eight bytes, and a name longer than the line makes
the line longer.
-/

namespace FujiNet.Utils

def EOL : UInt8 := 0x9B

/-- `sprintf` with a `%u` of a minimal width. -/
def decimal (width n : Nat) : List UInt8 :=
  let digits := (Nat.toDigits 10 n).map fun c => UInt8.ofNat c.toNat
  List.replicate (width - digits.length) SPACE ++ digits

/-- `stylized_filesize`, as `sprintf` prints it. -/
def stylizedFilesize (fileSize : UInt64) : List UInt8 :=
  if fileSize > 1048576 then decimal 2 (fileSize >>> 20).toUInt32.toNat ++ ascii "M"
  else if fileSize > 1024 then decimal 4 (fileSize >>> 10).toUInt32.toNat ++ ascii "K"
  else decimal 4 fileSize.toUInt32.toNat

/-- The name in the line: `filename += "/"` for a directory. -/
def entryName (filename : List UInt8) (isDir : Bool) : List UInt8 :=
  if isDir then filename ++ [SLASH] else filename

/-- The line without name and size. -/
def blankEntry (length : Nat) : List UInt8 :=
  if length > 30 then List.replicate 37 SPACE ++ (EOL :: List.replicate 37 SPACE)
  else List.replicate 37 SPACE

/-- `util_long_entry`; `none` where `sprintf` writes behind `tmp` or `replace` throws. -/
def utilLongEntry (filename : List UInt8) (fileSize : UInt64) (isDir : Bool) :
    Option (List UInt8) := do
  let filename := entryName filename isDir
  let entry ← replaceAt (blankEntry filename.length) 0 filename.length filename
  let tmp := stylizedFilesize fileSize
  -- `char tmp[8]` holds the text and its NUL
  if tmp.length < 8 then
    replaceAt entry (entry.length - tmp.length - 1) tmp.length tmp
  else none

/-- A line that starts with the name and ends with the size between two blanks. -/
def LongEntry (name size line : List UInt8) : Prop :=
  ∃ pad, line = name ++ pad ++ SPACE :: (size ++ [SPACE]) ∧ ∀ c ∈ pad, c = SPACE ∨ c = EOL

/-- The columns that a size takes: in bytes, in KiB or in MiB with the unit behind it. The count of
MiB is cut to 32 bits. -/
def sizeColumns (fileSize : Nat) : Nat :=
  if fileSize ≤ 1024 then 4
  else if fileSize ≤ 1048576 then 5
  else max 2 (Nat.log 10 (fileSize / 2 ^ 20 % 2 ^ 32) + 1) + 1

/-! ## The size -/

theorem length_toDigits (n : Nat) : (Nat.toDigits 10 n).length = Nat.log 10 n + 1 := by
  apply Nat.le_antisymm
  · rw [Nat.length_toDigits_le_iff (by decide) (Nat.succ_pos _)]
    exact Nat.lt_pow_succ_log_self (by decide) n
  · by_contra shorter
    have pos : 0 < (Nat.toDigits 10 n).length := Nat.length_toDigits_pos
    have below : n < 10 ^ Nat.log 10 n :=
      (Nat.length_toDigits_le_iff (by decide) (by omega)).mp (by omega)
    rcases Nat.eq_zero_or_pos n with rfl | nonzero
    · simp only [Nat.log_zero_right] at shorter
      omega
    · exact absurd (Nat.pow_log_le_self 10 nonzero.ne') (Nat.not_le.mpr below)

theorem length_decimal (width n : Nat) :
    (decimal width n).length = max width (Nat.log 10 n + 1) := by
  simp only [decimal, List.length_append, List.length_replicate, List.length_map, length_toDigits]
  omega

/-- A number of at most four digits takes four columns. -/
theorem length_decimal_four {n : Nat} (small : n < 10 ^ 4) : (decimal 4 n).length = 4 := by
  have digits : Nat.log 10 n < 4 := Nat.log_lt_of_lt_pow' (by decide) small
  rw [length_decimal]
  omega

theorem length_stylizedFilesize (fileSize : UInt64) :
    (stylizedFilesize fileSize).length = sizeColumns fileSize.toNat := by
  have mib : (fileSize >>> 20).toUInt32.toNat = fileSize.toNat / 2 ^ 20 % 2 ^ 32 := by
    simp [Nat.shiftRight_eq_div_pow]
  have kib : (fileSize >>> 10).toUInt32.toNat = fileSize.toNat / 2 ^ 10 % 2 ^ 32 := by
    simp [Nat.shiftRight_eq_div_pow]
  have cut : fileSize.toUInt32.toNat = fileSize.toNat % 2 ^ 32 := by simp
  have one : (ascii "M").length = 1 ∧ (ascii "K").length = 1 := ⟨rfl, rfl⟩
  have above (n : UInt64) : fileSize > n ↔ n.toNat < fileSize.toNat := UInt64.lt_iff_toNat_lt
  simp only [stylizedFilesize, sizeColumns, above, mib, kib, cut]
  change List.length (if 1048576 < fileSize.toNat then _ else if 1024 < fileSize.toNat then _
    else _) = _
  rcases Nat.lt_or_ge 1048576 fileSize.toNat with large | atMost
  · rw [if_pos large, if_neg (by omega), if_neg (by omega), List.length_append, length_decimal,
      one.1]
  · rw [if_neg (Nat.not_lt.mpr atMost)]
    rcases Nat.lt_or_ge 1024 fileSize.toNat with medium | small
    · rw [if_pos medium, if_neg (by omega), if_pos atMost, List.length_append,
        length_decimal_four (by omega), one.2]
    · rw [if_neg (Nat.not_lt.mpr small), if_pos small, length_decimal_four (by omega)]

/-! ## The line -/

/-- What is replaced within the line leaves its length. -/
theorem length_of_replaceAt {str text line : List UInt8} {pos : Nat}
    (replaced : replaceAt str pos text.length text = some line)
    (fits : pos + text.length ≤ str.length) :
    line.length = str.length := by
  rw [replaceAt, if_pos (by omega), Option.some.injEq] at replaced
  subst replaced
  simp only [List.length_append, List.length_take, List.length_drop]
  omega

theorem length_blankEntry (n : Nat) : (blankEntry n).length = if n ≤ 30 then 37 else 75 := by
  rw [blankEntry]
  split_ifs <;> first | rfl | omega

theorem mem_blankEntry {n : Nat} {c : UInt8} (mem : c ∈ blankEntry n) : c = SPACE ∨ c = EOL := by
  rw [blankEntry] at mem
  split_ifs at mem
  · simp only [List.mem_append, List.mem_cons, List.mem_replicate] at mem
    tauto
  · exact .inl (List.eq_of_mem_replicate mem)

/-- The line ends with 37 blanks. -/
theorem drop_blankEntry {n k : Nat} (tail : k ≤ 37) :
    (blankEntry n).drop ((blankEntry n).length - k) = List.replicate k SPACE := by
  have blanks : (List.replicate 37 SPACE).drop (37 - k) = List.replicate k SPACE := by
    rw [List.drop_replicate]
    congr 1
    omega
  rw [blankEntry]
  split_ifs
  · have split : List.replicate 37 SPACE ++ EOL :: List.replicate 37 SPACE =
        (List.replicate 37 SPACE ++ [EOL]) ++ List.replicate 37 SPACE := List.append_cons _ _ _
    have front : (List.replicate 37 SPACE ++ EOL :: List.replicate 37 SPACE).length - k =
        (List.replicate 37 SPACE ++ [EOL]).length + (37 - k) := by
      simp only [List.length_append, List.length_cons, List.length_replicate, List.length_nil]
      omega
    rw [front, split, ← List.drop_drop, List.drop_left, blanks]
  · rw [List.length_replicate, blanks]

section Line

variable {name size : List UInt8}

/-- The name replaces the front of the line. -/
theorem replaceAt_name (entry : List UInt8) :
    replaceAt entry 0 name.length name = some (name ++ entry.drop name.length) := by
  rw [replaceAt, if_pos (Nat.zero_le _), List.take_zero, List.nil_append, Nat.zero_add]

/-- Name and size stand in the line where both fit with the blanks around the size. -/
theorem longEntry_of_fits {n : Nat} (short : size.length < 8)
    (fits : name.length + size.length + 2 ≤ (blankEntry n).length) :
    ∃ line, replaceAt (name ++ (blankEntry n).drop name.length)
        ((name ++ (blankEntry n).drop name.length).length - size.length - 1) size.length size =
      some line ∧ LongEntry name size line := by
  set pad := ((blankEntry n).drop name.length).take
    ((blankEntry n).length - (size.length + 2) - name.length) with hpad
  have rest : (blankEntry n).drop name.length = pad ++ List.replicate (size.length + 2) SPACE := by
    rw [← drop_blankEntry (n := n) (by omega : size.length + 2 ≤ 37), hpad]
    conv_lhs => rw [← List.take_append_drop
      ((blankEntry n).length - (size.length + 2) - name.length) ((blankEntry n).drop name.length)]
    rw [List.drop_drop]
    congr 2
    omega
  have split : name ++ (blankEntry n).drop name.length =
      (name ++ pad ++ [SPACE]) ++ List.replicate (size.length + 1) SPACE := by
    rw [rest, show size.length + 2 = (size.length + 1) + 1 from rfl, List.replicate_succ]
    simp only [List.append_assoc, List.cons_append, List.nil_append]
  refine ⟨name ++ pad ++ [SPACE] ++ size ++ [SPACE], ?_, pad, ?_, ?_⟩
  · rw [split, replaceAt_append _ _ (by
      simp only [List.length_append, List.length_replicate]
      omega)]
    simp [List.drop_replicate]
  · simp only [List.append_assoc, List.cons_append, List.nil_append]
  · intro c mem
    exact mem_blankEntry (List.mem_of_mem_drop (List.mem_of_mem_take mem))

end Line

/-- A directory line shows its whole name and its whole size, and the size fits its buffer, exactly
when the size has at most seven columns and the line is long enough for both: 37 columns for a name
of up to 30 characters, 75 for a longer one. -/
theorem utilLongEntry_iff (filename : List UInt8) (fileSize : UInt64) (isDir : Bool) :
    ((∃ line, utilLongEntry filename fileSize isDir = some line ∧
        LongEntry (entryName filename isDir) (stylizedFilesize fileSize) line) ∧
      (stylizedFilesize fileSize).length + 1 ≤ 8) ↔
    sizeColumns fileSize.toNat ≤ 7 ∧
      (entryName filename isDir).length + sizeColumns fileSize.toNat + 2 ≤
        if (entryName filename isDir).length ≤ 30 then 37 else 75 := by
  rw [← length_stylizedFilesize, ← length_blankEntry]
  set name := entryName filename isDir with hname
  set size := stylizedFilesize fileSize with hsize
  have runs : utilLongEntry filename fileSize isDir =
      let entry := name ++ (blankEntry name.length).drop name.length
      if size.length < 8 then replaceAt entry (entry.length - size.length - 1) size.length size
      else none := by
    rw [utilLongEntry, ← hname, ← hsize, replaceAt_name]
    rfl
  have room : 37 ≤ (blankEntry name.length).length := by
    rw [length_blankEntry]
    split_ifs <;> omega
  constructor
  · rintro ⟨⟨line, printed, pad, rfl, -⟩, short⟩
    refine ⟨by omega, ?_⟩
    rw [runs, if_pos (by omega)] at printed
    have whole := length_of_replaceAt printed (by
      simp only [List.length_append, List.length_drop]
      omega)
    simp only [List.length_append, List.length_cons, List.length_nil, List.length_drop] at whole
    omega
  · rintro ⟨short, fits⟩
    refine ⟨?_, by omega⟩
    rw [runs, if_pos (by omega)]
    exact longEntry_of_fits (by omega) fits

/-- A name of 80 characters is overwritten by the size. -/
theorem not_utilLongEntry_long_name :
    ¬ ∃ line, utilLongEntry (List.replicate 80 0x61) 5000 false = some line ∧
      LongEntry (entryName (List.replicate 80 0x61) false) (stylizedFilesize 5000) line := by
  rintro ⟨line, printed, pad, split, -⟩
  have shown : utilLongEntry (List.replicate 80 0x61) 5000 false =
      some (List.replicate 74 0x61 ++ ascii "   4K" ++ [0x61]) := by decide +kernel
  rw [shown, Option.some.injEq] at printed
  have front : line.take 80 = List.replicate 80 0x61 := by
    rw [split, List.append_assoc, List.take_left' (by rfl)]
    rfl
  rw [← printed] at front
  exact absurd front (by decide)

end FujiNet.Utils
