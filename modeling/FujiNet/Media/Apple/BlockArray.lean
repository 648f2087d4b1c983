import FujiNet.Control.Machine
import FujiNet.Media.Apple.MediaTypePO

/-!
# A ProDOS-order image as an array of blocks

Calls of 512 bytes on a mounted image, one after another. A call that seeks acts
on the block it is given. A call that leaves the seek out acts on the block after
`last_block_num` only if the handler still stands there, and two things go wrong
about it: a read that was cut short keeps its block as the last one, and block 0
is taken for the successor of no block at all when it is written.

`Trusted` says that neither is the case. Runs of trusted calls treat the image as
an array of blocks.
-/

namespace FujiNet.Apple

open MediaTypePO

/-- One call with `*count = 512`. -/
inductive BlockOp
  | read (blockNum : UInt32)
  | write (blockNum : UInt32) (buffer : Vector UInt8 512)

def BlockOp.blockNum : BlockOp → Nat
  | read blockNum | write blockNum _ => blockNum.toNat

/-- The call goes to the block after the last one and does not seek. -/
def BlockOp.skipsSeek (m : MediaTypePO) : BlockOp → Bool
  | read blockNum => blockNum != 0 && blockNum.toNat == m.nextBlockNum
  | write blockNum _ => blockNum.toNat == m.nextBlockNum

/-- A mounted image between two calls. `failedRead` remembers whether the call
before was a read that reported an error. -/
structure BlockDrive (φ : Type) where
  media : MediaTypePO
  files : φ
  failedRead : Bool := false

/-- The call finds the handler where it takes it to be: if it leaves the seek out,
there is a last block and the call before was not a read that failed. -/
def Trusted {φ : Type} (op : BlockOp) (d : BlockDrive φ) : Prop :=
  op.skipsSeek d.media = true → d.media.lastBlockNum ≠ 0xFFFFFFFF ∧ d.failedRead = false

section

variable {φ : Type} (files : FileHandler φ) (filehandlerOpen : φ → Option Handle × φ)

/-- Make the call: whether it failed, and what a read returned. -/
def BlockOp.perform (op : BlockOp) (d : BlockDrive φ) :
    Option ((Bool × List UInt8) × BlockDrive φ) :=
  match op with
  | .read blockNum =>
    (MediaTypePO.read files blockNum.toNat 512 d.media d.files).map fun (answer, m, s) =>
      (answer, ⟨m, s, answer.1⟩)
  | .write blockNum buffer =>
    (MediaTypePO.write files filehandlerOpen blockNum.toNat buffer.toList d.media d.files).map
      fun (err, m, s) => ((err, []), ⟨m, s, false⟩)

variable {files} (bytes : SeekableBytes files)

/-- A successful read returns the block of the file, a successful write changes the
block and nothing else. The blocks start at offset `h` of the file. -/
def BlockOp.Exact (h : Nat) (op : BlockOp) (d : BlockDrive φ) (answer : Bool × List UInt8)
    (d' : BlockDrive φ) : Prop :=
  answer.1 = false →
    match op with
    | .read blockNum =>
      answer.2 = slice (bytes.content d.files) (h + 512 * blockNum.toNat) 512 ∧
        answer.2.length = 512 ∧ bytes.content d'.files = bytes.content d.files
    | .write blockNum buffer =>
      bytes.content d'.files =
        writeAt (bytes.content d.files) (h + 512 * blockNum.toNat) buffer.toList

/-- Where the handler stands between two calls, provided that it is `known`. -/
structure Poised (known : Prop) (f : Handle) (h : Nat) (d : BlockDrive φ) : Prop where
  fileh : d.media.mediaFileh = some f
  offset : d.media.offset = h
  last_lt : d.media.lastBlockNum < 4294967296
  position : d.media.lastBlockNum ≠ 0xFFFFFFFF → known →
    bytes.position f d.files = h + 512 * (d.media.lastBlockNum + 1)

/-- The same on an image without a high score range: the place is known unless a read
failed. -/
structure Aligned (f : Handle) (h : Nat) (d : BlockDrive φ) : Prop
    extends Poised bytes (d.failedRead = false) f h d where
  plain : d.media.highScoreEnabled = false

variable {bytes} {filehandlerOpen} {known : Prop} {f : Handle} {h : Nat} {d : BlockDrive φ}

/-- A call that leaves the seek out starts at its block, if the place is known. -/
theorem Poised.already (poised : Poised bytes known f h d) {blockNum : Nat}
    (next : blockNum = d.media.nextBlockNum) (last : d.media.lastBlockNum ≠ 0xFFFFFFFF)
    (holds : known) : bytes.position f d.files = blockNum * 512 + h := by
  have last_lt := poised.last_lt
  have successor : blockNum = d.media.lastBlockNum + 1 := by
    rw [next, nextBlockNum, Nat.mod_eq_of_lt]
    omega
  rw [poised.position last holds, successor]
  omega

theorem Poised.already_read (poised : Poised bytes known f h d) {blockNum : UInt32}
    (trusted : (BlockOp.read blockNum).skipsSeek d.media = true →
      d.media.lastBlockNum ≠ 0xFFFFFFFF ∧ known)
    (skip : (!(blockNum.toNat == 0 || blockNum.toNat != d.media.nextBlockNum)) = true) :
    bytes.position f d.files = blockNum.toNat * 512 + h := by
  have skip : ¬ blockNum.toNat = 0 ∧ blockNum.toNat = d.media.nextBlockNum := by
    simpa using skip
  have nonzero : blockNum ≠ 0 := fun zero => skip.1 (by rw [zero]; rfl)
  obtain ⟨last, holds⟩ := trusted (by simp [BlockOp.skipsSeek, nonzero, skip.2])
  exact poised.already skip.2 last holds

/-- After a call that ended on its block the handler stands behind it. -/
theorem Poised.after (poised : Poised bytes known f h d) {last : Nat} (last_lt : last < 4294967296)
    {s : φ} {failed : Bool} {known' : Prop}
    (position : known' → bytes.position f s = last * 512 + h + 512) :
    Poised bytes known' f h ⟨{ d.media with lastBlockNum := last }, s, failed⟩ where
  fileh := poised.fileh
  offset := poised.offset
  last_lt := last_lt
  position _ holds := by
    rw [position holds]
    show _ = h + 512 * (last + 1)
    omega

theorem Poised.reset (poised : Poised bytes known f h d) (s : φ) (failed : Bool) (known' : Prop) :
    Poised bytes known' f h ⟨d.media.resetSeekOpto, s, failed⟩ where
  fileh := poised.fileh
  offset := poised.offset
  last_lt := by simp [resetSeekOpto]
  position last := absurd rfl last

/-- One read that seeks or starts at its block. Afterwards the place is known unless the
read failed or was for a block of the high score range. -/
theorem Poised.read (poised : Poised bytes known f h d)
    (filehandlerOpen : φ → Option Handle × φ) (blockNum : UInt32)
    (trusted : (BlockOp.read blockNum).skipsSeek d.media = true →
      d.media.lastBlockNum ≠ 0xFFFFFFFF ∧ known) :
    ∃ answer last s, (BlockOp.read blockNum).perform files filehandlerOpen d =
        some (answer, ⟨{ d.media with lastBlockNum := last }, s, answer.1⟩) ∧
      (BlockOp.read blockNum).Exact bytes h d answer
        ⟨{ d.media with lastBlockNum := last }, s, answer.1⟩ ∧
      Poised bytes (answer.1 = false ∧ d.media.inHighScoreRange blockNum.toNat = false) f h
        ⟨{ d.media with lastBlockNum := last }, s, answer.1⟩ := by
  have started : (!(blockNum.toNat == 0 || blockNum.toNat != d.media.nextBlockNum)) = true →
      bytes.position f d.files = blockNum.toNat * 512 + h := poised.already_read trusted
  rw [BlockOp.perform, read_of_fileh files poised.fileh]
  generalize (!(blockNum.toNat == 0 || blockNum.toNat != d.media.nextBlockNum)) = skip at started
  obtain rfl := poised.offset
  dsimp only
  split
  · next sought =>
    have small : (if d.media.inHighScoreRange blockNum.toNat then INVALID_SECTOR_VALUE
        else blockNum.toNat) < 4294967296 := by
      split
      · decide
      · exact blockNum.toNat_lt
    refine ⟨_, _, _, rfl, ?_, poised.after small ?_⟩
    · intro succeeded
      have full := by simpa only [bne_eq_false_iff_eq] using succeeded
      refine ⟨?_, full, ?_⟩
      · have place : blockNum.toNat * 512 + d.media.offset =
            d.media.offset + 512 * blockNum.toNat := by omega
        exact place ▸ (bytes.read_sought started sought full).1
      · exact (bytes.content_read _ _ _).trans (bytes.content_seekUnless _ _ _ _)
    · rintro ⟨succeeded, outside⟩
      have full := by simpa only [bne_eq_false_iff_eq] using succeeded
      rw [outside]
      exact (bytes.read_sought started sought full).2
  · exact ⟨_, _, _, rfl, fun succeeded => absurd succeeded (by simp), poised.reset _ _ _⟩

/-- One write of a block outside the high score range that seeks or starts at its block. -/
theorem Poised.write (poised : Poised bytes known f h d)
    (filehandlerOpen : φ → Option Handle × φ) (blockNum : UInt32) (buffer : Vector UInt8 512)
    (outside : d.media.inHighScoreRange blockNum.toNat = false)
    (trusted : (BlockOp.write blockNum buffer).skipsSeek d.media = true →
      d.media.lastBlockNum ≠ 0xFFFFFFFF ∧ known) :
    ∃ answer last s,
      (BlockOp.write blockNum buffer).perform files filehandlerOpen d =
        some (answer, ⟨{ d.media with lastBlockNum := last }, s, false⟩) ∧
      (BlockOp.write blockNum buffer).Exact bytes h d answer
        ⟨{ d.media with lastBlockNum := last }, s, false⟩ ∧
      Poised bytes True f h ⟨{ d.media with lastBlockNum := last }, s, false⟩ := by
  have length : buffer.toList.length = 512 := by simp
  have started : (!(blockNum.toNat != d.media.nextBlockNum)) = true →
      bytes.position f d.files = blockNum.toNat * buffer.toList.length + h := by
    intro skip
    have skip : blockNum.toNat = d.media.nextBlockNum := by simpa using skip
    rw [length]
    obtain ⟨last, holds⟩ := trusted (by simp [BlockOp.skipsSeek, skip])
    exact poised.already skip last holds
  rw [BlockOp.perform, write_of_outside files poised.fileh outside]
  generalize (!(blockNum.toNat != d.media.nextBlockNum)) = skip at started
  obtain rfl := poised.offset
  dsimp only
  split
  · next sought =>
    split
    · next full =>
      obtain ⟨written, moved⟩ := bytes.write_sought started sought full
      refine ⟨_, _, _, rfl, ?_, poised.after blockNum.toNat_lt ?_⟩
      · have place : blockNum.toNat * buffer.toList.length + d.media.offset =
            d.media.offset + 512 * blockNum.toNat := by rw [length]; omega
        intro _
        exact place ▸ written
      · intro _
        exact moved.trans (by rw [length])
    · exact ⟨_, _, _, rfl, fun succeeded => absurd succeeded (by simp), poised.reset _ _ _⟩
  · exact ⟨_, _, _, rfl, fun succeeded => absurd succeeded (by simp), poised.reset _ _ _⟩

/-! ## Without a high score range -/

/-- A call that only changes the last block keeps the rest. -/
theorem Aligned.of_poised (aligned : Aligned bytes f h d) {last : Nat} {s : φ} {failed : Bool}
    (poised : Poised bytes known f h ⟨{ d.media with lastBlockNum := last }, s, failed⟩)
    (holds : failed = false → known) :
    Aligned bytes f h ⟨{ d.media with lastBlockNum := last }, s, failed⟩ where
  fileh := poised.fileh
  offset := poised.offset
  last_lt := poised.last_lt
  position last succeeded := poised.position last (holds succeeded)
  plain := aligned.plain

/-- One trusted read. -/
theorem Aligned.read (aligned : Aligned bytes f h d) (blockNum : UInt32)
    (trusted : Trusted (.read blockNum) d) :
    ∃ answer d', (BlockOp.read blockNum).perform files filehandlerOpen d = some (answer, d') ∧
      (BlockOp.read blockNum).Exact bytes h d answer d' ∧ Aligned bytes f h d' := by
  obtain ⟨answer, last, s, performed, exact_, poised⟩ := aligned.toPoised.read filehandlerOpen
    blockNum trusted
  refine ⟨answer, _, performed, exact_, aligned.of_poised poised fun succeeded => ⟨succeeded, ?_⟩⟩
  exact inHighScoreRange_of_plain aligned.plain _

/-- One trusted write. -/
theorem Aligned.write (aligned : Aligned bytes f h d) (blockNum : UInt32)
    (buffer : Vector UInt8 512) (trusted : Trusted (.write blockNum buffer) d) :
    ∃ answer d',
      (BlockOp.write blockNum buffer).perform files filehandlerOpen d = some (answer, d') ∧
      (BlockOp.write blockNum buffer).Exact bytes h d answer d' ∧ Aligned bytes f h d' := by
  obtain ⟨answer, last, s, performed, exact_, poised⟩ := aligned.toPoised.write filehandlerOpen
    blockNum buffer (inHighScoreRange_of_plain aligned.plain _) trusted
  exact ⟨answer, _, performed, exact_, aligned.of_poised poised fun _ => trivial⟩

theorem Aligned.step (aligned : Aligned bytes f h d) (op : BlockOp) (trusted : Trusted op d) :
    ∃ answer d', op.perform files filehandlerOpen d = some (answer, d') ∧
      op.Exact bytes h d answer d' ∧ Aligned bytes f h d' := by
  cases op with
  | read blockNum => exact aligned.read blockNum trusted
  | write blockNum buffer => exact aligned.write blockNum buffer trusted

/-! ## Runs -/

/-- What `mount` leaves behind, as far as blocks are concerned. -/
theorem mount_spec (files : FileHandler φ) (f : Handle) (disksize : Nat)
    (stack : Vector UInt8 64) (s : φ) :
    (mount files f disksize stack {} s).1.mediaFileh = some f ∧
      (mount files f disksize stack {} s).1.lastBlockNum = 0xFFFFFFFF ∧
      (mount files f disksize stack {} s).1.offset =
        if is2IMG (overlay stack.toList 0 (files.read f 64 s).1) then 64 else 0 := by
  refine ⟨rfl, ?_, ?_⟩
  · simp only [mount, setHighScore]
    split_ifs <;> rfl
  · simp only [mount]
    split <;> rfl

/-- A new `MediaTypePO` after `mount`. -/
def mountedDrive (files : FileHandler φ) (f : Handle) (disksize : Nat) (stack : Vector UInt8 64)
    (s : φ) : BlockDrive φ :=
  ⟨(mount files f disksize stack {} s).1, (mount files f disksize stack {} s).2, false⟩

theorem Aligned.of_mount {disksize : Nat} {stack : Vector UInt8 64} {s : φ}
    (plain : (mountedDrive files f disksize stack s).media.highScoreEnabled = false) :
    Aligned bytes f (mountedDrive files f disksize stack s).media.offset
      (mountedDrive files f disksize stack s) where
  fileh := (mount_spec files f disksize stack s).1
  offset := rfl
  plain := plain
  last_lt := by
    rw [mountedDrive, (mount_spec files f disksize stack s).2.1]
    decide
  position known := absurd (mount_spec files f disksize stack s).2.1 known

/-- In every run of trusted calls on a mounted image without a high score range, each
call acts on its own block, which starts behind the header if there is one. -/
theorem blocks_exact (bytes : SeekableBytes files) (filehandlerOpen : φ → Option Handle × φ)
    (f : Handle) (disksize : Nat) (stack : Vector UInt8 64) (s : φ)
    (plain : (mountedDrive files f disksize stack s).media.highScoreEnabled = false)
    {d : BlockDrive φ}
    (reached : Machine.Reaches (BlockOp.perform files filehandlerOpen)
      (fun op d _ _ => Trusted op d) (mountedDrive files f disksize stack s) d)
    (op : BlockOp) (trusted : Trusted op d) :
    ∃ h answer d', h = (if is2IMG (overlay stack.toList 0 (files.read f 64 s).1) then 64 else 0) ∧
      op.perform files filehandlerOpen d = some (answer, d') ∧ op.Exact bytes h d answer d' := by
  have keeps : Machine.Keeps (BlockOp.perform files filehandlerOpen) Trusted
      (fun op => op.Exact bytes (mountedDrive files f disksize stack s).media.offset)
      (mountedDrive files f disksize stack s) := by
    apply Machine.Keeps.of_invariant _ (Aligned.of_mount plain)
    intro op d aligned trusted
    exact aligned.step op trusted
  obtain ⟨answer, d', performed, exact_⟩ := keeps d reached op trusted
  exact ⟨_, answer, d', (mount_spec files f disksize stack s).2.2, performed, exact_⟩

end

/-- Reading block 1 of an image of two blocks, right after mounting it. -/
theorem blocks_exact_of_first_read :
    ∃ h answer d', h = 0 ∧
      (BlockOp.read 1).perform ByteFile.handler (fun s => (none, s))
        (mountedDrive ByteFile.handler 0 1024 (Vector.replicate 64 0)
          ⟨List.replicate 1024 0x11, fun _ => 0⟩) = some (answer, d') ∧
      (BlockOp.read 1).Exact ByteFile.bytes h
        (mountedDrive ByteFile.handler 0 1024 (Vector.replicate 64 0)
          ⟨List.replicate 1024 0x11, fun _ => 0⟩) answer d' := by
  obtain ⟨h, answer, d', start, performed, exact_⟩ :=
    blocks_exact ByteFile.bytes (fun s => (none, s)) 0 1024 (Vector.replicate 64 0)
      ⟨List.replicate 1024 0x11, fun _ => 0⟩ (by decide +kernel) .refl
      (BlockOp.read 1) (by intro skips; revert skips; decide +kernel)
  exact ⟨h, answer, d', start.trans (by decide +kernel), performed, exact_⟩

/-- An image of two blocks without a header, freshly mounted; `limits` are the
failures of the calls after the one of `mount`. -/
def twoBlocks (limits : List (Option Nat)) : BlockDrive ScriptedFile :=
  mountedDrive ScriptedFile.handler 0 1024 (Vector.replicate 64 0)
    ⟨⟨List.replicate 512 0x11 ++ List.replicate 512 0x22, fun _ => 0⟩, none :: limits⟩

/-- The first write after mounting goes to offset 64 if it is for block 0. And after a
read of block 0 that stops at 100 bytes, block 1 is read from there. -/
theorem blocks_shift :
    (∃ answer d', (BlockOp.write 0 (Vector.replicate 512 0xFF)).perform ScriptedFile.handler
        (fun s => (none, s)) (twoBlocks []) = some (answer, d') ∧
      ¬ (BlockOp.write 0 (Vector.replicate 512 0xFF)).Exact ScriptedFile.bytes 0 (twoBlocks [])
        answer d') ∧
    ∃ first second d₁ d₂,
      (BlockOp.read 0).perform ScriptedFile.handler (fun s => (none, s))
        (twoBlocks [none, some 100]) = some (first, d₁) ∧
      (BlockOp.read 1).perform ScriptedFile.handler (fun s => (none, s)) d₁ = some (second, d₂) ∧
      ¬ (BlockOp.read 1).Exact ScriptedFile.bytes 0 d₁ second d₂ := by
  constructor
  · have computed : ((BlockOp.write 0 (Vector.replicate 512 0xFF)).perform ScriptedFile.handler
        (fun s => (none, s)) (twoBlocks [])).map (fun r => (r.1.1, r.2.files.file.content)) =
          some (false, writeAt (twoBlocks []).files.file.content 64 (List.replicate 512 0xFF)) := by
      decide +kernel
    obtain ⟨⟨answer, d'⟩, performed, result⟩ := Option.map_eq_some_iff.mp computed
    refine ⟨answer, d', performed, fun exact_ => ?_⟩
    have written : d'.files.file.content = writeAt (twoBlocks []).files.file.content 0
        (List.replicate 512 0xFF) := exact_ (Prod.mk.inj result).1
    rw [(Prod.mk.inj result).2] at written
    revert written
    decide +kernel
  · have computed : ((BlockOp.read 0).perform ScriptedFile.handler (fun s => (none, s))
        (twoBlocks [none, some 100])).bind (fun r =>
          ((BlockOp.read 1).perform ScriptedFile.handler (fun s => (none, s)) r.2).map
            (fun r' => (r'.1, r.2.files.file.content))) =
        some ((false, List.replicate 412 0x11 ++ List.replicate 100 0x22),
          List.replicate 512 0x11 ++ List.replicate 512 0x22) := by
      decide +kernel
    obtain ⟨⟨first, d₁⟩, performed, rest⟩ := Option.bind_eq_some_iff.mp computed
    obtain ⟨⟨second, d₂⟩, performed', result⟩ := Option.map_eq_some_iff.mp rest
    obtain ⟨rfl, content⟩ := Prod.mk.inj result
    refine ⟨first, _, d₁, d₂, performed, performed', fun exact_ => ?_⟩
    have got : List.replicate 412 0x11 ++ List.replicate 100 0x22 =
        slice d₁.files.file.content 512 512 := (exact_ rfl).1
    rw [content] at got
    revert got
    decide +kernel

end FujiNet.Apple
