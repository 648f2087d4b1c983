import FujiNet.Control.Loop
import Mathlib.Data.List.Forall2

/-!
# Writing to a TNFS file through a network channel

`NetworkProtocolTNFS::write_file_handle` sends a buffer in blocks. It goes on to the next block when
a block was accepted, whether all of it or not, and sends a block again, for as long as it takes,
when there was an error.
-/

namespace FujiNet.NetworkProtocol

def TNFS_PAYLOAD_SIZE : Nat := 528
def TNFS_MAX_READWRITE_PAYLOAD : Nat := TNFS_PAYLOAD_SIZE - 3

/-- What `tnfs_write` returns: 0 and how many bytes the server has stored, or an error. -/
inductive WriteAnswer
  | stored (actualLen : Nat)
  | failed (code : {code : Int // code ≠ 0})
deriving DecidableEq

namespace NetworkProtocolTNFS

/-- The loop in `write_file_handle`: what is left of the buffer, `tnfs_error`, the answers that are
still to come, and what the server has stored. -/
structure WriteLoop where
  buf : List UInt8
  tnfsError : Int
  answers : Nat → WriteAnswer
  stored : List UInt8 := []

/-- One pass. -/
def writePass (s : WriteLoop) : Option (WriteLoop ⊕ Bool × List UInt8) :=
  if s.buf = [] then some (.inr (s.tnfsError ≠ 0, s.stored))
  else
    let block := s.buf.take TNFS_MAX_READWRITE_PAYLOAD
    let answers := fun i => s.answers (i + 1)
    match s.answers 0 with
    | .failed code => some (.inl { s with tnfsError := code.val, answers })
    | .stored actualLen => some (.inl {
        buf := s.buf.drop TNFS_MAX_READWRITE_PAYLOAD
        tnfsError := 0
        answers
        stored := s.stored ++ block.take actualLen })

/-- `write_file_handle`: whether it fails, and what the server has stored. -/
def writeFileHandle (answers : Nat → WriteAnswer) (tnfsError : Int) (fuel : Nat) (buf : List UInt8) :
    Option (Bool × List UInt8) :=
  Loop.run writePass fuel { buf, tnfsError, answers }

/-- `NetworkProtocolFS::write_file`, with what stays in `transmitBuffer`. -/
def writeFile (answers : Nat → WriteAnswer) (tnfsError : Int) (fuel : Nat)
    (transmitBuffer : List UInt8) (len : UInt16) : Option (Bool × List UInt8 × List UInt8) :=
  (writeFileHandle answers tnfsError fuel (transmitBuffer.take len.toNat)).map fun (err, stored) =>
    (err, stored, if err then transmitBuffer else transmitBuffer.drop len.toNat)

/-- The write returns, it succeeds exactly if the server has stored all that was to be written, and
what was stored is taken off `transmitBuffer`. -/
def WritesExactly (answers : Nat → WriteAnswer) (tnfsError : Int) (transmitBuffer : List UInt8)
    (len : UInt16) : Prop :=
  ∃ fuel err stored rest, writeFile answers tnfsError fuel transmitBuffer len = some (err, stored, rest) ∧
    (err = false ↔ stored = transmitBuffer.take len.toNat) ∧ stored ++ rest = transmitBuffer

/-- The blocks of a buffer. -/
def blocks (buf : List UInt8) : List (List UInt8) :=
  if buf = [] then []
  else buf.take TNFS_MAX_READWRITE_PAYLOAD :: blocks (buf.drop TNFS_MAX_READWRITE_PAYLOAD)
termination_by buf.length
decreasing_by
  rename_i some
  have pos := List.length_pos_of_ne_nil some
  rw [List.length_drop, TNFS_MAX_READWRITE_PAYLOAD, TNFS_PAYLOAD_SIZE]
  omega

/-- The lengths that the server stores in its first `n` answers, without those that are errors. -/
def accepted (answers : Nat → WriteAnswer) (n : Nat) : List Nat :=
  (List.range n).filterMap fun i =>
    match answers i with
    | .stored actualLen => some actualLen
    | .failed _ => none

/-- The first answers that are not errors, as many as there are blocks, each accept the whole
block. -/
def AcceptsAll (answers : Nat → WriteAnswer) (buf : List UInt8) : Prop :=
  ∃ n, List.Forall₂ (fun block actualLen => block.length ≤ actualLen) (blocks buf) (accepted answers n)

/-- What the server stores of some blocks. -/
def parts (bs : List (List UInt8)) (lens : List Nat) : List UInt8 :=
  (List.zipWith (fun block len => block.take len) bs lens).flatten

/-! ## Blocks and answers -/

section Blocks

variable {buf : List UInt8} {answers : Nat → WriteAnswer}

@[simp] theorem blocks_nil : blocks [] = [] := by
  rw [blocks, if_pos rfl]

theorem blocks_of_ne_nil (some : buf ≠ []) : blocks buf =
    buf.take TNFS_MAX_READWRITE_PAYLOAD :: blocks (buf.drop TNFS_MAX_READWRITE_PAYLOAD) := by
  rw [blocks, if_neg some]

theorem flatten_blocks (buf : List UInt8) : (blocks buf).flatten = buf := by
  induction buf using blocks.induct with
  | case1 => rw [blocks_nil, List.flatten_nil]
  | case2 buf some ih => rw [blocks_of_ne_nil some, List.flatten_cons, ih, List.take_append_drop]

theorem blocks_eq_nil_iff : blocks buf = [] ↔ buf = [] := by
  constructor
  · intro none
    rw [← flatten_blocks buf, none, List.flatten_nil]
  · rintro rfl
    exact blocks_nil

theorem accepted_stored {actualLen : Nat} (h : answers 0 = .stored actualLen) (n : Nat) :
    accepted answers (n + 1) = actualLen :: accepted (fun i => answers (i + 1)) n := by
  rw [accepted, List.range_succ_eq_map, List.filterMap_cons_some (by rw [h]), List.filterMap_map]
  rfl

theorem accepted_failed {code : {code : Int // code ≠ 0}} (h : answers 0 = .failed code) (n : Nat) :
    accepted answers (n + 1) = accepted (fun i => answers (i + 1)) n := by
  rw [accepted, List.range_succ_eq_map, List.filterMap_cons_none (by rw [h]), List.filterMap_map]
  rfl

theorem length_parts_le (bs : List (List UInt8)) (lens : List Nat) :
    (parts bs lens).length ≤ bs.flatten.length := by
  induction bs generalizing lens with
  | nil => simp [parts]
  | cons block bs ih =>
    cases lens with
    | nil => simp [parts]
    | cons len lens =>
      have rest := ih lens
      simp only [parts, List.zipWith_cons_cons, List.flatten_cons, List.length_append] at rest ⊢
      have less : (block.take len).length ≤ block.length := List.length_take_le' len block
      omega

/-- All of the blocks is stored exactly if all of each block is. -/
theorem parts_eq_iff (bs : List (List UInt8)) (lens : List Nat) (length : bs.length = lens.length) :
    parts bs lens = bs.flatten ↔ List.Forall₂ (fun block len => block.length ≤ len) bs lens := by
  induction bs generalizing lens with
  | nil =>
    cases lens with
    | nil => exact iff_of_true rfl .nil
    | cons len lens => exact absurd length (by simp)
  | cons block bs ih =>
    cases lens with
    | nil => exact absurd length (by simp)
    | cons len lens =>
      rw [List.forall₂_cons, ← ih lens (Nat.succ.inj length)]
      have few := length_parts_le bs lens
      have front : parts (block :: bs) (len :: lens) = block.take len ++ parts bs lens := rfl
      rw [front, List.flatten_cons]
      constructor
      · intro all
        have lengths := congrArg List.length all
        rw [List.length_append, List.length_append, List.length_take] at lengths
        have whole : block.length ≤ len := by omega
        rw [List.take_of_length_le whole] at all
        exact ⟨whole, List.append_cancel_left all⟩
      · rintro ⟨whole, all⟩
        rw [List.take_of_length_le whole, all]

end Blocks

/-! ## The loop -/

section Loop

variable {buf stored : List UInt8} {answers : Nat → WriteAnswer} {tnfsError : Int} {n : Nat}

/-- The loop ends when as many blocks were accepted as there are. Only the empty buffer leaves
`tnfs_error` as an earlier call has set it. -/
theorem run_accepted (enough : (accepted answers n).length = (blocks buf).length) :
    Loop.run writePass (n + 1) ⟨buf, tnfsError, answers, stored⟩ =
      some (decide (buf = [] ∧ tnfsError ≠ 0), stored ++ parts (blocks buf) (accepted answers n)) := by
  induction n generalizing buf stored answers tnfsError with
  | zero =>
    have none : buf = [] := blocks_eq_nil_iff.mp (List.eq_nil_of_length_eq_zero enough.symm)
    rw [Loop.run_succ_inr (by rw [writePass, if_pos none])]
    simp [none, parts]
  | succ n ih =>
    by_cases none : buf = []
    · rw [Loop.run_succ_inr (by rw [writePass, if_pos none])]
      simp [none, parts]
    cases answer : answers 0 with
    | failed code =>
      rw [accepted_failed answer] at enough ⊢
      have pass : writePass ⟨buf, tnfsError, answers, stored⟩ =
          some (.inl ⟨buf, code.val, fun i => answers (i + 1), stored⟩) := by
        rw [writePass, if_neg none]
        simp only [answer]
      rw [Loop.run_succ_inl pass, ih enough]
      simp [none]
    | stored actualLen =>
      rw [accepted_stored answer] at enough ⊢
      rw [blocks_of_ne_nil none] at enough ⊢
      have pass : writePass ⟨buf, tnfsError, answers, stored⟩ =
          some (.inl ⟨buf.drop TNFS_MAX_READWRITE_PAYLOAD, 0, fun i => answers (i + 1),
            stored ++ (buf.take TNFS_MAX_READWRITE_PAYLOAD).take actualLen⟩) := by
        rw [writePass, if_neg none]
        simp only [answer]
      rw [Loop.run_succ_inl pass, ih (Nat.succ.inj enough)]
      simp [none, parts]

/-- It does not end otherwise. -/
theorem accepted_of_run {err : Bool} {all : List UInt8}
    (run : Loop.run writePass n ⟨buf, tnfsError, answers, stored⟩ = some (err, all)) :
    ∃ m, (accepted answers m).length = (blocks buf).length := by
  induction n generalizing buf stored answers tnfsError with
  | zero => simp [Loop.run] at run
  | succ n ih =>
    by_cases none : buf = []
    · exact ⟨0, by rw [none, blocks_nil]; rfl⟩
    cases answer : answers 0 with
    | failed code =>
      have pass : writePass ⟨buf, tnfsError, answers, stored⟩ =
          some (.inl ⟨buf, code.val, fun i => answers (i + 1), stored⟩) := by
        rw [writePass, if_neg none]
        simp only [answer]
      rw [Loop.run_succ_inl pass] at run
      obtain ⟨m, enough⟩ := ih run
      exact ⟨m + 1, by rw [accepted_failed answer, enough]⟩
    | stored actualLen =>
      have pass : writePass ⟨buf, tnfsError, answers, stored⟩ =
          some (.inl ⟨buf.drop TNFS_MAX_READWRITE_PAYLOAD, 0, fun i => answers (i + 1),
            stored ++ (buf.take TNFS_MAX_READWRITE_PAYLOAD).take actualLen⟩) := by
        rw [writePass, if_neg none]
        simp only [answer]
      rw [Loop.run_succ_inl pass] at run
      obtain ⟨m, enough⟩ := ih run
      refine ⟨m + 1, ?_⟩
      rw [accepted_stored answer, blocks_of_ne_nil none, List.length_cons, List.length_cons, enough]

end Loop

/-- A write ends and is exact exactly if enough answers are no errors and the first of them accept
their whole blocks. An empty write reports the error of an earlier call. -/
theorem writesExactly_iff (answers : Nat → WriteAnswer) (tnfsError : Int)
    (transmitBuffer : List UInt8) (len : UInt16) :
    WritesExactly answers tnfsError transmitBuffer len ↔
      AcceptsAll answers (transmitBuffer.take len.toNat) ∧
        (transmitBuffer.take len.toNat = [] → tnfsError = 0) := by
  generalize whole : transmitBuffer.take len.toNat = buf
  constructor
  · rintro ⟨fuel, err, stored, rest, write, exact, -⟩
    obtain ⟨⟨err', stored'⟩, run, result⟩ := Option.map_eq_some_iff.mp write
    rw [whole] at run exact
    obtain ⟨rfl, rfl, -⟩ : err' = err ∧ stored' = stored ∧ _ := by simpa using result
    obtain ⟨m, enough⟩ := accepted_of_run run
    have ends := Loop.run_unique run (run_accepted enough)
    rw [Prod.mk.injEq, List.nil_append] at ends
    obtain ⟨rfl, rfl⟩ := ends
    by_cases none : buf = []
    · subst none
      refine ⟨⟨0, by rw [blocks_nil]; exact .nil⟩, fun _ => ?_⟩
      have success := exact.mpr (by rw [blocks_nil]; rfl)
      simpa using success
    · have all := exact.mp (by simp [none])
      refine ⟨⟨m, (parts_eq_iff _ _ enough.symm).mp ?_⟩, fun empty => absurd empty none⟩
      rw [all, flatten_blocks]
  · rintro ⟨⟨n, all⟩, fresh⟩
    have enough := all.length_eq.symm
    have stored := (parts_eq_iff _ _ enough.symm).mpr all
    rw [flatten_blocks] at stored
    have good : ¬ (buf = [] ∧ tnfsError ≠ 0) := fun stale => stale.2 (fresh stale.1)
    have run := @run_accepted buf [] answers tnfsError n enough
    rw [decide_eq_false good, stored, List.nil_append] at run
    refine ⟨n + 1, false, buf, transmitBuffer.drop len.toNat, ?_, iff_of_true rfl whole.symm, ?_⟩
    · rw [writeFile, whole]
      exact congrArg _ run
    · rw [← whole, List.take_append_drop]

/-- A server that answers a write with success and stores nothing, and one that answers with the
same error for ever. -/
theorem full_disk_not_reported :
    ¬ WritesExactly (fun _ => .stored 0) 0 [0x41] 1 ∧
      ∀ fuel, writeFile (fun _ => .failed ⟨-1, by decide⟩) 0 fuel [0x41] 1 = none := by
  refine ⟨?_, fun fuel => ?_⟩
  · rintro ⟨fuel, err, stored, rest, write, exact, -⟩
    obtain ⟨⟨err', stored'⟩, run, result⟩ := Option.map_eq_some_iff.mp write
    obtain ⟨rfl, rfl, -⟩ : err' = err ∧ stored' = stored ∧ _ := by simpa using result
    have success : writeFileHandle (fun _ => .stored 0) 0 2 [0x41] = some (false, []) := rfl
    have ends := Loop.run_unique run success
    obtain ⟨rfl, rfl⟩ := Prod.mk.inj ends
    exact absurd (exact.mp rfl) (by decide)
  · have endless : ∀ fuel tnfsError, Loop.run writePass fuel
        ⟨[0x41], tnfsError, fun _ => .failed ⟨-1, by decide⟩, []⟩ = none := by
      intro fuel
      induction fuel with
      | zero => exact fun _ => rfl
      | succ fuel ih => exact fun tnfsError => (Loop.run_succ_inl rfl).trans (ih (-1))
    exact congrArg _ (endless fuel 0)

end NetworkProtocolTNFS

end FujiNet.NetworkProtocol
