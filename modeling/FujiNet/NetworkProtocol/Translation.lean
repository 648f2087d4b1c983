import Mathlib.Dynamics.PeriodicPts.Defs
import FujiNet.Utils.Strings

/-!
# End of line translation of a network channel

`NetworkProtocol::translate_receive_buffer` works on the whole buffer, one
replacement after the other. None of the replacements produces a byte that a later
one looks for, so each byte is translated by itself: the translation of a stream is
the concatenation of the translations of its bytes, wherever the stream is cut. The
transmit side replaces text by text, and for a pattern of one byte `util_replaceAll`
is again a translation byte by byte.
-/

namespace FujiNet.NetworkProtocol

open Utils

/-- The target the firmware is built for, as far as the protocols look at it. -/
inductive Build where
  | atari | apple | other
deriving DecidableEq, Repr

def ASCII_BELL : UInt8 := 0x07
def ASCII_BACKSPACE : UInt8 := 0x08
def ASCII_TAB : UInt8 := 0x09
def ASCII_LF : UInt8 := 0x0A
def ASCII_CR : UInt8 := 0x0D
def ATASCII_DEL : UInt8 := 0x7E
def ATASCII_TAB : UInt8 := 0x7F
def ATASCII_BUZZER : UInt8 := 0xFD

/-- `EOL`, the end of line of the computer. -/
def Build.EOL (build : Build) : UInt8 := if build = .apple then 0x0D else 0x9B

def TRANSLATION_MODE_NONE : UInt8 := 0
def TRANSLATION_MODE_CR : UInt8 := 1
def TRANSLATION_MODE_LF : UInt8 := 2
def TRANSLATION_MODE_CRLF : UInt8 := 3
def TRANSLATION_MODE_PETSCII : UInt8 := 4

/-- `std::replace` on a whole buffer. -/
def replace (buffer : List UInt8) (old new : UInt8) : List UInt8 :=
  buffer.map fun c => if c = old then new else c

/-! ## PETSCII -/

/-- `ascii2petscii`: the two alphabets change places. -/
def ascii2petscii (ch : UInt8) : UInt8 :=
  if 64 < ch ∧ ch < 91 then ch + 32 else if 96 < ch ∧ ch < 123 then ch - 32 else ch

/-- `petscii2ascii`, which knows a second place for the capitals. -/
def petscii2ascii (ch : UInt8) : UInt8 :=
  if 64 < ch ∧ ch < 91 then ch + 32
  else if 96 < ch ∧ ch < 123 then ch - 32
  else if 192 ≤ ch ∧ ch ≤ 218 then ch - 128
  else ch

/-! ## The two directions -/

/-- `NetworkProtocol::translate_receive_buffer`. -/
def translateReceiveBuffer (build : Build) (mode : UInt8) (buffer : List UInt8) :
    List UInt8 :=
  if mode = TRANSLATION_MODE_NONE then buffer
  else
    let buffer :=
      if build = .atari then
        replace (replace (replace buffer ASCII_BELL ATASCII_BUZZER)
          ASCII_BACKSPACE ATASCII_DEL) ASCII_TAB ATASCII_TAB
      else buffer
    let buffer :=
      if mode = TRANSLATION_MODE_CR then replace buffer ASCII_CR build.EOL
      else if mode = TRANSLATION_MODE_LF then replace buffer ASCII_LF build.EOL
      else if mode = TRANSLATION_MODE_CRLF then
        if build = .apple then buffer else replace buffer ASCII_CR build.EOL
      else if mode = TRANSLATION_MODE_PETSCII then buffer.map ascii2petscii
      else buffer
    if mode = TRANSLATION_MODE_CRLF then buffer.filter (· ≠ 0x0A) else buffer

/-- The buffer that `NetworkProtocol::translate_transmit_buffer` leaves. -/
def transmitted (build : Build) (mode : UInt8) (buffer : List UInt8) : List UInt8 :=
  if mode = TRANSLATION_MODE_NONE then buffer
  else
    let buffer :=
      if build = .atari then
        utilReplaceAll (utilReplaceAll (utilReplaceAll buffer [ATASCII_BUZZER] [ASCII_BELL])
          [ATASCII_DEL] [ASCII_BACKSPACE]) [ATASCII_TAB] [ASCII_TAB]
      else buffer
    if mode = TRANSLATION_MODE_CR then utilReplaceAll buffer [build.EOL] [ASCII_CR]
    else if mode = TRANSLATION_MODE_LF then utilReplaceAll buffer [build.EOL] [ASCII_LF]
    else if mode = TRANSLATION_MODE_CRLF then
      utilReplaceAll buffer [build.EOL] [ASCII_CR, ASCII_LF]
    else if mode = TRANSLATION_MODE_PETSCII then buffer.map petscii2ascii
    else buffer

/-- `NetworkProtocol::translate_transmit_buffer`: the buffer and its length as a 16-bit
number. -/
def translateTransmitBuffer (build : Build) (mode : UInt8) (buffer : List UInt8) :
    List UInt8 × UInt16 :=
  (transmitted build mode buffer, UInt16.ofNat (transmitted build mode buffer).length)

/-! ## One byte at a time -/

/-- The replacements of control characters, which only the Atari makes. -/
def controlByte (build : Build) (c : UInt8) : UInt8 :=
  if build = .atari then
    if c = 0x07 then 0xFD else if c = 0x08 then 0x7E else if c = 0x09 then 0x7F else c
  else c

/-- The replacement at the end of a line, and that of the alphabets. -/
def lineByte (build : Build) (mode c : UInt8) : UInt8 :=
  if mode = TRANSLATION_MODE_CR then if c = ASCII_CR then build.EOL else c
  else if mode = TRANSLATION_MODE_LF then if c = ASCII_LF then build.EOL else c
  else if mode = TRANSLATION_MODE_CRLF then
    if build = .apple then c else if c = ASCII_CR then build.EOL else c
  else if mode = TRANSLATION_MODE_PETSCII then ascii2petscii c
  else c

theorem replace_control (build : Build) (buffer : List UInt8) :
    (if build = .atari then
        replace (replace (replace buffer ASCII_BELL ATASCII_BUZZER)
          ASCII_BACKSPACE ATASCII_DEL) ASCII_TAB ATASCII_TAB
      else buffer) = buffer.map (controlByte build) := by
  by_cases atari : build = .atari
  · simp only [if_pos atari, replace, List.map_map]
    refine List.map_congr_left fun c _ => ?_
    simp only [Function.comp_apply, controlByte, if_pos atari, ASCII_BELL, ASCII_BACKSPACE,
      ASCII_TAB, ATASCII_BUZZER, ATASCII_DEL, ATASCII_TAB]
    grind
  · rw [if_neg atari]
    exact (List.map_id'' (fun c => if_neg atari) buffer).symm

theorem replace_line (build : Build) (mode : UInt8) (buffer : List UInt8) :
    (if mode = TRANSLATION_MODE_CR then replace buffer ASCII_CR build.EOL
      else if mode = TRANSLATION_MODE_LF then replace buffer ASCII_LF build.EOL
      else if mode = TRANSLATION_MODE_CRLF then
        if build = .apple then buffer else replace buffer ASCII_CR build.EOL
      else if mode = TRANSLATION_MODE_PETSCII then buffer.map ascii2petscii
      else buffer) = buffer.map (lineByte build mode) := by
  by_cases cr : mode = TRANSLATION_MODE_CR
  · rw [if_pos cr]
    exact List.map_congr_left fun c _ => by rw [lineByte, if_pos cr]
  by_cases lf : mode = TRANSLATION_MODE_LF
  · rw [if_neg cr, if_pos lf]
    exact List.map_congr_left fun c _ => by rw [lineByte, if_neg cr, if_pos lf]
  by_cases crlf : mode = TRANSLATION_MODE_CRLF
  · rw [if_neg cr, if_neg lf, if_pos crlf]
    by_cases apple : build = .apple
    · rw [if_pos apple]
      refine (List.map_id'' (fun c => ?_) buffer).symm
      rw [lineByte, if_neg cr, if_neg lf, if_pos crlf, if_pos apple]
    · rw [if_neg apple]
      refine List.map_congr_left fun c _ => ?_
      rw [lineByte, if_neg cr, if_neg lf, if_pos crlf, if_neg apple]
  rw [if_neg cr, if_neg lf, if_neg crlf]
  by_cases petscii : mode = TRANSLATION_MODE_PETSCII
  · rw [if_pos petscii]
    refine List.map_congr_left fun c _ => ?_
    rw [lineByte, if_neg cr, if_neg lf, if_neg crlf, if_pos petscii]
  · rw [if_neg petscii]
    refine (List.map_id'' (fun c => ?_) buffer).symm
    rw [lineByte, if_neg cr, if_neg lf, if_neg crlf, if_neg petscii]

section Receive

variable (build : Build) (mode : UInt8)

/-- All replacements in one pass. -/
theorem translateReceiveBuffer_eq (buffer : List UInt8) :
    translateReceiveBuffer build mode buffer =
      if mode = TRANSLATION_MODE_NONE then buffer
      else if mode = TRANSLATION_MODE_CRLF then
        (buffer.map fun c => lineByte build mode (controlByte build c)).filter (· ≠ 0x0A)
      else buffer.map fun c => lineByte build mode (controlByte build c) := by
  simp only [translateReceiveBuffer, replace_control]
  simp only [replace_line]
  simp only [List.map_map, Function.comp_def]

theorem length_translateReceiveBuffer_le (buffer : List UInt8) :
    (translateReceiveBuffer build mode buffer).length ≤ buffer.length := by
  rw [translateReceiveBuffer_eq]
  split_ifs
  · exact Nat.le_refl _
  · refine (List.length_filter_le _ _).trans ?_
    rw [List.length_map]
  · rw [List.length_map]

@[simp] theorem translateReceiveBuffer_nil : translateReceiveBuffer build mode [] = [] := by
  simp [translateReceiveBuffer_eq]

/-- Received data may be cut anywhere, in every mode. -/
theorem translateReceiveBuffer_append (a b : List UInt8) :
    translateReceiveBuffer build mode (a ++ b) =
      translateReceiveBuffer build mode a ++ translateReceiveBuffer build mode b := by
  simp only [translateReceiveBuffer_eq, List.map_append, List.filter_append]
  split_ifs <;> rfl

theorem translateReceiveBuffer_eq_flatMap (buffer : List UInt8) :
    translateReceiveBuffer build mode buffer =
      buffer.flatMap fun c => translateReceiveBuffer build mode [c] := by
  induction buffer with
  | nil => simp
  | cons c buffer ih =>
      rw [List.flatMap_cons, ← ih, ← translateReceiveBuffer_append, List.singleton_append]

/-- What cannot be changed any more stays as it is. -/
theorem translateReceiveBuffer_of_fixed {buffer : List UInt8}
    (fixed : ∀ c ∈ buffer, translateReceiveBuffer build mode [c] = [c]) :
    translateReceiveBuffer build mode buffer = buffer := by
  rw [translateReceiveBuffer_eq_flatMap, List.flatMap_congr fixed, List.flatMap_singleton']

end Receive

/-! ## Translating twice -/

theorem controlByte_controlByte (build : Build) (c : UInt8) :
    controlByte build (controlByte build c) = controlByte build c := by
  simp only [controlByte]
  grind

/-- What both replacements leave is left alone by both, unless the alphabets are
exchanged. -/
theorem lineByte_controlByte (build : Build) {mode : UInt8} (h : mode ≠ TRANSLATION_MODE_PETSCII)
    (c : UInt8) :
    lineByte build mode (controlByte build (lineByte build mode (controlByte build c))) =
      lineByte build mode (controlByte build c) := by
  by_cases atari : build = .atari
  · simp only [lineByte, controlByte, Build.EOL, ASCII_CR, ASCII_LF, if_pos atari, if_neg h]
    grind
  · simp only [lineByte, controlByte, Build.EOL, ASCII_CR, ASCII_LF, if_neg atari, if_neg h]
    grind

/-- No replacement makes a byte that the mode looks for. -/
theorem translateReceiveBuffer_of_mem (build : Build) {mode b c : UInt8}
    (h : mode ≠ TRANSLATION_MODE_PETSCII) (mem : b ∈ translateReceiveBuffer build mode [c]) :
    translateReceiveBuffer build mode [b] = [b] := by
  rw [translateReceiveBuffer_eq, List.map_singleton] at mem ⊢
  by_cases none : mode = TRANSLATION_MODE_NONE
  · rw [if_pos none]
  rw [if_neg none] at mem ⊢
  by_cases crlf : mode = TRANSLATION_MODE_CRLF
  · rw [if_pos crlf] at mem ⊢
    obtain ⟨inList, kept⟩ := List.mem_filter.mp mem
    obtain rfl := List.mem_singleton.mp inList
    rw [lineByte_controlByte build h]
    exact List.filter_cons_of_pos kept
  · rw [if_neg crlf] at mem ⊢
    obtain rfl := List.mem_singleton.mp mem
    rw [lineByte_controlByte build h]

/-- Translating once more changes nothing, unless the alphabets are exchanged. -/
theorem translateReceiveBuffer_idem (build : Build) {mode : UInt8}
    (h : mode ≠ TRANSLATION_MODE_PETSCII) (buffer : List UInt8) :
    translateReceiveBuffer build mode (translateReceiveBuffer build mode buffer) =
      translateReceiveBuffer build mode buffer := by
  refine translateReceiveBuffer_of_fixed build mode fun b mem => ?_
  rw [translateReceiveBuffer_eq_flatMap, List.mem_flatMap] at mem
  obtain ⟨c, -, mem⟩ := mem
  exact translateReceiveBuffer_of_mem build h mem

/-! ## Exchanging the alphabets -/

/-- An ASCII letter. -/
def Letter (c : UInt8) : Prop := 64 < c ∧ c < 91 ∨ 96 < c ∧ c < 123

instance decidableLetter (c : UInt8) : Decidable (Letter c) :=
  inferInstanceAs (Decidable (64 < c ∧ c < 91 ∨ 96 < c ∧ c < 123))

theorem ascii2petscii_of_not_letter {c : UInt8} (h : ¬ Letter c) : ascii2petscii c = c := by
  simp only [Letter, not_or] at h
  rw [ascii2petscii, if_neg h.1, if_neg h.2]

/-- A letter goes to another one, and back. -/
theorem ascii2petscii_of_letter {c : UInt8} (h : Letter c) :
    Letter (ascii2petscii c) ∧ ascii2petscii c ≠ c ∧ ascii2petscii (ascii2petscii c) = c := by
  simp only [Letter] at h ⊢
  rcases h with upper | lower
  · have exchanged : ascii2petscii c = c + 32 := by rw [ascii2petscii, if_pos upper]
    rw [exchanged]
    exact ⟨.inr (by grind), by grind, by grind [ascii2petscii]⟩
  · have exchanged : ascii2petscii c = c - 32 := by grind [ascii2petscii]
    rw [exchanged]
    exact ⟨.inl (by grind), by grind, by grind [ascii2petscii]⟩

/-- One byte in PETSCII mode. -/
def petsciiByte (build : Build) (c : UInt8) : UInt8 := ascii2petscii (controlByte build c)

theorem translateReceiveBuffer_petscii (build : Build) (buffer : List UInt8) :
    translateReceiveBuffer build TRANSLATION_MODE_PETSCII buffer =
      buffer.map (petsciiByte build) := by
  rw [translateReceiveBuffer_eq]
  rfl

theorem petsciiByte_of_letter (build : Build) {c : UInt8} (h : Letter c) :
    petsciiByte build c = ascii2petscii c := by
  have plain : controlByte build c = c := by
    simp only [Letter] at h
    simp only [controlByte]
    grind
  rw [petsciiByte, plain]

theorem petsciiByte_petsciiByte_of_not_letter (build : Build) {c : UInt8} (h : ¬ Letter c) :
    petsciiByte build (petsciiByte build c) = petsciiByte build c := by
  have other : ¬ Letter (controlByte build c) := by
    simp only [Letter, controlByte] at h ⊢
    grind
  simp only [petsciiByte]
  rw [ascii2petscii_of_not_letter other, controlByte_controlByte,
    ascii2petscii_of_not_letter other]

/-- Only letters are changed by a second translation, and each further one changes them
again. -/
theorem petsciiByte_iterate_iff (build : Build) {n : Nat} (h : 0 < n) (c : UInt8) :
    (petsciiByte build)^[n] c = petsciiByte build c ↔ (Letter c → Odd n) := by
  by_cases letter : Letter c
  · obtain ⟨letter', moved, back⟩ := ascii2petscii_of_letter letter
    have once : petsciiByte build c = ascii2petscii c := petsciiByte_of_letter build letter
    have twice : Function.IsPeriodicPt (petsciiByte build) 2 c := by
      change petsciiByte build (petsciiByte build c) = c
      rw [once, petsciiByte_of_letter build letter', back]
    rw [← twice.iterate_mod_apply n]
    rcases Nat.even_or_odd n with even | odd
    · rw [Nat.even_iff.mp even, Function.iterate_zero_apply, once]
      exact iff_of_false (fun same => moved same.symm)
        (fun odd => Nat.not_odd_iff_even.mpr even (odd letter))
    · rw [Nat.odd_iff.mp odd]
      exact iff_of_true rfl (fun _ => odd)
  · refine iff_of_true ?_ (fun absurdity => absurd absurdity letter)
    have stays : Function.IsFixedPt (petsciiByte build) (petsciiByte build c) :=
      petsciiByte_petsciiByte_of_not_letter build letter
    obtain ⟨m, rfl⟩ : ∃ m, n = m + 1 := ⟨n - 1, by omega⟩
    rw [Function.iterate_succ_apply]
    exact stays.iterate m

/-! ## There and back on the Atari -/

/-- The modes that translate the end of a line. -/
def EndOfLine (mode : UInt8) : Prop :=
  mode = TRANSLATION_MODE_CR ∨ mode = TRANSLATION_MODE_LF ∨ mode = TRANSLATION_MODE_CRLF

/-- What an Atari end of line becomes on the way out. -/
def lineEnd (mode : UInt8) : List UInt8 :=
  if mode = TRANSLATION_MODE_CR then [ASCII_CR]
  else if mode = TRANSLATION_MODE_LF then [ASCII_LF] else [ASCII_CR, ASCII_LF]

/-- A byte on the way out of an Atari. -/
def sentByte (mode c : UInt8) : List UInt8 :=
  if c = 0xFD then [0x07] else if c = 0x7E then [0x08] else if c = 0x7F then [0x09]
  else if c = 0x9B then lineEnd mode else [c]

/-- The four replacements one after the other are one translation. -/
theorem transmitted_eq_flatMap {mode : UInt8} (h : EndOfLine mode) (x : List UInt8) :
    transmitted .atari mode x = x.flatMap (sentByte mode) := by
  have chain : transmitted .atari mode x =
      utilReplaceAll (utilReplaceAll (utilReplaceAll (utilReplaceAll x [ATASCII_BUZZER]
        [ASCII_BELL]) [ATASCII_DEL] [ASCII_BACKSPACE]) [ATASCII_TAB] [ASCII_TAB])
        [Build.EOL .atari] (lineEnd mode) := by
    rcases h with rfl | rfl | rfl <;> rfl
  rw [chain]
  simp only [utilReplaceAll_singleton]
  simp only [replaced, List.flatMap_assoc]
  refine List.flatMap_congr fun c _ => ?_
  simp only [sentByte, Build.EOL, ATASCII_BUZZER, ATASCII_DEL, ATASCII_TAB, ASCII_BELL,
    ASCII_BACKSPACE, ASCII_TAB]
  -- No replacement makes a byte that a later one would replace.
  by_cases buzzer : c = 0xFD
  · subst buzzer
    rfl
  by_cases del : c = 0x7E
  · subst del
    rfl
  by_cases tab : c = 0x7F
  · subst tab
    rfl
  simp [buzzer, del, tab]

/-- What an Atari sends in place of a byte comes back as that byte. -/
theorem translateReceiveBuffer_sentByte {mode c : UInt8} (h : EndOfLine mode)
    (plain : c ∉ [0x07, 0x08, 0x09, 0x0A, 0x0D]) :
    translateReceiveBuffer .atari mode (sentByte mode c) = [c] := by
  by_cases escaped : c = 0xFD ∨ c = 0x7E ∨ c = 0x7F ∨ c = 0x9B
  · rcases h with rfl | rfl | rfl <;> rcases escaped with rfl | rfl | rfl | rfl <;> decide
  · have itself : sentByte mode c = [c] := by
      simp only [not_or] at escaped
      rw [sentByte, if_neg escaped.1, if_neg escaped.2.1, if_neg escaped.2.2.1,
        if_neg escaped.2.2.2]
    simp only [List.mem_cons, List.not_mem_nil, or_false, not_or] at plain
    rw [itself]
    rcases h with rfl | rfl | rfl <;>
      simp [translateReceiveBuffer, replace, plain, ASCII_BELL, ASCII_BACKSPACE, ASCII_TAB,
        ASCII_CR, ASCII_LF, TRANSLATION_MODE_NONE, TRANSLATION_MODE_CR, TRANSLATION_MODE_LF,
        TRANSLATION_MODE_CRLF]

/-- What an Atari sends is received unchanged, and received text may be cut anywhere. -/
theorem translation_round_trip :
    (∀ mode x, EndOfLine mode → (∀ c ∈ x, c ∉ [0x07, 0x08, 0x09, 0x0A, 0x0D]) →
      translateReceiveBuffer .atari mode (translateTransmitBuffer .atari mode x).1 = x) ∧
    ∀ mode a b, mode = TRANSLATION_MODE_CR ∨ mode = TRANSLATION_MODE_LF →
      translateReceiveBuffer .atari mode (a ++ b) =
        translateReceiveBuffer .atari mode a ++ translateReceiveBuffer .atari mode b := by
  constructor
  · intro mode x h plain
    have sent : (translateTransmitBuffer .atari mode x).1 = x.flatMap (sentByte mode) :=
      transmitted_eq_flatMap h x
    rw [sent]
    induction x with
    | nil => simp
    | cons c x ih =>
        rw [List.flatMap_cons, translateReceiveBuffer_append,
          translateReceiveBuffer_sentByte h (plain c List.mem_cons_self),
          ih (fun c mem => plain c (List.mem_cons_of_mem _ mem)) (transmitted_eq_flatMap h x)]
        rfl
  · intro mode a b _
    exact translateReceiveBuffer_append .atari mode a b

/-- A line with a tab and a bell, sent with CR/LF line ends. -/
theorem translation_round_trip_line :
    translateReceiveBuffer .atari TRANSLATION_MODE_CRLF
        (translateTransmitBuffer .atari TRANSLATION_MODE_CRLF [0x41, 0x7F, 0xFD, 0x9B]).1 =
      [0x41, 0x7F, 0xFD, 0x9B] :=
  translation_round_trip.1 _ _ (.inr (.inr rfl)) (by
    intro c mem
    simp only [List.mem_cons, List.not_mem_nil, or_false] at mem
    rcases mem with rfl | rfl | rfl | rfl <;> decide)

end FujiNet.NetworkProtocol
