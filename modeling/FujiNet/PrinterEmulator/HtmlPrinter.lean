import Mathlib.Data.List.Induction
import FujiNet.PrinterEmulator.PrinterEmu

/-!
# The HTML printer

`htmlPrinter` writes each record into the body of an HTML document: characters of the ATASCII set as
numeric references, inverse characters in spans. A span that a record leaves open is closed by the next
character that is not inverse, or by the end of a line; nobody closes it at the end of the document.
-/

namespace FujiNet.PrinterEmulator

/-- `AtasciiToStandardUnicode`. -/
def AtasciiToStandardUnicode : List Nat :=
  [9829, 9500, 9621, 9496, 9508, 9488, 9585, 9586,
   9698, 9623, 9699, 9629, 9624, 9620, 9601, 9622,
   9827, 9484, 9472, 9532, 11044, 9604, 9615, 9516,
   9524, 9612, 9492, 8455, 8593, 8595, 8592, 8594,
   0, 0, 0, 0, 0, 0, 38, 0,
   0, 0, 0, 0, 0, 0, 0, 0,
   0, 0, 0, 0, 0, 0, 0, 0,
   0, 0, 0, 0, 60, 0, 62, 0,
   0, 0, 0, 0, 0, 0, 0, 0,
   0, 0, 0, 0, 0, 0, 0, 0,
   0, 0, 0, 0, 0, 0, 0, 0,
   0, 0, 0, 0, 0, 0, 0, 0,
   9830, 0, 0, 0, 0, 0, 0, 0,
   0, 0, 0, 0, 0, 0, 0, 0,
   0, 0, 0, 0, 0, 0, 0, 0,
   0, 0, 0, 9824, 9475, 8598, 9658, 9668]

/-- `htmlPrinter`. -/
structure HtmlPrinter where
  paperType : Paper := .html
  inverse : Bool := false
deriving DecidableEq, Repr

namespace HtmlPrinter

def invOn : List UInt8 := ascii "<span class=\"iv\">"

def invOff : List UInt8 := ascii "</span>"

/-- `%x`. -/
def hex (n : Nat) : List UInt8 := (Nat.toDigits 16 n).map fun c => UInt8.ofNat c.toNat

/-- `&#x%x;`. -/
def escape (n : Nat) : List UInt8 := ascii "&#x" ++ hex n ++ ascii ";"

/-- A character without the inverse bit: its entity, or itself. -/
def plainText (c : UInt8) : List UInt8 :=
  if AtasciiToStandardUnicode.getD c.toNat 0 ≠ 0 then
    escape (AtasciiToStandardUnicode.getD c.toNat 0)
  else [c]

/-- What is written for a character that does not end the line, and `inverse` afterwards. -/
def putChar (paper : Paper) (c : UInt8) (inverse : Bool) : List UInt8 × Bool :=
  if paper = .htmlAtascii then
    if 32 ≤ c ∧ c ≤ 122 ∧ c ≠ 96 then (plainText c, inverse)
    else (escape (0xE000 + c.toNat), inverse)
  else if 128 ≤ c then ((if inverse = false then invOn else []) ++ plainText (c - 128), true)
  else ((if inverse then invOff else []) ++ plainText c, false)

/-- The loop of `process_buffer`. -/
def putRecord (paper : Paper) : List UInt8 → Bool → List UInt8 × Bool
  | [], inverse => ([], inverse)
  | c :: rest, inverse =>
    if c = ATASCII_EOL then ((if inverse then invOff else []) ++ ASCII_CRLF, false)
    else
      let first := putChar paper c inverse
      let later := putRecord paper rest first.2
      (first.1 ++ later.1, later.2)

def css : List UInt8 :=
  ascii "body\x7bfont-family:\"Courier New\",Courier,monospace;white-space:pre-wrap;\x7d .iv\x7bcolor:white;background-color:black;\x7d\r\n"

/-- What `post_new_file` writes; `atariFont` is the file that it copies for the Atari font. -/
def head (atariFont : List UInt8) (paper : Paper) : List UInt8 :=
  ascii "<html><head><meta charset=\"utf-8\"/>\r\n<style>" ++
    (if paper = .htmlAtascii then atariFont else css) ++ ascii "</style></head>\r\n"

def foot : List UInt8 := ascii "</html>"

/-- `htmlPrinter` as an emulator. -/
def emulator (atariFont : List UInt8) : Emulator HtmlPrinter where
  postNewFile s := s.put (head atariFont s.printer.paperType)
  processBuffer r s :=
    let (text, inverse) := putRecord s.printer.paperType r.bytes s.printer.inverse
    (true, { (s.put text) with printer.inverse := inverse })
  preCloseFile s := { (s.put foot) with printer.inverse := false }

/-! ## Reading the body

The reader takes the body apart: a span begins or ends, a reference or a plain character stands for
itself. Anything else, also a span in a span and one that is open at the end, is not well formed.
-/

def hexDigit (c : UInt8) : Option Nat :=
  if 0x30 ≤ c ∧ c ≤ 0x39 then some (c.toNat - 0x30)
  else if 0x61 ≤ c ∧ c ≤ 0x66 then some (c.toNat - 0x57)
  else none

def hexValue : List UInt8 → Nat → Option Nat
  | [], n => some n
  | c :: rest, n => (hexDigit c).bind fun d => hexValue rest (16 * n + d)

/-- The code point of `#x%x`. -/
def referenceValue : List UInt8 → Option Nat
  | 0x23 :: 0x78 :: digits => hexValue digits 0
  | _ => none

/-- Where the reader is: in text, or behind the characters of an open tag or reference. -/
inductive ReadState
  | text
  | tag (before : List UInt8)
  | reference (before : List UInt8)
deriving DecidableEq, Repr

/-- The characters of the body, each with its code point, and whether it is in a span. -/
def read : ReadState → Bool → List UInt8 → Option (List (Bool × Nat))
  | .text, inSpan, [] => if inSpan then none else some []
  | .text, inSpan, c :: rest =>
    if c = 0x3C then read (.tag [c]) inSpan rest
    else if c = 0x26 then read (.reference []) inSpan rest
    else if c = 0x3E then none
    else (read .text inSpan rest).map ((inSpan, c.toNat) :: ·)
  | .tag _, _, [] => none
  | .tag before, inSpan, c :: rest =>
    if c = 0x3E then
      if before ++ [c] = invOn ∧ inSpan = false then read .text true rest
      else if before ++ [c] = invOff ∧ inSpan = true then read .text false rest
      else none
    else read (.tag (before ++ [c])) inSpan rest
  | .reference _, _, [] => none
  | .reference before, inSpan, c :: rest =>
    if c = 0x3B then
      (referenceValue before).bind fun n => (read .text inSpan rest).map ((inSpan, n) :: ·)
    else read (.reference (before ++ [c])) inSpan rest

/-- A character of the computer or the end of a line. -/
inductive Item
  | char (c : UInt8)
  | lineEnd
deriving DecidableEq, Repr

/-- The character without the inverse bit that is shown as a code point. -/
def plainOf (n : Nat) : Nat :=
  if n ∈ AtasciiToStandardUnicode then AtasciiToStandardUnicode.idxOf n else n

/-- The character that a code point in or outside a span stands for. -/
def charOf (paper : Paper) : Bool × Nat → UInt8
  | (inSpan, n) =>
    if paper = .htmlAtascii then UInt8.ofNat (if 0xE000 ≤ n then n - 0xE000 else n)
    else UInt8.ofNat (if inSpan then 128 + plainOf n else plainOf n)

/-- `CR` and `LF` end a line. -/
def items (paper : Paper) : List (Bool × Nat) → List Item
  | (false, 13) :: (false, 10) :: rest => .lineEnd :: items paper rest
  | x :: rest => .char (charOf paper x) :: items paper rest
  | [] => []

/-- The escapes and spans undone. -/
def undo (paper : Paper) (body : List UInt8) : Option (List Item) :=
  (read .text false body).map (items paper)

/-- The characters of a record up to the byte that ends its line. -/
def recordItems : List UInt8 → List Item
  | [] => []
  | c :: rest => if c = ATASCII_EOL then [.lineEnd] else .char c :: recordItems rest

/-! ## One character -/

theorem hexDigit_digitChar {d : Nat} (h : d < 16) :
    hexDigit (UInt8.ofNat (Nat.digitChar d).toNat) = some d := by
  revert d
  decide

theorem hexValue_append (s t : List UInt8) (n : Nat) :
    hexValue (s ++ t) n = (hexValue s n).bind fun m => hexValue t m := by
  induction s generalizing n with
  | nil => rfl
  | cons c s ih =>
    rw [List.cons_append, hexValue, hexValue, Option.bind_assoc]
    exact congrArg _ (funext fun d => ih _)

theorem hexValue_hex (n : Nat) : hexValue (hex n) 0 = some n := by
  induction n using Nat.strongRecOn with
  | _ n ih =>
    rw [hex, Nat.toDigits_eq_if (by decide)]
    split
    · next small => simp [hexValue, hexDigit_digitChar small]
    · next large =>
      rw [List.map_append, hexValue_append, ← hex, ih (n / 16) (Nat.div_lt_self (by omega) (by omega))]
      simp [hexValue, hexDigit_digitChar (Nat.mod_lt n (by decide)), Nat.div_add_mod]

theorem mem_of_hexValue {s : List UInt8} {n m : Nat} (h : hexValue s n = some m) :
    0x3B ∉ s := by
  induction s generalizing n with
  | nil => exact List.not_mem_nil
  | cons c s ih =>
    obtain ⟨d, digit, rest⟩ := Option.bind_eq_some_iff.mp h
    rintro (_ | ⟨_, mem⟩)
    · exact nomatch digit
    · exact ih rest mem

/-- Up to the semicolon, the characters of a reference are collected. -/
theorem read_reference (before digits rest : List UInt8) (inSpan : Bool) (free : 0x3B ∉ digits) :
    read (.reference before) inSpan (digits ++ 0x3B :: rest) =
      read (.reference (before ++ digits)) inSpan (0x3B :: rest) := by
  induction digits generalizing before with
  | nil => rw [List.append_nil, List.nil_append]
  | cons c digits ih =>
    obtain ⟨here, later⟩ := not_or.mp (List.mem_cons.not.mp free)
    rw [List.cons_append, read, if_neg (Ne.symm here), ih _ later, List.append_assoc]
    rfl

theorem read_escape (n : Nat) (rest : List UInt8) (inSpan : Bool) :
    read .text inSpan (escape n ++ rest) = (read .text inSpan rest).map ((inSpan, n) :: ·) := by
  have digits : 0x3B ∉ (0x23 :: 0x78 :: hex n : List UInt8) := by
    simpa using mem_of_hexValue (hexValue_hex n)
  have text : escape n ++ rest = 0x26 :: ((0x23 :: 0x78 :: hex n) ++ 0x3B :: rest) := by
    simp [escape, ascii]
  rw [text, read, if_neg (by decide), if_pos rfl, read_reference [] _ _ _ digits, read, if_pos rfl]
  exact congrArg (Option.bind · fun n => (read .text inSpan rest).map ((inSpan, n) :: ·))
    (hexValue_hex n)

/-- The code point that a character without the inverse bit is written as. -/
def unicode (c : Nat) : Nat :=
  if AtasciiToStandardUnicode.getD c 0 ≠ 0 then AtasciiToStandardUnicode.getD c 0 else c

theorem read_plainText (c : UInt8) (rest : List UInt8) (inSpan : Bool) :
    read .text inSpan (plainText c ++ rest) =
      (read .text inSpan rest).map ((inSpan, unicode c.toNat) :: ·) := by
  rw [plainText, unicode]
  split
  · exact read_escape _ _ _
  · next plain =>
    -- The characters of markup are in the table.
    have other {d : UInt8} (special : AtasciiToStandardUnicode.getD d.toNat 0 ≠ 0) : c ≠ d :=
      fun same => plain (same ▸ special)
    rw [List.singleton_append, read, if_neg (other (by decide)), if_neg (other (by decide)),
      if_neg (other (by decide))]

/-- What a character looks like: the code point, and whether it is inverse. -/
def shown (paper : Paper) (c : UInt8) : Bool × Nat :=
  if paper = .htmlAtascii then
    (false, if 32 ≤ c ∧ c ≤ 122 ∧ c ≠ 96 then unicode c.toNat else 0xE000 + c.toNat)
  else if 128 ≤ c then (true, unicode (c - 128).toNat) else (false, unicode c.toNat)

theorem read_putChar (paper : Paper) (c : UInt8) {inverse : Bool} (rest : List UInt8)
    (font : paper = .htmlAtascii → inverse = false) :
    read .text inverse ((putChar paper c inverse).1 ++ rest) =
      (read .text (putChar paper c inverse).2 rest).map (shown paper c :: ·) := by
  rw [putChar, shown]
  split
  · next atascii =>
    obtain rfl := font atascii
    split
    · exact read_plainText c rest false
    · exact read_escape _ rest false
  · split
    · cases inverse with
      | false => exact read_plainText (c - 128) rest true
      | true => exact read_plainText (c - 128) rest true
    · cases inverse with
      | false => exact read_plainText c rest false
      | true => exact read_plainText c rest false

/-- The characters of the Atari font are never in a span. -/
theorem putChar_font {paper : Paper} {c : UInt8} {inverse : Bool}
    (font : paper = .htmlAtascii → inverse = false) :
    paper = .htmlAtascii → (putChar paper c inverse).2 = false := by
  intro atascii
  rw [putChar, if_pos atascii]
  split
  · exact font atascii
  · exact font atascii

/-! ## One record -/

/-- What a record looks like. -/
def shownRecord (paper : Paper) : List UInt8 → List (Bool × Nat)
  | [] => []
  | c :: rest => if c = ATASCII_EOL then [(false, 13), (false, 10)] else shown paper c :: shownRecord paper rest

theorem read_putRecord (paper : Paper) (bytes rest : List UInt8) {inverse : Bool}
    (font : paper = .htmlAtascii → inverse = false) :
    read .text inverse ((putRecord paper bytes inverse).1 ++ rest) =
      (read .text (putRecord paper bytes inverse).2 rest).map (shownRecord paper bytes ++ ·) := by
  induction bytes generalizing inverse with
  | nil => simp [putRecord, shownRecord]
  | cons c bytes ih =>
    rw [putRecord, shownRecord]
    split
    · have closed : read .text inverse ((if inverse then invOff else []) ++ ASCII_CRLF ++ rest) =
          read .text false (ASCII_CRLF ++ rest) := by
        cases inverse with
        | false => rfl
        | true => rfl
      rw [closed]
      change ((read .text false rest).map _).map _ = _
      rw [Option.map_map]
      rfl
    · dsimp only
      rw [List.append_assoc, read_putChar paper c _ font, ih (putChar_font font), Option.map_map]
      rfl

/-- The reader is in a span behind the record if the last byte that was handled is inverse. -/
theorem putRecord_inverse (paper : Paper) (bytes : List UInt8) {inverse : Bool}
    (font : paper = .htmlAtascii → inverse = false) :
    (putRecord paper bytes inverse).2 = (trimmedRecord bytes).foldl
      (fun _ c => decide (paper ≠ .htmlAtascii ∧ 128 ≤ c ∧ c ≠ ATASCII_EOL)) inverse := by
  induction bytes generalizing inverse with
  | nil => rfl
  | cons c bytes ih =>
    rw [putRecord, trimmedRecord]
    split
    · next eol => simp [eol]
    · next char =>
      dsimp only
      rw [ih (putChar_font font), List.foldl_cons]
      congr 1
      rw [putChar]
      by_cases atascii : paper = .htmlAtascii
      · rw [if_pos atascii, font atascii]
        split
        · simp [atascii]
        · simp [atascii]
      · by_cases inv : 128 ≤ c
        · simp [atascii, inv, char]
        · simp [atascii, inv]

/-! ## What was shown, read back -/

theorem plainOf_unicode {c : Nat} (h : c < 128) : plainOf (unicode c) = c := by
  revert c
  decide +kernel

/-- The characters that the Atari font shares with ASCII. -/
theorem unicode_of_printable {c : Nat} (h : c < 123) (low : 32 ≤ c) (other : c ≠ 96) :
    unicode c = c := by
  revert c
  decide

theorem charOf_shown (paper : Paper) (c : UInt8) : charOf paper (shown paper c) = c := by
  have bound := c.toNat_lt
  rw [shown]
  split
  · next atascii =>
    rw [charOf, if_pos atascii]
    split
    · next printable =>
      obtain ⟨low, high, other⟩ := printable
      have low := UInt8.le_iff_toNat_le.mp low
      have high := UInt8.le_iff_toNat_le.mp high
      have other : c.toNat ≠ 96 := fun same => other (UInt8.toNat_inj.mp same)
      rw [unicode_of_printable (Nat.lt_succ_of_le high) low other, if_neg (by omega),
        UInt8.ofNat_toNat]
    · rw [if_pos (by omega), Nat.add_sub_cancel_left, UInt8.ofNat_toNat]
  · next font =>
    split
    · next inverse =>
      have inverse : 128 ≤ c.toNat := UInt8.le_iff_toNat_le.mp inverse
      have plain : (c - 128).toNat = c.toNat - 128 := UInt8.toNat_sub_of_le _ _ inverse
      rw [charOf, if_neg font, if_pos rfl, plain, plainOf_unicode (by omega),
        Nat.add_sub_cancel' inverse, UInt8.ofNat_toNat]
    · next plain =>
      have plain := (not_congr UInt8.le_iff_toNat_le).mp plain
      rw [charOf, if_neg font, if_neg (by decide), plainOf_unicode (Nat.lt_of_not_le plain),
        UInt8.ofNat_toNat]

/-- No character looks like a carriage return. -/
theorem shown_ne (paper : Paper) (c : UInt8) : shown paper c ≠ (false, 13) := by
  have other : ∀ n < 128, unicode n ≠ 13 := by decide
  have bound := c.toNat_lt
  rw [shown]
  split
  · split
    · next printable =>
      have high : c.toNat ≤ 122 := UInt8.le_iff_toNat_le.mp printable.2.1
      exact fun same => other _ (by omega) (Prod.mk.inj same).2
    · exact fun same => absurd (Prod.mk.inj same).2 (by omega)
  · split
    · exact fun same => nomatch (Prod.mk.inj same).1
    · next plain =>
      have plain : ¬ 128 ≤ c.toNat := (not_congr UInt8.le_iff_toNat_le).mp plain
      exact fun same => other _ (by omega) (Prod.mk.inj same).2

theorem items_shownRecord (paper : Paper) (bytes : List UInt8) (rest : List (Bool × Nat)) :
    items paper (shownRecord paper bytes ++ rest) = recordItems bytes ++ items paper rest := by
  induction bytes with
  | nil => rfl
  | cons c bytes ih =>
    rw [shownRecord, recordItems]
    split
    · rfl
    · rw [List.cons_append, items, charOf_shown, ih, List.cons_append]
      exact fun _ same => absurd same (shown_ne paper c)

theorem items_flatMap (paper : Paper) (records : List Record) :
    items paper (records.flatMap fun r => shownRecord paper r.bytes) =
      records.flatMap fun r => recordItems r.bytes := by
  induction records with
  | nil => rfl
  | cons r records ih => rw [List.flatMap_cons, List.flatMap_cons, items_shownRecord, ih]

/-! ## The document -/

section Document

variable (atariFont : List UInt8) (paper : Paper) (records : List Record)

/-- The bytes that the printer handles, and after them, whether it is in a span. -/
def stillOpen : Bool :=
  (records.flatMap fun r => trimmedRecord r.bytes).foldl
    (fun _ c => decide (paper ≠ .htmlAtascii ∧ 128 ≤ c ∧ c ≠ ATASCII_EOL)) false

theorem stillOpen_font : paper = .htmlAtascii → stillOpen paper records = false := by
  intro atascii
  rw [stillOpen]
  induction records.flatMap fun r => trimmedRecord r.bytes with
  | nil => rfl
  | cons c l ih =>
    rw [List.foldl_cons]
    simpa [atascii] using ih

theorem stillOpen_eq_false_iff : stillOpen paper records = false ↔ paper = .htmlAtascii ∨
    ∀ c ∈ (records.flatMap fun r => trimmedRecord r.bytes).getLast?, c < 128 ∨ c = ATASCII_EOL := by
  rw [stillOpen]
  rcases (records.flatMap fun r => trimmedRecord r.bytes).eq_nil_or_concat with
    none | ⟨init, last, some⟩
  · simp [none]
  · rw [some, List.concat_eq_append, List.foldl_concat, List.getLast?_concat, decide_eq_false_iff_not]
    simp only [Option.mem_some_iff, forall_eq']
    rw [not_and_or, not_not, not_and_or, not_not, UInt8.not_le]

/-- The body behind the records of a job. -/
theorem printed_spec : ∃ body,
    (emulator atariFont).printed { paperType := paper } records =
      ⟨⟨paper, stillOpen paper records⟩, head atariFont paper ++ body⟩ ∧
    ∀ rest, read .text false (body ++ rest) = (read .text (stillOpen paper records) rest).map
      ((records.flatMap fun r => shownRecord paper r.bytes) ++ ·) := by
  induction records using List.reverseRecOn with
  | nil => exact ⟨[], by simp [Emulator.printed, emulator, Sheet.put, stillOpen], by simp [stillOpen]⟩
  | append_singleton records r ih =>
    obtain ⟨body, printed, reads⟩ := ih
    have font := stillOpen_font paper records
    have last : stillOpen paper (records ++ [r]) =
        (putRecord paper r.bytes (stillOpen paper records)).2 := by
      rw [putRecord_inverse paper r.bytes font, stillOpen, List.flatMap_append, List.foldl_append]
      simp [stillOpen]
    refine ⟨body ++ (putRecord paper r.bytes (stillOpen paper records)).1, ?_, fun rest => ?_⟩
    · rw [Emulator.printed_concat, printed, last]
      simp [emulator, Sheet.put]
    · rw [List.append_assoc, reads, read_putRecord paper r.bytes rest font, last, Option.map_map]
      simp [Function.comp_def]

/-- The file of a job. -/
def document : List UInt8 :=
  ((emulator atariFont).finished { paperType := paper } records).content

/-- The document is well formed, and its body undone gives the characters of each record up to its
end of line. -/
def Faithful : Prop :=
  ∃ body, document atariFont paper records = head atariFont paper ++ body ++ foot ∧
    undo paper body = some (records.flatMap fun r => recordItems r.bytes)

/-- A document is faithful if and only if the last byte that is printed is not inverse, or the paper
is for the Atari font. -/
theorem faithful_iff : Faithful atariFont paper records ↔ paper = .htmlAtascii ∨
    ∀ c ∈ (records.flatMap fun r => trimmedRecord r.bytes).getLast?, c < 128 ∨ c = ATASCII_EOL := by
  obtain ⟨body, printed, reads⟩ := printed_spec atariFont paper records
  have whole : document atariFont paper records = head atariFont paper ++ body ++ foot := by
    rw [document, Emulator.finished, printed]
    rfl
  have undone : undo paper body = if stillOpen paper records then none
      else some (records.flatMap fun r => recordItems r.bytes) := by
    have atEnd := reads []
    rw [List.append_nil] at atEnd
    rw [undo, atEnd, read]
    split
    · rfl
    · rw [Option.map_some, Option.map_some, List.append_nil, items_flatMap]
  rw [← stillOpen_eq_false_iff]
  constructor
  · rintro ⟨body', same, faithful⟩
    obtain rfl : body = body' :=
      List.append_cancel_left (List.append_cancel_right (whole.symm.trans same))
    by_contra isOpen
    rw [undone, if_pos ((Bool.not_eq_false _).mp isOpen)] at faithful
    exact nomatch faithful
  · intro closed
    refine ⟨body, whole, ?_⟩
    rw [undone, closed]
    rfl

end Document

/-- An inverse `A` at the end of the last record: the document ends in its span. -/
theorem span_left_open : ¬ Faithful [] .html [{ bytes := [0xC1] }] := by
  rintro ⟨body, same, undone⟩
  have text : body = invOn ++ [0x41] := by
    have whole : head [] .html ++ (invOn ++ [0x41]) ++ foot = head [] .html ++ body ++ foot := by
      rw [← same]
      rfl
    exact (List.append_cancel_left (List.append_cancel_right whole)).symm
  rw [text] at undone
  exact nomatch undone

end HtmlPrinter

end FujiNet.PrinterEmulator
