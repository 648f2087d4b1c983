import FujiNet.Control.Loop
import FujiNet.NetworkProtocol.EndOfFile
import Mathlib.Data.List.TakeWhile

/-!
# Reading a JSON document

`FNJSON::parse` reads a channel by its own loop of status calls and reads, for as long as the
channel is connected. The status that finds nothing left to fetch says that it is not, so what an
earlier status call has fetched last is not read.
-/

namespace FujiNet.FNJSON

open NetworkProtocol NetworkProtocolFS

/-- One pass of the loop in `parse`, with the status of the channel and `_parseBuffer`. -/
def parsePass (state : NetworkStatus × List UInt8 × NetworkProtocolFS) :
    Option ((NetworkStatus × List UInt8 × NetworkProtocolFS) ⊕ List UInt8 × NetworkProtocolFS) :=
  match state with
  | (ns, parseBuffer, fs) =>
    if ns.connected = 0 then some (.inr (parseBuffer, fs))
    else if ns.rxBytesWaiting > 0 then
      let fs := (fs.read ns.rxBytesWaiting).2
      let parseBuffer := parseBuffer ++ fs.receiveBuffer
      let (ns, fs) := { fs with receiveBuffer := [] }.status
      some (.inl (ns, parseBuffer, fs))
    else
      let (ns, fs) := fs.status
      some (.inl (ns, parseBuffer, fs))

/-- `parse` up to the call of the parser. -/
def readDocument (fuel : Nat) (fs : NetworkProtocolFS) : Option (List UInt8 × NetworkProtocolFS) :=
  let (ns, fs) := fs.status
  Loop.run parsePass fuel (ns, [], fs)

/-- What `cJSON_Parse` is handed: `_parseBuffer` as a C string. -/
def handed (parseBuffer : List UInt8) : List UInt8 := parseBuffer.takeWhile (· ≠ 0)

/-- The loop ends and the parser is handed the whole document as the channel translates it: each
byte passes the translation when a status call fetches it, and once more when it is read. -/
def SeesWhole (content : List UInt8) (fs : NetworkProtocolFS) : Prop :=
  ∃ fuel parseBuffer fs', readDocument fuel fs = some (parseBuffer, fs') ∧
    handed parseBuffer = fs.translate (fs.translate content)

/-! ## One pass of the loop -/

/-- A channel for reading a file. -/
structure Reading (fs : NetworkProtocolFS) : Prop where
  openMode : fs.openMode = .file
  reads : fs.aux1Open ≠ 8
  size : fs.fileSize = fs.unread.length
  small : fs.receiveBuffer.length < 65536

section Loop

variable {fs : NetworkProtocolFS}

/-- What a status call has left in the buffer is read. -/
theorem pass_left (h : Reading fs) (left : fs.receiveBuffer ≠ []) (more : fs.unread ≠ [])
    (parseBuffer : List UInt8) :
    ∃ fs', Reading fs' ∧ fs'.receiveBuffer = [] ∧ fs'.translate = fs.translate ∧
      fs'.unread = fs.unread ∧ parsePass (fs.status.1, parseBuffer, fs.status.2) =
        some (.inl (fs'.status.1, parseBuffer ++ fs.translate fs.receiveBuffer, fs'.status.2)) := by
  have connected : fs.waiting.connected ≠ 0 := by
    rw [connected_file h.openMode h.size, if_neg more]
    decide
  have waiting : fs.receiveBuffer.length % 65536 > 0 := by
    rw [Nat.mod_eq_of_lt h.small]
    exact List.length_pos_of_ne_nil left
  have again := read_file_again h.openMode left (fs.receiveBuffer.length % 65536)
  refine ⟨{ fs with receiveBuffer := [], error := NETWORK_ERROR_SUCCESS },
    ⟨h.openMode, h.reads, h.size, by simp⟩, rfl, rfl, rfl, ?_⟩
  rw [status_again left, parsePass]
  simp only [if_neg connected, if_pos waiting, again]

/-- Into the empty buffer a status call fetches what is read then. -/
theorem pass_fetched (h : Reading fs) (empty : fs.receiveBuffer = []) (more : fs.unread ≠ [])
    (parseBuffer : List UInt8) :
    ∃ chunk fs', Reading fs' ∧ fs'.receiveBuffer = [] ∧ fs'.translate = fs.translate ∧
      chunk ≠ [] ∧ fs.unread = chunk ++ fs'.unread ∧
      parsePass (fs.status.1, parseBuffer, fs.status.2) = some (.inl (fs'.status.1,
        parseBuffer ++ fs.translate (fs.translate chunk), fs'.status.2)) := by
  obtain ⟨few, small, -⟩ := waiting_file h.openMode h.size
  have pos := waiting_pos h.openMode h.size h.reads more
  have connected : fs.waiting.connected ≠ 0 := by
    rw [connected_file h.openMode h.size, if_neg more]
    decide
  obtain ⟨error, fetched⟩ := status_fetched h.openMode h.size empty
  generalize fs.waiting.rxBytesWaiting = w at few small pos fetched
  have rest := unread_fetched h.openMode w [] (fs.fileSize - w)
  have size : fs.fileSize - w = (fs.unread.drop w).length := by
    rw [h.size, List.length_drop]
    omega
  have length : (fs.translate (fs.unread.take w)).length < 65536 := by
    refine Nat.lt_of_le_of_lt (length_translateReceiveBuffer_le _ _ _) ?_
    rw [List.length_take]
    omega
  have chunk : fs.unread.take w ≠ [] := by
    intro none
    have lengths := congrArg List.length none
    rw [List.length_take, List.length_nil] at lengths
    omega
  rw [fetched, parsePass, Nat.mod_eq_of_lt length]
  by_cases got : fs.translate (fs.unread.take w) = []
  · refine ⟨fs.unread.take w, { fs with
      receiveBuffer := [], offset := fs.offset + w, fileSize := fs.fileSize - w, error },
      ⟨h.openMode, h.reads, (rest error).symm ▸ size, by simp⟩, rfl, rfl, chunk, ?_, ?_⟩
    · rw [rest, List.take_append_drop]
    · simp only [if_neg connected, got, List.length_nil, gt_iff_lt, Nat.lt_irrefl, if_false,
        NetworkProtocolFS.translate, translateReceiveBuffer_nil, List.append_nil]
  · have again := @read_file_again { fs with
      receiveBuffer := fs.translate (fs.unread.take w)
      offset := fs.offset + w, fileSize := fs.fileSize - w, error } h.openMode got
      (fs.translate (fs.unread.take w)).length
    refine ⟨fs.unread.take w, { fs with
      receiveBuffer := [], offset := fs.offset + w, fileSize := fs.fileSize - w
      error := NETWORK_ERROR_SUCCESS },
      ⟨h.openMode, h.reads, (rest _).symm ▸ size, by simp⟩, rfl, rfl, chunk, ?_, ?_⟩
    · rw [rest, List.take_append_drop]
    · simp only [if_neg connected, if_pos (List.length_pos_of_ne_nil got), again]

/-- The loop ends once there is nothing left to fetch. -/
theorem pass_ended (openMode : fs.openMode = .file) (size : fs.fileSize = fs.unread.length)
    (ended : fs.unread = []) (parseBuffer : List UInt8) :
    parsePass (fs.status.1, parseBuffer, fs.status.2) = some (.inr (parseBuffer, fs.status.2)) := by
  have connected : fs.status.1.connected = 0 := by
    refine (connected_file openMode size).trans ?_
    rw [if_pos ended]
  rw [parsePass, if_pos connected]

/-- From the empty buffer on, everything that is left is read. The induction is on its length. -/
theorem run_fetched {n : Nat} (h : Reading fs) (empty : fs.receiveBuffer = [])
    (few : fs.unread.length ≤ n) (parseBuffer : List UInt8) :
    ∃ fs', Loop.run parsePass (n + 1) (fs.status.1, parseBuffer, fs.status.2) =
      some (parseBuffer ++ fs.translate (fs.translate fs.unread), fs') := by
  induction n generalizing fs parseBuffer with
  | zero =>
    have ended : fs.unread = [] := List.eq_nil_of_length_eq_zero (by omega)
    refine ⟨fs.status.2, ?_⟩
    rw [Loop.run_succ_inr (pass_ended h.openMode h.size ended parseBuffer), ended]
    simp [NetworkProtocolFS.translate]
  | succ n ih =>
    by_cases ended : fs.unread = []
    · refine ⟨fs.status.2, ?_⟩
      rw [Loop.run_succ_inr (pass_ended h.openMode h.size ended parseBuffer), ended]
      simp [NetworkProtocolFS.translate]
    obtain ⟨chunk, next, reading, cleared, same, some, split, pass⟩ :=
      pass_fetched h empty ended parseBuffer
    have fewer : next.unread.length ≤ n := by
      rw [split, List.length_append] at few
      have pos := List.length_pos_of_ne_nil some
      omega
    obtain ⟨fs', run⟩ := ih reading cleared fewer (parseBuffer ++ fs.translate (fs.translate chunk))
    refine ⟨fs', ?_⟩
    rw [Loop.run_succ_inl pass, run, same, split]
    simp only [NetworkProtocolFS.translate, translateReceiveBuffer_append, List.append_assoc]

/-- The whole document, unless its end was fetched before. -/
theorem readDocument_eq (h : Reading fs) (ready : fs.unread = [] → fs.receiveBuffer = []) :
    ∃ fuel fs', readDocument fuel fs =
      some (fs.translate (fs.receiveBuffer ++ fs.translate fs.unread), fs') := by
  by_cases empty : fs.receiveBuffer = []
  · obtain ⟨fs', run⟩ := run_fetched h empty (Nat.le_refl _) []
    refine ⟨fs.unread.length + 1, fs', run.trans ?_⟩
    rw [empty]
    rfl
  · have more : fs.unread ≠ [] := fun none => empty (ready none)
    obtain ⟨next, reading, cleared, same, rest, pass⟩ := pass_left h empty more []
    obtain ⟨fs', run⟩ := run_fetched reading cleared (Nat.le_refl _)
      ([] ++ fs.translate fs.receiveBuffer)
    refine ⟨next.unread.length + 1 + 1, fs', (Loop.run_succ_inl pass).trans (run.trans ?_)⟩
    rw [same, rest]
    simp only [NetworkProtocolFS.translate, translateReceiveBuffer_append, List.nil_append]

/-- Nothing is read once the end was fetched. -/
theorem readDocument_ended (openMode : fs.openMode = .file) (size : fs.fileSize = fs.unread.length)
    (ended : fs.unread = []) : readDocument 1 fs = some ([], fs.status.2) :=
  Loop.run_succ_inr (pass_ended openMode size ended [])

/-- On a channel for writing the loop waits for what never comes. -/
theorem run_writing (openMode : fs.openMode = .file) (size : fs.fileSize = fs.unread.length)
    (writes : fs.aux1Open = 8) (empty : fs.receiveBuffer = []) (more : fs.unread ≠ [])
    (fuel : Nat) (parseBuffer : List UInt8) :
    Loop.run parsePass fuel (fs.status.1, parseBuffer, fs.status.2) = none := by
  have none : fs.waiting.rxBytesWaiting = 0 := by
    simp only [waiting, openMode, writes, if_true]
  have still : fs.status = ({ fs.waiting with rxBytesWaiting := 0 }, fs) := by
    rw [status, baseStatus, if_neg fun reads => absurd reads.2 (by simp [none])]
    simp [empty]
  have connected : fs.waiting.connected ≠ 0 := by
    rw [connected_file openMode size, if_neg more]
    decide
  have pass : parsePass (fs.status.1, parseBuffer, fs.status.2) =
      some (.inl (fs.status.1, parseBuffer, fs.status.2)) := by
    rw [still, parsePass]
    simp only [if_neg connected, gt_iff_lt, Nat.lt_irrefl, if_false, still]
  induction fuel with
  | zero => rfl
  | succ fuel ih => rw [Loop.run_succ_inl pass, ih]

end Loop

/-! ## After some status calls -/

/-- A channel on a document of which nothing was read. -/
structure Untouched (content : List UInt8) (fs : NetworkProtocolFS) : Prop where
  openMode : fs.openMode = .file
  size : fs.fileSize = fs.unread.length
  whole : fs.receiveBuffer ++ fs.translate fs.unread = fs.translate content
  rest : fs.unread <:+ content
  small : fs.receiveBuffer.length < 65536
  written : fs.aux1Open = 8 → fs.receiveBuffer = [] ∧ fs.unread = content

/-- Status calls on a channel that was just opened on a document. -/
def polled (fs : NetworkProtocolFS) (k : Nat) : NetworkProtocolFS := (fun fs => fs.status.2)^[k] fs

theorem untouched_status {content : List UInt8} {fs : NetworkProtocolFS} (h : Untouched content fs) :
    Untouched content fs.status.2 := by
  by_cases empty : fs.receiveBuffer = []
  · obtain ⟨few, small, -⟩ := waiting_file h.openMode h.size
    have writing : fs.aux1Open = 8 → fs.waiting.rxBytesWaiting = 0 := by
      intro writes
      simp only [waiting, h.openMode, writes, if_true]
    obtain ⟨error, fetched⟩ := status_fetched h.openMode h.size empty
    rw [fetched]
    generalize fs.waiting.rxBytesWaiting = w at few small writing
    have rest := unread_fetched h.openMode w (fs.translate (fs.unread.take w)) (fs.fileSize - w) error
    refine ⟨h.openMode, ?_, ?_, ?_, ?_, ?_⟩
    · rw [rest, List.length_drop, h.size]
      dsimp only
      omega
    · rw [rest, ← h.whole, empty, List.nil_append]
      exact (translateReceiveBuffer_append _ _ _ _).symm.trans (by rw [List.take_append_drop])
    · rw [rest]
      exact (List.drop_suffix _ _).trans h.rest
    · refine Nat.lt_of_le_of_lt (length_translateReceiveBuffer_le _ _ _) ?_
      rw [List.length_take]
      omega
    · intro writes
      rw [rest, writing writes]
      exact ⟨by simp [NetworkProtocolFS.translate], (h.written writes).2⟩
  · rw [status_again empty]
    exact h

theorem untouched_polled {content : List UInt8} {fs : NetworkProtocolFS} (h : Untouched content fs)
    (k : Nat) : Untouched content (polled fs k) := by
  induction k generalizing fs with
  | zero => exact h
  | succ k ih => exact ih (untouched_status h)

/-! ## What the parser sees -/

theorem controlByte_eq_zero (build : Build) (c : UInt8) : controlByte build c = 0 ↔ c = 0 := by
  simp only [controlByte]
  grind

theorem ascii2petscii_eq_zero (c : UInt8) : ascii2petscii c = 0 ↔ c = 0 := by
  by_cases letter : Letter c
  · have nonzero : ∀ {b : UInt8}, Letter b → b ≠ 0 := by
      rintro _ letter rfl
      exact absurd letter (by decide)
    exact iff_of_false (nonzero (ascii2petscii_of_letter letter).1) (nonzero letter)
  · rw [ascii2petscii_of_not_letter letter]

theorem lineByte_eq_zero (build : Build) (mode c : UInt8) : lineByte build mode c = 0 ↔ c = 0 := by
  have line : build.EOL ≠ 0 := by
    rw [Build.EOL]
    split_ifs <;> decide
  have replaced : ∀ old : UInt8, old ≠ 0 → ((if c = old then build.EOL else c) = 0 ↔ c = 0) := by
    intro old nonzero
    split_ifs with same
    · exact iff_of_false line (same ▸ nonzero)
    · exact Iff.rfl
  rw [lineByte]
  by_cases cr : mode = TRANSLATION_MODE_CR
  · rw [if_pos cr]
    exact replaced ASCII_CR (by decide)
  rw [if_neg cr]
  by_cases lf : mode = TRANSLATION_MODE_LF
  · rw [if_pos lf]
    exact replaced ASCII_LF (by decide)
  rw [if_neg lf]
  by_cases crlf : mode = TRANSLATION_MODE_CRLF
  · rw [if_pos crlf]
    by_cases apple : build = .apple
    · rw [if_pos apple]
    · rw [if_neg apple]
      exact replaced ASCII_CR (by decide)
  rw [if_neg crlf]
  by_cases petscii : mode = TRANSLATION_MODE_PETSCII
  · rw [if_pos petscii]
    exact ascii2petscii_eq_zero c
  · rw [if_neg petscii]

/-- Only a NUL is translated to a NUL, and none is lost. -/
theorem zero_mem_translate (fs : NetworkProtocolFS) (buffer : List UInt8) :
    0 ∈ fs.translate buffer ↔ 0 ∈ buffer := by
  have byte : ∀ c, lineByte fs.build fs.translationMode (controlByte fs.build c) = 0 ↔ c = 0 := by
    intro c
    rw [lineByte_eq_zero, controlByte_eq_zero]
  have mapped : 0 ∈ (buffer.map fun c => lineByte fs.build fs.translationMode (controlByte fs.build c))
      ↔ 0 ∈ buffer := by
    simp [byte]
  rw [NetworkProtocolFS.translate, translateReceiveBuffer_eq]
  split_ifs
  · exact Iff.rfl
  · rw [List.mem_filter]
    simpa using mapped
  · exact mapped

/-- What was translated to something is not erased the second time. -/
theorem translate_translate_eq_nil (fs : NetworkProtocolFS) (buffer : List UInt8) :
    fs.translate (fs.translate buffer) = [] ↔ fs.translate buffer = [] := by
  by_cases petscii : fs.translationMode = TRANSLATION_MODE_PETSCII
  · simp only [NetworkProtocolFS.translate, petscii, translateReceiveBuffer_petscii, List.map_eq_nil_iff]
  · rw [NetworkProtocolFS.translate, translateReceiveBuffer_idem fs.build petscii]

/-- A C string is whole if it has no NUL. -/
theorem handed_eq_self_iff (parseBuffer : List UInt8) :
    handed parseBuffer = parseBuffer ↔ 0 ∉ parseBuffer := by
  rw [handed, List.takeWhile_eq_self_iff]
  constructor
  · intro nonzero mem
    exact absurd rfl (of_decide_eq_true (nonzero 0 mem))
  · intro free c mem
    refine decide_eq_true ?_
    rintro rfl
    exact free mem

section Seen

variable {content : List UInt8} {fs : NetworkProtocolFS}

/-- An empty document is seen as the empty string. -/
theorem seesWhole_nil (h : Untouched [] fs) : SeesWhole [] fs := by
  have ended : fs.unread = [] := List.suffix_nil.mp h.rest
  refine ⟨1, [], _, readDocument_ended h.openMode h.size ended, ?_⟩
  simp [handed, NetworkProtocolFS.translate]

/-- A channel for writing announces nothing to read, and does not end. -/
theorem not_seesWhole_writing (h : Untouched content fs) (some : content ≠ [])
    (writes : fs.aux1Open = 8) : ¬ SeesWhole content fs := by
  rintro ⟨fuel, parseBuffer, fs', returned, -⟩
  obtain ⟨empty, all⟩ := h.written writes
  have forever := run_writing h.openMode h.size writes empty (all ▸ some) fuel []
  exact absurd (forever.symm.trans returned) (by simp)

/-- The document is in `_parseBuffer` whole, so it is seen up to the first NUL. -/
theorem seesWhole_ready (h : Untouched content fs) (reads : fs.aux1Open ≠ 8)
    (ready : fs.unread = [] → fs.receiveBuffer = []) : SeesWhole content fs ↔ 0 ∉ content := by
  obtain ⟨fuel, fs', returned⟩ := readDocument_eq ⟨h.openMode, reads, h.size, h.small⟩ ready
  rw [h.whole] at returned
  have free : handed (fs.translate (fs.translate content)) = fs.translate (fs.translate content) ↔
      0 ∉ content := by
    rw [handed_eq_self_iff, zero_mem_translate, zero_mem_translate]
  rw [← free]
  constructor
  · rintro ⟨fuel', parseBuffer, last, returned', whole⟩
    have same := congrArg Prod.fst (Loop.run_unique returned returned')
    rw [show fs.translate (fs.translate content) = parseBuffer from same] at whole ⊢
    exact whole
  · intro whole
    exact ⟨fuel, _, fs', returned, whole⟩

/-- The end of the document is left in the buffer. -/
theorem not_seesWhole_ended (h : Untouched content fs) (ended : fs.unread = [])
    (left : fs.receiveBuffer ≠ []) : ¬ SeesWhole content fs := by
  rintro ⟨fuel, parseBuffer, fs', returned, whole⟩
  have none : [] = parseBuffer :=
    congrArg Prod.fst (Loop.run_unique (readDocument_ended h.openMode h.size ended) returned)
  rw [← none] at whole
  have erased : fs.translate content = [] := (translate_translate_eq_nil fs content).mp whole.symm
  rw [← h.whole] at erased
  exact left (List.append_eq_nil_iff.mp erased).1

theorem seesWhole_iff (h : Untouched content fs) :
    SeesWhole content fs ↔ content = [] ∨
      fs.aux1Open ≠ 8 ∧ 0 ∉ content ∧ (fs.unread = [] → fs.receiveBuffer = []) := by
  by_cases none : content = []
  · subst none
    exact iff_of_true (seesWhole_nil h) (.inl rfl)
  rw [or_iff_right none]
  by_cases writes : fs.aux1Open = 8
  · exact iff_of_false (not_seesWhole_writing h none writes) fun ok => ok.1 writes
  by_cases ready : fs.unread = [] → fs.receiveBuffer = []
  · rw [seesWhole_ready h writes ready]
    exact ⟨fun free => ⟨writes, free, ready⟩, fun ok => ok.2.1⟩
  · have unready := Classical.not_imp.mp ready
    exact iff_of_false (not_seesWhole_ended h unready.1 unready.2) fun ok => ready ok.2.2

/-- The loop ends with the whole document in `_parseBuffer` or with nothing. -/
theorem readDocument_cases (h : Untouched content fs) {fuel : Nat} {parseBuffer : List UInt8}
    {fs' : NetworkProtocolFS} (returned : readDocument fuel fs = some (parseBuffer, fs')) :
    parseBuffer = [] ∨ parseBuffer = fs.translate (fs.translate content) := by
  by_cases ended : fs.unread = []
  · have same := Loop.run_unique (readDocument_ended h.openMode h.size ended) returned
    exact .inl (congrArg Prod.fst same).symm
  by_cases writes : fs.aux1Open = 8
  · obtain ⟨empty, -⟩ := h.written writes
    have forever := run_writing h.openMode h.size writes empty ended fuel []
    exact absurd (forever.symm.trans returned) (by simp)
  · obtain ⟨fuel', last, whole⟩ := readDocument_eq ⟨h.openMode, writes, h.size, h.small⟩
      fun none => absurd none ended
    rw [h.whole] at whole
    exact .inr (congrArg Prod.fst (Loop.run_unique whole returned)).symm

end Seen

theorem untouched_opened (build : Build) (mode aux1Open : UInt8) (content : List UInt8) :
    Untouched content (opened build mode .file aux1Open content.length content) where
  openMode := rfl
  size := by rw [unread_opened]; rfl
  whole := by rw [unread_opened]; rfl
  rest := by rw [unread_opened]
  small := Nat.zero_lt_succ _
  written := fun _ => ⟨rfl, unread_opened _ _ _ _ _ _⟩

/-- What reads and status calls leave as it was; the count they only lower. -/
structure Keeps (fs fs' : NetworkProtocolFS) : Prop where
  aux1Open : fs'.aux1Open = fs.aux1Open
  openMode : fs'.openMode = fs.openMode
  translate : fs'.translate = fs.translate
  fileSize : fs'.fileSize ≤ fs.fileSize

theorem keeps_read (fs : NetworkProtocolFS) (len : Nat) : Keeps fs (fs.read len).2 := by
  simp only [NetworkProtocolFS.read, readFile, readDir, baseRead]
  repeat' split
  all_goals exact ⟨rfl, rfl, rfl, by simp⟩

theorem keeps_status (fs : NetworkProtocolFS) : Keeps fs fs.status.2 := by
  rcases status_cases fs with same | ⟨-, same⟩
  · rw [same]
    exact ⟨rfl, rfl, rfl, Int.le_refl _⟩
  · rw [same]
    exact keeps_read fs _

theorem keeps_polled (fs : NetworkProtocolFS) (k : Nat) : Keeps fs (polled fs k) := by
  induction k generalizing fs with
  | zero => exact ⟨rfl, rfl, rfl, Int.le_refl _⟩
  | succ k ih =>
      have first := keeps_status fs
      have rest := ih fs.status.2
      exact ⟨rest.aux1Open.trans first.aux1Open, rest.openMode.trans first.openMode,
        rest.translate.trans first.translate, rest.fileSize.trans first.fileSize⟩

/-! ## Documents that an `int` does not count -/

/-- The channel on a longer file, of which `fileSize` counts the front only. -/
def beyond (tail : List UInt8) (fs : NetworkProtocolFS) : NetworkProtocolFS :=
  { fs with content := fs.content ++ tail }

section Beyond

variable {fs : NetworkProtocolFS} (tail : List UInt8)

/-- What is counted is read as if there were nothing behind it. -/
theorem read_beyond (openMode : fs.openMode = .file) {len : Nat} (enough : len ≤ fs.unread.length) :
    (beyond tail fs).read len = ((fs.read len).1, beyond tail (fs.read len).2) := by
  have front : slice (fs.content ++ tail) fs.offset len = slice fs.content fs.offset len := by
    rw [unread_file fs openMode] at enough
    rw [slice, slice, List.drop_append, List.take_append_of_le_length enough]
  by_cases empty : fs.receiveBuffer.length = 0
  · by_cases whole : (slice fs.content fs.offset len).length = len
    · simp only [beyond, NetworkProtocolFS.read, openMode, readFile, readFileHandle, front,
        if_pos empty, if_pos whole, baseRead]
    · simp only [beyond, NetworkProtocolFS.read, openMode, readFile, readFileHandle, front,
        if_pos empty, if_neg whole]
  · simp only [beyond, NetworkProtocolFS.read, openMode, readFile, if_neg empty, baseRead]

theorem status_beyond (openMode : fs.openMode = .file) (size : fs.fileSize = fs.unread.length) :
    (beyond tail fs).status = (fs.status.1, beyond tail fs.status.2) := by
  have same : (beyond tail fs).waiting = fs.waiting := rfl
  have read := read_beyond tail openMode (waiting_file openMode size).1
  simp only [NetworkProtocolFS.status, baseStatus, same, read]
  have buffer : (beyond tail fs).receiveBuffer = fs.receiveBuffer := rfl
  rw [buffer]
  split_ifs <;> rfl

/-- A status call keeps the count. -/
theorem counted_status (openMode : fs.openMode = .file) (size : fs.fileSize = fs.unread.length) :
    fs.status.2.openMode = .file ∧ fs.status.2.fileSize = fs.status.2.unread.length := by
  by_cases empty : fs.receiveBuffer = []
  · obtain ⟨few, -⟩ := waiting_file openMode size
    obtain ⟨error, fetched⟩ := status_fetched openMode size empty
    rw [fetched]
    generalize fs.waiting.rxBytesWaiting = w at few
    have rest := unread_fetched openMode w (fs.translate (fs.unread.take w)) (fs.fileSize - w) error
    refine ⟨openMode, ?_⟩
    rw [rest, List.length_drop, size]
    dsimp only
    omega
  · rw [status_again empty]
    exact ⟨openMode, size⟩

/-- The head of the loop: the front is counted, and what is announced is in the buffer. -/
structure Counted (state : NetworkStatus × List UInt8 × NetworkProtocolFS) : Prop where
  openMode : state.2.2.openMode = .file
  size : state.2.2.fileSize = state.2.2.unread.length
  announced : state.1.rxBytesWaiting > 0 → state.2.2.receiveBuffer ≠ []

theorem counted_head (openMode : fs.openMode = .file) (size : fs.fileSize = fs.unread.length)
    (parseBuffer : List UInt8) : Counted (fs.status.1, parseBuffer, fs.status.2) := by
  obtain ⟨openMode', size'⟩ := counted_status openMode size
  refine ⟨openMode', size', fun announced empty => ?_⟩
  have none : fs.status.1.rxBytesWaiting = 0 := by
    have length : fs.status.1.rxBytesWaiting = fs.status.2.receiveBuffer.length % 65536 := rfl
    rw [length, show fs.status.2.receiveBuffer = [] from empty]
    rfl
  exact absurd none (Nat.ne_of_gt announced)

/-- A pass of the loop does not reach beyond the front. -/
theorem pass_beyond {state : NetworkStatus × List UInt8 × NetworkProtocolFS}
    (counted : Counted state) :
    parsePass (state.1, state.2.1, beyond tail state.2.2) = (parsePass state).map
      (Sum.map (fun s => (s.1, s.2.1, beyond tail s.2.2)) fun b => (b.1, beyond tail b.2)) ∧
    ∀ next, parsePass state = some (.inl next) → Counted next := by
  obtain ⟨ns, parseBuffer, fs⟩ := state
  obtain ⟨openMode, size, announced⟩ := counted
  simp only at openMode size announced
  simp only [parsePass]
  by_cases connected : ns.connected = 0
  · simp only [if_pos connected]
    exact ⟨rfl, by simp⟩
  by_cases waiting : ns.rxBytesWaiting > 0
  · have again := read_file_again openMode (announced waiting) ns.rxBytesWaiting
    have again' := @read_file_again (beyond tail fs) openMode (announced waiting)
      ns.rxBytesWaiting
    simp only [if_neg connected, if_pos waiting, again, again']
    have status := @status_beyond { fs with
      receiveBuffer := [], error := NETWORK_ERROR_SUCCESS } tail openMode size
    refine ⟨congrArg (fun s => some (Sum.inl (s.1, _, s.2))) status, ?_⟩
    rintro next ⟨⟩
    exact @counted_head { fs with receiveBuffer := [], error := NETWORK_ERROR_SUCCESS }
      openMode size _
  · simp only [if_neg connected, if_neg waiting]
    refine ⟨congrArg (fun s => some (Sum.inl (s.1, _, s.2))) (status_beyond tail openMode size), ?_⟩
    rintro next ⟨⟩
    exact counted_head openMode size _

theorem readDocument_beyond (openMode : fs.openMode = .file)
    (size : fs.fileSize = fs.unread.length) (fuel : Nat) :
    readDocument fuel (beyond tail fs) =
      (readDocument fuel fs).map fun b => (b.1, beyond tail b.2) := by
  simp only [readDocument, status_beyond tail openMode size]
  exact Loop.run_map (fun s => (s.1, s.2.1, beyond tail s.2.2)) _ Counted
    (fun _ counted => (pass_beyond tail counted).1)
    (fun _ next counted pass => (pass_beyond tail counted).2 next pass) (counted_head openMode size [])

end Beyond

theorem polled_beyond (tail : List UInt8) {fs : NetworkProtocolFS} (openMode : fs.openMode = .file)
    (size : fs.fileSize = fs.unread.length) (k : Nat) :
    polled (beyond tail fs) k = beyond tail (polled fs k) := by
  induction k generalizing fs with
  | zero => rfl
  | succ k ih =>
      obtain ⟨openMode', size'⟩ := counted_status openMode size
      have next := ih openMode' size'
      rw [polled, polled, Function.iterate_succ_apply, Function.iterate_succ_apply,
        status_beyond tail openMode size]
      exact next

/-- A front that is seen whole is the whole if the rest is erased. -/
theorem seesWhole_beyond {front tail : List UInt8} {fs : NetworkProtocolFS}
    (h : Untouched front fs) :
    SeesWhole (front ++ tail) (beyond tail fs) ↔ fs.translate tail = [] ∧ SeesWhole front fs := by
  have split : fs.translate (fs.translate (front ++ tail)) =
      fs.translate (fs.translate front) ++ fs.translate (fs.translate tail) := by
    simp only [NetworkProtocolFS.translate, translateReceiveBuffer_append]
  constructor
  · rintro ⟨fuel, parseBuffer, last, returned, whole⟩
    rw [readDocument_beyond tail h.openMode h.size, Option.map_eq_some_iff] at returned
    obtain ⟨⟨parseBuffer', fs'⟩, returned, result⟩ := returned
    obtain rfl : parseBuffer' = parseBuffer := congrArg Prod.fst result
    have whole : handed parseBuffer' =
        fs.translate (fs.translate front) ++ fs.translate (fs.translate tail) := whole.trans split
    have short : (handed parseBuffer').length ≤ (fs.translate (fs.translate front)).length := by
      rcases readDocument_cases h returned with rfl | rfl
      · exact Nat.zero_le _
      · exact (List.takeWhile_prefix _).length_le
    rw [whole, List.length_append] at short
    have erased : fs.translate (fs.translate tail) = [] := List.length_eq_zero_iff.mp (by omega)
    rw [erased, List.append_nil] at whole
    exact ⟨(translate_translate_eq_nil fs tail).mp erased, fuel, parseBuffer', fs', returned, whole⟩
  · rintro ⟨erased, fuel, parseBuffer, fs', returned, whole⟩
    refine ⟨fuel, parseBuffer, beyond tail fs', ?_, ?_⟩
    · rw [readDocument_beyond tail h.openMode h.size, returned, Option.map_some]
    · refine whole.trans (Eq.trans ?_ split.symm)
      rw [(translate_translate_eq_nil fs tail).mpr erased, List.append_nil]

/-- The parser gets nothing of a channel that counts no bytes. -/
theorem readDocument_uncounted {fs : NetworkProtocolFS} (openMode : fs.openMode = .file)
    (none : fs.fileSize ≤ 0) : readDocument 1 fs = some ([], fs.status.2) := by
  have connected : fs.status.1.connected = 0 := by
    change fs.waiting.connected = 0
    simp only [waiting, openMode]
    exact if_neg (by omega)
  have pass : parsePass (fs.status.1, [], fs.status.2) = some (.inr ([], fs.status.2)) := by
    simp only [parsePass, connected, if_true]
  exact Loop.run_succ_inr pass

/-- The length of a file as `fileSize`, an `int`. -/
def fileSizeOf (content : List UInt8) : Int := i32 (content.length % 4294967296)

/-- The number of bytes that the channel counts of a file. -/
def countedOf (content : List UInt8) : Nat := (fileSizeOf content).toNat

/-- A channel that was just opened on a file. -/
def openedFile (build : Build) (mode aux1Open : UInt8) (content : List UInt8) : NetworkProtocolFS :=
  opened build mode .file aux1Open (fileSizeOf content) content

theorem countedOf_le (content : List UInt8) : countedOf content ≤ content.length := by
  simp only [countedOf, fileSizeOf, i32]
  split_ifs <;> omega

/-- A file of which the front is counted. -/
theorem seesWhole_counted (build : Build) (mode aux1Open : UInt8) (front tail : List UInt8)
    (k : Nat) :
    SeesWhole (front ++ tail)
        (polled (opened build mode .file aux1Open front.length (front ++ tail)) k) ↔
      translateReceiveBuffer build mode tail = [] ∧ (front = [] ∨
        aux1Open ≠ 8 ∧ 0 ∉ front ∧
          ((polled (opened build mode .file aux1Open front.length (front ++ tail)) k).fileSize = 0 →
            (polled (opened build mode .file aux1Open front.length (front ++ tail)) k).receiveBuffer =
              [])) := by
  have start := untouched_opened build mode aux1Open front
  have untouched := untouched_polled start k
  have keeps := keeps_polled (opened build mode .file aux1Open front.length front) k
  have opened_ : polled (opened build mode .file aux1Open front.length (front ++ tail)) k =
      beyond tail (polled (opened build mode .file aux1Open front.length front) k) :=
    polled_beyond tail start.openMode start.size k
  have ended : (polled (opened build mode .file aux1Open front.length front) k).unread = [] ↔
      (polled (opened build mode .file aux1Open front.length front) k).fileSize = 0 := by
    rw [untouched.size, Int.natCast_eq_zero, List.length_eq_zero_iff]
  rw [opened_, seesWhole_beyond untouched, seesWhole_iff untouched, keeps.aux1Open, keeps.translate,
    ended]
  exact Iff.rfl

end FujiNet.FNJSON
