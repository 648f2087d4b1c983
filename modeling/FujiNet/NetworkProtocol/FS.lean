import FujiNet.Control.Machine
import FujiNet.Data.Bytes
import FujiNet.NetworkProtocol.Translation

/-!
# Reading a file or a directory through a network channel

`NetworkProtocolFS` fetches from the file handle, or from the listing made at open
time, only while `receiveBuffer` is empty. A read that finds bytes left over there
fetches nothing, but it translates them once more. The device takes what it sends to
the computer off the front of the buffer, so a byte may pass through the translation
as often as the computer comes back for the bytes in front of it.
-/

namespace FujiNet.NetworkProtocol

def NETWORK_ERROR_SUCCESS : UInt8 := 1
def NETWORK_ERROR_END_OF_FILE : UInt8 := 136

/-- `openMode`. -/
inductive OpenMode where
  | file | dir
deriving DecidableEq, Repr

/-- `NetworkStatus`. -/
structure NetworkStatus where
  rxBytesWaiting : Nat
  connected : UInt8
  error : UInt8
deriving DecidableEq, Repr

/-- An open channel. The file handle stands at `offset` of a file with the given content;
`readError` is the error that a failed read of it is mapped to. -/
structure NetworkProtocolFS where
  build : Build
  translationMode : UInt8
  openMode : OpenMode
  aux1Open : UInt8
  content : List UInt8
  offset : Nat := 0
  dirBuffer : List UInt8
  fileSize : Int
  receiveBuffer : List UInt8 := []
  error : UInt8 := NETWORK_ERROR_SUCCESS
  readError : UInt8 := NETWORK_ERROR_END_OF_FILE
deriving DecidableEq, Repr

namespace NetworkProtocolFS

variable (fs : NetworkProtocolFS)

/-- The channel's translation. -/
abbrev translate (buffer : List UInt8) : List UInt8 :=
  translateReceiveBuffer fs.build fs.translationMode buffer

/-- `NetworkProtocol::read`, the base class. -/
def baseRead : Bool × NetworkProtocolFS :=
  (false, { fs with
    receiveBuffer := fs.translate fs.receiveBuffer, error := NETWORK_ERROR_SUCCESS })

/-- `read_file_handle`: `len` bytes, or an error and nothing at all. -/
def readFileHandle (len : Nat) : Option (List UInt8) :=
  if (slice fs.content fs.offset len).length = len then some (slice fs.content fs.offset len)
  else none

/-- `NetworkProtocolFS::read_file`. -/
def readFile (len : Nat) : Bool × NetworkProtocolFS :=
  if fs.receiveBuffer.length = 0 then
    match fs.readFileHandle len with
    | none => (true, { fs with error := fs.readError })
    | some buf => baseRead { fs with
        receiveBuffer := fs.receiveBuffer ++ buf
        offset := fs.offset + len
        fileSize := fs.fileSize - len }
  else baseRead { fs with error := NETWORK_ERROR_SUCCESS }

/-- `NetworkProtocolFS::read_dir`. -/
def readDir (len : Nat) : Bool × NetworkProtocolFS :=
  if fs.receiveBuffer.length = 0 then
    baseRead { fs with
      receiveBuffer := fs.dirBuffer.take len, dirBuffer := fs.dirBuffer.drop len }
  else baseRead fs

/-- `NetworkProtocolFS::read`. -/
def read (len : Nat) : Bool × NetworkProtocolFS :=
  match fs.openMode with
  | .file => fs.readFile len
  | .dir => fs.readDir len

/-- `NetworkProtocol::status`, the base class; its `read` is the one above. -/
def baseStatus (status : NetworkStatus) : NetworkStatus × NetworkProtocolFS :=
  let fs := if fs.receiveBuffer.length = 0 ∧ status.rxBytesWaiting > 0
    then (fs.read status.rxBytesWaiting).2 else fs
  ({ status with rxBytesWaiting := fs.receiveBuffer.length % 65536 }, fs)

/-- What `status_file` or `status_dir` finds before the base class is asked. -/
def waiting : NetworkStatus :=
  match fs.openMode with
  | .file =>
    { rxBytesWaiting :=
        if fs.aux1Open = 8 then 0
        else
          let most : Int := if fs.build = .atari then 512 else 65534
          ((if fs.fileSize > most then most else fs.fileSize) % 65536).toNat
      connected := if fs.fileSize > 0 then 1 else 0
      error := if fs.fileSize > 0 then fs.error else NETWORK_ERROR_END_OF_FILE }
  | .dir =>
    { rxBytesWaiting := fs.dirBuffer.length % 65536
      connected := if fs.dirBuffer.length > 0 then 1 else 0
      error := if fs.dirBuffer.length > 0 then fs.error else NETWORK_ERROR_END_OF_FILE }

/-- `NetworkProtocolFS::status`. -/
def status : NetworkStatus × NetworkProtocolFS := fs.baseStatus fs.waiting

/-- The device hands over the first `n` bytes of the buffer and erases them. -/
def take (n : Nat) : List UInt8 × NetworkProtocolFS :=
  (fs.receiveBuffer.take n, { fs with receiveBuffer := fs.receiveBuffer.drop n })

/-- What the channel has not fetched yet. -/
def unread : List UInt8 :=
  match fs.openMode with
  | .file => fs.content.drop fs.offset
  | .dir => fs.dirBuffer

/-! ## What one read does -/

/-- The channel afterwards: the bytes left over, translated once more, or, if there were
none, the translation of what was fetched. -/
inductive ReadEffect (fs : NetworkProtocolFS) : NetworkProtocolFS → Prop
  | again {fs' : NetworkProtocolFS} (left : fs.receiveBuffer ≠ [])
      (buffer : fs'.receiveBuffer = fs.translate fs.receiveBuffer) (rest : fs'.unread = fs.unread)
      (same : fs'.build = fs.build ∧ fs'.translationMode = fs.translationMode) : ReadEffect fs fs'
  | fetched {fs' : NetworkProtocolFS} (got : List UInt8) (none : fs.receiveBuffer = [])
      (buffer : fs'.receiveBuffer = fs.translate got) (rest : fs.unread = got ++ fs'.unread)
      (same : fs'.build = fs.build ∧ fs'.translationMode = fs.translationMode) : ReadEffect fs fs'

theorem unread_file (h : fs.openMode = .file) : fs.unread = fs.content.drop fs.offset := by
  rw [unread, h]

theorem unread_dir (h : fs.openMode = .dir) : fs.unread = fs.dirBuffer := by
  rw [unread, h]

theorem readFile_effect (h : fs.openMode = .file) (len : Nat) :
    ReadEffect fs (fs.readFile len).2 := by
  rw [readFile]
  by_cases empty : fs.receiveBuffer = []
  · rw [if_pos (by rw [empty]; rfl)]
    by_cases whole : (slice fs.content fs.offset len).length = len
    · rw [readFileHandle, if_pos whole]
      refine .fetched (slice fs.content fs.offset len) empty ?_ ?_ ⟨rfl, rfl⟩
      · simp [baseRead, empty]
      · rw [unread_file fs h, unread_file _ (by simpa [baseRead] using h)]
        simp only [baseRead, slice]
        rw [← List.drop_drop]
        exact (List.take_append_drop len _).symm
    · rw [readFileHandle, if_neg whole]
      exact .fetched [] empty (by simp [empty]) rfl ⟨rfl, rfl⟩
  · rw [if_neg (by simpa using empty)]
    exact .again empty rfl rfl ⟨rfl, rfl⟩

theorem readDir_effect (h : fs.openMode = .dir) (len : Nat) :
    ReadEffect fs (fs.readDir len).2 := by
  rw [readDir]
  by_cases empty : fs.receiveBuffer = []
  · rw [if_pos (by rw [empty]; rfl)]
    refine .fetched (fs.dirBuffer.take len) empty rfl ?_ ⟨rfl, rfl⟩
    rw [unread_dir fs h, unread_dir _ (by simpa [baseRead] using h)]
    exact (List.take_append_drop len _).symm
  · rw [if_neg (by simpa using empty)]
    exact .again empty rfl rfl ⟨rfl, rfl⟩

theorem read_effect (len : Nat) : ReadEffect fs (fs.read len).2 := by
  rw [read]
  cases h : fs.openMode with
  | file => exact fs.readFile_effect h len
  | dir => exact fs.readDir_effect h len

/-- A status reads at most once, and only into an empty buffer. -/
theorem status_cases : fs.status.2 = fs ∨
    fs.receiveBuffer = [] ∧ fs.status.2 = (fs.read fs.waiting.rxBytesWaiting).2 := by
  rw [status, baseStatus]
  by_cases reads : fs.receiveBuffer.length = 0 ∧ fs.waiting.rxBytesWaiting > 0
  · rw [if_pos reads]
    exact .inr ⟨List.eq_nil_of_length_eq_zero reads.1, rfl⟩
  · rw [if_neg reads]
    exact .inl rfl

/-! ## Calls one after the other -/

/-- What the device does with the channel. -/
inductive Call where
  | read (len : UInt16)
  | status
  | take (n : Nat)
deriving DecidableEq, Repr

/-- One call, and the bytes it hands over. -/
def step : Call → NetworkProtocolFS → List UInt8 × NetworkProtocolFS
  | .read len, fs => ([], (fs.read len.toNat).2)
  | .status, fs => ([], fs.status.2)
  | .take n, fs => fs.take n

/-- The bytes handed over in all, and the channel afterwards. -/
def deliver (calls : List Call) (fs : NetworkProtocolFS) : List UInt8 × NetworkProtocolFS :=
  ((Machine.runTotal step calls fs).1.flatten, (Machine.runTotal step calls fs).2)

theorem deliver_cons (call : Call) (calls : List Call) :
    deliver (call :: calls) fs =
      ((step call fs).1 ++ (deliver calls (step call fs).2).1, (deliver calls (step call fs).2).2) := by
  simp [deliver, Machine.runTotal]

/-- A channel just opened on `data`, the content of the file or the listing. -/
def opened (build : Build) (translationMode : UInt8) (openMode : OpenMode) (aux1Open : UInt8)
    (fileSize : Int) (data : List UInt8) : NetworkProtocolFS where
  build := build
  translationMode := translationMode
  openMode := openMode
  aux1Open := aux1Open
  content := if openMode = .file then data else []
  dirBuffer := if openMode = .dir then data else []
  fileSize := fileSize

@[simp] theorem unread_opened (build : Build) (mode aux1 : UInt8) (openMode : OpenMode)
    (fileSize : Int) (data : List UInt8) :
    (opened build mode openMode aux1 fileSize data).unread = data := by
  cases openMode <;> rfl

/-- The calls deliver the translation of what the channel was opened on, from its start
and each byte once; what was fetched and not handed over is still in the buffer. -/
structure DeliversOnce (calls : List Call) (fs : NetworkProtocolFS) : Prop where
  delivered : (deliver calls fs).1 <+: fs.translate fs.unread
  accounted : (deliver calls fs).1.length + (deliver calls fs).2.receiveBuffer.length +
    (fs.translate (deliver calls fs).2.unread).length = (fs.translate fs.unread).length

/-! ## Modes in which a second translation changes nothing -/

/-- Every byte of the buffer is translated to itself. -/
def Settled : Prop :=
  ∀ c ∈ fs.receiveBuffer, translateReceiveBuffer fs.build fs.translationMode [c] = [c]

variable {fs}

/-- A read leaves the bytes that are still to come, in front of them the buffer. -/
theorem ReadEffect.stream {fs' : NetworkProtocolFS} (effect : ReadEffect fs fs')
    (h : fs.translationMode ≠ TRANSLATION_MODE_PETSCII) (settled : fs.Settled) :
    fs'.Settled ∧ fs'.build = fs.build ∧ fs'.translationMode = fs.translationMode ∧
      fs'.receiveBuffer ++ fs.translate fs'.unread =
        fs.receiveBuffer ++ fs.translate fs.unread := by
  cases effect with
  | again left buffer rest same =>
      have unchanged : fs.translate fs.receiveBuffer = fs.receiveBuffer :=
        translateReceiveBuffer_of_fixed _ _ settled
      rw [unchanged] at buffer
      refine ⟨?_, same.1, same.2, by rw [buffer, rest]⟩
      intro c mem
      rw [same.1, same.2]
      exact settled c (buffer ▸ mem)
  | fetched got none buffer rest same =>
      refine ⟨?_, same.1, same.2, ?_⟩
      · intro b mem
        rw [buffer, translate, translateReceiveBuffer_eq_flatMap, List.mem_flatMap] at mem
        obtain ⟨c, -, mem⟩ := mem
        rw [same.1, same.2]
        exact translateReceiveBuffer_of_mem _ h mem
      · rw [buffer, rest, none, List.nil_append]
        exact (translateReceiveBuffer_append _ _ _ _).symm

/-- One call takes what it hands over off the front of the stream. -/
theorem step_stream (call : Call) (h : fs.translationMode ≠ TRANSLATION_MODE_PETSCII)
    (settled : fs.Settled) :
    (step call fs).2.Settled ∧ (step call fs).2.build = fs.build ∧
      (step call fs).2.translationMode = fs.translationMode ∧
      (step call fs).1 ++ ((step call fs).2.receiveBuffer ++
        fs.translate (step call fs).2.unread) = fs.receiveBuffer ++ fs.translate fs.unread := by
  cases call with
  | read len => exact (fs.read_effect len.toNat).stream h settled
  | status =>
      rcases fs.status_cases with same | ⟨-, reads⟩
      · simp only [step, same]
        exact ⟨settled, trivial, trivial, rfl⟩
      · simp only [step, reads]
        exact (fs.read_effect _).stream h settled
  | take n =>
      refine ⟨fun c mem => settled c (List.mem_of_mem_drop mem), rfl, rfl, ?_⟩
      simp only [step, take]
      rw [← List.append_assoc, List.take_append_drop]
      rfl

/-- Whatever the calls, the stream is handed over from its front. -/
theorem deliver_stream (calls : List Call) (h : fs.translationMode ≠ TRANSLATION_MODE_PETSCII)
    (settled : fs.Settled) :
    (deliver calls fs).1 ++ ((deliver calls fs).2.receiveBuffer ++
      fs.translate (deliver calls fs).2.unread) = fs.receiveBuffer ++ fs.translate fs.unread := by
  induction calls generalizing fs with
  | nil => rfl
  | cons call calls ih =>
      obtain ⟨settled', build, mode, front⟩ := step_stream call h settled
      have later := ih (mode ▸ h) settled'
      rw [translate, translate, build, mode] at later
      rw [deliver_cons, List.append_assoc, later, front]

theorem DeliversOnce.of_stream {calls : List Call} (empty : fs.receiveBuffer = [])
    (front : (deliver calls fs).1 ++ ((deliver calls fs).2.receiveBuffer ++
      fs.translate (deliver calls fs).2.unread) = fs.receiveBuffer ++ fs.translate fs.unread) :
    DeliversOnce calls fs := by
  rw [empty, List.nil_append] at front
  refine ⟨⟨_, front⟩, ?_⟩
  rw [← front]
  simp [Nat.add_assoc]

/-! ## Exchanging the alphabets again and again -/

/-- What each `take` would hand over if nothing were translated, with the number of times
a read has translated it; `n` is that number for the buffer at the start. -/
def handedOver : List Call → Nat → NetworkProtocolFS → List (List UInt8 × Nat)
  | [], _, _ => []
  | .read len :: calls, n, fs =>
    handedOver calls (if fs.receiveBuffer = [] then 1 else n + 1) (fs.read len.toNat).2
  | .status :: calls, n, fs =>
    handedOver calls (if fs.receiveBuffer = [] then 1 else n) fs.status.2
  | .take k :: calls, n, fs =>
    (fs.receiveBuffer.take k, n) :: handedOver calls n (fs.take k).2

/-- The same channel without translation. -/
def untranslated (fs : NetworkProtocolFS) : NetworkProtocolFS :=
  { fs with translationMode := TRANSLATION_MODE_NONE }

/-- `raw` is the channel without translation, and its buffer translated `n` times is the
buffer of the channel. -/
structure Shadow (n : Nat) (raw fs : NetworkProtocolFS) : Prop where
  mode : fs.translationMode = TRANSLATION_MODE_PETSCII
  rest : raw = { fs with
    translationMode := TRANSLATION_MODE_NONE, receiveBuffer := raw.receiveBuffer }
  buffer : fs.receiveBuffer = raw.receiveBuffer.map (petsciiByte fs.build)^[n]

namespace Shadow

variable {n : Nat} {raw : NetworkProtocolFS}

theorem buffer_eq_nil (shadow : Shadow n raw fs) :
    fs.receiveBuffer = [] ↔ raw.receiveBuffer = [] := by
  rw [shadow.buffer, List.map_eq_nil_iff]

theorem unread (shadow : Shadow n raw fs) : raw.unread = fs.unread := by
  rw [shadow.rest]
  rfl

/-- The base class translates the one buffer and leaves the other. -/
theorem baseRead (shadow : Shadow n raw fs) :
    Shadow (n + 1) raw.baseRead.2 fs.baseRead.2 := by
  have translated : fs.baseRead.2.receiveBuffer =
      raw.receiveBuffer.map (petsciiByte fs.build)^[n + 1] := by
    simp only [NetworkProtocolFS.baseRead, translate, shadow.mode, shadow.buffer,
      translateReceiveBuffer_petscii, List.map_map]
    rw [Function.iterate_succ']
  have mode : raw.translationMode = TRANSLATION_MODE_NONE := by rw [shadow.rest]
  have kept : raw.baseRead.2.receiveBuffer = raw.receiveBuffer := by
    simp only [NetworkProtocolFS.baseRead, translate, mode, translateReceiveBuffer_eq, if_true]
  refine ⟨shadow.mode, ?_, by rw [translated, kept]; rfl⟩
  rw [kept]
  simp only [NetworkProtocolFS.baseRead, translate, mode, translateReceiveBuffer_eq, if_true]
  rw [shadow.rest]

theorem mode_raw (shadow : Shadow n raw fs) :
    raw.openMode = fs.openMode ∧ raw.content = fs.content ∧ raw.offset = fs.offset ∧
      raw.dirBuffer = fs.dirBuffer := by
  rw [shadow.rest]
  exact ⟨rfl, rfl, rfl, rfl⟩

/-- A read translates what was left over once more. -/
theorem read_again (shadow : Shadow n raw fs) (left : raw.receiveBuffer ≠ []) (len : Nat) :
    Shadow (n + 1) (raw.read len).2 (fs.read len).2 := by
  have left' : fs.receiveBuffer ≠ [] := fun empty => left (shadow.buffer_eq_nil.mp empty)
  simp only [NetworkProtocolFS.read, shadow.mode_raw.1]
  cases fs.openMode with
  | file =>
      simp only [readFile, List.length_eq_zero_iff, if_neg left, if_neg left']
      refine Shadow.baseRead ⟨shadow.mode, ?_, shadow.buffer⟩
      rw [shadow.rest]
  | dir =>
      simp only [readDir, List.length_eq_zero_iff, if_neg left, if_neg left']
      exact shadow.baseRead

/-- What a read fetches is translated once. -/
theorem read_fetched (shadow : Shadow n raw fs) (empty : raw.receiveBuffer = []) (len : Nat) :
    Shadow 1 (raw.read len).2 (fs.read len).2 := by
  have empty' : fs.receiveBuffer = [] := shadow.buffer_eq_nil.mpr empty
  obtain ⟨openMode, content, offset, dirBuffer⟩ := shadow.mode_raw
  simp only [NetworkProtocolFS.read, openMode]
  cases fs.openMode with
  | file =>
      simp only [readFile, List.length_eq_zero_iff, if_pos empty, if_pos empty']
      have handle : raw.readFileHandle len = fs.readFileHandle len := by
        rw [readFileHandle, readFileHandle, content, offset]
      rw [handle]
      cases fs.readFileHandle len with
      | none =>
          refine ⟨shadow.mode, ?_, ?_⟩
          · rw [shadow.rest]
          · simp [empty, empty']
      | some buf =>
          refine Shadow.baseRead (n := 0) ⟨shadow.mode, ?_, ?_⟩
          · rw [shadow.rest]
          · simp [empty, empty']
  | dir =>
      simp only [readDir, List.length_eq_zero_iff, if_pos empty, if_pos empty', dirBuffer]
      refine Shadow.baseRead (n := 0) ⟨shadow.mode, ?_, ?_⟩
      · rw [shadow.rest]
      · simp

theorem read (shadow : Shadow n raw fs) (len : Nat) :
    Shadow (if raw.receiveBuffer = [] then 1 else n + 1) (raw.read len).2 (fs.read len).2 := by
  by_cases empty : raw.receiveBuffer = []
  · rw [if_pos empty]
    exact shadow.read_fetched empty len
  · rw [if_neg empty]
    exact shadow.read_again empty len

theorem status (shadow : Shadow n raw fs) :
    Shadow (if raw.receiveBuffer = [] then 1 else n) raw.status.2 fs.status.2 := by
  have waiting : raw.waiting = fs.waiting := by
    rw [shadow.rest]
    rfl
  simp only [NetworkProtocolFS.status, baseStatus, waiting, List.length_eq_zero_iff,
    shadow.buffer_eq_nil]
  by_cases empty : raw.receiveBuffer = []
  · by_cases more : fs.waiting.rxBytesWaiting > 0
    · rw [if_pos empty, if_pos ⟨empty, more⟩, if_pos ⟨empty, more⟩]
      exact shadow.read_fetched empty _
    · rw [if_pos empty, if_neg (fun h => more h.2), if_neg (fun h => more h.2)]
      refine ⟨shadow.mode, shadow.rest, ?_⟩
      rw [shadow.buffer_eq_nil.mpr empty, empty]
      rfl
  · rw [if_neg empty, if_neg (fun h => empty h.1), if_neg (fun h => empty h.1)]
    exact shadow

theorem take (shadow : Shadow n raw fs) (k : Nat) :
    (fs.take k).1 = (raw.take k).1.map (petsciiByte fs.build)^[n] ∧
      Shadow n (raw.take k).2 (fs.take k).2 := by
  refine ⟨?_, shadow.mode, ?_, ?_⟩
  · simp only [NetworkProtocolFS.take, shadow.buffer, List.map_take]
  · simp only [NetworkProtocolFS.take]
    rw [shadow.rest]
  · simp only [NetworkProtocolFS.take, shadow.buffer, List.map_drop]

end Shadow

theorem build_read (fs : NetworkProtocolFS) (len : Nat) : (fs.read len).2.build = fs.build := by
  cases fs.read_effect len with
  | again _ _ _ same => exact same.1
  | fetched _ _ _ _ same => exact same.1

theorem build_status (fs : NetworkProtocolFS) : fs.status.2.build = fs.build := by
  rcases fs.status_cases with same | ⟨-, reads⟩
  · rw [same]
  · rw [reads, build_read]

/-- What the channel hands over is what it would hand over untranslated, each piece
translated as often as a read met it. -/
theorem Shadow.deliver {n : Nat} {raw : NetworkProtocolFS} (shadow : Shadow n raw fs)
    (calls : List Call) :
    (deliver calls fs).1 =
        ((handedOver calls n raw).map fun d => d.1.map (petsciiByte fs.build)^[d.2]).flatten ∧
      (deliver calls raw).1 = ((handedOver calls n raw).map Prod.fst).flatten ∧
      ∃ n', Shadow n' (deliver calls raw).2 (deliver calls fs).2 := by
  induction calls generalizing n raw fs with
  | nil => exact ⟨rfl, rfl, n, shadow⟩
  | cons call calls ih =>
      rw [deliver_cons, deliver_cons]
      cases call with
      | read len =>
          obtain ⟨translated, plain, last⟩ := ih (shadow.read len.toNat)
          rw [build_read] at translated
          exact ⟨translated, plain, last⟩
      | status =>
          obtain ⟨translated, plain, last⟩ := ih shadow.status
          rw [build_status] at translated
          exact ⟨translated, plain, last⟩
      | take k =>
          obtain ⟨front, shadow'⟩ := shadow.take k
          obtain ⟨translated, plain, last⟩ := ih shadow'
          refine ⟨?_, ?_, last⟩
          · simp only [step, handedOver, List.map_cons, List.flatten_cons]
            rw [translated, front]
            rfl
          · simp only [step, handedOver, List.map_cons, List.flatten_cons]
            rw [plain]
            rfl

/-- Nothing is handed over before a read has translated it. -/
theorem handedOver_pos {n : Nat} (calls : List Call) (start : fs.receiveBuffer = [] ∨ 0 < n) :
    ∀ d ∈ handedOver calls n fs, d.1 = [] ∨ 0 < d.2 := by
  induction calls generalizing n fs with
  | nil => exact fun d mem => absurd mem List.not_mem_nil
  | cons call calls ih =>
      have positive : ∀ {m}, 0 < (if fs.receiveBuffer = [] then 1 else m + 1) := by
        intro m
        split_ifs <;> omega
      cases call with
      | read len => exact ih (.inr positive)
      | status =>
          refine ih (.inr ?_)
          split_ifs with empty
          · exact Nat.one_pos
          · exact start.resolve_left empty
      | take k =>
          intro d mem
          rcases List.mem_cons.mp mem with rfl | later
          · rcases start with empty | already
            · exact .inl (by rw [empty, List.take_nil])
            · exact .inr already
          · refine ih ?_ d later
            rcases start with empty | already
            · exact .inl (by simp [take, empty])
            · exact .inr already

/-- Two lists of pieces of the same lengths join to the same bytes if the pieces agree. -/
theorem flatten_map_eq_iff {f g : List UInt8 × Nat → List UInt8}
    (lengths : ∀ d, (f d).length = (g d).length) (D : List (List UInt8 × Nat)) :
    (D.map f).flatten = (D.map g).flatten ↔ ∀ d ∈ D, f d = g d := by
  induction D with
  | nil => simp
  | cons d D ih =>
      simp only [List.map_cons, List.flatten_cons, List.forall_mem_cons, ← ih]
      constructor
      · intro joined
        exact List.append_inj joined (lengths d)
      · rintro ⟨head, tail⟩
        rw [head, tail]

theorem length_flatten_map {f g : List UInt8 × Nat → List UInt8}
    (lengths : ∀ d, (f d).length = (g d).length) (D : List (List UInt8 × Nat)) :
    (D.map f).flatten.length = (D.map g).flatten.length := by
  induction D with
  | nil => rfl
  | cons d D ih => simp only [List.map_cons, List.flatten_cons, List.length_append, lengths, ih]

/-- A channel that exchanges the alphabets delivers its data translated once exactly when
no letter is handed over after an even number of translations. -/
theorem Shadow.deliversOnce_iff {n : Nat} {raw : NetworkProtocolFS} (shadow : Shadow n raw fs)
    (empty : fs.receiveBuffer = []) (calls : List Call) :
    DeliversOnce calls fs ↔
      ∀ d ∈ handedOver calls n raw, ∀ c ∈ d.1, Letter c → Odd d.2 := by
  obtain ⟨translated, plain, n', last⟩ := shadow.deliver calls
  have empty' : raw.receiveBuffer = [] := shadow.buffer_eq_nil.mp empty
  have mode : raw.translationMode = TRANSLATION_MODE_NONE := by rw [shadow.rest]
  -- Without translation the pieces, the buffer and the rest make up the data.
  have stream : (NetworkProtocolFS.deliver calls raw).1 ++
      ((NetworkProtocolFS.deliver calls raw).2.receiveBuffer ++
        (NetworkProtocolFS.deliver calls raw).2.unread) = raw.unread := by
    have settled : raw.Settled := by
      rw [Settled, empty']
      exact fun c mem => absurd mem List.not_mem_nil
    have front := deliver_stream calls (by rw [mode]; decide) settled
    simpa only [translate, mode, translateReceiveBuffer_eq, if_true, empty', List.nil_append]
      using front
  have whole : fs.translate fs.unread = fs.unread.map (petsciiByte fs.build) := by
    rw [translate, shadow.mode, translateReceiveBuffer_petscii]
  -- Pieces translated once, and as often as they were.
  have lengths : ∀ d : List UInt8 × Nat,
      (d.1.map (petsciiByte fs.build)^[d.2]).length = (d.1.map (petsciiByte fs.build)).length := by
    intro d
    rw [List.length_map, List.length_map]
  have once : ((handedOver calls n raw).map Prod.fst).flatten.map (petsciiByte fs.build) =
      ((handedOver calls n raw).map fun d => d.1.map (petsciiByte fs.build)).flatten := by
    rw [List.map_flatten, List.map_map]
    rfl
  have agree : DeliversOnce calls fs ↔
      ∀ d ∈ handedOver calls n raw,
        d.1.map (petsciiByte fs.build)^[d.2] = d.1.map (petsciiByte fs.build) := by
    rw [← flatten_map_eq_iff lengths, ← translated]
    have split : fs.translate fs.unread =
        ((handedOver calls n raw).map fun d => d.1.map (petsciiByte fs.build)).flatten ++
          ((NetworkProtocolFS.deliver calls raw).2.receiveBuffer ++
            (NetworkProtocolFS.deliver calls raw).2.unread).map (petsciiByte fs.build) := by
      rw [whole, ← shadow.unread, ← stream, plain, List.map_append, once]
    constructor
    · intro delivers
      have front := delivers.delivered
      rw [split, List.prefix_iff_eq_take, translated,
        List.take_left' (length_flatten_map lengths _).symm] at front
      rw [translated]
      exact front
    · intro same
      refine ⟨?_, ?_⟩
      · rw [split, ← same]
        exact List.prefix_append _ _
      · rw [split, ← same, last.buffer, last.unread]
        simp [translate, shadow.mode, translateReceiveBuffer_petscii, Nat.add_assoc]
  rw [agree]
  refine forall₂_congr fun d mem => ?_
  rw [List.map_inj_left]
  refine forall₂_congr fun c piece => ?_
  refine petsciiByte_iterate_iff fs.build ?_ c
  exact (handedOver_pos calls (.inl empty') d mem).resolve_left (List.ne_nil_of_mem piece)

/-! ## Reading in pieces -/

theorem settled_opened (build : Build) (mode aux1 : UInt8) (openMode : OpenMode) (fileSize : Int)
    (data : List UInt8) : (opened build mode openMode aux1 fileSize data).Settled :=
  fun _ mem => absurd mem List.not_mem_nil

/-- Reads, status calls and pieces of any sizes deliver the data translated once, if the
mode does not exchange the alphabets, and otherwise exactly when each letter handed over
was in the buffer at an odd number of reads. -/
theorem reading_in_pieces_iff (build : Build) (mode aux1 : UInt8) (openMode : OpenMode)
    (fileSize : Int) (data : List UInt8) (calls : List Call) :
    DeliversOnce calls (opened build mode openMode aux1 fileSize data) ↔
      mode ≠ TRANSLATION_MODE_PETSCII ∨
        ∀ d ∈ handedOver calls 0 (opened build TRANSLATION_MODE_NONE openMode aux1 fileSize data),
          ∀ c ∈ d.1, Letter c → Odd d.2 := by
  by_cases petscii : mode = TRANSLATION_MODE_PETSCII
  · have shadow : Shadow 0 (opened build TRANSLATION_MODE_NONE openMode aux1 fileSize data)
        (opened build mode openMode aux1 fileSize data) := ⟨petscii, rfl, rfl⟩
    rw [shadow.deliversOnce_iff rfl calls]
    exact (or_iff_right (fun other => other petscii)).symm
  · refine iff_of_true ?_ (.inl petscii)
    exact .of_stream rfl
      (deliver_stream calls petscii (settled_opened build mode aux1 openMode fileSize data))

/-- A status call fetches the file and a read of the byte it announces translates it back:
the computer gets the byte of the file and not its PETSCII form. -/
theorem petscii_status_then_read :
    (deliver [.status, .read 1, .take 1]
      (opened .other TRANSLATION_MODE_PETSCII .file 4 1 [0x41])).1 = [0x41] ∧
    ¬ DeliversOnce [.status, .read 1, .take 1]
      (opened .other TRANSLATION_MODE_PETSCII .file 4 1 [0x41]) := by
  have got : (deliver [.status, .read 1, .take 1]
      (opened .other TRANSLATION_MODE_PETSCII .file 4 1 [0x41])).1 = [0x41] := by decide
  refine ⟨got, fun delivers => ?_⟩
  have front := delivers.delivered
  rw [got] at front
  revert front
  decide

end NetworkProtocolFS

end FujiNet.NetworkProtocol
