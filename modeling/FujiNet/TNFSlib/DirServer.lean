import FujiNet.Control.Machine
import FujiNet.TNFSlib.Directory
import FujiNet.TNFSlib.Exchange
import FujiNet.TNFSlib.Open

/-!
# A server with a directory

The server lists one directory. It answers READDIRX with a batch of the next
entries, as many as it likes and as fit a packet, and marks the last batch; behind
the last entry it reports the end. How many entries it would like to send is given
by a function of the number of batches sent before, so every choice of batches is
covered. The first half of this file takes a batch apart as the client does.
-/

namespace FujiNet.TNFS

/-! ## Entries -/

/-- An entry of a directory, with the ranges of its encoding. -/
structure DirEntry where
  flags : UInt8
  filesize : Nat
  mTime : Nat
  cTime : Nat
  name : List UInt8
  filesize_lt : filesize < word
  mTime_lt : mTime < word
  cTime_lt : cTime < word
  name_ne_nil : name ≠ []
  name_noNul : 0 ∉ name
  name_short : name.length ≤ 255

namespace DirEntry

def encode (e : DirEntry) : List UInt8 :=
  e.flags :: (le32 e.filesize ++ le32 e.mTime ++ le32 e.cTime ++ e.name ++ [0])

@[simp] theorem length_encode (e : DirEntry) : e.encode.length = 14 + e.name.length := by
  simp only [encode, List.length_cons, List.length_append, length_le32, List.length_nil]
  omega

/-- The entry in the client's cache. -/
def cached (e : DirEntry) (dirpos : Nat) : DirCacheEntry :=
  { dirpos, flags := e.flags, filesize := e.filesize, mTime := e.mTime, cTime := e.cTime
    entryname := e.name }

/-- What the caller of `tnfs_readdirx` should get. -/
def response (e : DirEntry) (filestat : Stat) (dirEntryLen : Nat) : Stat × List UInt8 :=
  ({ filestat with
      isDir := e.flags &&& 0x01 ≠ 0
      filesize := e.filesize
      mTime := e.mTime
      cTime := e.cTime
      aTime := 0 },
    e.name.take (dirEntryLen - 1))

theorem readdirxFillResponse_cached (e : DirEntry) (dirpos : Nat) (filestat : Stat) (len : Nat) :
    readdirxFillResponse (e.cached dirpos) filestat len = e.response filestat len := by
  have whole : e.name.takeWhile (· ≠ 0) = e.name := by
    rw [List.takeWhile_eq_self_iff]
    intro b hb
    simpa using fun h : b = 0 => e.name_noNul (h ▸ hb)
  simp only [readdirxFillResponse, cached, strlcpy, whole]
  rfl

/-- The entries of a batch as they stand in the cache, from a position on. -/
def cachedFrom : Nat → List DirEntry → List DirCacheEntry
  | _, [] => []
  | dirpos, e :: es => e.cached dirpos :: cachedFrom (dirpos + 1) es

@[simp] theorem length_cachedFrom (dirpos : Nat) (es : List DirEntry) :
    (cachedFrom dirpos es).length = es.length := by
  induction es generalizing dirpos with
  | nil => rfl
  | cons e es ih => simp [cachedFrom, ih]

end DirEntry

open DirEntry

/-! ## Taking a batch apart -/

section

variable {packet : Packet} {offset dirpos : Nat} {e : DirEntry} {rest : List UInt8}

theorem payloadByte_of_drop {bytes : List UInt8} (h : packet.payload.drop offset = bytes)
    (i : Nat) : packet.payloadByte (offset + i) = bytes.getD i 0 := by
  rw [Packet.payloadByte, ← h, List.getD_eq_getElem?_getD, List.getD_eq_getElem?_getD,
    List.getElem?_drop]

theorem payloadU32_of_drop {n : Nat} (inRange : n < word) (rest : List UInt8)
    (h : packet.payload.drop offset = le32 n ++ rest) : packet.payloadU32 offset = n := by
  have first : packet.payloadByte offset = UInt8.ofNat n := payloadByte_of_drop h 0
  rw [Packet.payloadU32, first, payloadByte_of_drop h 1, payloadByte_of_drop h 2,
    payloadByte_of_drop h 3]
  exact u32_le32 inRange

theorem readdirxEntry_encode (dirpos : Nat) (here : packet.payload.drop offset = e.encode ++ rest)
    (inRange : dirpos < 65536) :
    readdirxEntry packet dirpos offset = (e.cached dirpos, e.name.length) ∧
      packet.payload.drop (offset + (14 + e.name.length)) = rest := by
  have name : packet.payload.drop (offset + 13) = e.name ++ 0 :: rest := by
    rw [← List.drop_drop, here]
    simp [encode, le32]
  have first : (e.name ++ 0 :: rest).takeWhile (· ≠ 0) = e.name := by
    rw [List.takeWhile_append_of_pos]
    · simp
    · intro b hb
      simpa using fun h : b = 0 => e.name_noNul (h ▸ hb)
  have copied : strlcpy (e.name ++ 0 :: rest) maxFilelen = e.name := by
    rw [strlcpy, first, List.take_of_length_le]
    have := e.name_short
    simp only [maxFilelen]
    omega
  have flags : packet.payloadByte offset = e.flags := payloadByte_of_drop here 0
  have number (i n : Nat) (inRange : n < word)
      (bytes : (e.encode ++ rest).drop i = le32 n ++ (e.encode ++ rest).drop (i + 4)) :
      packet.payloadU32 (offset + i) = n := by
    refine payloadU32_of_drop inRange ((e.encode ++ rest).drop (i + 4)) ?_
    rw [← List.drop_drop, here, bytes]
  refine ⟨?_, ?_⟩
  · simp only [readdirxEntry, name, first, copied, flags, Nat.mod_eq_of_lt inRange, cached]
    rw [number 1 e.filesize e.filesize_lt rfl, number 5 e.mTime e.mTime_lt rfl,
      number 9 e.cTime e.cTime_lt rfl]
  · rw [← List.drop_drop, here, List.drop_left' (by simp)]

end

/-- The loop puts a whole batch into the cache. -/
theorem fillDircache_encode {packet : Packet} {offset dirpos : Nat} {es : List DirEntry}
    {rest : List UInt8} {m : MountInfo}
    (here : packet.payload.drop offset = es.flatMap encode ++ rest)
    (room : m.dirCache.length + es.length ≤ maxDircacheEntries)
    (inRange : dirpos + es.length ≤ 65536) :
    fillDircache packet es.length dirpos offset m =
      { m with dirCache := m.dirCache ++ cachedFrom dirpos es } := by
  induction es generalizing offset dirpos m with
  | nil => simp [fillDircache, cachedFrom]
  | cons e es ih =>
      simp only [List.length_cons] at room inRange
      rw [List.flatMap_cons, List.append_assoc] at here
      obtain ⟨entry, next⟩ := readdirxEntry_encode dirpos here (by omega)
      have new : m.newDircacheEntry (e.cached dirpos) =
          some { m with dirCache := m.dirCache ++ [e.cached dirpos] } := by
        rw [MountInfo.newDircacheEntry, if_neg (by omega)]
      simp only [List.length_cons, fillDircache, entry, new]
      rw [ih next (by simp only [List.length_append, List.length_singleton]; omega) (by omega)]
      simp [cachedFrom]

/-! ## The server -/

structure DirServer where
  session : Nat
  handle : UInt8
  entries : List DirEntry
  cursor : Nat := 0
  clock : Nat := 0

/-- At most `n` entries that fit into `room` bytes. -/
def takeFitting : Nat → Nat → List DirEntry → List DirEntry
  | 0, _, _ => []
  | _, _, [] => []
  | n + 1, room, e :: es =>
    if 14 + e.name.length ≤ room then e :: takeFitting n (room - (14 + e.name.length)) es else []

namespace DirServer

/-- The next batch, of the `wanted` size if there is room. -/
def nextBatch (s : DirServer) (wanted : Nat) : List DirEntry :=
  takeFitting (max 1 (min wanted maxDircacheEntries)) (payloadSize - 5) (s.entries.drop s.cursor)

def readdirx (s : DirServer) (wanted : Nat) : List UInt8 × DirServer :=
  if s.entries.length ≤ s.cursor then ([Result.endOfFile], s)
  else
    let batch := s.nextBatch wanted
    let next := s.cursor + batch.length
    ([Result.success, UInt8.ofNat batch.length, if next = s.entries.length then 0x01 else 0x00,
        lobyte s.cursor, hibyte s.cursor] ++ batch.flatMap encode,
      { s with cursor := next, clock := s.clock + 1 })

/-- The reply to a request. -/
def answer (batches : Nat → Nat) (command : UInt8) (payload : List UInt8) (s : DirServer) :
    List UInt8 × DirServer :=
  if command = Cmd.opendirx then
    ([Result.success, s.handle, lobyte s.entries.length, hibyte s.entries.length],
      { s with cursor := 0 })
  else if payload.getD 0 0 ≠ s.handle then ([Result.badFilenum], s)
  else if command = Cmd.readdirx then s.readdirx (batches s.clock)
  else if command = Cmd.telldir then (Result.success :: le32 s.cursor, s)
  else if command = Cmd.seekdir then
    let position := u32 (payload.getD 1 0) (payload.getD 2 0) (payload.getD 3 0) (payload.getD 4 0)
    if position ≤ s.entries.length then ([Result.success], { s with cursor := position })
    else ([Result.invalidArgument], s)
  else ([Result.functionUnimplemented], s)

/-- The server as the network of a client. -/
def net (batches : Nat → Nat) : Net DirServer where
  send d s :=
    match d with
    | lo :: hi :: seq :: command :: payload =>
      if u16 lo hi ≠ s.session then
        (some [{ datagram := [lo, hi, seq, command, Result.invalidHandle] }], s)
      else
        let (reply, s) := s.answer batches command payload
        (some [{ datagram := lo :: hi :: seq :: command :: reply }], s)
    | _ => (some [], s)

end DirServer

namespace DirServer

section

variable (s : DirServer) (batches : Nat → Nat)

theorem answer_opendirx (payload : List UInt8) : s.answer batches Cmd.opendirx payload =
    ([Result.success, s.handle, lobyte s.entries.length, hibyte s.entries.length],
      { s with cursor := 0 }) := rfl

theorem answer_readdirx (n : UInt8) :
    s.answer batches Cmd.readdirx [s.handle, n] = s.readdirx (batches s.clock) := by
  simp [answer, Cmd.readdirx, Cmd.opendirx]

theorem answer_telldir : s.answer batches Cmd.telldir [s.handle] =
    (Result.success :: le32 s.cursor, s) := by
  simp [answer, Cmd.telldir, Cmd.readdirx, Cmd.opendirx]

theorem answer_seekdir {position : Nat} (inRange : position < word)
    (inside : position ≤ s.entries.length) :
    s.answer batches Cmd.seekdir (s.handle :: le32 position) =
      ([Result.success], { s with cursor := position }) := by
  have bytes : u32 (UInt8.ofNat position) (UInt8.ofNat (position / 256))
      (UInt8.ofNat (position / 65536)) (UInt8.ofNat (position / 16777216)) = position :=
    u32_le32 inRange
  simp [answer, Cmd.seekdir, Cmd.telldir, Cmd.readdirx, Cmd.opendirx, le32, bytes, inside]

end

end DirServer

/-! ## Batches -/

section

variable (n room : Nat) (es : List DirEntry)

/-- A batch consists of the next entries. -/
theorem takeFitting_eq_take : takeFitting n room es = es.take (takeFitting n room es).length := by
  induction n, room, es using takeFitting.induct with
  | case1 => simp [takeFitting]
  | case2 => simp [takeFitting]
  | case3 n room e es fits ih =>
      rw [takeFitting, if_pos fits, List.length_cons, List.take_succ_cons, ← ih]
  | case4 n room e es full => rw [takeFitting, if_neg full, List.length_nil, List.take_zero]

theorem length_takeFitting_le : (takeFitting n room es).length ≤ n := by
  induction n, room, es using takeFitting.induct with
  | case1 => simp [takeFitting]
  | case2 => simp [takeFitting]
  | case3 n room e es fits ih =>
      rw [takeFitting, if_pos fits, List.length_cons]
      omega
  | case4 n room e es full => simp [takeFitting, full]

theorem length_encode_takeFitting_le : ((takeFitting n room es).flatMap encode).length ≤ room := by
  induction n, room, es using takeFitting.induct with
  | case1 => simp [takeFitting]
  | case2 => simp [takeFitting]
  | case3 n room e es fits ih =>
      rw [takeFitting, if_pos fits, List.flatMap_cons, List.length_append, length_encode]
      omega
  | case4 n room e es full => simp [takeFitting, full]

end

/-- A batch of the entries still to come is not empty. -/
theorem DirServer.nextBatch_spec (s : DirServer) (wanted : Nat)
    (more : s.cursor < s.entries.length) :
    0 < (s.nextBatch wanted).length ∧ (s.nextBatch wanted).length ≤ maxDircacheEntries ∧
      s.cursor + (s.nextBatch wanted).length ≤ s.entries.length ∧
      s.nextBatch wanted = slice s.entries s.cursor (s.nextBatch wanted).length ∧
      ((s.nextBatch wanted).flatMap encode).length ≤ 523 := by
  have take := takeFitting_eq_take (max 1 (min wanted maxDircacheEntries)) (payloadSize - 5)
    (s.entries.drop s.cursor)
  have count := length_takeFitting_le (max 1 (min wanted maxDircacheEntries)) (payloadSize - 5)
    (s.entries.drop s.cursor)
  have size := length_encode_takeFitting_le (max 1 (min wanted maxDircacheEntries))
    (payloadSize - 5) (s.entries.drop s.cursor)
  have within := congrArg List.length take
  rw [List.length_take, List.length_drop] at within
  rw [nextBatch]
  refine ⟨?_, ?_, by omega, take, size⟩
  · obtain ⟨e, rest, hrest⟩ := List.exists_cons_of_length_pos
      (show 0 < (s.entries.drop s.cursor).length by rw [List.length_drop]; omega)
    obtain ⟨n, hn⟩ : ∃ n, max 1 (min wanted maxDircacheEntries) = n + 1 :=
      ⟨max 1 (min wanted maxDircacheEntries) - 1, by omega⟩
    have short := e.name_short
    rw [hrest, hn, takeFitting, if_pos (by simp only [payloadSize]; omega), List.length_cons]
    omega
  · simp only [maxDircacheEntries] at count ⊢
    omega

end FujiNet.TNFS
