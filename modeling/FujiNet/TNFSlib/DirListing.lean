import FujiNet.TNFSlib.DirServer

/-!
# Listing a directory

The abstract directory is a list of entries with a cursor. `directory_listing_exact`
says that the operations of `tnfslib` answer like it, for every choice of batches by
the server: each entry is returned once and in order, then the end is reported, and
a position that was told leads back to the entry that was next when it was told.

The invariant `Listing` relates three cursors: the abstract one, the place in the
cached batch, and the server's own, which is ahead by the entries still cached.
-/

namespace FujiNet.TNFS

open DirEntry

/-- An operation on the open directory. -/
inductive DirOp where
  | readdirx (filestat : Stat) (dirEntryLen : Nat)
  | telldir
  | seekdir (position : Nat)
  deriving DecidableEq, Repr

/-- What an operation returns and stores for its caller. -/
structure DirAnswer where
  result : Int
  entry : Option (Stat × List UInt8) := none
  position : Option Nat := none
  deriving DecidableEq, Repr

def DirOp.perform {ν : Type} (tx : Transact ν) : DirOp → Client ν → Option (DirAnswer × Client ν)
  | .readdirx filestat dirEntryLen, c =>
    (tnfsReaddirx tx filestat dirEntryLen c).map fun ((result, entry), c) =>
      (⟨result, entry, none⟩, c)
  | .telldir, c =>
    (tnfsTelldir tx c).map fun ((result, position), c) => (⟨result, none, position⟩, c)
  | .seekdir position, c =>
    (tnfsSeekdir tx position c).map fun (result, c) => (⟨result, none, none⟩, c)

/-! ## The abstract directory -/

namespace DirCursor

variable (E : List DirEntry)

/-- The answer to reading the entry at a position. -/
def read (filestat : Stat) (dirEntryLen position : Nat) : DirAnswer :=
  match E[position]? with
  | some e => ⟨0, some (e.response filestat dirEntryLen), none⟩
  | none => ⟨code Result.endOfFile, none, none⟩

def perform : DirOp → Nat → DirAnswer × Nat
  | .readdirx filestat dirEntryLen, position =>
    (read E filestat dirEntryLen position, if position < E.length then position + 1 else position)
  | .telldir, position => (⟨0, none, some position⟩, position)
  | .seekdir target, _ => (⟨0, none, none⟩, target)

/-- Seeking goes to an entry or to the end. -/
def Admits : DirOp → Nat → Prop
  | .seekdir target, _ => target ≤ E.length
  | _, _ => True

/-- Reading on and on gives the entries in order, and then the end. -/
theorem runTotal_readdirx (filestat : Stat) (dirEntryLen k position : Nat)
    (le : position ≤ E.length) :
    Machine.runTotal (perform E) (List.replicate k (.readdirx filestat dirEntryLen)) position =
      ((List.range k).map fun i => read E filestat dirEntryLen (position + i),
        min (position + k) E.length) := by
  induction k generalizing position with
  | zero => simp [Machine.runTotal, le]
  | succ k ih =>
      rw [List.replicate_succ, Machine.runTotal, List.range_succ_eq_map, List.map_cons,
        List.map_map]
      simp only [perform]
      split_ifs with more
      · rw [ih _ (by omega)]
        simp only [Function.comp_def, Nat.succ_eq_add_one, Nat.add_zero, Prod.mk.injEq,
          List.cons.injEq, true_and]
        refine ⟨List.map_congr_left fun i _ => ?_, by omega⟩
        rw [Nat.add_assoc, Nat.add_comm 1 i]
      · rw [ih _ le]
        have stop (i : Nat) : read E filestat dirEntryLen (position + i) =
            read E filestat dirEntryLen position := by
          rw [read, read, List.getElem?_eq_none (by omega), List.getElem?_eq_none (by omega)]
        simp only [stop, Function.comp_def, Nat.add_zero, Prod.mk.injEq, true_and]
        omega

end DirCursor

/-! ## The invariant -/

/-- The client is listing the directory `E` and stands before the entry at `position`. -/
structure Listing (E : List DirEntry) (position : Nat) (c : Client DirServer) : Prop where
  session : c.mInfo.session = c.net.session
  valid : c.net.session < 65536
  retries : 0 < c.mInfo.maxRetries
  handle : c.mInfo.dirHandle = c.net.handle.toNat
  entries : c.net.entries = E
  cached : c.mInfo.dirCache.drop c.mInfo.dirCacheCurrent =
    cachedFrom position (slice E position (c.net.cursor - position))
  le : position ≤ c.net.cursor
  bound : c.net.cursor ≤ E.length
  eof : c.mInfo.dirCacheEof = true → c.net.cursor = E.length

section

variable {batches : Nat → Nat} {fuel : Nat} {c : Client DirServer} {E : List DirEntry}
  {position : Nat}

/-- A request of a client that agrees with the server on the session. -/
theorem DirServer.transaction_answer (enough : 0 < fuel)
    (session : c.mInfo.session = c.net.session) (valid : c.net.session < 65536)
    (retries : 0 < c.mInfo.maxRetries) {command : UInt8} {payload reply : List UInt8}
    {s' : DirServer} (fits : payload.length ≤ 528)
    (h : c.net.answer batches command payload = (reply, s')) (short : reply.length ≤ 528)
    {result : UInt8} (first : reply.head? = some result)
    (conclusive : result ≠ Result.tryAgain ∧ result ≠ Result.invalidHandle) :
    ∃ p : Packet, transaction (DirServer.net batches) fuel (.request command payload)
        payload.length c = some (some p, ⟨c.mInfo.bump, s'⟩) ∧ ∃ rest, p.payload = reply ++ rest := by
  have header : u16 (lobyte c.mInfo.session) (hibyte c.mInfo.session) = c.net.session := by
    rw [session]
    exact u16_lobyte_hibyte valid
  obtain ⟨p, htx, hpayload, -⟩ := transaction_of_reply (n := s') (DirServer.net batches)
    command (lobyte c.mInfo.session) (hibyte c.mInfo.session) enough retries fits short first conclusive.1 conclusive.2 (by simp [DirServer.net, header, h])
  exact ⟨p, htx, hpayload⟩

theorem Listing.validHandle (listing : Listing E position c) :
    validAsUint8 c.mInfo.dirHandle = some c.net.handle := by
  rw [listing.handle, validAsUint8_toNat]

/-- An entry is still cached. -/
theorem Listing.getElem?_of_lt (listing : Listing E position c) (more : position < c.net.cursor) :
    ∃ e, E[position]? = some e ∧
      c.mInfo.dirCache[c.mInfo.dirCacheCurrent]? = some (e.cached position) ∧
      c.mInfo.dirCache.drop (c.mInfo.dirCacheCurrent + 1) =
        cachedFrom (position + 1) (slice E (position + 1) (c.net.cursor - (position + 1))) := by
  have bound := listing.bound
  have cached := listing.cached
  rw [slice_eq_cons E (by omega : position < E.length) (by omega), cachedFrom, Nat.sub_sub] at cached
  refine ⟨E[position], List.getElem?_eq_getElem _, ?_, ?_⟩
  · rw [← List.head?_drop, cached, List.head?_cons]
  · rw [← List.drop_drop, cached, List.drop_succ_cons, List.drop_zero]

/-- No entry is cached. -/
theorem Listing.getElem?_of_eq (listing : Listing E position c) (used : c.net.cursor = position) :
    c.mInfo.dirCache[c.mInfo.dirCacheCurrent]? = none := by
  have cached := listing.cached
  rw [used, Nat.sub_self, slice_zero, cachedFrom] at cached
  rw [← List.head?_drop, cached, List.head?_nil]

/-! ## The operations -/

theorem Listing.telldir (batches : Nat → Nat) (listing : Listing E position c) (enough : 0 < fuel)
    (count : E.length < 65536) :
    ∃ c', DirOp.telldir.perform (transaction (DirServer.net batches) fuel) c =
      some (⟨0, none, some position⟩, c') ∧ Listing E position c' := by
  have le := listing.le
  have bound := listing.bound
  simp only [DirOp.perform, tnfsTelldir, listing.validHandle, MountInfo.tellDircacheEntry]
  rcases Nat.lt_or_eq_of_le le with more | used
  · obtain ⟨e, -, found, -⟩ := listing.getElem?_of_lt more
    refine ⟨c, ?_, listing⟩
    simp only [found, DirEntry.cached]
    rw [if_pos (by omega)]
    simp
  · simp only [listing.getElem?_of_eq used.symm]
    obtain ⟨p, htx, rest, payload⟩ := DirServer.transaction_answer enough listing.session
      listing.valid listing.retries (by simp) (c.net.answer_telldir batches) (by simp) rfl
      (by decide)
    refine ⟨⟨c.mInfo.bump, c.net⟩, ?_, ⟨listing.session, listing.valid, listing.retries,
      listing.handle, listing.entries, listing.cached, le, bound, listing.eof⟩⟩
    have first := Packet.payloadByte_zero_of_payload payload
    have number : p.payloadU32 1 = c.net.cursor :=
      payloadU32_of_drop (by simp only [word]; omega) _ (by rw [payload]; rfl)
    simp only [List.length_singleton] at htx
    rw [if_neg (by decide)]
    simp only [Option.bind_eq_bind, htx, Option.bind_some, Option.map_some, first, if_true, number]
    rw [Nat.mod_eq_of_lt (by omega), ← used]
    rfl

theorem Listing.seekdir (batches : Nat → Nat) (listing : Listing E position c) (enough : 0 < fuel) {target : Nat}
    (inside : target ≤ E.length) (count : E.length < 65536) :
    ∃ c', (DirOp.seekdir target).perform (transaction (DirServer.net batches) fuel) c =
      some (⟨0, none, none⟩, c') ∧ Listing E target c' := by
  obtain ⟨p, htx, rest, payload⟩ := DirServer.transaction_answer enough
    (c := { c with mInfo := c.mInfo.emptyDircache }) listing.session listing.valid listing.retries
    (by simp) (c.net.answer_seekdir batches (by simp only [word]; omega) (listing.entries ▸ inside))
    (by simp) rfl (by decide)
  have first := Packet.payloadByte_zero_of_payload payload
  simp only [List.length_cons, length_le32] at htx
  refine ⟨⟨c.mInfo.emptyDircache.bump, { c.net with cursor := target }⟩, ?_,
    ⟨listing.session, listing.valid, listing.retries, listing.handle, listing.entries, ?_,
      Nat.le_refl _, inside, ?_⟩⟩
  · simp only [DirOp.perform, tnfsSeekdir, listing.validHandle, Option.bind_eq_bind, htx,
      Option.bind_some, Option.map_some, first]
    rfl
  · simp [MountInfo.bump, MountInfo.emptyDircache, cachedFrom]
  · simp [MountInfo.bump, MountInfo.emptyDircache]

/-- Reading when the cache is used up and the server has more. -/
theorem Listing.readdirx_batch (batches : Nat → Nat) (listing : Listing E position c) (enough : 0 < fuel)
    (count : E.length < 65536) (used : c.net.cursor = position) (more : position < E.length)
    (notEof : c.mInfo.dirCacheEof = false) (filestat : Stat) (len : Nat) :
    ∃ c', tnfsReaddirx (transaction (DirServer.net batches) fuel) filestat len c =
      some ((0, some (E[position].response filestat len)), c') ∧ Listing E (position + 1) c' := by
  obtain ⟨nonempty, atMost, within, batch, short⟩ :=
    c.net.nextBatch_spec (batches c.net.clock) (by rw [listing.entries]; omega)
  rw [listing.entries] at within batch
  have reply := c.net.answer_readdirx batches (UInt8.ofNat maxDircacheEntries)
  rw [DirServer.readdirx, if_neg (by rw [listing.entries]; omega)] at reply
  generalize c.net.nextBatch (batches c.net.clock) = es at *
  obtain ⟨p, htx, rest, payload⟩ := DirServer.transaction_answer enough
    (c := { c with mInfo := c.mInfo.emptyDircache }) listing.session listing.valid listing.retries
    (by simp) reply (by simp only [List.length_append, List.length_cons, List.length_nil]; omega)
    rfl (by decide)
  rw [show [c.net.handle, UInt8.ofNat maxDircacheEntries].length = 2 from rfl] at htx
  have first := Packet.payloadByte_zero_of_payload payload
  have number : (p.payloadByte 1).toNat = es.length := by
    have byte : p.payloadByte 1 = UInt8.ofNat es.length := by simp [Packet.payloadByte, payload]
    simp only [maxDircacheEntries] at atMost
    rw [byte, UInt8.toNat_ofNat']
    omega
  have status : p.payloadByte 2 &&& readdirxStatusEof ≠ 0 ↔ position + es.length = E.length := by
    have byte : p.payloadByte 2 = if position + es.length = E.length then 0x01 else 0x00 := by
      simp [Packet.payloadByte, payload, used, listing.entries]
    rw [byte]
    split_ifs with last <;> simp [readdirxStatusEof, last]
  have dirpos : p.payloadU16 3 = position := by
    have bytes : p.payloadByte 3 = lobyte position ∧ p.payloadByte 4 = hibyte position := by
      simp [Packet.payloadByte, payload, used]
    rw [Packet.payloadU16, bytes.1, bytes.2, u16_lobyte_hibyte (by omega)]
  have entries : p.payload.drop 5 = es.flatMap encode ++ rest := by simp [payload]
  have batch' : es = E[position] :: slice E (position + 1) (es.length - 1) := by
    conv_lhs => rw [batch, used]
    exact slice_eq_cons E more nonempty
  have filled (m : MountInfo) (empty : m.dirCache = []) :
      fillDircache p es.length position 5 m =
        { m with dirCache := cachedFrom position es } := by
    rw [fillDircache_encode entries (by rw [empty, List.length_nil]; omega) (by omega), empty,
      List.nil_append]
  have head : (cachedFrom position es)[0]? = some (E[position].cached position) := by
    rw [batch']
    rfl
  have miss : c.mInfo.nextDircacheEntry = none := by
    rw [MountInfo.nextDircacheEntry, listing.getElem?_of_eq used, Option.map_none]
  refine ⟨⟨{ c.mInfo.emptyDircache.bump with
    dirCacheEof := decide (position + es.length = E.length)
    dirCache := cachedFrom position es, dirCacheCurrent := 1 },
    { c.net with cursor := position + es.length, clock := c.net.clock + 1 }⟩, ?_, ?_⟩
  · simp only [tnfsReaddirx, listing.validHandle, miss, notEof, Bool.false_eq_true, if_false,
      Option.bind_eq_bind, htx, Option.bind_some, first, if_true, number, dirpos, used]
    have marked : (if p.payloadByte 2 &&& readdirxStatusEof ≠ 0 then
        { c.mInfo.emptyDircache.bump with dirCacheEof := true } else c.mInfo.emptyDircache.bump) =
        { c.mInfo.emptyDircache.bump with
          dirCacheEof := decide (position + es.length = E.length) } := by
      by_cases last : position + es.length = E.length
      · rw [if_pos (status.mpr last), decide_eq_true last]
      · rw [if_neg (fun h => last (status.mp h)), decide_eq_false last]
        rfl
    rw [marked, filled _ rfl]
    have next : (MountInfo.nextDircacheEntry { c.mInfo.emptyDircache.bump with
        dirCacheEof := decide (position + es.length = E.length)
        dirCache := cachedFrom position es }) =
        some (E[position].cached position, { c.mInfo.emptyDircache.bump with
          dirCacheEof := decide (position + es.length = E.length)
          dirCache := cachedFrom position es, dirCacheCurrent := 1 }) := by
      rw [MountInfo.nextDircacheEntry]
      exact congrArg (Option.map _) head
    simp only [next, readdirxFillResponse_cached]
    rfl
  · refine ⟨listing.session, listing.valid, listing.retries, listing.handle, listing.entries, ?_,
      by simp only; omega, by simp only; omega, by simp⟩
    simp only
    rw [batch', cachedFrom, List.drop_succ_cons, List.drop_zero]
    congr 2
    simp only [List.length_cons, length_slice]
    omega

theorem Listing.readdirx (batches : Nat → Nat) (listing : Listing E position c) (enough : 0 < fuel)
    (count : E.length < 65536) (filestat : Stat) (len : Nat) :
    ∃ c', (DirOp.readdirx filestat len).perform (transaction (DirServer.net batches) fuel) c =
      some (DirCursor.read E filestat len position, c') ∧
      Listing E (if position < E.length then position + 1 else position) c' := by
  have le := listing.le
  have bound := listing.bound
  rcases Nat.lt_or_eq_of_le le with cached | used
  · obtain ⟨e, known, found, rest⟩ := listing.getElem?_of_lt cached
    refine ⟨{ c with mInfo.dirCacheCurrent := c.mInfo.dirCacheCurrent + 1 }, ?_, ?_⟩
    · simp only [DirOp.perform, tnfsReaddirx, listing.validHandle, MountInfo.nextDircacheEntry,
        found, Option.map_some, DirCursor.read, known, readdirxFillResponse_cached]
    · rw [if_pos (by omega)]
      exact ⟨listing.session, listing.valid, listing.retries, listing.handle, listing.entries,
        rest, cached, bound, listing.eof⟩
  by_cases more : position < E.length
  · cases eof : c.mInfo.dirCacheEof with
    | true => exact absurd (listing.eof eof) (by omega)
    | false =>
        obtain ⟨c', performed, next⟩ :=
          listing.readdirx_batch batches enough count used.symm more eof filestat len
        refine ⟨c', ?_, by rwa [if_pos more]⟩
        simp only [DirOp.perform, performed, Option.map_some, DirCursor.read,
          List.getElem?_eq_getElem more]
  · rw [if_neg more, DirCursor.read, List.getElem?_eq_none (by omega)]
    have miss : c.mInfo.nextDircacheEntry = none := by
      rw [MountInfo.nextDircacheEntry, listing.getElem?_of_eq used.symm, Option.map_none]
    cases eof : c.mInfo.dirCacheEof with
    | true =>
        refine ⟨c, ?_, listing⟩
        simp [DirOp.perform, tnfsReaddirx, listing.validHandle, miss, eof]
    | false =>
        -- the position was sought, or the directory is empty: the server says that this is the end
        have reply := c.net.answer_readdirx batches (UInt8.ofNat maxDircacheEntries)
        rw [DirServer.readdirx, if_pos (by rw [listing.entries]; omega)] at reply
        obtain ⟨p, htx, rest, payload⟩ := DirServer.transaction_answer enough
          (c := { c with mInfo := c.mInfo.emptyDircache }) listing.session listing.valid
          listing.retries (by simp) reply (by simp) rfl (by decide)
        rw [show [c.net.handle, UInt8.ofNat maxDircacheEntries].length = 2 from rfl] at htx
        have first := Packet.payloadByte_zero_of_payload payload
        refine ⟨⟨c.mInfo.emptyDircache.bump, c.net⟩, ?_, ⟨listing.session, listing.valid,
          listing.retries, listing.handle, listing.entries, ?_, le, bound, ?_⟩⟩
        · simp only [DirOp.perform, tnfsReaddirx, listing.validHandle, miss, eof,
            Bool.false_eq_true, if_false, Option.bind_eq_bind, htx, Option.bind_some, first]
          rw [if_neg (by decide)]
          rfl
        · simp [MountInfo.bump, MountInfo.emptyDircache, used, cachedFrom]
        · simp [MountInfo.bump, MountInfo.emptyDircache]

end

/-- One operation. -/
theorem DirOp.perform_refines (batches : Nat → Nat) {fuel : Nat} {E : List DirEntry}
    (enough : 0 < fuel) (count : E.length < 65536) :
    Machine.Refines (DirOp.perform (transaction (DirServer.net batches) fuel))
      (DirCursor.perform E) (Listing E) (DirCursor.Admits E) := by
  intro op position c listing admits
  cases op with
  | readdirx filestat len => exact listing.readdirx batches enough count filestat len
  | telldir => exact listing.telldir batches enough count
  | seekdir target => exact listing.seekdir batches enough admits count

/-- `tnfs_opendirx` begins a listing. -/
theorem tnfsOpendirx_spec (batches : Nat → Nat) {fuel : Nat} {c : Client DirServer}
    {directory pattern : List UInt8} (sortopts diropts : UInt8) (maxresults : UInt16)
    (enough : 0 < fuel) (session : c.mInfo.session = c.net.session)
    (valid : c.net.session < 65536) (retries : 0 < c.mInfo.maxRetries)
    (good : GoodPath c.mInfo.currentWorkingDirectory directory) (short : pattern.length ≤ 255) :
    ∃ c', tnfsOpendirx (transaction (DirServer.net batches) fuel) directory sortopts diropts pattern
        maxresults c = some (0, c') ∧ Listing c.net.entries 0 c' := by
  have patternShort : (strlcpy pattern (payloadSize - 4 - 1)).length ≤ 255 := by
    have := (List.takeWhile_prefix (· ≠ 0) (l := pattern)).length_le
    simp only [strlcpy, List.length_take]
    omega
  generalize hheader : [diropts, sortopts, lobyte maxresults.toNat, hibyte maxresults.toNat] ++
    strlcpy pattern (payloadSize - 4 - 1) ++ [0] = header
  have headerShort : header.length ≤ 260 := by
    rw [← hheader]
    simp only [List.length_append, List.length_cons, List.length_nil]
    omega
  have pathShort := good.length_joinPath_le
  have adjusted := GoodPath.adjust (m := c.mInfo.emptyDircache) good
    (by simp only [payloadSize, maxFilelen]; omega : maxFilelen ≤ payloadSize - header.length)
  rw [show c.mInfo.emptyDircache.currentWorkingDirectory = c.mInfo.currentWorkingDirectory
    from rfl] at adjusted
  generalize joinPath c.mInfo.currentWorkingDirectory directory = path at *
  have size : ((header.length : Int) + path.length + 1).toNat =
      (header ++ path ++ [0]).length := by
    simp only [List.length_append, List.length_singleton]
    omega
  obtain ⟨p, htx, rest, payload⟩ := DirServer.transaction_answer enough
    (c := { c with mInfo := c.mInfo.emptyDircache }) session valid retries
    (by simp only [List.length_append, List.length_singleton, maxFilelen] at *; omega)
    (c.net.answer_opendirx batches (header ++ path ++ [0])) (by simp) rfl (by decide)
  have first := Packet.payloadByte_zero_of_payload payload
  have second : p.payloadByte 1 = c.net.handle := by simp [Packet.payloadByte, payload]
  simp only [tnfsOpendirx, hheader, adjusted, size, Option.bind_eq_bind, htx, Option.bind_some,
    first, if_true, second]
  refine ⟨_, rfl, ⟨session, valid, retries, rfl, rfl, ?_, Nat.le_refl _, Nat.zero_le _, ?_⟩⟩
  · simp [MountInfo.bump, MountInfo.emptyDircache, cachedFrom]
  · simp [MountInfo.bump, MountInfo.emptyDircache]

/-- A directory that was opened is listed exactly, whatever the server's batches. Reading on
and on gives its entries in order and then the end. After any operations, a position that
is told leads back, over any number of reads, to the entry that was next. -/
theorem directory_listing_exact (batches : Nat → Nat) {fuel : Nat} {c : Client DirServer}
    {directory pattern : List UInt8} (sortopts diropts : UInt8) (maxresults : UInt16)
    (enough : 0 < fuel) (session : c.mInfo.session = c.net.session)
    (valid : c.net.session < 65536) (retries : 0 < c.mInfo.maxRetries)
    (good : GoodPath c.mInfo.currentWorkingDirectory directory) (short : pattern.length ≤ 255)
    (count : c.net.entries.length < 65536) :
    ∃ c₁, tnfsOpendirx (transaction (DirServer.net batches) fuel) directory sortopts diropts
        pattern maxresults c = some (0, c₁) ∧
      (∀ filestat len k, ∃ c₂, Machine.run (DirOp.perform (transaction (DirServer.net batches) fuel))
          (List.replicate k (.readdirx filestat len)) c₁ =
        some ((List.range k).map (DirCursor.read c.net.entries filestat len), c₂)) ∧
      ∀ ops, Machine.Admissible (DirCursor.perform c.net.entries) (DirCursor.Admits c.net.entries)
          ops 0 →
        ∃ answers c₂, Machine.run (DirOp.perform (transaction (DirServer.net batches) fuel)) ops c₁ =
            some (answers, c₂) ∧
          ∀ filestat len k, ∃ position between next c₃ c₄ c₅ c₆ c₇,
            (DirOp.readdirx filestat len).perform (transaction (DirServer.net batches) fuel) c₂ =
              some (next, c₇) ∧
            DirOp.telldir.perform (transaction (DirServer.net batches) fuel) c₂ =
              some (⟨0, none, some position⟩, c₃) ∧
            Machine.run (DirOp.perform (transaction (DirServer.net batches) fuel))
              (List.replicate k (.readdirx filestat len)) c₃ = some (between, c₄) ∧
            (DirOp.seekdir position).perform (transaction (DirServer.net batches) fuel) c₄ =
              some (⟨0, none, none⟩, c₅) ∧
            (DirOp.readdirx filestat len).perform (transaction (DirServer.net batches) fuel) c₅ =
              some (next, c₆) := by
  obtain ⟨c₁, hopen, listing⟩ := tnfsOpendirx_spec batches sortopts diropts maxresults enough
    session valid retries good short
  have refines := DirOp.perform_refines batches enough count
  have allReads (filestat : Stat) (len k p : Nat) : Machine.Admissible
      (DirCursor.perform c.net.entries) (DirCursor.Admits c.net.entries)
      (List.replicate k (.readdirx filestat len)) p := by
    induction k generalizing p with
    | zero => trivial
    | succ k ih => exact ⟨trivial, ih _⟩
  refine ⟨c₁, hopen, fun filestat len k => ?_, fun ops admissible => ?_⟩
  · obtain ⟨c₂, hrun, -⟩ := refines.run listing (allReads filestat len k 0)
    rw [DirCursor.runTotal_readdirx _ _ _ _ _ (Nat.zero_le _)] at hrun
    simp only [Nat.zero_add] at hrun
    exact ⟨c₂, hrun⟩
  · obtain ⟨c₂, hrun, listing₂⟩ := refines.run listing admissible
    generalize (Machine.runTotal (DirCursor.perform c.net.entries) ops 0).2 = position at listing₂
    refine ⟨_, c₂, hrun, fun filestat len k => ?_⟩
    have inside : position ≤ c.net.entries.length := Nat.le_trans listing₂.le listing₂.bound
    obtain ⟨c₃, htell, listing₃⟩ := listing₂.telldir batches enough count
    obtain ⟨c₄, hreads, listing₄⟩ := refines.run listing₃ (allReads filestat len k position)
    obtain ⟨c₅, hseek, listing₅⟩ := listing₄.seekdir batches enough inside count
    obtain ⟨c₆, hnext, -⟩ := listing₅.readdirx batches enough count filestat len
    obtain ⟨c₇, hread, -⟩ := listing₂.readdirx batches enough count filestat len
    exact ⟨position, _, _, c₃, c₄, c₅, c₆, c₇, hread, htell, hreads, hseek, hnext⟩

/-- Two files in batches of one. -/
theorem directory_listing_exact_of_two_files :
    let file (name : UInt8) (h : 0 ∉ [name]) : DirEntry :=
      ⟨0, 3, 1, 2, [name], by decide, by decide, by decide, List.cons_ne_nil _ _, h,
        Nat.le_of_ble_eq_true rfl⟩
    let E : List DirEntry := [file 0x61 (by decide), file 0x62 (by decide)]
    let c : Client DirServer :=
      ⟨{ session := 1, mountpath := [0x2F], currentWorkingDirectory := [0x2F] },
        { session := 1, handle := 5, entries := E }⟩
    let stat : Stat := ⟨true, 0, 0, 0, 0, 7⟩
    ∃ c₁ c₂, tnfsOpendirx (transaction (DirServer.net fun _ => 1) 10) [0x2F] 0 0 [] 0 c =
        some (0, c₁) ∧
      Machine.run (DirOp.perform (transaction (DirServer.net fun _ => 1) 10))
        (List.replicate 3 (.readdirx stat 256)) c₁ =
          some ([⟨0, some (⟨false, 3, 0, 1, 2, 7⟩, [0x61]), none⟩,
            ⟨0, some (⟨false, 3, 0, 1, 2, 7⟩, [0x62]), none⟩,
            ⟨code Result.endOfFile, none, none⟩], c₂) := by
  intro file E c stat
  obtain ⟨c₁, hopen, reads, -⟩ := directory_listing_exact (fun _ => 1) (c := c)
    0 0 0 (by decide : 0 < 10) rfl (by decide) (by decide)
    (⟨by decide, by decide, by decide, by decide⟩ : GoodPath [0x2F] [0x2F])
    (by decide : ([] : List UInt8).length ≤ 255) (by decide)
  obtain ⟨c₂, hrun⟩ := reads stat 256 3
  refine ⟨c₁, c₂, hopen, hrun.trans ?_⟩
  simp [List.range_succ, DirCursor.read, DirEntry.response, c, E, file, stat]

end FujiNet.TNFS
