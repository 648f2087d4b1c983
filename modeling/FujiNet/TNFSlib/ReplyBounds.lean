import FujiNet.TNFSlib.Directory
import FujiNet.TNFSlib.Exchange
import FujiNet.Utils.Strings

/-!
# What a reply may make the client touch

`_tnfs_fill_cache` copies as many bytes as a READ reply says, and `tnfs_readdirx` walks
through as many entries as a READDIRX reply says. Neither looks at the length of the
reply or at what was asked for. `Access` lists the ranges that the source reads from
the payload and writes to the cache; they are inside if and only if the reply has the
form that the protocol gives it.

Transactions are arbitrary. How much of the payload was received is a function of the
state of the network after the transaction; the packet keeps older bytes behind it.
-/

namespace FujiNet.TNFS

/-- A range of the payload of the reply that is read, or of the cache that is written. -/
inductive Access where
  | payload (offset length : Nat)
  | cache (offset length : Nat)
  deriving DecidableEq, Repr

/-- Nothing outside the bytes received and outside the cache is touched. -/
def Access.Inside (reply : List UInt8) : Access → Prop
  | .payload offset length => length = 0 ∨ offset + length ≤ reply.length
  | .cache offset length => length = 0 ∨ offset + length ≤ fileCacheSize

instance (reply : List UInt8) (a : Access) : Decidable (a.Inside reply) := by
  cases a <;> exact inferInstanceAs (Decidable (_ ∨ _))

/-- The payload bytes that were received. -/
def Packet.arrived (packet : Packet) (received : Nat) : List UInt8 := packet.payload.take received

/-! ## READ -/

/-- The size of the next request. -/
def Filling.bytesToRead {ν : Type} (s : Filling ν) : Nat := min s.remaining maxReadwritePayload

/-- What one pass of the loop of `_tnfs_fill_cache` touches. -/
def fillAccesses {ν : Type} (s : Filling ν) (packet : Packet) : List Access :=
  .payload 0 1 ::
    if packet.payloadByte 0 = Result.success then
      [.payload 1 2, .cache (fileCacheSize - s.remaining) (packet.payloadU16 1),
        .payload 3 (packet.payloadU16 1)]
    else []

/-- A READ reply: a result, and behind a success a number of bytes, at most as many as asked
for, and so many bytes. -/
def IsReadReply (asked : Nat) (reply : List UInt8) : Prop :=
  ∃ result rest, reply = result :: rest ∧ (result = Result.success →
    ∃ lo hi data tail, rest = lo :: hi :: (data ++ tail) ∧ data.length = u16 lo hi ∧
      data.length ≤ asked)

section

variable {packet : Packet} {received : Nat}

theorem arrived_append (packet : Packet) (received : Nat) :
    packet.payload = packet.arrived received ++ packet.payload.drop received :=
  (List.take_append_drop received packet.payload).symm

/-- The copy stays inside if and only if the reply is one to the request. -/
theorem fillAccesses_inside_iff {ν : Type} {s : Filling ν} (packet : Packet) (received : Nat)
    (remaining : s.remaining ≤ fileCacheSize) :
    (∀ a ∈ fillAccesses s packet, a.Inside (packet.arrived received)) ↔
      IsReadReply s.bytesToRead (packet.arrived received) := by
  have asked : s.bytesToRead = s.remaining := by
    simp only [fileCacheSize] at remaining
    simp only [Filling.bytesToRead, maxReadwritePayload, payloadSize]
    omega
  have whole := arrived_append packet received
  generalize packet.arrived received = reply at *
  rw [asked, fillAccesses, List.forall_mem_cons]
  constructor
  · rintro ⟨first, rest⟩
    simp only [Access.Inside] at first
    obtain ⟨result, rest', rfl⟩ := List.exists_cons_of_length_pos (show 0 < reply.length by omega)
    refine ⟨result, rest', rfl, fun success => ?_⟩
    rw [if_pos ((Packet.payloadByte_zero_of_payload whole).trans success)] at rest
    simp only [List.forall_mem_cons, Access.Inside, List.length_cons] at rest
    obtain ⟨count, copied, data, -⟩ := rest
    match rest', count with
    | lo :: hi :: rest', _ =>
      have number : packet.payloadU16 1 = u16 lo hi := by
        rw [Packet.payloadU16, Packet.payloadByte_of_payload whole (by simp),
          Packet.payloadByte_of_payload whole (by simp)]
        rfl
      rw [number] at copied data
      simp only [List.length_cons] at data
      have length : (rest'.take (u16 lo hi)).length = u16 lo hi := by
        rw [List.length_take]
        omega
      exact ⟨lo, hi, rest'.take (u16 lo hi), rest'.drop (u16 lo hi), by
        rw [List.take_append_drop], length, by omega⟩
  · rintro ⟨result, rest, rfl, good⟩
    have first := Packet.payloadByte_zero_of_payload whole
    refine ⟨by simp [Access.Inside], ?_⟩
    rw [first]
    split
    · next success =>
      obtain ⟨lo, hi, data, tail, rfl, length, le⟩ := good success
      have number : packet.payloadU16 1 = u16 lo hi := by
        rw [Packet.payloadU16, Packet.payloadByte_of_payload whole (by simp),
          Packet.payloadByte_of_payload whole (by simp)]
        rfl
      simp only [List.forall_mem_cons, Access.Inside, number, List.length_cons, List.length_append]
      refine ⟨by omega, by omega, by omega, by simp⟩
    · simp

end

section

variable {ν : Type} (tx : Transact ν) (received : ν → Nat) (f : FileHandleInfo) (c : Client ν)

/-- The loop of `_tnfs_fill_cache` before its first pass. -/
def fillStart : Filling ν :=
  ⟨c, { f with cacheAvailable := 0, cacheStart := f.filePosition }, fileCacheSize⟩

/-- The answer to the request of a pass. -/
def ReadAnswered (s : Filling ν) (packet : Packet) (c' : Client ν) : Prop :=
  s.remaining ≠ 0 ∧
    tx (.request Cmd.read [s.file.handleId, lobyte s.bytesToRead, hibyte s.bytesToRead]) 3
      s.client = some (some packet, c')

/-- No reply to a READ corrupts the client: the copies stay inside, the cache does not hold more
than its size, and the loop goes round only finitely often. It goes round for every answer that
reports success. -/
structure FillSafe : Prop where
  inside : ∀ s, Loop.Reaches (fillPass tx) (fillStart f c) s → ∀ packet c',
    ReadAnswered tx s packet c' →
      ∀ a ∈ fillAccesses s packet, a.Inside (packet.arrived (received c'.net))
  available : ∀ fuel error f' c', fillCache tx fuel f c = some (error, f', c') →
    f'.cacheAvailable ≤ fileCacheSize
  ends : ∃ n, Loop.passes (fillPass tx) n (fillStart f c) = none

/-- Every answer is a READ reply, and all but finitely many of the successful ones bring a
byte at least. -/
structure GoodReads : Prop where
  replies : ∀ s, Loop.Reaches (fillPass tx) (fillStart f c) s → ∀ packet c',
    ReadAnswered tx s packet c' → IsReadReply s.bytesToRead (packet.arrived (received c'.net))
  progress : ∃ last, ∀ n ≥ last, ∀ s, Loop.passes (fillPass tx) n (fillStart f c) = some s →
    ∀ packet c', ReadAnswered tx s packet c' → packet.payloadByte 0 = Result.success →
      packet.payloadU16 1 ≠ 0

variable {tx}

theorem fillPass_eq_inl {s t : Filling ν} (pass : fillPass tx s = some (.inl t)) :
    ∃ packet c', ReadAnswered tx s packet c' ∧ packet.payloadByte 0 = Result.success ∧
      t.remaining = s.remaining - packet.payloadU16 1 ∧ packet.payloadU16 1 ≤ s.remaining ∧
      t.file.cacheAvailable = s.file.cacheAvailable := by
  simp only [fillPass] at pass
  split at pass
  · cases pass
  · next more =>
    obtain ⟨⟨reply, c'⟩, sent, pass⟩ := Option.bind_eq_some_iff.mp pass
    cases reply with
    | none => cases pass
    | some packet =>
        dsimp only at pass
        split at pass
        · next success =>
          split at pass
          · cases pass
          · next fits =>
            cases pass
            exact ⟨packet, c', ⟨more, sent⟩, success, rfl, Nat.not_lt.mp fits, rfl⟩
        · cases pass

theorem fillPass_eq_inr {s : Filling ν} {r : Int × Filling ν}
    (pass : fillPass tx s = some (.inr r)) : r.2.file = s.file := by
  simp only [fillPass] at pass
  split at pass
  · cases pass
    rfl
  · obtain ⟨⟨reply, c'⟩, sent, pass⟩ := Option.bind_eq_some_iff.mp pass
    cases reply with
    | none =>
        cases pass
        rfl
    | some packet =>
        dsimp only at pass
        split_ifs at pass
        · cases pass
        · cases pass
          rfl

theorem fillPass_of_answered {s : Filling ν} {packet : Packet} {c' : Client ν}
    (answered : ReadAnswered tx s packet c') (success : packet.payloadByte 0 = Result.success)
    (fits : packet.payloadU16 1 ≤ s.remaining) :
    ∃ t, fillPass tx s = some (.inl t) ∧ t.remaining = s.remaining - packet.payloadU16 1 := by
  have sent : tx (.request Cmd.read [s.file.handleId, lobyte (min s.remaining maxReadwritePayload),
      hibyte (min s.remaining maxReadwritePayload)]) 3 s.client = some (some packet, c') :=
    answered.2
  have pass : fillPass tx s = some (.inl
      { client := c'
        file := { s.file with
          cache := overlay s.file.cache (fileCacheSize - s.remaining)
            (slice packet.payload 3 (packet.payloadU16 1))
          filePosition := (s.file.filePosition + packet.payloadU16 1) % word }
        remaining := s.remaining - packet.payloadU16 1 }) := by
    simp only [fillPass, if_neg answered.1, sent, Option.bind_some, if_pos success,
      if_neg (Nat.not_lt.mpr fits)]
  exact ⟨_, pass, rfl⟩

variable {f c}

theorem remaining_le {s : Filling ν} (reached : Loop.Reaches (fillPass tx) (fillStart f c) s) :
    s.remaining ≤ fileCacheSize := by
  induction reached with
  | refl => exact Nat.le_refl _
  | tail _ pass ih =>
      obtain ⟨packet, c', -, -, fell, -⟩ := fillPass_eq_inl pass
      rw [fell]
      exact (Nat.sub_le _ _).trans ih

/-- The cache is empty after an error, and otherwise holds what is not left to load. -/
theorem fillCache_available {fuel : Nat} {error : Int} {f' : FileHandleInfo} {c' : Client ν}
    (filled : fillCache tx fuel f c = some (error, f', c')) :
    f'.cacheAvailable ≤ fileCacheSize := by
  obtain ⟨⟨error', s⟩, ran, filled⟩ := Option.bind_eq_some_iff.mp filled
  have untouched : s.file.cacheAvailable = 0 := by
    refine Loop.run_post (fun s => s.file.cacheAvailable = 0)
      (fun r : Int × Filling ν => r.2.file.cacheAvailable = 0) ran rfl ?_ ?_
    · intro s t empty pass
      obtain ⟨-, -, -, -, -, -, kept⟩ := fillPass_eq_inl pass
      exact kept.trans empty
    · intro s r empty pass
      rw [fillPass_eq_inr pass]
      exact empty
  dsimp only at filled
  split at filled
  · cases filled
    exact Nat.sub_le _ _
  · cases filled
    rw [untouched]
    exact Nat.zero_le _

variable (tx f c)

theorem fillSafe_iff : FillSafe tx received f c ↔ GoodReads tx received f c := by
  have same {s} (reached : Loop.Reaches (fillPass tx) (fillStart f c) s) (packet : Packet)
      (c' : Client ν) := fillAccesses_inside_iff packet (received c'.net) (remaining_le reached)
  have ending := Loop.ends_iff_falls Filling.remaining
    fun s t (_ : Loop.Reaches (fillPass tx) (fillStart f c) s) pass => by
      obtain ⟨packet, c', -, -, fell, -⟩ := fillPass_eq_inl pass
      omega
  constructor
  · rintro ⟨inside, -, ends⟩
    have replies : ∀ s, Loop.Reaches (fillPass tx) (fillStart f c) s → ∀ packet c',
        ReadAnswered tx s packet c' →
          IsReadReply s.bytesToRead (packet.arrived (received c'.net)) :=
      fun s reached packet c' answered =>
        (same reached packet c').mp (inside s reached packet c' answered)
    obtain ⟨last, falls⟩ := ending.mp ends
    refine ⟨replies, last, fun n behind s there packet c' answered success zero => ?_⟩
    obtain ⟨t, pass, fell⟩ := fillPass_of_answered answered success (by omega)
    exact falls n behind s t there pass (by omega)
  · rintro ⟨replies, last, progress⟩
    refine ⟨fun s reached packet c' answered => (same reached packet c').mpr
      (replies s reached packet c' answered), fun _ _ _ _ => fillCache_available, ?_⟩
    refine ending.mpr ⟨last, fun n behind s t there pass idle => ?_⟩
    obtain ⟨packet, c', answered, success, fell, fits, -⟩ := fillPass_eq_inl pass
    exact progress n behind s there packet c' answered success (by omega)

end

/-! ## READDIRX -/

/-- The loop that fills the directory cache, as `fillDircache`: flags, size, two times and the
name with its NUL. `strlcpy` reads its source to the NUL. -/
def dircacheAccesses (packet : Packet) : Nat → Nat → Nat → MountInfo → List Access
  | 0, _, _, _ => []
  | n + 1, dirpos, offset, m =>
    let (entry, nameLen) := readdirxEntry packet dirpos offset
    match m.newDircacheEntry entry with
    | none => []
    | some m =>
      .payload offset 1 :: .payload (offset + 1) 4 :: .payload (offset + 5) 4 ::
        .payload (offset + 9) 4 :: .payload (offset + 13) (nameLen + 1) ::
        dircacheAccesses packet n (dirpos + 1) (offset + (14 + nameLen)) m

/-- What `tnfs_readdirx` reads of the reply. -/
def readdirxAccesses (packet : Packet) (m : MountInfo) : List Access :=
  .payload 0 1 ::
    if packet.payloadByte 0 = Result.success then
      .payload 1 1 :: .payload 2 1 :: .payload 3 2 ::
        dircacheAccesses packet (packet.payloadByte 1).toNat (packet.payloadU16 3) 5 m
    else []

/-- An entry of a READDIRX reply: flags, size and times, the name and its NUL. -/
def IsEntry (bytes : List UInt8) : Prop :=
  ∃ header name, header.length = 13 ∧ 0 ∉ name ∧ bytes = header ++ (name ++ [0])

/-- Some bytes begin with `n` entries. -/
def BeginsWithEntries : Nat → List UInt8 → Prop
  | 0, _ => True
  | n + 1, bytes => ∃ entry rest, IsEntry entry ∧ bytes = entry ++ rest ∧ BeginsWithEntries n rest

/-- A READDIRX reply: a result, and behind a success a number of entries, status, position
and the entries, as far as there is room for them. -/
def IsReaddirxReply (room : Nat) (reply : List UInt8) : Prop :=
  ∃ result rest, reply = result :: rest ∧ (result = Result.success →
    ∃ count status lo hi entries, rest = count :: status :: lo :: hi :: entries ∧
      BeginsWithEntries (min count.toNat room) entries)

section

variable {packet : Packet} {received : Nat}

/-- Behind a name that is not the whole text there is its NUL. -/
theorem exists_nul {text : List UInt8} (short : (text.takeWhile (· ≠ 0)).length < text.length) :
    0 ∉ text.takeWhile (· ≠ 0) ∧ text = text.takeWhile (· ≠ 0) ++
      ([0] ++ text.drop ((text.takeWhile (· ≠ 0)).length + 1)) := by
  induction text with
  | nil => simp at short
  | cons b text ih =>
      by_cases nul : b = 0
      · subst nul
        simp
      · simp only [List.takeWhile_cons, ne_eq, nul, not_false_eq_true, decide_true, if_true,
          List.length_cons, Nat.add_lt_add_iff_right] at short ⊢
        obtain ⟨free, split⟩ := ih short
        refine ⟨?_, ?_⟩
        · rw [List.mem_cons, not_or]
          exact ⟨Ne.symm nul, free⟩
        · rw [List.drop_succ_cons]
          exact congrArg (b :: ·) split

section

variable {offset nameLen : Nat}
  (length : nameLen = ((packet.payload.drop (offset + 13)).takeWhile (· ≠ 0)).length)
include length

/-- An entry that is read inside is there, with its NUL. -/
theorem entry_of_inside (inside : offset + 13 + (nameLen + 1) ≤ (packet.arrived received).length) :
    ∃ entry, IsEntry entry ∧ (packet.arrived received).drop offset =
      entry ++ (packet.arrived received).drop (offset + (14 + nameLen)) := by
  have whole := arrived_append packet received
  generalize packet.arrived received = reply at *
  rw [whole, List.drop_append_of_le_length (by omega), List.takeWhile_append] at length
  have size : (reply.drop (offset + 13)).length = reply.length - (offset + 13) :=
    List.length_drop
  split_ifs at length with unterminated
  · rw [List.length_append] at length
    omega
  have short : ((reply.drop (offset + 13)).takeWhile (· ≠ 0)).length <
      (reply.drop (offset + 13)).length := by omega
  obtain ⟨free, split⟩ := exists_nul short
  rw [← length, List.drop_drop] at split
  have header : ((reply.drop offset).take 13).length = 13 := by
    rw [List.length_take, List.length_drop]
    omega
  refine ⟨_, ⟨(reply.drop offset).take 13, _, header, free, rfl⟩, ?_⟩
  conv_lhs => rw [← List.take_append_drop 13 (reply.drop offset), List.drop_drop, split]
  rw [show offset + 13 + (nameLen + 1) = offset + (14 + nameLen) by omega]
  simp only [List.append_assoc]

/-- An entry that is there is read inside. -/
theorem inside_of_entry {entry rest : List UInt8} (isEntry : IsEntry entry)
    (here : (packet.arrived received).drop offset = entry ++ rest) :
    offset + 13 + (nameLen + 1) ≤ (packet.arrived received).length ∧
      rest = (packet.arrived received).drop (offset + (14 + nameLen)) := by
  have whole := arrived_append packet received
  generalize packet.arrived received = reply at *
  obtain ⟨header, name, header_length, free, rfl⟩ := isEntry
  have size := congrArg List.length here
  simp only [List.length_drop, List.length_append, header_length, List.length_singleton] at size
  have behind : reply.drop (offset + 13) = name ++ 0 :: rest := by
    rw [← List.drop_drop, here, List.append_assoc, List.drop_left' header_length]
    simp
  rw [whole, List.drop_append_of_le_length (by omega), behind, List.append_assoc, List.cons_append,
    Utils.takeWhile_append_zero free] at length
  subst length
  refine ⟨by omega, ?_⟩
  rw [← List.drop_drop, here, List.drop_left']
  simp only [List.length_append, header_length, List.length_singleton]
  omega

end

/-- The loop stays inside if and only if the entries are there. -/
theorem dircacheAccesses_inside_iff (packet : Packet) (received n dirpos offset : Nat)
    (m : MountInfo) :
    (∀ a ∈ dircacheAccesses packet n dirpos offset m, a.Inside (packet.arrived received)) ↔
      BeginsWithEntries (min n (maxDircacheEntries - m.dirCache.length))
        ((packet.arrived received).drop offset) := by
  induction n generalizing dirpos offset m with
  | zero => simp [dircacheAccesses, BeginsWithEntries]
  | succ n ih =>
      obtain ⟨entry, nameLen, readEntry, length⟩ : ∃ entry nameLen,
          readdirxEntry packet dirpos offset = (entry, nameLen) ∧
            nameLen = ((packet.payload.drop (offset + 13)).takeWhile (· ≠ 0)).length :=
        ⟨_, _, rfl, rfl⟩
      simp only [dircacheAccesses, readEntry, MountInfo.newDircacheEntry]
      by_cases full : m.dirCache.length ≥ maxDircacheEntries
      · rw [if_pos full, show maxDircacheEntries - m.dirCache.length = 0 by omega, Nat.min_zero]
        simp [BeginsWithEntries]
      · rw [if_neg full, show min (n + 1) (maxDircacheEntries - m.dirCache.length) =
          min n (maxDircacheEntries - (m.dirCache.length + 1)) + 1 by omega]
        have rest := ih (dirpos + 1) (offset + (14 + nameLen))
          { m with dirCache := m.dirCache ++ [entry] }
        simp only [List.length_append, List.length_singleton] at rest
        simp only [List.forall_mem_cons, Access.Inside, BeginsWithEntries]
        constructor
        · rintro ⟨-, -, -, -, name, more⟩
          obtain ⟨bytes, isEntry, here⟩ := entry_of_inside length
            (show offset + 13 + (nameLen + 1) ≤ (packet.arrived received).length by omega)
          exact ⟨bytes, _, isEntry, here, rest.mp more⟩
        · rintro ⟨bytes, _, isEntry, here, more⟩
          obtain ⟨inside, rfl⟩ := inside_of_entry length isEntry here
          exact ⟨by omega, by omega, by omega, by omega, by omega, rest.mpr more⟩

/-- `tnfs_readdirx` stays inside if and only if the reply has the form of one. -/
theorem readdirxAccesses_inside_iff (m : MountInfo) :
    (∀ a ∈ readdirxAccesses packet m, a.Inside (packet.arrived received)) ↔
      IsReaddirxReply (maxDircacheEntries - m.dirCache.length) (packet.arrived received) := by
  have whole := arrived_append packet received
  have entries := dircacheAccesses_inside_iff packet received
    (packet.payloadByte 1).toNat (packet.payloadU16 3) 5 m
  generalize packet.arrived received = reply at *
  rw [readdirxAccesses, List.forall_mem_cons]
  constructor
  · rintro ⟨first, rest⟩
    simp only [Access.Inside] at first
    obtain ⟨result, rest', rfl⟩ := List.exists_cons_of_length_pos (show 0 < reply.length by omega)
    refine ⟨result, rest', rfl, fun success => ?_⟩
    rw [if_pos ((Packet.payloadByte_zero_of_payload whole).trans success)] at rest
    simp only [List.forall_mem_cons, Access.Inside, List.length_cons] at rest
    obtain ⟨-, -, header, rest⟩ := rest
    match rest', header with
    | count :: status :: lo :: hi :: rest', _ =>
      have number : packet.payloadByte 1 = count := Packet.payloadByte_of_payload whole (by simp)
      exact ⟨count, status, lo, hi, rest', rfl, number ▸ entries.mp rest⟩
  · rintro ⟨result, rest, rfl, good⟩
    refine ⟨by simp [Access.Inside], ?_⟩
    rw [Packet.payloadByte_zero_of_payload whole]
    split
    · next success =>
      obtain ⟨count, status, lo, hi, rest', rfl, begins⟩ := good success
      have number : packet.payloadByte 1 = count := Packet.payloadByte_of_payload whole (by simp)
      simp only [List.forall_mem_cons, Access.Inside, List.length_cons]
      exact ⟨by omega, by omega, by omega, entries.mpr (number ▸ begins)⟩
    · simp

end

section

variable {ν : Type} (tx : Transact ν) (received : ν → Nat) (c : Client ν)

/-- The answer to the request of `tnfs_readdirx`, which it only sends when no entry is cached. -/
def ReaddirxAnswered (packet : Packet) (c' : Client ν) : Prop :=
  ∃ h, validAsUint8 c.mInfo.dirHandle = some h ∧ c.mInfo.nextDircacheEntry = none ∧
    c.mInfo.dirCacheEof = false ∧
    tx (.request Cmd.readdirx [h, UInt8.ofNat maxDircacheEntries]) 2
      { c with mInfo := c.mInfo.emptyDircache } = some (some packet, c')

/-- No reply to a READDIRX makes the client read outside it. -/
def ReaddirxSafe : Prop :=
  ∀ packet c', ReaddirxAnswered tx c packet c' →
    ∀ a ∈ readdirxAccesses packet c'.mInfo, a.Inside (packet.arrived (received c'.net))

/-- Every answer is a READDIRX reply. -/
def GoodReaddirx : Prop :=
  ∀ packet c', ReaddirxAnswered tx c packet c' →
    IsReaddirxReply (maxDircacheEntries - c'.mInfo.dirCache.length)
      (packet.arrived (received c'.net))

/-- Server answers leave the client intact exactly if they have the form of replies to the
requests. -/
theorem server_answers_safe_iff (f : FileHandleInfo) :
    FillSafe tx received f c ∧ ReaddirxSafe tx received c ↔
      GoodReads tx received f c ∧ GoodReaddirx tx received c := by
  rw [fillSafe_iff, ReaddirxSafe, GoodReaddirx]
  refine and_congr Iff.rfl (forall₂_congr fun packet c' => imp_congr_right fun _ => ?_)
  exact readdirxAccesses_inside_iff c'.mInfo

end

/-- A server that reports 513 bytes to every request. -/
def boastful : Net Unit where
  send d _ := (some [{ datagram := [d.getD 0 0, d.getD 1 0, d.getD 2 0, d.getD 3 0,
    Result.success, 1, 2] }], ())

/-- One byte is copied past the end of the cache. -/
theorem boastful_overflows :
    ¬(FillSafe (transaction boastful 1) (fun _ => 3) {} ⟨{ session := 1 }, ()⟩ ∧
      ReaddirxSafe (transaction boastful 1) (fun _ => 3) ⟨{ session := 1 }, ()⟩) := by
  rintro ⟨⟨inside, -, -⟩, -⟩
  obtain ⟨p, sent, ⟨rest, payload⟩, -⟩ := transaction_of_reply (n := ())
    (c := ⟨{ session := 1 }, ()⟩) (r := [0, 1, 2]) boastful Cmd.read 1 0 Nat.one_pos (by decide)
    (show ([0, lobyte 512, hibyte 512] : List UInt8).length ≤ 528 by decide) (by decide) rfl
    (by decide) (by decide) rfl
  have answered : ReadAnswered (transaction boastful 1) (fillStart {} ⟨{ session := 1 }, ()⟩) p
      ⟨_, ()⟩ := ⟨by decide, sent⟩
  have success : p.payloadByte 0 = Result.success := Packet.payloadByte_zero_of_payload payload
  have number : p.payloadU16 1 = 513 := by
    rw [Packet.payloadU16, Packet.payloadByte_of_payload payload (by decide),
      Packet.payloadByte_of_payload payload (by decide)]
    rfl
  have copied : Access.cache 0 513 ∈ fillAccesses (fillStart {} ⟨{ session := 1 }, ()⟩) p := by
    rw [fillAccesses, if_pos success, number]
    exact .tail _ (.tail _ (.head _))
  have := inside _ .refl p _ answered _ copied
  simp [Access.Inside, fileCacheSize] at this

end FujiNet.TNFS
