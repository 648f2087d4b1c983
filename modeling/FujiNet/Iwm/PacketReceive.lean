import Mathlib.Tactic.IntervalCases
import FujiNet.Iwm.PacketCodec

/-!
# Packets on the wire

`iwm_sp_ll::iwm_read_packet_spi` adds up the checksum of a packet while the
packet comes in. Before each byte it looks at `idx`, the place of that byte, and
takes in what has become complete: a byte of the header, the odd bytes, a group.
It finds the ends of these parts from the two counts in the header, and the
checksum that was sent from all of them.

`iwm_sp_ll::encode_spi_packet` goes the other way and turns `packet_buffer` up
to the first zero into samples for the SPI line, four to a byte.
-/

namespace FujiNet.Iwm

/-! ## The receive loop -/

/-- The variables of the loop that the checksum needs. -/
structure ChecksumState where
  checksum : UInt8
  numodd : UInt8
  numgrps : UInt8
  oddbits : UInt8
  evenbits : UInt8
  grpstart : Nat
  group : Nat
  deriving DecidableEq, Repr

/-- Their values at the start. -/
def ChecksumState.initial : ChecksumState := ⟨0, 0, 0, 0, 0, 14, 0⟩

/-- The part of a pass that adds up the checksum, before the byte at `idx` is read. -/
def calcChecksum (buffer : Nat → UInt8) (idx : Nat) (s : ChecksumState) : ChecksumState :=
  if 6 < idx ∧ idx < 12 then { s with checksum := s.checksum ^^^ buffer (idx - 1) }
  else if idx = 12 then
    { s with numodd := buffer (idx - 1) &&& 0x7f, checksum := s.checksum ^^^ buffer (idx - 1) }
  else if idx = 13 then
    { s with numgrps := buffer (idx - 1) &&& 0x7f, checksum := s.checksum ^^^ buffer (idx - 1) }
  else if s.numodd ≠ 0 ∧ idx = 14 + s.numodd.toNat then
    { s with
      checksum := (List.range s.numodd.toNat).foldl
        (fun checksum i => checksum ^^^
          ((shl (buffer (idx - 1 - s.numodd.toNat)) (i + 1) &&& 0x80) |||
            (buffer (idx - s.numodd.toNat + i) &&& 0x7f)))
        s.checksum
      grpstart := 14 + s.numodd.toNat + 1 }
  else if s.numgrps ≠ 0 ∧ s.group < s.numgrps.toNat ∧ idx = s.grpstart + s.group * 8 + 7 then
    -- the seven lines of the source, for the bytes at `idx - 7` to `idx - 1`
    { s with
      checksum := (List.range 7).foldl
        (fun checksum i => checksum ^^^
          ((shl (buffer (idx - 8)) (i + 1) &&& 0x80) ||| (buffer (idx - 7 + i) &&& 0x7f)))
        s.checksum
      group := s.group + 1 }
  else if idx = 14 + s.numodd.toNat + oddFlag s.numodd.toNat + s.numgrps.toNat * 8 + 1 then
    { s with evenbits := buffer (idx - 2) &&& 0x55, oddbits := shl (buffer (idx - 1) &&& 0x55) 1 }
  else s

/-- The receiver between two bytes. -/
structure Receiver where
  buffer : Nat → UInt8
  idx : Nat
  synced : Bool
  sums : ChecksumState

/-- One pass of the loop of `iwm_sp_ll::iwm_read_packet_spi`, for the byte that the
samples of the line stand for. -/
def Receiver.receive (r : Receiver) (rxbyte : UInt8) : Receiver :=
  let sums := calcChecksum r.buffer r.idx r.sums
  let found := rxbyte = 0xc3 ∧ r.synced = false
  let idx := if found then 5 else r.idx
  { buffer := Function.update r.buffer idx rxbyte
    idx := idx + 1
    synced := r.synced || decide found
    sums := sums }

/-- The loop, until nothing more comes in or `idx` has passed `n`. -/
def Receiver.run (n : Nat) (r : Receiver) : List UInt8 → Receiver
  | [] => r
  | rxbyte :: rest =>
    let r := r.receive rxbyte
    if n < r.idx then r else r.run n rest

/-- The loop from its start. -/
def Receiver.initial (buffer : Nat → UInt8) : Receiver := ⟨buffer, 0, false, .initial⟩

/-- What `iwm_sp_ll::iwm_read_packet_spi` returns after the loop. A payload of the sizes
of the Liron workaround passes also with the checksum that failed last. -/
def ChecksumState.result (s : ChecksumState) (last_checksum : UInt8) : Nat :=
  let size := s.numodd.toNat + s.numgrps.toNat * 7
  if s.checksum = s.oddbits ||| s.evenbits then 0
  else if (0xff < size ∧ size < 0x200) ∧ s.checksum = last_checksum then 0
  else 2

/-! ## Samples for the SPI line -/

/-- The four bytes of `spi_buffer` for a byte of the packet. -/
def spiBytes (b : UInt8) : List UInt8 :=
  (List.range 4).map fun k =>
    (if b &&& shr 0x80 (2 * k) ≠ 0 then 0x40 else 0) |||
      (if b &&& shr 0x80 (2 * k + 1) ≠ 0 then 0x04 else 0)

/-- The loop of `iwm_sp_ll::encode_spi_packet` over `packet_buffer`, which ends at the
first zero; `none` when there is none in the buffer. -/
def encodeSpi : List UInt8 → Option (List UInt8)
  | [] => none
  | b :: rest => if b = 0 then some [] else (encodeSpi rest).map (spiBytes b ++ ·)

/-- What is left in `spi_buffer` and `spi_len` by `iwm_sp_ll::encode_spi_packet`. -/
def encodeSpiPacket (packet_buffer : Nat → UInt8) : Option (List UInt8 × UInt16) :=
  (encodeSpi ((List.range BLOCK_PACKET_LEN).map packet_buffer)).map fun spi_buffer =>
    (spi_buffer, spi_buffer.length.toUInt16 - 1)

/-! ## The checksum over a packet -/

/-- The checksum part of the passes for the bytes at `idx` and after it. -/
def calcChecksums (buffer : Nat → UInt8) (idx : Nat) : Nat → ChecksumState → ChecksumState
  | 0, s => s
  | count + 1, s => calcChecksums buffer (idx + 1) count (calcChecksum buffer idx s)

theorem calcChecksums_add (buffer : Nat → UInt8) (idx m n : Nat) (s : ChecksumState) :
    calcChecksums buffer idx (m + n) s =
      calcChecksums buffer (idx + m) n (calcChecksums buffer idx m s) := by
  induction m generalizing idx s with
  | zero => simp [calcChecksums]
  | succ m ih =>
      have next : m + 1 + n = m + n + 1 := by omega
      have place : idx + (m + 1) = idx + 1 + m := by omega
      rw [next, calcChecksums, ih, calcChecksums, place]

theorem calcChecksums_succ (buffer : Nat → UInt8) (idx n : Nat) (s : ChecksumState) :
    calcChecksums buffer idx (n + 1) s =
      calcChecksum buffer (idx + n) (calcChecksums buffer idx n s) :=
  calcChecksums_add buffer idx n 1 s

/-- Only bytes that came in before are looked at. -/
theorem calcChecksum_congr {buffer buffer' : Nat → UInt8} {idx : Nat}
    (same : ∀ i < idx, buffer i = buffer' i) (s : ChecksumState) :
    calcChecksum buffer idx s = calcChecksum buffer' idx s := by
  unfold calcChecksum
  split
  · rw [same _ (by omega)]
  split
  · rw [same _ (by omega)]
  split
  · rw [same _ (by omega)]
  split
  · rename_i odd
    rw [same _ (by omega)]
    congr 1
    apply List.foldl_ext
    intro checksum i hi
    rw [same _ (by have := List.mem_range.mp hi; omega)]
  split
  · rename_i group
    rw [same _ (by omega)]
    congr 1
    apply List.foldl_ext
    intro checksum i hi
    rw [same _ (by have := List.mem_range.mp hi; omega)]
  split
  · rw [same _ (by omega), same _ (by omega)]
  · rfl

/-- At the other places nothing is added up. -/
structure Quiet (idx : Nat) (s : ChecksumState) : Prop where
  header : idx ≤ 6 ∨ 14 ≤ idx
  odd : s.numodd.toNat ≠ 0 → idx ≠ 14 + s.numodd.toNat
  group : s.group < s.numgrps.toNat → idx ≠ s.grpstart + s.group * 8 + 7
  sent : idx ≠ 14 + s.numodd.toNat + oddFlag s.numodd.toNat + s.numgrps.toNat * 8 + 1

/-- The place behind the last odd byte. -/
theorem calcChecksum_odd (buffer : Nat → UInt8) {s : ChecksumState} (odd : s.numodd.toNat ≠ 0) :
    calcChecksum buffer (14 + s.numodd.toNat) s =
      { s with
        checksum := ((List.range s.numodd.toNat).map fun i =>
          (shl (buffer 13) (i + 1) &&& 0x80) ||| (buffer (14 + i) &&& 0x7f)).foldl (· ^^^ ·)
            s.checksum
        grpstart := 14 + s.numodd.toNat + 1 } := by
  have some : s.numodd ≠ 0 := fun zero => odd (by rw [zero]; rfl)
  have msb : 14 + s.numodd.toNat - 1 - s.numodd.toNat = 13 := by omega
  have first : 14 + s.numodd.toNat - s.numodd.toNat = 14 := by omega
  rw [calcChecksum, if_neg (by omega), if_neg (by omega), if_neg (by omega), if_pos ⟨some, rfl⟩,
    List.foldl_map, msb, first]

/-- The place behind the last byte of a group. -/
theorem calcChecksum_group (buffer : Nat → UInt8) {s : ChecksumState} (start : Nat)
    (late : 14 + s.numodd.toNat ≤ start) (inside : s.group < s.numgrps.toNat)
    (place : start = s.grpstart + s.group * 8) :
    calcChecksum buffer (start + 7) s =
      { s with
        checksum := ((List.range 7).map fun i =>
          (shl (buffer (start - 1)) (i + 1) &&& 0x80) ||| (buffer (start + i) &&& 0x7f)).foldl
            (· ^^^ ·) s.checksum
        group := s.group + 1 } := by
  have some : s.numgrps ≠ 0 := by
    intro zero
    rw [zero] at inside
    exact Nat.not_lt_zero _ inside
  have noOdd : ¬ (s.numodd ≠ 0 ∧ start + 7 = 14 + s.numodd.toNat) := by omega
  have msb : start + 7 - 8 = start - 1 := by omega
  have first : start + 7 - 7 = start := by omega
  rw [calcChecksum, if_neg (by omega), if_neg (by omega), if_neg (by omega), if_neg noOdd,
    if_pos ⟨some, inside, by rw [place]⟩, List.foldl_map, msb, first]

/-- The place behind the checksum that was sent. -/
theorem calcChecksum_sent (buffer : Nat → UInt8) {s : ChecksumState} (group : s.group = s.numgrps.toNat) :
    calcChecksum buffer
        (14 + s.numodd.toNat + oddFlag s.numodd.toNat + s.numgrps.toNat * 8 + 1) s =
      { s with
        evenbits :=
          buffer (14 + s.numodd.toNat + oddFlag s.numodd.toNat + s.numgrps.toNat * 8 - 1) &&& 0x55
        oddbits :=
          shl (buffer (14 + s.numodd.toNat + oddFlag s.numodd.toNat + s.numgrps.toNat * 8) &&& 0x55)
            1 } := by
  have noOdd : ¬ (s.numodd ≠ 0 ∧
      14 + s.numodd.toNat + oddFlag s.numodd.toNat + s.numgrps.toNat * 8 + 1 =
        14 + s.numodd.toNat) := by omega
  rw [calcChecksum, if_neg (by omega), if_neg (by omega), if_neg (by omega), if_neg noOdd,
    if_neg (by omega), if_pos rfl]
  congr 1

theorem calcChecksum_quiet (buffer : Nat → UInt8) {idx : Nat} {s : ChecksumState}
    (quiet : Quiet idx s) : calcChecksum buffer idx s = s := by
  obtain ⟨header, odd, group, sent⟩ := quiet
  have noOdd : ¬ (s.numodd ≠ 0 ∧ idx = 14 + s.numodd.toNat) := by
    rintro ⟨some, place⟩
    exact odd (fun zero => some (UInt8.toNat_inj.mp zero)) place
  have noGroup :
      ¬ (s.numgrps ≠ 0 ∧ s.group < s.numgrps.toNat ∧ idx = s.grpstart + s.group * 8 + 7) := by
    rintro ⟨-, inside, place⟩
    exact group inside place
  rw [calcChecksum, if_neg (by omega), if_neg (by omega), if_neg (by omega), if_neg noOdd,
    if_neg noGroup, if_neg sent]

theorem calcChecksums_quiet (buffer : Nat → UInt8) {idx n : Nat} {s : ChecksumState}
    (quiet : ∀ i < n, Quiet (idx + i) s) : calcChecksums buffer idx n s = s := by
  induction n with
  | zero => rfl
  | succ n ih =>
      rw [calcChecksums_succ, ih (fun i hi => quiet i (Nat.lt_succ_of_lt hi)),
        calcChecksum_quiet buffer (quiet n (Nat.lt_succ_self n))]

/-- The header: both counts are known and all its bytes are in the checksum. -/
theorem calcChecksums_header (buffer : Nat → UInt8) :
    calcChecksums buffer 0 14 .initial =
      { ChecksumState.initial with
        checksum := ((List.range 7).map fun i => buffer (6 + i)).foldl (· ^^^ ·) 0
        numodd := buffer 11 &&& 0x7f
        numgrps := buffer 12 &&& 0x7f } := by
  simp [calcChecksums, calcChecksum, ChecksumState.initial, oddFlag, List.range_succ]

namespace Layout

variable {image : Nat → UInt8} {front data : List UInt8}

/-- Where the groups begin in a packet without its first sync byte. -/
def grpstart (data : List UInt8) : Nat := 14 + data.length % 7 + oddFlag (data.length % 7)

/-- The state when some parts have been added up. -/
def sums (image : Nat → UInt8) (checksum : UInt8) (grpstart group : Nat) : ChecksumState :=
  { ChecksumState.initial with
    checksum := checksum
    numodd := image 12 &&& 0x7f
    numgrps := image 13 &&& 0x7f
    grpstart := grpstart
    group := group }

theorem sums_header (layout : Layout image front data) (len : front.length = 14) :
    calcChecksums (fun i => image (i + 1)) 0 14 .initial =
      sums image ((front.drop 7).foldl (· ^^^ ·) 0) 14 0 := by
  have read : (List.range 7).map (fun i => image (6 + i + 1)) = front.drop 7 := by
    have all := map_getD_range front (by omega : 7 + 7 ≤ front.length)
    have whole : (front.drop 7).length ≤ 7 := by simp [len]
    rw [List.take_of_length_le whole] at all
    rw [← all]
    apply List.map_congr_left
    intro i hi
    have place : 6 + i + 1 = 7 + i := by omega
    have inside := List.mem_range.mp hi
    rw [place, layout.header _ (by omega)]
  rw [calcChecksums_header, read]
  rfl

theorem sums_odd (layout : Layout image front data) (counts : HeaderCounts front data)
    (checksum : UInt8) :
    calcChecksums (fun i => image (i + 1)) 14
        (data.length % 7 + oddFlag (data.length % 7)) (sums image checksum 14 0) =
      sums image ((data.take (data.length % 7)).foldl (· ^^^ ·) checksum) (grpstart data) 0 := by
  have numodd : (sums image checksum 14 0).numodd.toNat = data.length % 7 := layout.numodds counts
  by_cases none : data.length % 7 = 0
  · simp [none, calcChecksums, grpstart, oddFlag_zero]
  · have passed : calcChecksums (fun i => image (i + 1)) 14 (data.length % 7)
        (sums image checksum 14 0) = sums image checksum 14 0 := by
      apply calcChecksums_quiet
      intro i hi
      constructor
      · omega
      · omega
      · simp only [sums]
        omega
      · omega
    have read : (List.range (data.length % 7)).map (fun i => data.getD (0 + i) 0) =
        (data.drop 0).take (data.length % 7) := map_getD_range data (by omega)
    have added := calcChecksum_odd (fun i => image (i + 1)) (s := sums image checksum 14 0)
      (by rwa [numodd])
    have bytes : ((List.range (data.length % 7)).map fun i =>
        (shl (image (13 + 1)) (i + 1) &&& 0x80) ||| (image (14 + i + 1) &&& 0x7f)) =
          data.take (data.length % 7) := by
      rw [List.drop_zero] at read
      rw [← read]
      apply List.map_congr_left
      intro i hi
      have place : 14 + i + 1 = 15 + i := by omega
      rw [place, layout.odd_restored (List.mem_range.mp hi), Nat.zero_add]
    rw [numodd, bytes] at added
    rw [oddFlag_of_ne none, calcChecksums_succ, passed, added, grpstart, oddFlag_of_ne none]
    rfl

theorem sums_groups (layout : Layout image front data) (counts : HeaderCounts front data)
    (short : data.length ≤ 512) (checksum : UInt8) {n : Nat} (hn : n ≤ data.length / 7) :
    calcChecksums (fun i => image (i + 1)) (grpstart data) (n * 8)
        (sums image checksum (grpstart data) 0) =
      sums image (((data.drop (data.length % 7)).take (n * 7)).foldl (· ^^^ ·) checksum)
        (grpstart data) n := by
  induction n with
  | zero => simp [calcChecksums]
  | succ n ih =>
      generalize before : sums image (((data.drop (data.length % 7)).take (n * 7)).foldl (· ^^^ ·)
        checksum) (grpstart data) n = s at ih
      have numodd : s.numodd.toNat = data.length % 7 := before ▸ layout.numodds counts
      have numgrps : s.numgrps.toNat = data.length / 7 := before ▸ layout.numgrps counts short
      have start : s.grpstart = grpstart data := before ▸ rfl
      have group : s.group = n := before ▸ rfl
      have first : grpstart data = 14 + data.length % 7 + oddFlag (data.length % 7) := rfl
      have flag : data.length % 7 ≠ 0 → oddFlag (data.length % 7) = 1 := oddFlag_of_ne
      have passed : calcChecksums (fun i => image (i + 1)) (grpstart data + n * 8) 7 s = s := by
        apply calcChecksums_quiet
        intro i hi
        constructor
        · omega
        · omega
        · omega
        · rw [numodd, numgrps]
          omega
      have added := calcChecksum_group (fun i => image (i + 1)) (grpstart data + n * 8)
        (s := s) (by omega) (by omega) (by omega)
      have read := map_getD_range data
        (by omega : data.length % 7 + n * 7 + 7 ≤ data.length)
      have bytes : ((List.range 7).map fun i =>
          (shl (image (grpstart data + n * 8 - 1 + 1)) (i + 1) &&& 0x80) |||
            (image (grpstart data + n * 8 + i + 1) &&& 0x7f)) =
          (data.drop (data.length % 7 + n * 7)).take 7 := by
        rw [← read]
        apply List.map_congr_left
        intro i hi
        have msb : grpstart data + n * 8 - 1 + 1 = grpstart data + n * 8 := by omega
        have place : grpstart data + n * 8 + i + 1 = grpstart data + n * 8 + (i + 1) := by omega
        rw [msb, place, grpstart, layout.grp_restored (by omega) (List.mem_range.mp hi)]
      have size : (n + 1) * 8 = n * 8 + (7 + 1) := by omega
      rw [bytes] at added
      rw [size, calcChecksums_add, ih (by omega), calcChecksums_succ, passed, added, ← before,
        Nat.succ_mul, List.take_add, List.foldl_append, List.drop_drop]
      rfl

theorem sums_sent (layout : Layout image front data) (counts : HeaderCounts front data)
    (short : data.length ≤ 512) (checksum : UInt8) :
    calcChecksums (fun i => image (i + 1)) (lastidx data) 2
        (sums image checksum (grpstart data) (data.length / 7)) =
      { sums image checksum (grpstart data) (data.length / 7) with
        evenbits := (packetChecksum front data ||| 0xaa) &&& 0x55
        oddbits := shl ((shr (packetChecksum front data) 1 ||| 0xaa) &&& 0x55) 1 } := by
  generalize before : sums image checksum (grpstart data) (data.length / 7) = s
  have numodd : s.numodd.toNat = data.length % 7 := before ▸ layout.numodds counts
  have numgrps : s.numgrps.toNat = data.length / 7 := before ▸ layout.numgrps counts short
  have group : s.group = data.length / 7 := before ▸ rfl
  have last : lastidx data =
      14 + data.length % 7 + oddFlag (data.length % 7) + data.length / 7 * 8 := rfl
  have flag : data.length % 7 ≠ 0 → oddFlag (data.length % 7) = 1 := oddFlag_of_ne
  have passed : calcChecksums (fun i => image (i + 1)) (lastidx data) 1 s = s := by
    apply calcChecksums_quiet
    intro i hi
    constructor
    · omega
    · omega
    · omega
    · rw [numodd, numgrps]
      omega
  have read := calcChecksum_sent (fun i => image (i + 1)) (s := s) (by omega)
  have even : lastidx data - 1 + 1 = lastidx data := by omega
  rw [numodd, numgrps, ← last, even, layout.evenBits, layout.oddBits] at read
  rw [calcChecksums_succ, passed, read]

/-- Over a whole packet the checksum that was added up is the one that was sent, and the
one the encoder computed. -/
theorem sums_packet (layout : Layout image front data) (counts : HeaderCounts front data)
    (len : front.length = 14) (short : data.length ≤ 512) :
    let s := calcChecksums (fun i => image (i + 1)) 0 (lastidx data + 2) .initial
    s.checksum = packetChecksum front data ∧ s.oddbits ||| s.evenbits = s.checksum := by
  have size : lastidx data + 2 =
      14 + (data.length % 7 + oddFlag (data.length % 7) + (data.length / 7 * 8 + 2)) := by
    rw [lastidx]
    omega
  have groups : grpstart data + data.length / 7 * 8 = lastidx data := rfl
  have whole : (data.drop (data.length % 7)).length ≤ data.length / 7 * 7 := by
    rw [List.length_drop]
    omega
  have checksum : (data.drop (data.length % 7)).foldl (· ^^^ ·)
      ((data.take (data.length % 7)).foldl (· ^^^ ·) ((front.drop 7).foldl (· ^^^ ·) 0)) =
        packetChecksum front data := by
    rw [← List.foldl_append, List.take_append_drop, packetChecksum, foldl_xor data,
      foldl_xor (front.drop 7) (data.foldl _ 0), UInt8.xor_comm]
  rw [size, calcChecksums_add, layout.sums_header len, Nat.zero_add, calcChecksums_add,
    layout.sums_odd counts, calcChecksums_add, ← Nat.add_assoc 14, ← grpstart,
    layout.sums_groups counts short _ (Nat.le_refl _), List.take_of_length_le whole, checksum,
    groups, layout.sums_sent counts short]
  exact ⟨rfl, merge_bits _⟩

end Layout

/-! ## Receiving a packet -/

/-- The first `k` of the bytes have been received, in their places. -/
structure Received (bytes : Nat → UInt8) (k : Nat) (r : Receiver) : Prop where
  idx : r.idx = k
  synced : r.synced = decide (5 < k)
  buffer : ∀ i < k, r.buffer i = bytes i
  sums : r.sums = calcChecksums bytes 0 k .initial

/-- PBEGIN is the sixth byte and none of the sync bytes is taken for it. -/
structure Synced (bytes : Nat → UInt8) : Prop where
  sync : ∀ i < 5, bytes i ≠ 0xc3
  pbegin : bytes 5 = 0xc3

theorem Received.receive {bytes : Nat → UInt8} {k : Nat} {r : Receiver} (h : Received bytes k r)
    (synced : Synced bytes) : Received bytes (k + 1) (r.receive (bytes k)) := by
  have place : (if bytes k = 0xc3 ∧ r.synced = false then 5 else r.idx) = k := by
    by_cases found : bytes k = 0xc3 ∧ r.synced = false
    · have early : ¬ 5 < k := by simpa [h.synced] using found.2
      have late : ¬ k < 5 := fun sync => synced.sync k sync found.1
      rw [if_pos found]
      omega
    · rw [if_neg found, h.idx]
  have nowSynced : (r.synced || decide (bytes k = 0xc3 ∧ r.synced = false)) =
      decide (5 < k + 1) := by
    rw [h.synced]
    by_cases early : k < 5
    · have none : bytes k ≠ 0xc3 := synced.sync k early
      simp [none]
      omega
    · by_cases now : k = 5
      · subst now
        simp [synced.pbegin]
      · have past : 5 < k := by omega
        simp [past]
        omega
  constructor
  · simp only [Receiver.receive, place]
  · simp only [Receiver.receive, nowSynced]
  · intro i hi
    simp only [Receiver.receive, place]
    by_cases last : i = k
    · rw [last, Function.update_self]
    · rw [Function.update_of_ne last, h.buffer i (by omega)]
  · simp only [Receiver.receive]
    rw [h.sums, h.idx, calcChecksums_succ, Nat.zero_add, calcChecksum_congr h.buffer]

theorem Received.run {bytes : Nat → UInt8} {n k : Nat} {r : Receiver} (h : Received bytes k r)
    (synced : Synced bytes) (m : Nat) (fits : k + m ≤ n) :
    Received bytes (k + m) (r.run n ((List.range' k m).map bytes)) := by
  induction m generalizing k r with
  | zero => exact h
  | succ m ih =>
      have next := h.receive synced
      have more : ¬ n < (r.receive (bytes k)).idx := by
        rw [next.idx]
        omega
      have rest := ih next (by omega)
      rw [List.range'_succ, List.map_cons, Receiver.run]
      simp only [if_neg more]
      have place : k + 1 + m = k + (m + 1) := by omega
      rwa [place] at rest

theorem Received.initial (bytes buffer : Nat → UInt8) :
    Received bytes 0 (Receiver.initial buffer) :=
  ⟨rfl, rfl, fun i hi => absurd hi (Nat.not_lt_zero i), rfl⟩

/-! ## Sending a packet -/

theorem encodeSpi_append {front : List UInt8} (nonzero : ∀ b ∈ front, b ≠ 0) (rest : List UInt8) :
    encodeSpi (front ++ 0 :: rest) = some (front.flatMap spiBytes) := by
  induction front with
  | nil => rfl
  | cons b front ih =>
      have first := nonzero b List.mem_cons_self
      rw [List.cons_append, encodeSpi, if_neg first,
        ih (fun b hb => nonzero b (List.mem_cons_of_mem _ hb))]
      rfl

theorem length_flatMap_spiBytes (bytes : List UInt8) :
    (bytes.flatMap spiBytes).length = bytes.length * 4 := by
  have four : ∀ b, (spiBytes b).length = 4 := fun b => rfl
  simp [List.length_flatMap, four]

namespace Layout

variable {image : Nat → UInt8} {front data : List UInt8}

/-- The header as `encode_packet` writes it for a source id with its top bit set. -/
structure HeaderBytes (front : List UInt8) : Prop where
  len : front.length = 14
  sync : ∀ i < 6, front.getD i 0 ≠ 0
  top : ∀ i < 14, 6 ≤ i → bit (front.getD i 0) 7 = true
  pbegin : ∀ i < 7, 1 ≤ i → (front.getD i 0 = 0xc3 ↔ i = 6)

/-- From PBEGIN on every byte before the terminating zero has its top bit set. -/
theorem bit_top (layout : Layout image front data) (bytes : HeaderBytes front) {i : Nat}
    (low : 6 ≤ i) (high : i < lastidx data + 3) : bit (image i) 7 = true := by
  by_cases header : i < 14
  · rw [layout.header i header]
    exact bytes.top i header low
  by_cases sent : lastidx data ≤ i
  · have place : i = lastidx data ∨ i = lastidx data + 1 ∨ i = lastidx data + 2 := by omega
    rcases place with rfl | rfl | rfl
    · rw [layout.evenBits, bit_or]
      exact Bool.or_true _
    · rw [layout.oddBits, bit_or]
      exact Bool.or_true _
    · rw [layout.pend]
      rfl
  have last : lastidx data =
      14 + data.length % 7 + oddFlag (data.length % 7) + data.length / 7 * 8 := rfl
  by_cases groups : 14 + data.length % 7 + oddFlag (data.length % 7) ≤ i
  · -- the byte is number `k` of group `g`
    obtain ⟨g, k, hk, place⟩ : ∃ g k, k < 8 ∧
        i = 14 + data.length % 7 + oddFlag (data.length % 7) + g * 8 + k :=
      ⟨(i - (14 + data.length % 7 + oddFlag (data.length % 7))) / 8,
        (i - (14 + data.length % 7 + oddFlag (data.length % 7))) % 8, by omega, by omega⟩
    have inside : g < data.length / 7 := by omega
    cases k with
    | zero =>
        rw [place, Nat.add_zero]
        exact (layout.grpMsb g inside).1
    | succ k =>
        rw [place, layout.grp g inside k (by omega), bit_or]
        exact Bool.or_true _
  · have some : data.length % 7 ≠ 0 := by
      intro none
      rw [none, oddFlag_zero] at groups
      omega
    rw [oddFlag_of_ne some] at groups
    by_cases msb : i = 14
    · rw [msb]
      exact (layout.oddMsb some).1
    · have place : i = 15 + (i - 15) := by omega
      rw [place, layout.odd (i - 15) (by omega), bit_or]
      exact Bool.or_true _

theorem ne_zero (layout : Layout image front data) (bytes : HeaderBytes front) {i : Nat}
    (high : i < lastidx data + 3) : image i ≠ 0 := by
  by_cases sync : i < 6
  · rw [layout.header i (by omega)]
    exact bytes.sync i sync
  · exact ne_zero_of_bit (layout.bit_top bytes (Nat.le_of_not_lt sync) high)

theorem lastidx_le (short : data.length ≤ 512) : lastidx data + 4 ≤ BLOCK_PACKET_LEN := by
  have flag : oddFlag (data.length % 7) ≤ 1 := by
    rw [oddFlag]
    split <;> omega
  have none : data.length % 7 = 0 → oddFlag (data.length % 7) = 0 := by
    intro none
    rw [none, oddFlag_zero]
  rw [lastidx, BLOCK_PACKET_LEN]
  omega

theorem synced (layout : Layout image front data) (bytes : HeaderBytes front) :
    Synced (fun i => image (i + 1)) := by
  constructor
  · intro i hi
    rw [layout.header (i + 1) (by omega)]
    intro found
    have place := (bytes.pbegin (i + 1) (by omega) (by omega)).mp found
    omega
  · rw [layout.header 6 (by omega)]
    exact (bytes.pbegin 6 (by omega) (by omega)).mpr rfl

/-- The buffer up to the terminating zero goes out; what `spi_len` leaves away is the last
sample of PEND, which is a zero. -/
theorem encodeSpiPacket_eq (layout : Layout image front data) (bytes : HeaderBytes front)
    (short : data.length ≤ 512) :
    ∃ spi_buffer spi_len, encodeSpiPacket image = some (spi_buffer, spi_len) ∧
      spi_buffer = ((List.range (lastidx data + 3)).map image).flatMap spiBytes ∧
      spi_buffer.drop spi_len.toNat = [0] := by
  have fits := lastidx_le short
  have cut : (List.range BLOCK_PACKET_LEN).map image =
      (List.range (lastidx data + 3)).map image ++
        0 :: (List.range' (lastidx data + 4) (BLOCK_PACKET_LEN - (lastidx data + 4))).map image := by
    have size : BLOCK_PACKET_LEN =
        lastidx data + 3 + (BLOCK_PACKET_LEN - (lastidx data + 4) + 1) := by omega
    have rest : List.range' (0 + 1 * (lastidx data + 3)) (BLOCK_PACKET_LEN - (lastidx data + 4) + 1) =
        (lastidx data + 3) ::
          List.range' (lastidx data + 4) (BLOCK_PACKET_LEN - (lastidx data + 4)) := by
      rw [List.range'_succ, Nat.zero_add, Nat.one_mul]
    conv_lhs => rw [size, List.range_eq_range', ← List.range'_append, rest]
    rw [List.map_append, List.map_cons, layout.terminator, List.range_eq_range']
  have nonzero : ∀ b ∈ (List.range (lastidx data + 3)).map image, b ≠ 0 := by
    intro b hb
    obtain ⟨i, hi, rfl⟩ := List.mem_map.mp hb
    exact layout.ne_zero bytes (List.mem_range.mp hi)
  have size : (((List.range (lastidx data + 3)).map image).flatMap spiBytes).length =
      (lastidx data + 3) * 4 := by
    rw [length_flatMap_spiBytes, List.length_map, List.length_range]
  have len : ((((List.range (lastidx data + 3)).map image).flatMap spiBytes).length.toUInt16 -
      1).toNat = (lastidx data + 3) * 4 - 1 := by
    rw [BLOCK_PACKET_LEN] at fits
    rw [size, UInt16.toNat_sub_of_le]
    · simp
      omega
    · rw [UInt16.le_iff_toNat_le]
      simp
      omega
  -- PEND is 11001000 in binary
  have samples : spiBytes 0xc8 = [0x44, 0, 0x40] ++ [0] := by decide
  have pend : ((List.range (lastidx data + 3)).map image).flatMap spiBytes =
      ((List.range (lastidx data + 2)).map image).flatMap spiBytes ++ [0x44, 0, 0x40] ++ [0] := by
    rw [List.range_succ, List.map_append, List.flatMap_append, List.map_singleton,
      List.flatMap_singleton, layout.pend, samples, List.append_assoc]
  refine ⟨_, _, by rw [encodeSpiPacket, cut, encodeSpi_append nonzero]; rfl, rfl, ?_⟩
  rw [len, pend]
  apply List.drop_left'
  have same := congrArg List.length pend
  rw [size, List.length_append, List.length_singleton] at same
  omega

end Layout

theorem header_bytes {source : UInt8} (top : 0x80 ≤ source) (packet_type : IwmPacketType)
    (status : UInt8) (numodds numgrps : Nat) :
    Layout.HeaderBytes (header source packet_type status numodds numgrps) := by
  constructor
  · rfl
  · intro i hi
    interval_cases i <;> simp [header]
  · intro i hi low
    interval_cases i
    case «8» => exact (le_iff_bit source).mp top
    case «9» => cases packet_type <;> simp [header, bit, IwmPacketType.toByte]
    all_goals simp [header, bit]
  · intro i hi low
    interval_cases i <;> simp [header]

theorem header_counts (source : UInt8) (packet_type : IwmPacketType) (status : UInt8)
    (data : List UInt8) :
    HeaderCounts (header source packet_type status (data.length % 7) (data.length / 7)) data :=
  ⟨rfl, rfl⟩

/-- A packet carries its payload: it is decoded to what was encoded, the receiver adds up
the checksum it is sent, all of it goes out on the line, and it fits in the buffer. -/
theorem packet_carries_payload (packet_buffer buffer : Nat → UInt8) {source : UInt8}
    (top : 0x80 ≤ source) (packet_type : IwmPacketType) (status : UInt8) {data : List UInt8}
    (short : data.length ≤ 512) :
    let image := encodePacket packet_buffer source packet_type status data
    ∃ terminator, terminator + 1 ≤ BLOCK_PACKET_LEN ∧ image terminator = 0 ∧
      (∀ i < terminator, image i ≠ 0 ∧ (6 ≤ i → 0x80 ≤ image i)) ∧
      decodeDataPacket (fun i => image (i + 1)) = (data.length, data) ∧
      (∃ r, (Receiver.initial buffer).run BLOCK_PACKET_LEN
          ((List.range (terminator - 1)).map fun i => image (i + 1)) = r ∧
        r.sums.checksum = r.sums.oddbits ||| r.sums.evenbits ∧
        ∀ i < terminator - 1, r.buffer i = image (i + 1)) ∧
      ∃ spi_buffer spi_len, encodeSpiPacket image = some (spi_buffer, spi_len) ∧
        spi_buffer = ((List.range terminator).map image).flatMap spiBytes ∧
        spi_buffer.drop spi_len.toNat = [0] := by
  intro image
  have layout := encodePacket_layout packet_buffer source packet_type status data
  have counts := header_counts source packet_type status data
  have bytes := header_bytes top packet_type status (data.length % 7) (data.length / 7)
  have fits := Layout.lastidx_le short
  have received := (Received.initial (fun i => image (i + 1)) buffer).run (n := BLOCK_PACKET_LEN)
    (layout.synced bytes) (lastidx data + 2) (by omega)
  rw [← List.range_eq_range', Nat.zero_add] at received
  refine ⟨lastidx data + 3, by omega, layout.terminator, fun i hi => ⟨?_, fun low => ?_⟩,
    layout.decodeDataPacket_eq counts short, ⟨_, rfl, ?_, received.buffer⟩,
    layout.encodeSpiPacket_eq bytes short⟩
  · exact layout.ne_zero bytes hi
  · exact (le_iff_bit _).mpr (layout.bit_top bytes low hi)
  · obtain ⟨-, sent⟩ := layout.sums_packet counts bytes.len short
    rw [← received.sums] at sent
    exact sent.symm

/-- Three odd bytes with their top bits set, and no group. -/
theorem packet_carries_three_bytes :
    decodeDataPacket (fun i => encodePacket (fun _ => 0) 0x81 .data 0 [0x80, 0xff, 0xc8] (i + 1)) =
      (3, [0x80, 0xff, 0xc8]) := by
  have source : (0x80 : UInt8) ≤ 0x81 := by decide
  have short : ([0x80, 0xff, 0xc8] : List UInt8).length ≤ 512 := by decide
  obtain ⟨-, -, -, -, decoded, -⟩ :=
    packet_carries_payload (fun _ => 0) (fun _ => 0) source .data 0 short
  exact decoded

end FujiNet.Iwm
