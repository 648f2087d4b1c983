import FujiNet.Data.SevenBit

/-!
# SmartPort packets

On the SmartPort bus every byte of a packet has its top bit set. Of a payload of
`n` bytes the first `n % 7` are the odd bytes, the others go in groups of seven;
the odd bytes and each group are preceded by a byte that carries their top bits.
Without odd bytes that byte is missing, so the place of the groups depends on
whether there are any.

`encodePacket` is `iwm_sp_ll::encode_packet`, which writes a packet and the six
sync bytes before it into `packet_buffer`; `decodeDataPacket` is
`iwm_sp_ll::decode_data_packet`. The two use the same layout, one sync byte
apart: what was received begins with the second of them.
-/

namespace FujiNet.Iwm

/-- Size of `packet_buffer`. -/
def BLOCK_PACKET_LEN : Nat := 604

/-- `iwm_packet_type_t` -/
inductive IwmPacketType where
  | cmd
  | status
  | data
  | ext_cmd
  | ext_status
  | ext_data
  deriving DecidableEq, Repr

/-- The values of the enumeration. -/
def IwmPacketType.toByte : IwmPacketType → UInt8
  | cmd => 0x80
  | status => 0x81
  | data => 0x82
  | ext_cmd => 0x80 ||| 0x40
  | ext_status => 0x81 ||| 0x40
  | ext_data => 0x82 ||| 0x40

/-- The byte that stands for the presence of odd bytes: `numodds != 0` as a number. -/
def oddFlag (numodds : Nat) : Nat := if numodds ≠ 0 then 1 else 0

/-! ## The encoder -/

/-- The top bits of a group of seven, before the top bit of their own byte is set. -/
def groupMsb (group_buffer : Nat → UInt8) : UInt8 :=
  (List.range 7).foldl
    (fun grpmsb grpbyte =>
      grpmsb ||| (shr (group_buffer grpbyte) (grpbyte + 1) &&& shr 0x80 (grpbyte + 1))) 0

/-- The pass of the loop over the groups for one group. -/
def encodeGroup (data : List UInt8) (numodds : Nat) (packet_buffer : Nat → UInt8)
    (grpcount : Nat) : Nat → UInt8 :=
  let group_buffer := fun i => data.getD (numodds + grpcount * 7 + i) 0
  let grpstart := 13 + numodds + oddFlag numodds + 1
  let packet_buffer :=
    Function.update packet_buffer (grpstart + grpcount * 8) (groupMsb group_buffer ||| 0x80)
  writeBytes packet_buffer (grpstart + 1 + grpcount * 8)
    ((List.range 7).map fun grpbyte => group_buffer grpbyte ||| 0x80)

/-- The pass of the loop over the odd bytes for one byte. -/
def encodeOdd (data : List UInt8) (packet_buffer : Nat → UInt8) (oddcnt : Nat) : Nat → UInt8 :=
  let packet_buffer :=
    Function.update packet_buffer 14
      (packet_buffer 14 ||| shr (data.getD oddcnt 0 &&& 0x80) (1 + oddcnt))
  Function.update packet_buffer (15 + oddcnt) (data.getD oddcnt 0 ||| 0x80)

/-- The groups and the odd bytes, assembled from the rear to the front. -/
def encodeData (data : List UInt8) (packet_buffer : Nat → UInt8) : Nat → UInt8 :=
  let numgrps := data.length / 7
  let numodds := data.length % 7
  let packet_buffer := (List.range numgrps).reverse.foldl (encodeGroup data numodds) packet_buffer
  if numodds ≠ 0 then
    (List.range numodds).foldl (encodeOdd data) (Function.update packet_buffer 14 0x80)
  else packet_buffer

/-- The sync bytes, PBEGIN and the header. -/
def header (source : UInt8) (packet_type : IwmPacketType) (status : UInt8)
    (numodds numgrps : Nat) : List UInt8 :=
  [0xff, 0x3f, 0xcf, 0xf3, 0xfc, 0xff,
    0xc3, 0x80, source, packet_type.toByte, 0x80, status ||| 0x80,
    numodds.toUInt8 ||| 0x80, numgrps.toUInt8 ||| 0x80]

/-- `iwm_sp_ll::encode_packet`. Without data there are no groups and no odd bytes, and
nothing of them is in the checksum, as when the source passes over that part. -/
def encodePacket (packet_buffer : Nat → UInt8) (source : UInt8) (packet_type : IwmPacketType)
    (status : UInt8) (data : List UInt8) : Nat → UInt8 :=
  let checksum := data.foldl (· ^^^ ·) 0
  let numgrps := data.length / 7
  let numodds := data.length % 7
  let packet_buffer := encodeData data packet_buffer
  let packet_buffer := writeBytes packet_buffer 0 (header source packet_type status numodds numgrps)
  let checksum := (List.range' 7 7).foldl (fun checksum count => checksum ^^^ packet_buffer count)
    checksum
  let lastidx := 14 + numodds + oddFlag numodds + numgrps * 8
  writeBytes packet_buffer lastidx [checksum ||| 0xaa, shr checksum 1 ||| 0xaa, 0xc8, 0x00]

/-! ## The decoder -/

/-- `iwm_sp_ll::decode_data_packet`: the number of bytes and what is written to
`output_data`, in the order of its places. -/
def decodeDataPacket (input_data : Nat → UInt8) : Nat × List UInt8 :=
  let numodd := (input_data 11 &&& 0x7f).toNat
  let numgrps := (input_data 12 &&& 0x7f).toNat
  let numdata := numodd + numgrps * 7
  let odd := (List.range numodd).map fun i =>
    (shl (input_data 13) (i + 1) &&& 0x80) ||| (input_data (14 + i) &&& 0x7f)
  let grpstart := 12 + numodd + oddFlag numodd + 1
  let groups := (List.range numgrps).flatMap fun grpcount =>
    let group_buffer := fun i => input_data (grpstart + grpcount * 8 + i)
    (List.range 7).map fun grpbyte =>
      (shl (group_buffer 0) (grpbyte + 1) &&& 0x80) ||| (group_buffer (grpbyte + 1) &&& 0x7f)
  (numdata, odd ++ groups)

/-! ## What the encoder writes -/

/-- Where the odd bytes and the groups end and the checksum stands. -/
def lastidx (data : List UInt8) : Nat :=
  14 + data.length % 7 + oddFlag (data.length % 7) + data.length / 7 * 8

/-- The exclusive or of the payload and of the header without PBEGIN. -/
def packetChecksum (front data : List UInt8) : UInt8 :=
  (front.drop 7).foldl (· ^^^ ·) (data.foldl (· ^^^ ·) 0)

/-- Byte by byte, a buffer that holds a packet. -/
structure Layout (image : Nat → UInt8) (front data : List UInt8) : Prop where
  header : ∀ k < 14, image k = front.getD k 0
  oddMsb : data.length % 7 ≠ 0 → bit (image 14) 7 = true ∧
    ∀ i < data.length % 7, bit (image 14) (6 - i) = bit (data.getD i 0) 7
  odd : ∀ i < data.length % 7, image (15 + i) = data.getD i 0 ||| 0x80
  grpMsb : ∀ g < data.length / 7,
    bit (image (14 + data.length % 7 + oddFlag (data.length % 7) + g * 8)) 7 = true ∧
      ∀ i < 7, bit (image (14 + data.length % 7 + oddFlag (data.length % 7) + g * 8)) (6 - i) =
        bit (data.getD (data.length % 7 + g * 7 + i) 0) 7
  grp : ∀ g < data.length / 7, ∀ i < 7,
    image (14 + data.length % 7 + oddFlag (data.length % 7) + g * 8 + (i + 1)) =
      data.getD (data.length % 7 + g * 7 + i) 0 ||| 0x80
  evenBits : image (lastidx data) = packetChecksum front data ||| 0xaa
  oddBits : image (lastidx data + 1) = shr (packetChecksum front data) 1 ||| 0xaa
  pend : image (lastidx data + 2) = 0xc8
  terminator : image (lastidx data + 3) = 0

theorem bit_groupMsb (group_buffer : Nat → UInt8) {i : Nat} (hi : i < 7) :
    bit (groupMsb group_buffer) (6 - i) = bit (group_buffer i) 7 := by
  apply bit_gathered _ group_buffer hi (Nat.le_refl 7)
  · intro k _
    simp [bit]
  · intro j k
    rw [bit_and, bit_shr, bit_shr, bit_0x80]
    by_cases place : j + 1 + k = 7 <;> simp [place]

/-- The eight bytes of a group. -/
def groupBytes (data : List UInt8) (numodds grpcount : Nat) : List UInt8 :=
  (groupMsb (fun i => data.getD (numodds + grpcount * 7 + i) 0) ||| 0x80) ::
    (List.range 7).map fun grpbyte => data.getD (numodds + grpcount * 7 + grpbyte) 0 ||| 0x80

theorem encodeGroup_eq (data : List UInt8) (numodds : Nat) (packet_buffer : Nat → UInt8)
    (grpcount : Nat) :
    encodeGroup data numodds packet_buffer grpcount =
      writeBytes packet_buffer (14 + numodds + oddFlag numodds + grpcount * 8)
        (groupBytes data numodds grpcount) := by
  have start : 13 + numodds + oddFlag numodds + 1 = 14 + numodds + oddFlag numodds := by omega
  have next : 14 + numodds + oddFlag numodds + 1 + grpcount * 8 =
      14 + numodds + oddFlag numodds + grpcount * 8 + 1 := by omega
  rw [groupBytes, writeBytes, encodeGroup]
  simp only [start, next]

theorem length_groupBytes (data : List UInt8) (numodds grpcount : Nat) :
    (groupBytes data numodds grpcount).length = 8 := by
  simp [groupBytes]

/-- The loop over the odd bytes. -/
theorem foldl_encodeOdd (data : List UInt8) (n : Nat) (packet_buffer : Nat → UInt8) (j : Nat) :
    (List.range n).foldl (encodeOdd data) packet_buffer j =
      if j = 14 then
        (List.range n).foldl
          (fun msb oddcnt => msb ||| shr (data.getD oddcnt 0 &&& 0x80) (1 + oddcnt))
          (packet_buffer 14)
      else if 15 ≤ j ∧ j < 15 + n then data.getD (j - 15) 0 ||| 0x80
      else packet_buffer j := by
  induction n generalizing j with
  | zero =>
      have outside : ¬ (15 ≤ j ∧ j < 15 + 0) := by omega
      rw [List.range_zero, List.foldl_nil, List.foldl_nil, if_neg outside]
      by_cases msb : j = 14
      · rw [if_pos msb, msb]
      · rw [if_neg msb]
  | succ n ih =>
      rw [List.range_succ, List.foldl_append, List.foldl_append, List.foldl_cons, List.foldl_nil,
        List.foldl_cons, List.foldl_nil, encodeOdd]
      by_cases last : j = 15 + n
      · subst last
        simp
        omega
      · rw [Function.update_of_ne last]
        by_cases msb : j = 14
        · subst msb
          rw [Function.update_self, if_pos rfl, ih 14, if_pos rfl]
        · rw [Function.update_of_ne msb, ih j, if_neg msb, if_neg msb]
          have same : (15 ≤ j ∧ j < 15 + n) ↔ 15 ≤ j ∧ j < 15 + (n + 1) := by omega
          simp only [same]

theorem length_header (source : UInt8) (packet_type : IwmPacketType) (status : UInt8)
    (numodds numgrps : Nat) : (header source packet_type status numodds numgrps).length = 14 :=
  rfl

/-- The header is written over what was in the buffer and read back for the checksum. -/
theorem foldl_xor_header (packet_buffer : Nat → UInt8) {front : List UInt8}
    (len : front.length = 14) (checksum : UInt8) :
    (List.range' 7 7).foldl
        (fun checksum count => checksum ^^^ writeBytes packet_buffer 0 front count) checksum =
      (front.drop 7).foldl (· ^^^ ·) checksum := by
  have read : (List.range' 7 7).map (writeBytes packet_buffer 0 front) = front.drop 7 := by
    apply List.ext_getElem
    · simp [len]
    · intro k h h'
      simp only [List.length_drop, len] at h'
      have inside : 7 + k < front.length := by omega
      have place : 7 + 1 * k = 0 + (7 + k) := by omega
      rw [List.getElem_map, List.getElem_range', List.getElem_drop, place,
        writeBytes_add _ _ _ inside]
  rw [← read, List.foldl_map]

theorem oddFlag_of_ne {numodds : Nat} (h : numodds ≠ 0) : oddFlag numodds = 1 := if_pos h

theorem oddFlag_zero : oddFlag 0 = 0 := rfl

/-- The groups are written first, and the odd bytes stand before them. -/
theorem encodeData_group (data : List UInt8) (packet_buffer : Nat → UInt8) {g i : Nat}
    (hg : g < data.length / 7) (hi : i < 8) :
    encodeData data packet_buffer
        (14 + data.length % 7 + oddFlag (data.length % 7) + g * 8 + i) =
      (groupBytes data (data.length % 7) g).getD i 0 := by
  have groups := (foldl_writeBytes_reverse (14 + data.length % 7 + oddFlag (data.length % 7)) 8
    (length_groupBytes data (data.length % 7)) (data.length / 7) packet_buffer).2 g hg i hi
  simp only [← encodeGroup_eq] at groups
  simp only [encodeData]
  split
  · rename_i odds
    rw [oddFlag_of_ne odds] at groups ⊢
    rw [foldl_encodeOdd, if_neg (by omega), if_neg (by omega), Function.update_of_ne (by omega)]
    exact groups
  · exact groups

theorem encodeData_oddMsb (data : List UInt8) (packet_buffer : Nat → UInt8)
    (odds : data.length % 7 ≠ 0) :
    encodeData data packet_buffer 14 =
      (List.range (data.length % 7)).foldl
        (fun msb oddcnt => msb ||| shr (data.getD oddcnt 0 &&& 0x80) (1 + oddcnt)) 0x80 := by
  simp only [encodeData]
  rw [if_pos odds, foldl_encodeOdd, if_pos rfl, Function.update_self]

theorem encodeData_odd (data : List UInt8) (packet_buffer : Nat → UInt8) {i : Nat}
    (hi : i < data.length % 7) :
    encodeData data packet_buffer (15 + i) = data.getD i 0 ||| 0x80 := by
  have odds : data.length % 7 ≠ 0 := by omega
  simp only [encodeData]
  rw [if_pos odds, foldl_encodeOdd, if_neg (by omega), if_pos (by omega), Nat.add_sub_cancel_left]

/-- The packet is the assembled data between the header and the end. -/
theorem encodePacket_eq (packet_buffer : Nat → UInt8) (source : UInt8)
    (packet_type : IwmPacketType) (status : UInt8) (data : List UInt8) :
    encodePacket packet_buffer source packet_type status data =
      let front := header source packet_type status (data.length % 7) (data.length / 7)
      writeBytes (writeBytes (encodeData data packet_buffer) 0 front) (lastidx data)
        [packetChecksum front data ||| 0xaa, shr (packetChecksum front data) 1 ||| 0xaa, 0xc8,
          0x00] := by
  simp only [encodePacket, lastidx, packetChecksum]
  rw [foldl_xor_header _ rfl]

theorem encodePacket_layout (packet_buffer : Nat → UInt8) (source : UInt8)
    (packet_type : IwmPacketType) (status : UInt8) (data : List UInt8) :
    Layout (encodePacket packet_buffer source packet_type status data)
      (header source packet_type status (data.length % 7) (data.length / 7)) data := by
  rw [encodePacket_eq]
  generalize len : header source packet_type status (data.length % 7) (data.length / 7) = front
  replace len : front.length = 14 := len ▸ rfl
  have middle : ∀ j, 14 ≤ j → j < lastidx data →
      writeBytes (writeBytes (encodeData data packet_buffer) 0 front) (lastidx data)
        [packetChecksum front data ||| 0xaa, shr (packetChecksum front data) 1 ||| 0xaa, 0xc8,
          0x00] j = encodeData data packet_buffer j := by
    intro j low high
    rw [writeBytes_of_lt _ _ high, writeBytes_of_le _ _ (by omega)]
  have behind : ∀ g, g < data.length / 7 → ∀ i < 8,
      14 + data.length % 7 + oddFlag (data.length % 7) + g * 8 + i < lastidx data := by
    intro g hg i hi
    rw [lastidx]
    omega
  constructor
  case header =>
    intro k hk
    have before : k < lastidx data := by
      rw [lastidx]
      omega
    have read := writeBytes_add (encodeData data packet_buffer) 0 front (by omega : k < front.length)
    rw [Nat.zero_add] at read
    rw [writeBytes_of_lt _ _ before, read, List.getD_eq_getElem]
  case oddMsb =>
    intro odds
    have place : 14 < lastidx data := by
      rw [lastidx]
      omega
    rw [middle 14 (Nat.le_refl 14) place, encodeData_oddMsb _ _ odds]
    constructor
    · rw [bit_foldl_or]
      exact .inl rfl
    · intro i hi
      apply bit_gathered _ (fun i => data.getD i 0) hi (by omega)
      · intro k hk
        rw [bit_0x80, decide_eq_false (by omega)]
      · intro j k
        rw [bit_shr, bit_and, bit_0x80]
        by_cases here : j + 1 + k = 7
        · have here' : 1 + j + k = 7 := by omega
          simp [here, here']
        · have here' : 1 + j + k ≠ 7 := by omega
          simp [here, here']
  case odd =>
    intro i hi
    have place : 15 + i < lastidx data := by
      rw [lastidx, oddFlag_of_ne (by omega)]
      omega
    rw [middle _ (by omega) place, encodeData_odd _ _ hi]
  case grpMsb =>
    intro g hg
    have place := behind g hg 0 (by omega)
    have read := encodeData_group data packet_buffer hg (by omega : 0 < 8)
    rw [Nat.add_zero] at place read
    rw [middle _ (by omega) place, read, groupBytes, List.getD_cons_zero]
    refine ⟨by simp, fun i hi => ?_⟩
    have low : 6 - i ≠ 7 := by omega
    rw [bit_or, bit_0x80, bit_groupMsb _ hi, decide_eq_false low, Bool.or_false]
  case grp =>
    intro g hg i hi
    rw [middle _ (by omega) (behind g hg (i + 1) (by omega)),
      encodeData_group data packet_buffer hg (by omega), groupBytes, List.getD_cons_succ]
    simp [hi]
  case evenBits => exact writeBytes_add (k := 0) _ (lastidx data) [_, _, _, _] (by simp)
  case oddBits => exact writeBytes_add _ _ _ (by simp : 1 < 4)
  case pend => exact writeBytes_add _ _ _ (by simp : 2 < 4)
  case terminator => exact writeBytes_add _ _ _ (by simp : 3 < 4)

/-! ## Decoding what was encoded -/

/-- The header as it stands in a packet with this payload. -/
structure HeaderCounts (front data : List UInt8) : Prop where
  numodds : front.getD 12 0 = (data.length % 7).toUInt8 ||| 0x80
  numgrps : front.getD 13 0 = (data.length / 7).toUInt8 ||| 0x80

variable {image : Nat → UInt8} {front data : List UInt8}

namespace Layout

theorem numodds (layout : Layout image front data) (counts : HeaderCounts front data) :
    (image 12 &&& 0x7f).toNat = data.length % 7 := by
  have small : data.length % 7 < 128 := by omega
  rw [layout.header 12 (by omega), counts.numodds, toNat_count small]

theorem numgrps (layout : Layout image front data) (counts : HeaderCounts front data)
    (short : data.length ≤ 512) : (image 13 &&& 0x7f).toNat = data.length / 7 := by
  have small : data.length / 7 < 128 := by omega
  rw [layout.header 13 (by omega), counts.numgrps, toNat_count small]

/-- An odd byte is put together from its place and the byte before the odd bytes. -/
theorem odd_restored (layout : Layout image front data) {i : Nat} (hi : i < data.length % 7) :
    (shl (image 14) (i + 1) &&& 0x80) ||| (image (15 + i) &&& 0x7f) = data.getD i 0 := by
  rw [layout.odd i hi]
  exact restore (by omega) ((layout.oddMsb (by omega)).2 i hi)

/-- A byte of a group is put together from its place and the first byte of the group. -/
theorem grp_restored (layout : Layout image front data) {g i : Nat} (hg : g < data.length / 7)
    (hi : i < 7) :
    (shl (image (14 + data.length % 7 + oddFlag (data.length % 7) + g * 8)) (i + 1) &&& 0x80) |||
        (image (14 + data.length % 7 + oddFlag (data.length % 7) + g * 8 + (i + 1)) &&& 0x7f) =
      data.getD (data.length % 7 + g * 7 + i) 0 := by
  rw [layout.grp g hg i hi]
  exact restore hi ((layout.grpMsb g hg).2 i hi)

/-- The decoder on a packet whose first sync byte is missing. -/
theorem decodeDataPacket_eq (layout : Layout image front data) (counts : HeaderCounts front data)
    (short : data.length ≤ 512) :
    decodeDataPacket (fun i => image (i + 1)) = (data.length, data) := by
  have whole : data.length % 7 + data.length / 7 * 7 = data.length := by omega
  have odd : ((List.range (data.length % 7)).map fun i =>
      (shl (image 14) (i + 1) &&& 0x80) ||| (image (14 + i + 1) &&& 0x7f)) =
        data.take (data.length % 7) := by
    have read : (List.range (data.length % 7)).map (fun i => data.getD (0 + i) 0) =
        (data.drop 0).take (data.length % 7) := map_getD_range data (by omega)
    rw [List.drop_zero] at read
    rw [← read]
    apply List.map_congr_left
    intro i hi
    have place : 14 + i + 1 = 15 + i := by omega
    rw [place, layout.odd_restored (List.mem_range.mp hi), Nat.zero_add]
  have groups : ((List.range (data.length / 7)).flatMap fun g => (List.range 7).map fun i =>
      (shl (image (12 + data.length % 7 + oddFlag (data.length % 7) + 1 + g * 8 + 0 + 1))
          (i + 1) &&& 0x80) |||
        (image (12 + data.length % 7 + oddFlag (data.length % 7) + 1 + g * 8 + (i + 1) + 1) &&&
          0x7f)) = data.drop (data.length % 7) := by
    have read := flatMap_getD_range data 7 (Nat.le_of_eq whole)
    rw [List.take_of_length_le (by rw [List.length_drop]; omega)] at read
    rw [← read]
    apply List.flatMap_congr
    intro g hg
    apply List.map_congr_left
    intro i hi
    have first : 12 + data.length % 7 + oddFlag (data.length % 7) + 1 + g * 8 + 0 + 1 =
        14 + data.length % 7 + oddFlag (data.length % 7) + g * 8 := by omega
    have place : 12 + data.length % 7 + oddFlag (data.length % 7) + 1 + g * 8 + (i + 1) + 1 =
        14 + data.length % 7 + oddFlag (data.length % 7) + g * 8 + (i + 1) := by omega
    rw [first, place, layout.grp_restored (List.mem_range.mp hg) (List.mem_range.mp hi)]
  simp only [decodeDataPacket, Nat.reduceAdd, layout.numodds counts,
    layout.numgrps counts short, whole, Prod.mk.injEq, true_and]
  rw [odd, groups, List.take_append_drop]

end Layout

end FujiNet.Iwm
