import Mathlib.Data.List.Basic

/-!
# SLIP framing

A packet travels between two END bytes; END and ESC inside the packet are
escaped. `decode` follows the two nested loops of the source over one frame or
several frames in a row, and `splitIntoPackets` cuts a byte stream at END bytes
and decodes each piece.

`decode` looks at the byte after an ESC without a bounds check. The model
returns `none` when there is no such byte; the frames that `splitIntoPackets`
builds end in END, so it never happens there.
-/

namespace FujiNet.SLIP

/-- `SLIP_END`, octal 300. -/
def END : UInt8 := 0xC0
/-- `SLIP_ESC`, octal 333. -/
def ESC : UInt8 := 0xDB
/-- `SLIP_ESC_END`, octal 334. -/
def ESC_END : UInt8 := 0xDC
/-- `SLIP_ESC_ESC`, octal 335. -/
def ESC_ESC : UInt8 := 0xDD

/-- What the encoder pushes for one byte of the packet. -/
def escape (byte : UInt8) : List UInt8 :=
  if byte = END ∨ byte = ESC then [ESC, if byte = END then ESC_END else ESC_ESC] else [byte]

/-- `SLIP::encode`. -/
def encode (data : List UInt8) : List UInt8 := END :: (data.flatMap escape ++ [END])

/-- The loops of `SLIP::decode`. With `inside = false` control is at the head of
the outer loop, which expects an END; with `inside = true` it is in the inner
loop, which collects bytes up to the next END. -/
def decodeFrom (inside : Bool) (decoded : List UInt8) : List UInt8 → Option (List UInt8)
  | [] => if inside then some [] else some decoded
  | b :: rest =>
    if inside then
      if b = END then decodeFrom false decoded rest
      else if b = ESC then
        match rest with
        | [] => none
        | c :: rest =>
          if c = ESC_END then decodeFrom true (decoded ++ [END]) rest
          else if c = ESC_ESC then decodeFrom true (decoded ++ [ESC]) rest
          else some []
      else decodeFrom true (decoded ++ [b]) rest
    else if b = END then decodeFrom true decoded rest
    else some []

/-- `SLIP::decode`: the empty packet stands for an invalid or incomplete frame. -/
def decode (data : List UInt8) : Option (List UInt8) := decodeFrom false [] data

/-- The loop of `SLIP::split_into_packets`. The state is `none` in
`State::NotParsing`, and in `State::Parsing` the bytes from `packet_start` on. -/
def splitFrom : Option (List UInt8) → List UInt8 → Option (List (List UInt8))
  | _, [] => some []
  | none, b :: rest => if b = END then splitFrom (some [b]) rest else splitFrom none rest
  | some packet, b :: rest =>
    if b = END then do
      let decoded ← decode (packet ++ [b])
      let packets ← splitFrom none rest
      some (decoded :: packets)
    else splitFrom (some (packet ++ [b])) rest

/-- `SLIP::split_into_packets`. -/
def splitIntoPackets (data : List UInt8) : Option (List (List UInt8)) := splitFrom none data

/-! ## The encoder -/

theorem END_notMem_escape (byte : UInt8) : END ∉ escape byte := by
  simp only [escape]
  split
  · split <;> decide
  · rename_i h
    simpa [eq_comm] using fun e : byte = END => h (.inl e)

theorem END_notMem_flatMap_escape (data : List UInt8) : END ∉ data.flatMap escape := by
  simp only [List.mem_flatMap, not_exists, not_and]
  exact fun byte _ => END_notMem_escape byte

/-! ## Decoding what was encoded -/

@[simp] theorem decodeFrom_false_nil (decoded : List UInt8) :
    decodeFrom false decoded [] = some decoded :=
  rfl

@[simp] theorem decodeFrom_false_END (decoded rest : List UInt8) :
    decodeFrom false decoded (END :: rest) = decodeFrom true decoded rest := by
  cases rest <;> rfl

@[simp] theorem decodeFrom_true_END (decoded rest : List UInt8) :
    decodeFrom true decoded (END :: rest) = decodeFrom false decoded rest := by
  cases rest <;> rfl

/-- After an ESC the inner loop looks at one more byte. -/
theorem decodeFrom_true_ESC (decoded : List UInt8) (c : UInt8) (rest : List UInt8) :
    decodeFrom true decoded (ESC :: c :: rest) =
      if c = ESC_END then decodeFrom true (decoded ++ [END]) rest
      else if c = ESC_ESC then decodeFrom true (decoded ++ [ESC]) rest
      else some [] :=
  rfl

theorem decodeFrom_true_cons {b : UInt8} (hend : b ≠ END) (hesc : b ≠ ESC)
    (decoded rest : List UInt8) :
    decodeFrom true decoded (b :: rest) = decodeFrom true (decoded ++ [b]) rest := by
  cases rest <;> simp [decodeFrom, hend, hesc]

/-- Escaping one byte is undone by the inner loop. -/
theorem decodeFrom_escape (decoded : List UInt8) (byte : UInt8) (rest : List UInt8) :
    decodeFrom true decoded (escape byte ++ rest) = decodeFrom true (decoded ++ [byte]) rest := by
  by_cases hend : byte = END
  · subst hend
    simp [escape, decodeFrom_true_ESC]
  · by_cases hesc : byte = ESC
    · subst hesc
      simp [escape, decodeFrom_true_ESC, show ESC ≠ END by decide,
        show ESC_ESC ≠ ESC_END by decide]
    · simp [escape, hend, hesc, decodeFrom_true_cons hend hesc]

theorem decodeFrom_flatMap_escape (decoded data rest : List UInt8) :
    decodeFrom true decoded (data.flatMap escape ++ rest) =
      decodeFrom true (decoded ++ data) rest := by
  induction data generalizing decoded with
  | nil => simp
  | cons byte data ih =>
      rw [List.flatMap_cons, List.append_assoc, decodeFrom_escape, ih]
      simp

theorem decode_encode (data : List UInt8) : decode (encode data) = some data := by
  rw [decode, encode, decodeFrom_false_END, decodeFrom_flatMap_escape, decodeFrom_true_END]
  simp

/-- Two END bytes in a row are an empty frame. -/
theorem decode_END_END : decode [END, END] = some [] := by decide

/-- No frame makes the decoder look past its end: the byte after an ESC is at
the latest the closing END. -/
theorem decodeFrom_true_isSome (decoded : List UInt8) :
    ∀ body, END ∉ body → (decodeFrom true decoded (body ++ [END])).isSome
  | [], _ => by simp
  | [b], h => by
      simp only [List.mem_singleton] at h
      by_cases hesc : b = ESC
      · simp [hesc, decodeFrom_true_ESC, show END ≠ ESC_END by decide,
          show END ≠ ESC_ESC by decide]
      · simp [decodeFrom_true_cons (Ne.symm h) hesc]
  | b :: c :: body, h => by
      simp only [List.mem_cons, not_or] at h
      obtain ⟨hb, hc, hbody⟩ := h
      by_cases hesc : b = ESC
      · subst hesc
        rw [List.cons_append, List.cons_append, decodeFrom_true_ESC]
        split
        · exact decodeFrom_true_isSome _ body hbody
        · split
          · exact decodeFrom_true_isSome _ body hbody
          · rfl
      · rw [List.cons_append, decodeFrom_true_cons (Ne.symm hb) hesc]
        exact decodeFrom_true_isSome _ (c :: body) (by simp [hc, hbody])

theorem decode_isSome {body : List UInt8} (h : END ∉ body) :
    (decode (END :: body ++ [END])).isSome := by
  simpa [decode] using decodeFrom_true_isSome [] body h

/-! ## Cutting a stream of frames -/

@[simp] theorem splitFrom_nil (state : Option (List UInt8)) : splitFrom state [] = some [] := by
  cases state <;> rfl

@[simp] theorem splitFrom_none_END (rest : List UInt8) :
    splitFrom none (END :: rest) = splitFrom (some [END]) rest :=
  rfl

theorem splitFrom_none_cons {b : UInt8} (hend : b ≠ END) (rest : List UInt8) :
    splitFrom none (b :: rest) = splitFrom none rest :=
  if_neg hend

theorem splitFrom_some_cons {b : UInt8} (hend : b ≠ END) (packet rest : List UInt8) :
    splitFrom (some packet) (b :: rest) = splitFrom (some (packet ++ [b])) rest :=
  if_neg hend

theorem splitFrom_some_END (packet rest : List UInt8) :
    splitFrom (some packet) (END :: rest) =
      (decode (packet ++ [END])).bind fun decoded =>
        (splitFrom none rest).map (decoded :: ·) := by
  cases h : decode (packet ++ [END]) <;> cases h' : splitFrom none rest <;>
    simp [splitFrom, h, h']

/-- Before the first END of the data nothing is collected. -/
theorem splitFrom_none_append {skipped : List UInt8} (h : END ∉ skipped) (rest : List UInt8) :
    splitFrom none (skipped ++ rest) = splitFrom none rest := by
  induction skipped with
  | nil => rfl
  | cons b skipped ih =>
      simp only [List.mem_cons, not_or] at h
      rw [List.cons_append, splitFrom_none_cons (Ne.symm h.1), ih h.2]

/-- Between two END bytes every byte is collected. -/
theorem splitFrom_some_append {body : List UInt8} (h : END ∉ body) (packet rest : List UInt8) :
    splitFrom (some packet) (body ++ rest) = splitFrom (some (packet ++ body)) rest := by
  induction body generalizing packet with
  | nil => simp
  | cons b body ih =>
      simp only [List.mem_cons, not_or] at h
      rw [List.cons_append, splitFrom_some_cons (Ne.symm h.1), ih h.2]
      simp

/-- Cutting never fails: the pieces are frames, and frames are decoded safely. -/
theorem splitFrom_isSome (data : List UInt8) :
    (splitFrom none data).isSome ∧
      ∀ body, END ∉ body → (splitFrom (some (END :: body)) data).isSome := by
  induction data with
  | nil => simp
  | cons b data ih =>
      by_cases hb : b = END
      · subst hb
        refine ⟨by simpa using ih.2 [] (by simp), fun body hbody => ?_⟩
        obtain ⟨decoded, hdecoded⟩ := Option.isSome_iff_exists.mp (decode_isSome hbody)
        rw [splitFrom_some_END, hdecoded, Option.bind_some, Option.isSome_map]
        exact ih.1
      · refine ⟨by simpa [splitFrom_none_cons hb] using ih.1, fun body hbody => ?_⟩
        rw [splitFrom_some_cons hb]
        exact ih.2 (body ++ [b]) (by simp [hbody, Ne.symm hb])

theorem splitIntoPackets_isSome (data : List UInt8) : (splitIntoPackets data).isSome :=
  (splitFrom_isSome data).1

/-- A whole frame at the head of the data yields its packet. -/
theorem splitFrom_encode_append (data rest : List UInt8) :
    splitFrom none (encode data ++ rest) = (splitFrom none rest).map (data :: ·) := by
  have collected : [END] ++ data.flatMap escape ++ [END] = encode data := by simp [encode]
  have opened : splitFrom none (encode data ++ rest) =
      splitFrom (some [END]) (data.flatMap escape ++ (END :: rest)) := by
    simp [encode]
  rw [opened, splitFrom_some_append (END_notMem_flatMap_escape data), splitFrom_some_END,
    collected, decode_encode, Option.bind_some]

theorem splitFrom_flatMap_encode_append (packets : List (List UInt8)) (rest : List UInt8) :
    splitFrom none (packets.flatMap encode ++ rest) =
      (splitFrom none rest).map (packets ++ ·) := by
  induction packets with
  | nil => simp
  | cons p packets ih =>
      rw [List.flatMap_cons, List.append_assoc, splitFrom_encode_append, ih, Option.map_map]
      rfl

theorem splitIntoPackets_flatMap_encode (packets : List (List UInt8)) :
    splitIntoPackets (packets.flatMap encode) = some packets := by
  simpa [splitIntoPackets] using splitFrom_flatMap_encode_append packets []

/-- A stream of frames, after any bytes without END, is cut into exactly the
packets that were encoded, one frame is decoded to its packet, and END stands
in a frame only as its first and its last byte. Empty packets are no exception. -/
theorem frames_recovered {skipped : List UInt8} (clean : END ∉ skipped)
    (packets : List (List UInt8)) :
    splitIntoPackets (skipped ++ packets.flatMap encode) = some packets ∧
      (∀ data, decode (encode data) = some data) ∧
      ∀ data, ∃ body, encode data = END :: (body ++ [END]) ∧ END ∉ body := by
  refine ⟨?_, decode_encode, ?_⟩
  · rw [splitIntoPackets, splitFrom_none_append clean]
    exact splitIntoPackets_flatMap_encode packets
  · intro data
    exact ⟨data.flatMap escape, rfl, END_notMem_flatMap_escape data⟩

/-- Two noise bytes before the frames of two packets, one of them with both
special bytes in it. -/
theorem frames_recovered_after_noise :
    splitIntoPackets ([0x00, ESC] ++ [[0x01, END, ESC], [0x02]].flatMap encode) =
      some [[0x01, END, ESC], [0x02]] :=
  (frames_recovered (by decide) [[0x01, END, ESC], [0x02]]).1

end FujiNet.SLIP
