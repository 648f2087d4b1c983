import FujiNet.Device.Cassette

/-!
# A FUJI tape

A `FUJI` file is a sequence of chunks. Data chunks are sent one for each call, at the speed that the
last baud chunk asks for; other chunks are skipped. With the turbo flag a baud chunk shall be ignored,
but the scan does not go on behind it.
-/

namespace FujiNet.Device

open SIO

/-- A chunk: `chunk_type`, `irg_length` and as many bytes as `chunk_length` says. -/
structure Chunk where
  type : List UInt8
  irg : Nat
  data : List UInt8
  length_type : type.length = 4
  irg_lt : irg < 65536
  length_lt : data.length < 65536

namespace Chunk

variable (ch : Chunk)

def header : List UInt8 :=
  ch.type ++ [lobyte ch.data.length, hibyte ch.data.length, lobyte ch.irg, hibyte ch.irg]

def encode : List UInt8 := ch.header ++ ch.data

theorem length_header : ch.header.length = 8 := by
  rw [header, List.length_append, ch.length_type]
  rfl

theorem length_encode : ch.encode.length = 8 + ch.data.length := by
  rw [encode, List.length_append, length_header]

end Chunk

/-- The bytes of the data chunks, each with the speed that it is to be sent at. -/
def payload : Nat → List Chunk → List (Nat × UInt8)
  | _, [] => []
  | baud, ch :: rest =>
    if ch.type = DATA then ch.data.map (baud, ·) ++ payload baud rest
    else if ch.type = BAUD then payload ch.irg rest
    else payload baud rest

/-- What was sent, byte by byte. -/
def TapePort.bytesSent (p : TapePort) : List (Nat × UInt8) := p.sent.flatMap fun w => w.2.map (w.1, ·)

@[simp] theorem TapePort.bytesSent_write (bytes : List UInt8) (p : TapePort) :
    (p.write bytes).bytesSent = p.bytesSent ++ bytes.map (p.baudrate, ·) := by
  simp [bytesSent, write]

/-! ## Headers -/

section Header

variable (b : SectorBuffer)

/-- The buffer with the header at an offset. -/
def SectorBuffer.header (file : List UInt8) (offset : Nat) : SectorBuffer := b.load (slice file offset 8)

/-- To read the same header once more changes nothing. -/
theorem SectorBuffer.header_header (file : List UInt8) (offset : Nat) :
    (b.header file offset).header file offset = b.header file offset := by
  have fits : (slice file offset 8).length ≤ 256 := by
    rw [length_slice]
    omega
  refine SectorBuffer.ext ?_
  rw [header, bytes_load _ fits, header, bytes_load _ fits, List.drop_left]

variable {b} {front tail : List UInt8} {ch : Chunk}

theorem slice_header : slice (front ++ (ch.encode ++ tail)) front.length 8 = ch.header := by
  rw [slice, List.drop_left, Chunk.encode, List.append_assoc, ← ch.length_header, List.take_left]

theorem bytes_header : (b.header (front ++ (ch.encode ++ tail)) front.length).bytes =
    ch.header ++ b.bytes.drop 8 := by
  rw [SectorBuffer.header, slice_header, b.bytes_load (by rw [ch.length_header]; decide),
    ch.length_header]

theorem chunkType_header :
    (b.header (front ++ (ch.encode ++ tail)) front.length).chunkType = ch.type := by
  rw [SectorBuffer.chunkType, bytes_header, Chunk.header, List.append_assoc, ← ch.length_type,
    List.take_left]

theorem chunkLength_header :
    (b.header (front ++ (ch.encode ++ tail)) front.length).chunkLength = ch.data.length := by
  obtain ⟨x, y, z, w, type⟩ : ∃ x y z w, ch.type = [x, y, z, w] := List.length_eq_four.mp ch.length_type
  rw [SectorBuffer.chunkLength, bytes_header, Chunk.header, type]
  exact u16_lobyte_hibyte ch.length_lt

theorem irgLength_header :
    (b.header (front ++ (ch.encode ++ tail)) front.length).irgLength = ch.irg := by
  obtain ⟨x, y, z, w, type⟩ : ∃ x y z w, ch.type = [x, y, z, w] := List.length_eq_four.mp ch.length_type
  rw [SectorBuffer.irgLength, bytes_header, Chunk.header, type]
  exact u16_lobyte_hibyte ch.irg_lt

end Header

/-! ## The scan -/

/-- The scan for a data chunk meets a baud chunk first. -/
inductive BaudAhead (file : List UInt8) : Nat → SectorBuffer → Prop
  | here {offset : Nat} {b : SectorBuffer} (inside : offset < file.length)
      (baud : (b.header file offset).chunkType = BAUD) : BaudAhead file offset b
  | later {offset : Nat} {b : SectorBuffer} (inside : offset < file.length)
      (notData : (b.header file offset).chunkType ≠ DATA)
      (notBaud : (b.header file offset).chunkType ≠ BAUD)
      (ahead : BaudAhead file (offset + 8 + (b.header file offset).chunkLength) (b.header file offset)) :
      BaudAhead file offset b

section Scan

variable {c : SioCassette} {offset : Nat}

/-- The state of a scan: only the buffer and the port change. -/
def SioCassette.scanned (c : SioCassette) (b : SectorBuffer) (p : TapePort) : SioCassette :=
  { c with buffer := b, port := p }

/-- A pass that goes on behind a chunk. -/
theorem scanPass_skip (inside : offset < c.file.length)
    (notData : (c.buffer.header c.file offset).chunkType ≠ DATA)
    (turbo : (c.buffer.header c.file offset).chunkType = BAUD → c.turbo = false) :
    SioCassette.scanPass (offset, c) = some (.inl
      (offset + 8 + (c.buffer.header c.file offset).chunkLength,
        c.scanned (c.buffer.header c.file offset)
          (if (c.buffer.header c.file offset).chunkType = BAUD then
            c.port.setBaudrate (c.buffer.header c.file offset).irgLength else c.port))) := by
  rw [SioCassette.scanPass, if_pos inside]
  refine (if_neg notData).trans ?_
  by_cases baud : (c.buffer.header c.file offset).chunkType = BAUD
  · rw [if_pos baud]
    refine (if_pos baud).trans ?_
    exact if_neg (by rw [SioCassette.readHeader, turbo baud]; decide)
  · rw [if_neg baud]
    exact if_neg baud

theorem scanPass_data (inside : offset < c.file.length)
    (data : (c.buffer.header c.file offset).chunkType = DATA) :
    SioCassette.scanPass (offset, c) =
      some (.inr (offset, c.scanned (c.buffer.header c.file offset) c.port)) := by
  rw [SioCassette.scanPass, if_pos inside]
  exact if_pos data

theorem scanPass_behind (behind : c.file.length ≤ offset) :
    SioCassette.scanPass (offset, c) = some (.inr (offset, c)) :=
  if_neg (Nat.not_lt.mpr behind)

/-- With the turbo flag, a baud chunk is met again and again. -/
theorem scanPass_stuck (inside : offset < c.file.length) (turbo : c.turbo = true)
    (baud : (c.buffer.header c.file offset).chunkType = BAUD) :
    SioCassette.scanPass (offset, c) =
      some (.inl (offset, c.scanned (c.buffer.header c.file offset) c.port)) := by
  rw [SioCassette.scanPass, if_pos inside]
  refine (if_neg (fun data => ?_)).trans ?_
  · exact absurd (baud.symm.trans data) (by decide)
  · exact (if_pos baud).trans (if_pos turbo)

/-- The scan ends, unless a baud chunk is to be ignored. -/
theorem scan_returns (fine : c.turbo = false ∨ ¬ BaudAhead c.file offset c.buffer) :
    ∃ fuel r, Loop.run SioCassette.scanPass fuel (offset, c) = some r := by
  induction left : c.file.length - offset using Nat.strongRecOn generalizing c offset with
  | _ n ih =>
    by_cases inside : offset < c.file.length
    · by_cases data : (c.buffer.header c.file offset).chunkType = DATA
      · exact ⟨1, _, Loop.run_succ_inr (scanPass_data inside data)⟩
      · have turbo : (c.buffer.header c.file offset).chunkType = BAUD → c.turbo = false := by
          intro baud
          exact fine.resolve_right fun free => free (.here inside baud)
        have pass := scanPass_skip inside data turbo
        obtain ⟨fuel, r, run⟩ := @ih _ (by dsimp only [SioCassette.scanned]; omega)
          (c.scanned (c.buffer.header c.file offset)
            (if (c.buffer.header c.file offset).chunkType = BAUD then
              c.port.setBaudrate (c.buffer.header c.file offset).irgLength else c.port))
          (offset + 8 + (c.buffer.header c.file offset).chunkLength)
          (by
            by_cases baud : (c.buffer.header c.file offset).chunkType = BAUD
            · exact .inl (turbo baud)
            · exact fine.imp_right fun free ahead => free (.later inside data baud ahead)) rfl
        exact ⟨fuel + 1, r, (Loop.run_succ_inl pass).trans run⟩
    · exact ⟨1, _, Loop.run_succ_inr (scanPass_behind (Nat.le_of_not_lt inside))⟩

theorem scan_stuck (inside : offset < c.file.length) (turbo : c.turbo = true)
    (baud : (c.buffer.header c.file offset).chunkType = BAUD) (fuel : Nat) :
    Loop.run SioCassette.scanPass fuel (offset, c) = none := by
  induction fuel generalizing c with
  | zero => rfl
  | succ fuel ih =>
    rw [Loop.run_succ_inl (scanPass_stuck inside turbo baud)]
    refine ih inside turbo ?_
    rwa [SioCassette.scanned, SectorBuffer.header_header]

/-- With the turbo flag, a scan that meets a baud chunk does not end. -/
theorem scan_of_baudAhead {file : List UInt8} {b : SectorBuffer} (ahead : BaudAhead file offset b)
    (sameFile : c.file = file) (sameBuffer : c.buffer = b) (turbo : c.turbo = true) (fuel : Nat) :
    Loop.run SioCassette.scanPass fuel (offset, c) = none := by
  induction ahead generalizing c fuel with
  | here inside baud =>
    subst sameFile sameBuffer
    exact scan_stuck inside turbo baud fuel
  | later inside notData notBaud ahead ih =>
    subst sameFile sameBuffer
    cases fuel with
    | zero => rfl
    | succ fuel =>
      rw [Loop.run_succ_inl (scanPass_skip inside notData fun baud => absurd baud notBaud)]
      exact ih (c := c.scanned (c.buffer.header c.file _) _) rfl rfl turbo fuel

/-- What a scan from the beginning of a chunk finds: the end of the file, or a data chunk; the chunks
that it skipped carry no payload. -/
theorem scan_chunks {front : List UInt8} {chunks : List Chunk}
    (file : c.file = front ++ chunks.flatMap Chunk.encode)
    (fine : c.turbo = false ∨ ¬ BaudAhead c.file front.length c.buffer) :
    ∃ fuel offset b p, Loop.run SioCassette.scanPass fuel (front.length, c) =
        some (offset, c.scanned b p) ∧ p.bytesSent = c.port.bytesSent ∧
      (offset = c.file.length ∧ payload c.port.baudrate chunks = [] ∨
        ∃ (front' : List UInt8) (ch : Chunk) (rest : List Chunk),
          c.file = front' ++ (ch.encode ++ rest.flatMap Chunk.encode) ∧
          offset = front'.length ∧ rest.length < chunks.length ∧ b.chunkLength = ch.data.length ∧
          payload c.port.baudrate chunks =
            ch.data.map (p.baudrate, ·) ++ payload p.baudrate rest) := by
  induction chunks generalizing front c with
  | nil =>
    rw [List.flatMap_nil, List.append_nil] at file
    have behind : c.file.length ≤ front.length := Nat.le_of_eq (congrArg _ file)
    exact ⟨1, _, c.buffer, c.port, Loop.run_succ_inr (scanPass_behind behind), rfl,
      .inl ⟨by rw [file], rfl⟩⟩
  | cons ch chunks ih =>
    rw [List.flatMap_cons] at file
    have inside : front.length < c.file.length := by
      rw [file, List.length_append, List.length_append, ch.length_encode]
      omega
    have type : (c.buffer.header c.file front.length).chunkType = ch.type := by
      rw [file, chunkType_header]
    have length : (c.buffer.header c.file front.length).chunkLength = ch.data.length := by
      rw [file, chunkLength_header]
    have irg : (c.buffer.header c.file front.length).irgLength = ch.irg := by
      rw [file, irgLength_header]
    by_cases data : ch.type = DATA
    · refine ⟨1, _, _, _, Loop.run_succ_inr (scanPass_data inside (type.trans data)), rfl,
        .inr ⟨front, ch, chunks, file, rfl, Nat.lt_succ_self _, length, ?_⟩⟩
      rw [payload, if_pos data]
    · have turbo : (c.buffer.header c.file front.length).chunkType = BAUD → c.turbo = false :=
        fun baud => fine.resolve_right fun free => free (.here inside baud)
      have notData : (c.buffer.header c.file front.length).chunkType ≠ DATA := type ▸ data
      have pass := scanPass_skip inside notData turbo
      have next : (front ++ ch.encode).length =
          front.length + 8 + (c.buffer.header c.file front.length).chunkLength := by
        rw [length, List.length_append, ch.length_encode, Nat.add_assoc]
      rw [← next] at pass
      obtain ⟨fuel, offset, b, p, run, sent, found⟩ := @ih
        (c.scanned (c.buffer.header c.file front.length)
          (if (c.buffer.header c.file front.length).chunkType = BAUD then
            c.port.setBaudrate (c.buffer.header c.file front.length).irgLength else c.port))
        (front ++ ch.encode)
        (by rw [List.append_assoc]; exact file)
        (by
          by_cases baud : (c.buffer.header c.file front.length).chunkType = BAUD
          · exact .inl (turbo baud)
          · refine fine.imp_right fun free ahead => free (.later inside notData baud ?_)
            rwa [← next])
      have speed : payload c.port.baudrate (ch :: chunks) =
          payload (c.scanned (c.buffer.header c.file front.length)
            (if (c.buffer.header c.file front.length).chunkType = BAUD then
              c.port.setBaudrate (c.buffer.header c.file front.length).irgLength
              else c.port)).port.baudrate chunks := by
        rw [payload, if_neg data, type, irg, SioCassette.scanned]
        split
        · rfl
        · rfl
      have silent : (c.scanned (c.buffer.header c.file front.length)
            (if (c.buffer.header c.file front.length).chunkType = BAUD then
              c.port.setBaudrate (c.buffer.header c.file front.length).irgLength
              else c.port)).port.bytesSent = c.port.bytesSent := by
        rw [SioCassette.scanned]
        dsimp only
        split
        · rfl
        · rfl
      refine ⟨fuel + 1, offset, b, p, (Loop.run_succ_inl pass).trans run, sent.trans silent, ?_⟩
      rw [speed]
      refine found.imp_right ?_
      rintro ⟨front', ch', rest, file', atChunk, fewer, rest'⟩
      exact ⟨front', ch', rest, file', atChunk, Nat.lt_succ_of_lt fewer, rest'⟩

end Scan

/-! ## The payload -/

/-- A payload inside the file is sent as it is. -/
theorem sendData_spec {c : SioCassette} {len : Nat} {front data tail : List UInt8}
    (file : c.file = front ++ (data ++ tail)) (length : data.length = len) :
    ∃ b p, c.sendData len front.length = (front.length + len, c.scanned b p) ∧
      p.baudrate = c.port.baudrate ∧
      p.bytesSent = c.port.bytesSent ++ data.map (c.port.baudrate, ·) := by
  induction len using Nat.strongRecOn generalizing c front data with
  | _ len ih =>
    rw [SioCassette.sendData]
    by_cases more : 0 < len
    · rw [if_pos more]
      -- One slice, and the rest of the payload behind it.
      have first : slice c.file front.length (min len 256) = data.take (min len 256) := by
        rw [slice, file, List.drop_left, List.take_append_of_le_length (by omega)]
      have taken : (data.take (min len 256)).length = min len 256 := by
        rw [List.length_take, length]
        omega
      have loaded : (c.buffer.load (data.take (min len 256))).bytes.take (min len 256) =
          data.take (min len 256) := by
        have whole := @SectorBuffer.take_load c.buffer (data.take (min len 256)) (by omega)
        rwa [taken] at whole
      obtain ⟨b, p, rest, baud, sent⟩ := @ih (len - min len 256) (by omega)
        (c.scanned (c.buffer.load (data.take (min len 256)))
          (c.port.write (data.take (min len 256))))
        (front ++ data.take (min len 256)) (data.drop (min len 256))
        (by
          rw [List.append_assoc, ← List.append_assoc (data.take _), List.take_append_drop]
          exact file)
        (by rw [List.length_drop, length])
      refine ⟨b, p, ?_, baud, ?_⟩
      · dsimp only
        rw [List.length_append, taken] at rest
        rw [first, taken, loaded]
        refine rest.trans ?_
        rw [Nat.add_assoc, Nat.add_sub_cancel' (Nat.min_le_left len 256)]
        rfl
      · rw [sent, SioCassette.scanned, TapePort.bytesSent_write, List.append_assoc]
        refine congrArg (c.port.bytesSent ++ ·) ?_
        exact (List.map_append ..).symm.trans (congrArg _ (List.take_append_drop _ _))
    · rw [if_neg more]
      obtain rfl : data = [] := List.eq_nil_of_length_eq_zero (by omega)
      refine ⟨c.buffer, c.port, ?_, rfl, ?_⟩
      · obtain rfl : len = 0 := by omega
        rfl
      · simp

/-! ## Calls -/

/-- The motor runs. -/
def running : Nat → Bool := fun _ => true

theorem gapAborts_running (pulldown : Bool) (gap : Nat) :
    SioCassette.gapAborts running pulldown gap = false := by
  induction gap with
  | zero => rfl
  | succ gap ih => rw [SioCassette.gapAborts, if_neg (fun stopped => nomatch stopped.2.1), ih]

/-- The device is in playback mode with a `FUJI` file. -/
structure SioCassette.FujiMode (c : SioCassette) : Prop where
  mode : c.cassetteMode = .playback
  fuji : c.fuji = true

section Calls

variable {c d e : SioCassette}

/-- What follows the scan. -/
def SioCassette.sendBlock (offset : Nat) (c : SioCassette) : Nat × SioCassette :=
  if offset < c.file.length then c.sendData c.buffer.chunkLength (offset + 8) else (0, c)

theorem handleCassette_fuji (fuji : c.FujiMode) (fuel : Nat) :
    c.handleCassette fuel running =
      (Loop.run SioCassette.scanPass fuel (c.tapeOffset, c)).map fun r =>
        (r.2.sendBlock r.1).2.continueAt (r.2.sendBlock r.1).1 := by
  rw [SioCassette.handleCassette, fuji.mode]
  dsimp only
  rw [if_pos fuji.fuji, SioCassette.sendFujiTapeBlock, Option.map_map]
  refine congrArg (Option.map · _) (funext fun r => ?_)
  obtain ⟨offset, d⟩ := r
  rw [Function.comp_apply]
  dsimp only
  rw [gapAborts_running, if_neg (by decide)]
  rfl

theorem returns_iff (fuji : c.FujiMode) : c.Returns running e ↔
    ∃ fuel offset d, Loop.run SioCassette.scanPass fuel (c.tapeOffset, c) = some (offset, d) ∧
      (d.sendBlock offset).2.continueAt (d.sendBlock offset).1 = e := by
  constructor
  · rintro ⟨fuel, returned⟩
    rw [handleCassette_fuji fuji] at returned
    obtain ⟨⟨offset, d⟩, run, rfl⟩ := Option.map_eq_some_iff.mp returned
    exact ⟨fuel, offset, d, run, rfl⟩
  · rintro ⟨fuel, offset, d, run, rfl⟩
    refine ⟨fuel, ?_⟩
    rw [handleCassette_fuji fuji, run]
    rfl

/-! A call changes the buffer, the port, the offset and whether the tape is active. -/

theorem scanPass_frame {offset : Nat} {r : (Nat × SioCassette) ⊕ (Nat × SioCassette)}
    (pass : SioCassette.scanPass (offset, c) = some r) :
    ∃ b p, r.elim Prod.snd Prod.snd = c.scanned b p := by
  rw [SioCassette.scanPass] at pass
  dsimp only at pass
  split_ifs at pass
  all_goals
    obtain rfl := Option.some.inj pass
    exact ⟨_, _, rfl⟩

theorem scan_frame {fuel offset offset' : Nat}
    (run : Loop.run SioCassette.scanPass fuel (offset, c) = some (offset', d)) :
    ∃ b p, d = c.scanned b p := by
  refine Loop.run_post (fun s => ∃ b p, s.2 = c.scanned b p) (fun r => ∃ b p, r.2 = c.scanned b p) run
    ⟨c.buffer, c.port, rfl⟩ ?_ ?_
  · rintro ⟨_, _⟩ t ⟨b, p, rfl⟩ pass
    exact scanPass_frame pass
  · rintro ⟨_, _⟩ r ⟨b, p, rfl⟩ pass
    exact scanPass_frame pass

theorem sendData_frame (len offset : Nat) (c : SioCassette) :
    ∃ b p, (c.sendData len offset).2 = c.scanned b p := by
  induction len using Nat.strongRecOn generalizing c offset with
  | _ len ih =>
    rw [SioCassette.sendData]
    split
    · obtain ⟨b, p, same⟩ := ih (len - min len 256) (by omega) _ _
      exact ⟨b, p, same⟩
    · exact ⟨c.buffer, c.port, rfl⟩

theorem continueAt_frame (offset : Nat) (c : SioCassette) :
    (c.continueAt offset).file = c.file ∧ (c.continueAt offset).turbo = c.turbo ∧
      (c.continueAt offset).cassetteMode = c.cassetteMode ∧ (c.continueAt offset).fuji = c.fuji := by
  rw [SioCassette.continueAt, SioCassette.disable]
  dsimp only
  split_ifs <;> exact ⟨rfl, rfl, rfl, rfl⟩

theorem returns_frame (fuji : c.FujiMode) (returned : c.Returns running e) :
    e.FujiMode ∧ e.file = c.file ∧ e.turbo = c.turbo := by
  obtain ⟨fuel, offset, d, run, rfl⟩ := (returns_iff fuji).mp returned
  obtain ⟨b, p, rfl⟩ := scan_frame run
  have sent : ∃ b' p', ((c.scanned b p).sendBlock offset).2 = c.scanned b' p' := by
    rw [SioCassette.sendBlock]
    split
    · exact sendData_frame _ _ _
    · exact ⟨b, p, rfl⟩
  obtain ⟨b', p', sent⟩ := sent
  obtain ⟨file, turbo, mode, isFuji⟩ := continueAt_frame ((c.scanned b p).sendBlock offset).1
    ((c.scanned b p).sendBlock offset).2
  rw [sent] at *
  exact ⟨⟨mode.trans fuji.mode, isFuji.trans fuji.fuji⟩, file, turbo⟩

theorem plays_frame {n : Nat} (fuji : c.FujiMode) (plays : c.Plays running n d) :
    d.FujiMode ∧ d.file = c.file ∧ d.turbo = c.turbo := by
  induction n generalizing c with
  | zero =>
    obtain rfl : d = c := plays
    exact ⟨fuji, rfl, rfl⟩
  | succ n ih =>
    obtain ⟨e, returned, plays⟩ := plays
    obtain ⟨fuji', file, turbo⟩ := returns_frame fuji returned
    obtain ⟨fuji'', file', turbo'⟩ := ih fuji' plays
    exact ⟨fuji'', file'.trans file, turbo'.trans turbo⟩

/-- A call returns unless it is to ignore a baud chunk. -/
theorem exists_returns_iff (fuji : c.FujiMode) : (∃ e, c.Returns running e) ↔
    c.turbo = false ∨ ¬ BaudAhead c.file c.tapeOffset c.buffer := by
  constructor
  · rintro ⟨e, returned⟩
    obtain ⟨fuel, offset, d, run, -⟩ := (returns_iff fuji).mp returned
    by_contra stuck
    obtain ⟨turbo, ahead⟩ := not_or.mp stuck
    rw [scan_of_baudAhead (not_not.mp ahead) rfl rfl ((Bool.not_eq_false _).mp turbo)] at run
    exact nomatch run
  · intro fine
    obtain ⟨fuel, ⟨offset, d⟩, run⟩ := scan_returns fine
    exact ⟨_, (returns_iff fuji).mpr ⟨fuel, offset, d, run, rfl⟩⟩

end Calls

/-! ## Playback -/

section Playback

variable {c : SioCassette}

/-- No call meets a baud chunk that it is to ignore. -/
def SioCassette.NoBaudIgnored (c : SioCassette) : Prop :=
  c.turbo = false ∨ ∀ n d, c.Plays running n d → ¬ BaudAhead d.file d.tapeOffset d.buffer

theorem SioCassette.NoBaudIgnored.next {d : SioCassette} (fuji : c.FujiMode) (none : c.NoBaudIgnored)
    (returned : c.Returns running d) : d.NoBaudIgnored := by
  refine none.imp (fun off => (returns_frame fuji returned).2.2.trans off) fun free n e plays => ?_
  exact free (n + 1) e ⟨d, returned, plays⟩

/-- From the beginning of a chunk, the payload of what follows goes out and stops the tape. -/
theorem runsOut_of_chunks {front : List UInt8} {chunks : List Chunk} (fuji : c.FujiMode)
    (active : c.cassetteActive = true) (none : c.NoBaudIgnored)
    (file : c.file = front ++ chunks.flatMap Chunk.encode) (offset : c.tapeOffset = front.length) :
    ∃ n c', c.RunsOut running n c' ∧
      c'.port.bytesSent = c.port.bytesSent ++ payload c.port.baudrate chunks := by
  induction left : chunks.length using Nat.strongRecOn generalizing c front chunks with
  | _ left ih =>
    have fine : c.turbo = false ∨ ¬ BaudAhead c.file front.length c.buffer :=
      none.imp_right fun free => offset ▸ free 0 c rfl
    obtain ⟨fuel, found, b, p, run, silent, atEnd | atData⟩ := scan_chunks file fine
    · obtain ⟨rfl, empty⟩ := atEnd
      have block : (c.scanned b p).sendBlock c.file.length = (0, c.scanned b p) :=
        if_neg (Nat.lt_irrefl _)
      have stops := (returns_iff fuji).mpr ⟨fuel, _, _, offset ▸ run, rfl⟩
      rw [block] at stops
      dsimp only at stops
      rw [SioCassette.continueAt_zero (c := c.scanned b p) active] at stops
      refine ⟨1, _, ⟨active, _, stops, rfl, rfl⟩, ?_⟩
      rw [empty, List.append_nil]
      exact silent
    · obtain ⟨front', ch, rest, file', rfl, fewer, length, carried⟩ := atData
      have inside : front'.length < c.file.length := by
        rw [file', List.length_append, List.length_append, ch.length_encode]
        omega
      have behind : front'.length + 8 = (front' ++ ch.header).length := by
        rw [List.length_append, ch.length_header]
      obtain ⟨b', p', data, baud, sent⟩ := @sendData_spec (c.scanned b p) ch.data.length
        (front' ++ ch.header) ch.data (rest.flatMap Chunk.encode)
        (by
          rw [List.append_assoc, ← List.append_assoc ch.header]
          exact file') rfl
      have block : (c.scanned b p).sendBlock front'.length =
          ((front' ++ ch.encode).length, c.scanned b' p') := by
        rw [SioCassette.sendBlock, if_pos (show front'.length < (c.scanned b p).file.length from inside),
          behind, show (c.scanned b p).buffer.chunkLength = _ from length, data, Chunk.encode,
          ← List.append_assoc, @List.length_append _ (front' ++ ch.header)]
        rfl
      have moves : (front' ++ ch.encode).length ≠ 0 := by
        rw [List.length_append, ch.length_encode]
        omega
      have next := (returns_iff fuji).mpr ⟨fuel, _, _, offset ▸ run, rfl⟩
      rw [block] at next
      dsimp only at next
      rw [SioCassette.continueAt_of_active (c := c.scanned b' p') moves active] at next
      obtain ⟨n, c', runs, sent'⟩ := ih rest.length (left ▸ fewer)
        (c := { c.scanned b' p' with tapeOffset := (front' ++ ch.encode).length })
        ⟨fuji.mode, fuji.fuji⟩ active (none.next fuji next)
        (by rw [List.append_assoc]; exact file') rfl rfl
      refine ⟨n + 1, c', ⟨active, _, next, runs⟩, ?_⟩
      rw [sent', carried, ← List.append_assoc, ← silent]
      exact congrArg₂ (· ++ ·) sent (congrArg (payload · rest) baud)

/-- Playback of a `FUJI` file: every call returns, and the data chunks of a file that is nothing but
chunks go out, each at its speed, until the tape stops. -/
structure SioCassette.PlaysBack (c : SioCassette) : Prop where
  returns : ∀ n d, c.Plays running n d → ∃ e, d.Returns running e
  played : ∀ (header : Chunk) (chunks : List Chunk), header.type = FUJI →
    c.file = (header :: chunks).flatMap Chunk.encode →
    ∃ n c', c.RunsOut running n c' ∧
      c'.port.bytesSent = c.port.bytesSent ++ payload c.port.baudrate chunks

end Playback

/-- A file that asks for 600 baud and holds one byte. -/
def baudTape : List Chunk :=
  [⟨FUJI, 0, [], rfl, by decide, by decide⟩, ⟨BAUD, 600, [], rfl, by decide, by decide⟩,
    ⟨DATA, 0, [1], rfl, by decide, by decide⟩]

/-- An active device with this file, mounted. -/
def baudTapeMounted (turbo : Bool) : SioCassette :=
  SioCassette.mountCassetteFile (baudTape.flatMap Chunk.encode) {
    file := [], cassetteActive := true, turbo := turbo
    buffer := ⟨List.replicate 256 0, List.length_replicate⟩
    port := { baudrate := CASSETTE_BAUDRATE } }

end FujiNet.Device
