import FujiNet.Slip.Codec
import FujiNet.Slip.Request

/-!
# Requests that are malformed

Bytes that come in over TCP are cut into packets, the packets that are not empty
are queued, and `iwm_slip::iwm_phase_vector` takes them from the queue one at a
time. None of the three stages looks at the length of a packet.

`received_inside_iff` gives the byte strings for which no stage reads outside
what it was given. A packet may be as short as it likes only when its command
is unknown; any other must have the eight bytes that are copied into
`IWM.command_packet`, even where the request itself has four.
-/

namespace FujiNet.SLIP

/-- An open frame that ends with an ESC, after any number of whole frames. -/
def DanglingEscape (data : List UInt8) : Prop :=
  ∃ (packets : List (List UInt8)) (packet : List UInt8),
    data = packets.flatMap encode ++ END :: (packet.flatMap escape ++ [ESC])

/-- `packet` stands in `data` as a frame. An END opens a frame when an even number
of them comes before it. -/
def Frames (data packet : List UInt8) : Prop :=
  ∃ before after, data = before ++ (encode packet ++ after) ∧ before.count END % 2 = 0

/-! ## The byte after an ESC -/

theorem encode_append (packet rest : List UInt8) :
    encode packet ++ rest = END :: (packet.flatMap escape ++ END :: rest) := by
  simp [encode]

theorem decodeFrom_flatMap_encode (decoded : List UInt8) (packets : List (List UInt8))
    (rest : List UInt8) :
    decodeFrom false decoded (packets.flatMap encode ++ rest) =
      decodeFrom false (decoded ++ packets.flatten) rest := by
  induction packets generalizing decoded with
  | nil => simp
  | cons packet packets ih =>
      rw [List.flatMap_cons, List.append_assoc, encode_append, decodeFrom_false_END,
        decodeFrom_flatMap_escape, decodeFrom_true_END, ih]
      simp

theorem decode_eq_none_of_danglingEscape {data : List UInt8} (dangling : DanglingEscape data) :
    decode data = none := by
  obtain ⟨packets, packet, rfl⟩ := dangling
  rw [decode, decodeFrom_flatMap_encode, decodeFrom_false_END, decodeFrom_flatMap_escape]
  rfl

theorem escape_END : escape END = [ESC, ESC_END] := rfl

theorem escape_ESC : escape ESC = [ESC, ESC_ESC] := rfl

theorem escape_of_ne {b : UInt8} (hend : b ≠ END) (hesc : b ≠ ESC) : escape b = [b] := by
  simp [escape, hend, hesc]

/-- What makes the inner loop leave the data: an ESC at the end of the open frame
or of a later one. -/
def DanglingInside (data : List UInt8) : Prop :=
  ∃ (packet rest : List UInt8), data = packet.flatMap escape ++ rest ∧
    (rest = [ESC] ∨ ∃ tail, rest = END :: tail ∧ DanglingEscape tail)

theorem DanglingInside.escape_append {data : List UInt8} (dangling : DanglingInside data)
    (byte : UInt8) : DanglingInside (escape byte ++ data) := by
  obtain ⟨packet, rest, rfl, ending⟩ := dangling
  exact ⟨byte :: packet, rest, by simp, ending⟩

theorem DanglingInside.danglingEscape {data : List UInt8} (dangling : DanglingInside data) :
    DanglingEscape (END :: data) := by
  obtain ⟨packet, rest, rfl, rfl | ⟨tail, rfl, packets, last, rfl⟩⟩ := dangling
  · exact ⟨[], packet, rfl⟩
  · exact ⟨packet :: packets, last, by simp [encode]⟩

theorem dangling_of_decodeFrom_eq_none (inside : Bool) (decoded data : List UInt8)
    (outside : decodeFrom inside decoded data = none) :
    if inside then DanglingInside data else DanglingEscape data := by
  fun_induction decodeFrom inside decoded data with
  | case1 => simp at outside
  | case2 => simp at outside
  | case3 decoded rest ih => exact ⟨[], END :: rest, rfl, .inr ⟨rest, rfl, ih outside⟩⟩
  | case4 => exact ⟨[], [ESC], rfl, .inl rfl⟩
  | case5 decoded rest _ ih => exact (ih outside).escape_append END
  | case6 decoded rest _ _ ih => exact (ih outside).escape_append ESC
  | case7 => simp at outside
  | case8 decoded b rest hend hesc ih =>
      simpa [escape_of_ne hend hesc] using (ih outside).escape_append b
  | case9 inside decoded rest closed ih => simpa [closed] using (ih outside).danglingEscape
  | case10 => simp at outside

/-- `SLIP::decode` reads past its data exactly when they end in the middle of an
escape. -/
theorem decode_eq_none_iff (data : List UInt8) : decode data = none ↔ DanglingEscape data := by
  constructor
  · intro outside
    simpa using dangling_of_decodeFrom_eq_none false [] data outside
  · exact decode_eq_none_of_danglingEscape

/-! ## The packets of a stream -/

/-- A packet that is not empty is decoded only from its own encoding. -/
theorem eq_flatMap_escape_of_decodeFrom (decoded : List UInt8) :
    ∀ body packet, END ∉ body → packet ≠ [] →
      decodeFrom true decoded (body ++ [END]) = some packet →
      ∃ rest, packet = decoded ++ rest ∧ body = rest.flatMap escape
  | [], packet, _, _, h => ⟨[], by simpa using h.symm, rfl⟩
  | [b], packet, clean, nonempty, h => by
      have hend : b ≠ END := by simpa [eq_comm] using clean
      by_cases hesc : b = ESC
      · subst hesc
        have failed : some [] = some packet := h
        exact absurd (Option.some.inj failed).symm nonempty
      · refine ⟨[b], ?_, by simp [escape_of_ne hend hesc]⟩
        simpa [decodeFrom_true_cons hend hesc] using h.symm
  | b :: c :: body, packet, clean, nonempty, h => by
      simp only [List.mem_cons, not_or] at clean
      obtain ⟨hb, hc, hbody⟩ := clean
      by_cases hesc : b = ESC
      · subst hesc
        rw [List.cons_append, List.cons_append, decodeFrom_true_ESC] at h
        split at h
        · rename_i escaped
          obtain ⟨rest, rfl, rfl⟩ := eq_flatMap_escape_of_decodeFrom _ body packet hbody nonempty h
          exact ⟨END :: rest, by simp, by simp [escape_END, escaped]⟩
        · split at h
          · rename_i escaped
            obtain ⟨rest, rfl, rfl⟩ :=
              eq_flatMap_escape_of_decodeFrom _ body packet hbody nonempty h
            exact ⟨ESC :: rest, by simp, by simp [escape_ESC, escaped]⟩
          · exact absurd (Option.some.inj h).symm nonempty
      · rw [List.cons_append, decodeFrom_true_cons (Ne.symm hb) hesc] at h
        obtain ⟨rest, rfl, same⟩ := eq_flatMap_escape_of_decodeFrom _ (c :: body) packet
          (by simp [hc, hbody]) nonempty h
        exact ⟨b :: rest, by simp, by simp [escape_of_ne (Ne.symm hb) hesc, same]⟩

theorem eq_encode_of_decode {body packet : List UInt8} (clean : END ∉ body)
    (nonempty : packet ≠ []) (h : decode (END :: body ++ [END]) = some packet) :
    END :: body ++ [END] = encode packet := by
  rw [List.cons_append, decode, decodeFrom_false_END] at h
  obtain ⟨rest, rfl, rfl⟩ := eq_flatMap_escape_of_decodeFrom [] body packet clean nonempty h
  simp [encode]

/-- Up to the first END two streams that are equal are equal. -/
theorem append_END_inj {body body' rest rest' : List UInt8} (clean : END ∉ body)
    (clean' : END ∉ body') (h : body ++ END :: rest = body' ++ END :: rest') :
    body = body' ∧ rest = rest' := by
  induction body generalizing body' with
  | nil => cases body' <;> simp_all
  | cons b body ih =>
      simp only [List.mem_cons, not_or] at clean
      cases body' with
      | nil =>
          simp only [List.cons_append, List.nil_append, List.cons.injEq] at h
          exact absurd h.1.symm clean.1
      | cons b' body' =>
          simp only [List.mem_cons, not_or] at clean'
          simp only [List.cons_append, List.cons.injEq] at h
          obtain ⟨sameBody, sameRest⟩ := ih clean.2 clean'.2 h.2
          exact ⟨by rw [h.1, sameBody], sameRest⟩

theorem count_END_encode (packet : List UInt8) : (encode packet).count END = 2 := by
  have clean := List.count_eq_zero.mpr (END_notMem_flatMap_escape packet)
  simp [encode, clean]

theorem Frames.cons {b : UInt8} {data packet : List UInt8} (hend : b ≠ END) :
    Frames (b :: data) packet ↔ Frames data packet := by
  constructor
  · rintro ⟨before, after, same, even⟩
    cases before with
    | nil =>
        rw [List.nil_append, encode_append, List.cons.injEq] at same
        exact absurd same.1 hend
    | cons c before =>
        simp only [List.cons_append, List.cons.injEq] at same
        refine ⟨before, after, same.2, ?_⟩
        rwa [List.count_cons_of_ne (by simpa [← same.1] using hend)] at even
  · rintro ⟨before, after, rfl, even⟩
    exact ⟨b :: before, after, rfl, by rwa [List.count_cons_of_ne (by simpa using hend)]⟩

/-- The first frame of a stream is a packet of it; the others are those of the rest. -/
theorem Frames.frame_append {body rest packet : List UInt8} (clean : END ∉ body) :
    Frames (END :: (body ++ END :: rest)) packet ↔
      END :: body ++ [END] = encode packet ∨ Frames rest packet := by
  constructor
  · rintro ⟨before, after, same, even⟩
    cases before with
    | nil =>
        rw [List.nil_append, encode_append, List.cons.injEq] at same
        obtain ⟨sameBody, -⟩ := append_END_inj clean (END_notMem_flatMap_escape packet) same.2
        exact .inl (by simp [encode, sameBody])
    | cons c before =>
        simp only [List.cons_append, List.cons.injEq] at same
        obtain ⟨rfl, same⟩ := same
        rw [List.count_cons_self] at even
        have closed : END ∈ before := by
          apply List.count_pos_iff.mp
          omega
        obtain ⟨front, back, rfl, front_clean⟩ := List.eq_append_cons_of_mem closed
        rw [List.append_assoc, List.cons_append] at same
        obtain ⟨-, rfl⟩ := append_END_inj clean front_clean same
        refine .inr ⟨back, after, rfl, ?_⟩
        rw [List.count_append, List.count_cons_self, List.count_eq_zero.mpr front_clean] at even
        omega
  · rintro (same | ⟨before, after, rfl, even⟩)
    · exact ⟨[], rest, by simp [← same], rfl⟩
    · refine ⟨END :: (body ++ END :: before), after, by simp, ?_⟩
      have none_inside := List.count_eq_zero.mpr clean
      simp only [List.count_cons_self, List.count_append, none_inside]
      omega

/-- Without a second END nothing is a frame. -/
theorem not_frames {body packet : List UInt8} (clean : END ∉ body) :
    ¬ Frames (END :: body) packet := by
  rintro ⟨before, after, same, -⟩
  have count : (END :: body).count END = (before ++ (encode packet ++ after)).count END := by
    rw [same]
  rw [List.count_cons_self, List.count_eq_zero.mpr clean, List.count_append, List.count_append,
    count_END_encode] at count
  omega

/-- Cutting a stream finds its frames and nothing else, in either state of the loop. -/
theorem mem_splitFrom_iff (data : List UInt8) {packet : List UInt8} (nonempty : packet ≠ []) :
    (∀ packets, splitFrom none data = some packets → (packet ∈ packets ↔ Frames data packet)) ∧
      ∀ body, END ∉ body → ∀ packets, splitFrom (some (END :: body)) data = some packets →
        (packet ∈ packets ↔ Frames (END :: (body ++ data)) packet) := by
  induction data with
  | nil =>
      constructor
      · rintro packets h
        obtain rfl : [] = packets := by simpa using h
        simp [Frames, encode]
      · rintro body clean packets h
        obtain rfl : [] = packets := by simpa using h
        simpa using not_frames clean
  | cons b data ih =>
      by_cases hb : b = END
      · subst hb
        constructor
        · rintro packets h
          simpa using ih.2 [] (by simp) packets (by simpa using h)
        · rintro body clean packets h
          rw [splitFrom_some_END, Option.bind_eq_some_iff] at h
          obtain ⟨decoded, hdecoded, h⟩ := h
          obtain ⟨packets, cut, rfl⟩ := Option.map_eq_some_iff.mp h
          rw [Frames.frame_append clean, List.mem_cons, ih.1 packets cut]
          apply or_congr_left
          constructor
          · rintro rfl
            exact eq_encode_of_decode clean nonempty hdecoded
          · intro same
            rw [same, decode_encode] at hdecoded
            exact Option.some.inj hdecoded
      · constructor
        · rintro packets h
          rw [Frames.cons hb]
          exact ih.1 packets (by rwa [splitFrom_none_cons hb] at h)
        · rintro body clean packets h
          rw [splitFrom_some_cons hb] at h
          simpa using ih.2 (body ++ [b]) (by simp [clean, Ne.symm hb]) packets h

/-- The packets of a stream that are not empty are its frames. -/
theorem mem_splitIntoPackets_iff {data packet : List UInt8} {packets : List (List UInt8)}
    (nonempty : packet ≠ []) (h : splitIntoPackets data = some packets) :
    packet ∈ packets ↔ Frames data packet :=
  (mem_splitFrom_iff data nonempty).1 packets h

end FujiNet.SLIP

namespace FujiNet.SmartPort

/-- How many bytes `Request::from_packet` reads of a packet with this command. -/
def bytesRead (command : UInt8) : Nat :=
  if command = SP_STATUS then 4
  else if command = SP_CONTROL ∨ command = SP_READ_BLOCK then 6
  else if command = SP_WRITE_BLOCK then 518
  else if command = SP_READ ∨ command = SP_WRITE then 8
  else if command ≤ SP_RESET then 3
  else 2

/-- A reading that succeeds on packets of at least `n` bytes and leaves shorter ones. -/
def Needs {α : Type} (packet : List UInt8) (n : Nat) (reading : Except Failure α) : Prop :=
  (n ≤ packet.length → ∃ a, reading = .ok a) ∧
    (packet.length < n → reading = .error .outOfRange)

namespace Needs

variable {α β : Type} {packet : List UInt8} {n m : Nat}

theorem ok (a : α) : Needs packet 0 (.ok a) :=
  ⟨fun _ => ⟨a, rfl⟩, fun short => absurd short (Nat.not_lt_zero _)⟩

theorem byteAt (i : Nat) : Needs packet (i + 1) (byteAt packet i) := by
  constructor
  · intro long
    exact ⟨packet[i], by simp [SmartPort.byteAt, Nat.lt_of_succ_le long]⟩
  · intro short
    simp [SmartPort.byteAt, Nat.le_of_lt_succ short]

theorem arrayAt (k offset : Nat) : Needs packet (offset + k) (arrayAt k packet offset) := by
  constructor
  · intro long
    exact ⟨_, dif_pos long⟩
  · intro short
    simp [SmartPort.arrayAt, Nat.not_le.mpr short]

theorem bytesFrom (offset : Nat) : Needs packet offset (bytesFrom packet offset) := by
  constructor
  · intro long
    simp [SmartPort.bytesFrom, long]
  · intro short
    simp [SmartPort.bytesFrom, Nat.not_le.mpr short]

/-- Two readings, one after the other, need what the one that goes further needs. -/
theorem bind {reading : Except Failure α} {next : α → Except Failure β}
    (first : Needs packet n reading) (second : ∀ a, Needs packet m (next a)) :
    Needs packet (max n m) (reading >>= next) := by
  constructor
  · intro long
    obtain ⟨a, rfl⟩ := first.1 (by omega)
    exact (second a).1 (by omega)
  · intro short
    by_cases enough : n ≤ packet.length
    · obtain ⟨a, rfl⟩ := first.1 enough
      exact (second a).2 (by omega)
    · rw [first.2 (by omega)]
      rfl

theorem of_eq {reading : Except Failure α} (h : Needs packet n reading) (same : n = m) : Needs packet m reading :=
  same ▸ h

end Needs

namespace Request

theorem fromPacket_of_length_lt {packet : List UInt8} (short : packet.length < 2) :
    fromPacket packet = .error .outOfRange := by
  have command : byteAt packet 1 = .error .outOfRange := (Needs.byteAt 1).2 short
  rw [fromPacket, command, error_bind]

/-- The commands from `SP_STATUS` to `SP_RESET`. -/
theorem eq_of_le_SP_RESET {command : UInt8} (known : command ≤ SP_RESET) :
    command = SP_STATUS ∨ command = SP_CONTROL ∨ command = SP_READ_BLOCK ∨
      command = SP_WRITE_BLOCK ∨ command = SP_FORMAT ∨ command = SP_INIT ∨ command = SP_OPEN ∨
      command = SP_CLOSE ∨ command = SP_READ ∨ command = SP_WRITE ∨ command = SP_RESET := by
  have small : command.toNat ≤ 10 := UInt8.le_iff_toNat_le.mp known
  simp only [← UInt8.toNat_inj, SP_STATUS, SP_READ_BLOCK, SP_WRITE_BLOCK, SP_FORMAT, SP_CONTROL,
    SP_INIT, SP_OPEN, SP_CLOSE, SP_READ, SP_WRITE, SP_RESET, UInt8.toNat_ofNat]
  omega

/-- A known command reads as much of the packet as its request takes. -/
theorem fromPacket_needs {packet : List UInt8} {command : UInt8} (h : packet[1]? = some command)
    (known : command ≤ SP_RESET) : Needs packet (bytesRead command) (fromPacket packet) := by
  have long : 1 < packet.length := (List.getElem?_eq_some_iff.mp h).1
  have commandRead : byteAt packet 1 = .ok command := by simp [byteAt, h]
  obtain ⟨sequence, sequenceRead⟩ : ∃ sequence, byteAt packet 0 = .ok sequence :=
    (Needs.byteAt 0).1 (by omega)
  rw [fromPacket, commandRead, ok_bind, sequenceRead, ok_bind]
  rcases eq_of_le_SP_RESET known with rfl | rfl | rfl | rfl | rfl | rfl | rfl | rfl | rfl | rfl | rfl
  · exact ((Needs.byteAt 2).bind fun _ => (Needs.byteAt 3).bind fun _ => .ok _).of_eq rfl
  · exact ((Needs.bytesFrom 6).bind fun _ => (Needs.byteAt 2).bind fun _ =>
      (Needs.byteAt 3).bind fun _ => .ok _).of_eq rfl
  · exact ((Needs.byteAt 2).bind fun _ => (Needs.arrayAt 3 3).bind fun _ => .ok _).of_eq rfl
  · exact ((Needs.byteAt 2).bind fun _ => (Needs.arrayAt 3 3).bind fun _ =>
      (Needs.arrayAt 512 6).bind fun _ => .ok _).of_eq rfl
  · exact ((Needs.byteAt 2).bind fun _ => .ok _).of_eq rfl
  · exact ((Needs.byteAt 2).bind fun _ => .ok _).of_eq rfl
  · exact ((Needs.byteAt 2).bind fun _ => .ok _).of_eq rfl
  · exact ((Needs.byteAt 2).bind fun _ => .ok _).of_eq rfl
  · exact ((Needs.byteAt 2).bind fun _ => (Needs.arrayAt 2 3).bind fun _ =>
      (Needs.arrayAt 3 5).bind fun _ => .ok _).of_eq rfl
  · exact ((Needs.byteAt 2).bind fun _ => (Needs.arrayAt 2 3).bind fun _ =>
      (Needs.arrayAt 3 5).bind fun _ => (Needs.bytesFrom 8).bind fun _ => .ok _).of_eq rfl
  · exact ((Needs.byteAt 2).bind fun _ => .ok _).of_eq rfl

theorem fromPacket_unknown {packet : List UInt8} {command : UInt8} (h : packet[1]? = some command)
    (unknown : ¬ command ≤ SP_RESET) :
    ∃ what, fromPacket packet = .error (.runtimeError what) := by
  have long : 1 < packet.length := (List.getElem?_eq_some_iff.mp h).1
  have commandRead : byteAt packet 1 = .ok command := by simp [byteAt, h]
  obtain ⟨sequence, sequenceRead⟩ : ∃ sequence, byteAt packet 0 = .ok sequence :=
    (Needs.byteAt 0).1 (by omega)
  have other : ∀ code ≤ SP_RESET, command ≠ code := by
    rintro code le rfl
    exact unknown le
  refine ⟨"Unknown command: %d".push (Char.ofNat command.toNat), ?_⟩
  rw [fromPacket, commandRead, ok_bind, sequenceRead, ok_bind]
  rw [if_neg (other SP_STATUS (by decide)), if_neg (other SP_CONTROL (by decide)),
    if_neg (other SP_READ_BLOCK (by decide)), if_neg (other SP_WRITE_BLOCK (by decide)),
    if_neg (other SP_FORMAT (by decide)), if_neg (other SP_INIT (by decide)),
    if_neg (other SP_OPEN (by decide)), if_neg (other SP_CLOSE (by decide)),
    if_neg (other SP_READ (by decide)), if_neg (other SP_WRITE (by decide)),
    if_neg (other SP_RESET (by decide))]
  rfl

end Request

end FujiNet.SmartPort

namespace FujiNet.Iwm

open SLIP SmartPort

/-- Size of `cmdPacket_t::data`. -/
def COMMAND_LEN : Nat := 8

def PHASE_IDLE : UInt8 := 0b0000
def PHASE_ENABLE : UInt8 := 0b1010

/-- `sp_cmd_state_t` -/
inductive SpCmdState where
  | standby
  | rxdata
  | command
  deriving DecidableEq, Repr

/-- The part of `iwm_slip` and of the bus that taking a request from the queue changes. -/
structure IwmSlip where
  requestQueue : List (List UInt8)
  currentRequest : Option Request
  commandPacket : Vector UInt8 COMMAND_LEN
  spCommandMode : SpCmdState

namespace IwmSlip

/-- The body of the loop of `iwm_slip::wait_for_requests`: what is empty is not queued. -/
def queueRequest (s : IwmSlip) (requestData : List UInt8) : IwmSlip :=
  if requestData = [] then s else { s with requestQueue := s.requestQueue ++ [requestData] }

/-- `iwm_slip::iwm_phase_vector`. A request has left the queue also when the function
ends with an exception. -/
def iwmPhaseVector (s : IwmSlip) : Except Failure UInt8 × IwmSlip :=
  match s.requestQueue with
  | [] => (.ok PHASE_IDLE, { s with spCommandMode := .standby })
  | requestData :: queue =>
    match Request.fromPacket requestData with
    | .error failure => (.error failure, { s with requestQueue := queue })
    | .ok request =>
      let s := { s with
        requestQueue := queue
        currentRequest := some request
        commandPacket := .replicate COMMAND_LEN 0 }
      match arrayAt COMMAND_LEN requestData 0 with
      | .error failure => (.error failure, s)
      | .ok header =>
        (.ok PHASE_ENABLE, { s with commandPacket := header, spCommandMode := .command })

/-- The packets of the bytes received, as `iwm_slip::wait_for_requests` queues them. -/
def receive (s : IwmSlip) (data : List UInt8) : Option IwmSlip :=
  (splitIntoPackets data).map fun packets => packets.foldl queueRequest s

/-- The state after a number of calls of `iwm_phase_vector`. -/
def calls (s : IwmSlip) : Nat → IwmSlip
  | 0 => s
  | n + 1 => s.iwmPhaseVector.2.calls n

/-- The next call produces a request or reports an error, or has nothing to do. -/
def Answers (s : IwmSlip) : Prop :=
  s.requestQueue = [] ∨
    (∃ request, s.iwmPhaseVector.1 = .ok PHASE_ENABLE ∧
      s.iwmPhaseVector.2.currentRequest = some request) ∨
    ∃ what, s.iwmPhaseVector.1 = .error (.runtimeError what)

end IwmSlip

/-- What a packet must have for the eight bytes of the command packet and for all its
request reads: nothing but the command when that is unknown. -/
def LongEnough (packet : List UInt8) : Prop :=
  ∃ command, packet[1]? = some command ∧
    (command ≤ SP_RESET →
      (if command = SP_WRITE_BLOCK then 518 else COMMAND_LEN) ≤ packet.length)

/-- Decoding the bytes received or cutting them into packets reads nothing outside them,
and from then on every call of `iwm_phase_vector` answers. -/
structure ReadsInside (data : List UInt8) : Prop where
  decode : decode data ≠ none
  split : splitIntoPackets data ≠ none
  answers : ∀ s s' : IwmSlip, s.requestQueue = [] → s.receive data = some s' →
    ∀ k, (s'.calls k).Answers

namespace IwmSlip

/-! ## One call -/

/-- Every call takes the first request, whatever becomes of it. -/
@[simp] theorem requestQueue_iwmPhaseVector (s : IwmSlip) :
    s.iwmPhaseVector.2.requestQueue = s.requestQueue.tail := by
  unfold iwmPhaseVector
  split
  · rename_i empty
    simp [empty]
  · rename_i requestData queue front
    split
    · simp [front]
    · dsimp only
      split <;> simp [front]

theorem requestQueue_calls (s : IwmSlip) (k : Nat) :
    (s.calls k).requestQueue = s.requestQueue.drop k := by
  induction k generalizing s with
  | zero => rfl
  | succ k ih => simp [calls, ih]

theorem longEnough_iff {packet : List UInt8} {command : UInt8} (h : packet[1]? = some command)
    (known : command ≤ SP_RESET) :
    LongEnough packet ↔ bytesRead command ≤ packet.length ∧ COMMAND_LEN ≤ packet.length := by
  have reach : (if command = SP_WRITE_BLOCK then 518 else COMMAND_LEN) =
      max (bytesRead command) COMMAND_LEN := by
    rcases Request.eq_of_le_SP_RESET known with
      rfl | rfl | rfl | rfl | rfl | rfl | rfl | rfl | rfl | rfl | rfl <;> rfl
  rw [← Nat.max_le, ← reach]
  constructor
  · rintro ⟨command', h', long⟩
    obtain rfl : command = command' := Option.some.inj (h.symm.trans h')
    exact long known
  · intro long
    exact ⟨command, h, fun _ => long⟩

/-- The call for a packet answers exactly when the packet is long enough. -/
theorem answers_iff {s : IwmSlip} {packet : List UInt8} {queue : List (List UInt8)}
    (front : s.requestQueue = packet :: queue) : s.Answers ↔ LongEnough packet := by
  cases h : packet[1]? with
  | none =>
      have short : packet.length < 2 := by
        have := List.getElem?_eq_none_iff.mp h
        omega
      simp [Answers, iwmPhaseVector, front, Request.fromPacket_of_length_lt short, LongEnough, h]
  | some command =>
      by_cases known : command ≤ SP_RESET
      · rw [longEnough_iff h known]
        obtain ⟨enough, outside⟩ := Request.fromPacket_needs h known
        by_cases long : bytesRead command ≤ packet.length
        · obtain ⟨request, made⟩ := enough long
          by_cases header : COMMAND_LEN ≤ packet.length
          · have copied : ∃ bytes, arrayAt COMMAND_LEN packet 0 = .ok bytes :=
              (Needs.arrayAt COMMAND_LEN 0).1 (by omega)
            obtain ⟨bytes, copied⟩ := copied
            simp [Answers, iwmPhaseVector, front, made, copied, long, header]
          · have outside : arrayAt COMMAND_LEN packet 0 = .error .outOfRange :=
              (Needs.arrayAt COMMAND_LEN 0).2 (by omega)
            simp [Answers, iwmPhaseVector, front, made, outside, header]
        · simp [Answers, iwmPhaseVector, front, outside (Nat.lt_of_not_le long), long]
      · obtain ⟨what, reported⟩ := Request.fromPacket_unknown h known
        simp [Answers, iwmPhaseVector, front, reported, LongEnough, h, known]

/-! ## All the packets of a stream -/

theorem requestQueue_foldl_queueRequest (s : IwmSlip) (packets : List (List UInt8)) :
    (packets.foldl queueRequest s).requestQueue =
      s.requestQueue ++ packets.filter (fun packet => packet ≠ []) := by
  induction packets generalizing s with
  | nil => simp
  | cons packet packets ih =>
      rw [List.foldl_cons, ih]
      by_cases empty : packet = [] <;> simp [queueRequest, empty]

/-- Every call answers exactly when every packet queued is long enough. -/
theorem forall_calls_answers_iff (s : IwmSlip) :
    (∀ k, (s.calls k).Answers) ↔ ∀ packet ∈ s.requestQueue, LongEnough packet := by
  constructor
  · rintro answers packet member
    obtain ⟨k, long, rfl⟩ := List.getElem_of_mem member
    have front : (s.calls k).requestQueue = s.requestQueue[k] :: s.requestQueue.drop (k + 1) := by
      rw [requestQueue_calls, List.drop_eq_getElem_cons long]
    exact (answers_iff front).mp (answers k)
  · rintro all k
    cases front : (s.calls k).requestQueue with
    | nil => exact .inl front
    | cons packet queue =>
        apply (answers_iff front).mpr
        apply all
        rw [requestQueue_calls] at front
        exact List.mem_of_mem_drop (front ▸ List.mem_cons_self)

end IwmSlip

/-- Bytes received are handled without a read outside them exactly when they do not end
in the middle of an escape and every packet in them is long enough. -/
theorem received_inside_iff (data : List UInt8) :
    ReadsInside data ↔
      ¬ DanglingEscape data ∧
        ∀ packet, packet ≠ [] → Frames data packet → LongEnough packet := by
  obtain ⟨packets, cut⟩ := Option.isSome_iff_exists.mp (splitIntoPackets_isSome data)
  have received (s : IwmSlip) (empty : s.requestQueue = []) :
      (packets.foldl IwmSlip.queueRequest s).requestQueue =
        packets.filter (fun packet => packet ≠ []) := by
    simpa [empty] using s.requestQueue_foldl_queueRequest packets
  constructor
  · rintro ⟨decoded, -, answers⟩
    refine ⟨fun dangling => decoded ((decode_eq_none_iff data).mpr dangling), ?_⟩
    rintro packet nonempty frame
    let idle : IwmSlip := ⟨[], none, .replicate COMMAND_LEN 0, .standby⟩
    have all := (IwmSlip.forall_calls_answers_iff _).mp
      (answers idle (packets.foldl IwmSlip.queueRequest idle) rfl (by simp [IwmSlip.receive, cut]))
    apply all
    rw [received idle rfl]
    simp [(mem_splitIntoPackets_iff nonempty cut).mpr frame, nonempty]
  · rintro ⟨whole, long⟩
    refine ⟨fun outside => whole ((decode_eq_none_iff data).mp outside), by simp [cut], ?_⟩
    rintro s s' empty queued
    obtain rfl : packets.foldl IwmSlip.queueRequest s = s' := by
      simpa [IwmSlip.receive, cut] using queued
    rw [IwmSlip.forall_calls_answers_iff, received s empty]
    rintro packet member
    rw [List.mem_filter, decide_eq_true_eq] at member
    exact long packet member.2 ((mem_splitIntoPackets_iff member.2 cut).mp member.1)

/-- The frame of a Status request, which has four bytes and not eight. -/
theorem status_request_reads_outside :
    ¬ ReadsInside (encode (Request.status ⟨7, 1⟩ 0).serialize) := by
  rintro ⟨-, -, answers⟩
  let idle : IwmSlip := ⟨[], none, .replicate COMMAND_LEN 0, .standby⟩
  have cut : splitIntoPackets (encode (Request.status ⟨7, 1⟩ 0).serialize) =
      some [(Request.status ⟨7, 1⟩ 0).serialize] := by
    simpa using splitIntoPackets_flatMap_encode [(Request.status ⟨7, 1⟩ 0).serialize]
  have answered := answers idle (idle.queueRequest [7, SP_STATUS, 1, 0]) rfl
    (by rw [IwmSlip.receive, cut]; rfl) 0
  obtain ⟨command, h, reach⟩ :=
    (IwmSlip.answers_iff (s := idle.queueRequest [7, SP_STATUS, 1, 0]) rfl).mp answered
  obtain rfl : SP_STATUS = command := by simpa using h
  exact absurd (reach (by decide)) (by decide)

end FujiNet.Iwm
