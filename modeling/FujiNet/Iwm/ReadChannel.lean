import Mathlib.Data.List.Nodup
import FujiNet.Data.OrderedMap
import FujiNet.Slip.Codec

/-!
# The read channel of a SmartPort connection

`TCPConnection::create_read_channel` starts a thread that receives from a
socket, cuts what it has at END bytes and files the packets under their first
byte. Reception is an input of the model: each `recv` returns some bytes, times
out, fails or reports the end of the stream.

The thread goes on receiving only after a `recv` that filled its 1024-byte
buffer. Otherwise it hands everything received so far to
`SLIP::split_into_packets` and starts again with nothing, so a frame that is not
complete at that moment is gone. `storesExactly_iff` says when no frame is lost:
exactly when each such moment falls between two frames.
-/

namespace FujiNet.Iwm

open SLIP

/-- What one call of `recv` returns. `wouldBlock` stands for a time-out (EAGAIN,
EWOULDBLOCK or no error number at all), `error` for any other failure and
`closed` for the end of the stream. -/
inductive Recv where
  | data (bytes : List UInt8)
  | wouldBlock
  | error
  | closed
  deriving DecidableEq, Repr

/-- The bytes a `recv` adds to the data received so far. -/
def Recv.bytes : Recv → List UInt8
  | .data bytes => bytes
  | _ => []

/-- Size of the receive buffer. -/
def bufferSize : Nat := 1024

/-- The state of the reading thread: the connection flag, `complete_data`, and
the map `responses_` it shares with the consumer. -/
structure ReadChannel where
  isConnected : Bool
  completeData : List UInt8
  responses : OrderedMap UInt8 (List UInt8)

namespace ReadChannel

/-- At its first pass the thread marks the connection as connected. -/
def initial : ReadChannel := ⟨true, [], .empty⟩

/-- File a packet under its first byte; empty packets are passed over. -/
def store (responses : OrderedMap UInt8 (List UInt8)) :
    List UInt8 → OrderedMap UInt8 (List UInt8)
  | [] => responses
  | b :: rest => responses.assign b (b :: rest)

/-- What happens after the inner receive loop: the data are cut into packets, the
packets stored and the data dropped. -/
def process (c : ReadChannel) : Option ReadChannel :=
  if c.completeData = [] then some c
  else do
    let packets ← splitIntoPackets c.completeData
    some { c with responses := packets.foldl store c.responses, completeData := [] }

/-- One `recv`, and the processing that follows unless the buffer was filled. -/
def recv (c : ReadChannel) : Recv → Option ReadChannel
  | .data bytes =>
    let c := { c with completeData := c.completeData ++ bytes }
    if bytes.length = bufferSize then some c else c.process
  | .wouldBlock => c.process
  | .error => { c with isConnected := false }.process
  | .closed => { c with isConnected := false }.process

/-- The thread over a sequence of receptions; it ends when no longer connected. -/
def run (c : ReadChannel) : List Recv → Option ReadChannel
  | [] => some c
  | r :: rs => if c.isConnected then (c.recv r).bind (run · rs) else some c

end ReadChannel

/-- `TCPConnection::create_read_channel`, over everything it receives. -/
def createReadChannel (rs : List Recv) : Option ReadChannel := ReadChannel.initial.run rs

/-- The byte stream received. -/
def received (rs : List Recv) : List UInt8 := rs.flatMap Recv.bytes

/-- A reception that neither fails nor ends the stream. -/
def Recv.Live : Recv → Prop
  | .data bytes => 1 ≤ bytes.length ∧ bytes.length ≤ bufferSize
  | .wouldBlock => True
  | .error => False
  | .closed => False

/-- The thread processes what it has after this reception. -/
def Recv.EndsBatch : Recv → Prop
  | .data bytes => bytes.length ≠ bufferSize
  | _ => True

/-- The map holds the given packets under their first bytes, and nothing else. -/
def StoresExactly (c : ReadChannel) (packets : List (List UInt8)) : Prop :=
  ∀ e, e ∈ c.responses.entries ↔ ∃ p ∈ packets, p.head? = some e.1 ∧ p = e.2

/-- Whenever the thread processes its data, the stream received so far consists
of whole frames. -/
def FrameAligned (packets : List (List UInt8)) (rs : List Recv) : Prop :=
  ∀ front r back, rs = front ++ r :: back → r.EndsBatch →
    ∃ k, received (front ++ [r]) = (packets.take k).flatMap encode

/-! ## Where a stream of frames can be cut -/

/-- A cut through a stream of frames falls between two frames or inside one. -/
theorem cut_flatMap_encode {packets : List (List UInt8)} {before after : List UInt8}
    (h : before ++ after = packets.flatMap encode) :
    (∃ done rest, packets = done ++ rest ∧ before = done.flatMap encode ∧
      after = rest.flatMap encode) ∨
    ∃ done p rest u v, packets = done ++ p :: rest ∧ encode p = u ++ v ∧ u ≠ [] ∧ v ≠ [] ∧
      before = done.flatMap encode ++ u ∧ after = v ++ rest.flatMap encode := by
  induction packets generalizing before with
  | nil =>
      obtain ⟨rfl, rfl⟩ := List.append_eq_nil_iff.mp h
      exact .inl ⟨[], [], rfl, rfl, rfl⟩
  | cons p packets ih =>
      rw [List.flatMap_cons, List.append_eq_append_iff] at h
      rcases h with ⟨v, frame, tail⟩ | ⟨before', split, tail⟩
      · by_cases hu : before = []
        · subst hu
          refine .inl ⟨[], p :: packets, rfl, rfl, ?_⟩
          simpa [frame] using tail
        · by_cases hv : v = []
          · subst hv
            refine .inl ⟨[p], packets, rfl, ?_, by simpa using tail⟩
            simpa using frame.symm
          · exact .inr ⟨[], p, packets, before, v, rfl, frame, hu, hv, rfl, tail⟩
      · rcases ih tail.symm with ⟨done, rest, rfl, rfl, rfl⟩ |
          ⟨done, q, rest, u, v, rfl, frame, hu, hv, rfl, rfl⟩
        · exact .inl ⟨p :: done, rest, rfl, by simp [split], rfl⟩
        · exact .inr ⟨p :: done, q, rest, u, v, rfl, frame, hu, hv, by simp [split], rfl⟩

/-- The part of a frame after a cut inside it has one END, at its end. -/
theorem exists_of_encode_eq_append {p u v : List UInt8} (h : encode p = u ++ v)
    (hu : u ≠ []) (hv : v ≠ []) :
    ∃ x y, u = END :: x ∧ v = y ++ [END] ∧ END ∉ x ∧ END ∉ y := by
  obtain ⟨b, x, rfl⟩ := List.exists_cons_of_ne_nil hu
  obtain ⟨y, e, rfl⟩ : ∃ y e, v = y ++ [e] :=
    ⟨v.dropLast, v.getLast hv, (List.dropLast_append_getLast hv).symm⟩
  obtain ⟨rfl, body⟩ := List.cons.inj h
  change p.flatMap escape ++ [END] = x ++ (y ++ [e]) at body
  rw [← List.append_assoc] at body
  obtain ⟨body, he⟩ := List.append_inj' body rfl
  have free : END ∉ x ++ y := body ▸ END_notMem_flatMap_escape p
  rw [List.mem_append, not_or] at free
  exact ⟨x, y, rfl, by simpa using he.symm, free.1, free.2⟩

/-- A stream that may begin inside a frame and continues with whole frames of
`packets`. -/
def Tail (packets : List (List UInt8)) (stream : List UInt8) : Prop :=
  ∃ (v : List UInt8) (rest : List (List UInt8)), stream = v ++ rest.flatMap encode ∧
    (∀ p ∈ rest, p ∈ packets) ∧ (v = [] ∨ ∃ y, v = y ++ [END] ∧ END ∉ y)

/-- How the cutting loop can stand in such a stream: outside a frame as it sees
it, inside one that it saw from its start, or between the END that closes a frame
and the END that opens the next. -/
inductive OnStream (packets : List (List UInt8)) : Option (List UInt8) → List UInt8 → Prop
  | outside {stream : List UInt8} : Tail packets stream → OnStream packets none stream
  | frame {p c y : List UInt8} {rest : List (List UInt8)} : p ∈ packets →
      encode p = c ++ (y ++ [END]) → END ∉ y → (∀ q ∈ rest, q ∈ packets) →
      OnStream packets (some c) (y ++ [END] ++ rest.flatMap encode)
  | gap {rest : List (List UInt8)} : (∀ q ∈ rest, q ∈ packets) →
      OnStream packets (some [END]) (rest.flatMap encode)

theorem OnStream.tail {packets : List (List UInt8)} {state : Option (List UInt8)}
    {stream : List UInt8} (h : OnStream packets state stream) : Tail packets stream := by
  cases h with
  | outside h => exact h
  | frame _ _ free sub => exact ⟨_, _, rfl, sub, .inr ⟨_, rfl, free⟩⟩
  | gap sub => exact ⟨[], _, rfl, sub, .inl rfl⟩

/-- At the head of a frame the loop starts collecting that frame. -/
theorem OnStream.of_encode_append {packets : List (List UInt8)} {p stream : List UInt8}
    {b : UInt8} {rest : List (List UInt8)} (hp : p ∈ packets) (sub : ∀ q ∈ rest, q ∈ packets)
    (h : b :: stream = encode p ++ rest.flatMap encode) :
    b = END ∧ OnStream packets (some [END]) stream := by
  rw [encode, List.cons_append, List.append_assoc] at h
  obtain ⟨rfl, rfl⟩ := List.cons.inj h
  refine ⟨rfl, ?_⟩
  rw [← List.append_assoc]
  exact .frame hp rfl (END_notMem_flatMap_escape p) sub

/-- One byte of such a stream: the loop either goes on collecting, or gives out
an empty packet or one of `packets`. -/
theorem OnStream.step {packets : List (List UInt8)} {state : Option (List UInt8)} {b : UInt8}
    {stream : List UInt8} (h : OnStream packets state (b :: stream)) :
    (∃ state', OnStream packets state' stream ∧
      ∀ rest, splitFrom state (b :: rest) = splitFrom state' rest) ∨
    ∃ p, (p = [] ∨ p ∈ packets) ∧ OnStream packets none stream ∧
      ∀ rest, splitFrom state (b :: rest) = (splitFrom none rest).map (p :: ·) := by
  generalize hs : b :: stream = bytes at h
  cases h with
  | outside h =>
      obtain ⟨v, rest, rfl, sub, rfl | ⟨y, rfl, free⟩⟩ := h
      · cases rest with
        | nil => simp at hs
        | cons q rest =>
            rw [List.forall_mem_cons] at sub
            obtain ⟨rfl, next⟩ := OnStream.of_encode_append sub.1 sub.2 hs
            exact .inl ⟨_, next, splitFrom_none_END⟩
      · cases y with
        | nil =>
            obtain ⟨rfl, rfl⟩ := List.cons.inj hs
            exact .inl ⟨_, .gap sub, splitFrom_none_END⟩
        | cons c y =>
            obtain ⟨rfl, rfl⟩ := List.cons.inj hs
            rw [List.mem_cons, not_or] at free
            refine .inl ⟨none, .outside ⟨y ++ [END], rest, by simp, sub, .inr ⟨y, rfl, free.2⟩⟩,
              fun rest => ?_⟩
            rw [splitFrom_none_cons (Ne.symm free.1)]
  | @frame p c y rest hp frame free sub =>
      cases y with
      | nil =>
          obtain ⟨rfl, rfl⟩ := List.cons.inj hs
          refine .inr ⟨p, .inr hp, .outside ⟨[], rest, rfl, sub, .inl rfl⟩, fun rest => ?_⟩
          rw [splitFrom_some_END, show c ++ [END] = encode p by simp [frame], decode_encode,
            Option.bind_some]
      | cons d y =>
          obtain ⟨rfl, rfl⟩ := List.cons.inj hs
          rw [List.mem_cons, not_or] at free
          have frame' : encode p = (c ++ [b]) ++ (y ++ [END]) := by simp [frame]
          refine .inl ⟨some (c ++ [b]), .frame hp frame' free.2 sub, fun rest => ?_⟩
          rw [splitFrom_some_cons (Ne.symm free.1)]
  | @gap rest sub =>
      cases rest with
      | nil => simp at hs
      | cons q rest =>
          rw [List.forall_mem_cons] at sub
          obtain ⟨rfl, next⟩ := OnStream.of_encode_append sub.1 sub.2 hs
          refine .inr ⟨[], .inl rfl, .outside next.tail, fun rest => ?_⟩
          rw [splitFrom_some_END]
          simp [decode_END_END]

/-- Cutting the first part of such a stream gives only empty packets and members
of `packets`, and what follows is again such a stream. -/
theorem OnStream.split {packets : List (List UInt8)} {state : Option (List UInt8)}
    {data after : List UInt8} (h : OnStream packets state (data ++ after)) :
    ∃ out, splitFrom state data = some out ∧ (∀ p ∈ out, p = [] ∨ p ∈ packets) ∧
      Tail packets after := by
  induction data generalizing state with
  | nil => exact ⟨[], by simp, by simp, h.tail⟩
  | cons b data ih =>
      rw [List.cons_append] at h
      rcases h.step with ⟨state', next, cut⟩ | ⟨p, hp, next, cut⟩
      · obtain ⟨out, hout, ok, tail⟩ := ih next
        exact ⟨out, by rw [cut, hout], ok, tail⟩
      · obtain ⟨out, hout, ok, tail⟩ := ih next
        refine ⟨p :: out, by rw [cut, hout]; rfl, ?_, tail⟩
        exact List.forall_mem_cons.mpr ⟨hp, ok⟩

/-! ## What the thread hands out -/

/-- Everything the thread cuts out of `acc` and the following receptions, when
one more reception without data ends the last batch. -/
def cutOut (acc : List UInt8) : List Recv → Option (List (List UInt8))
  | [] => splitIntoPackets acc
  | .data bytes :: rs =>
    if bytes.length = bufferSize then cutOut (acc ++ bytes) rs
    else do
      let out ← splitIntoPackets (acc ++ bytes)
      let later ← cutOut [] rs
      some (out ++ later)
  | _ :: rs => do
    let out ← splitIntoPackets acc
    let later ← cutOut [] rs
    some (out ++ later)

theorem cutOut_of_endsBatch (acc : List UInt8) {r : Recv} (rs : List Recv) (h : r.EndsBatch) :
    cutOut acc (r :: rs) = (splitIntoPackets (acc ++ r.bytes)).bind fun out =>
      (cutOut [] rs).map (out ++ ·) := by
  cases r <;>
    simp_all [cutOut, Recv.EndsBatch, Recv.bytes, Option.map_eq_bind, Function.comp_def]

theorem cutOut_of_not_endsBatch (acc : List UInt8) {r : Recv} (rs : List Recv)
    (h : ¬ r.EndsBatch) : cutOut acc (r :: rs) = cutOut (acc ++ r.bytes) rs := by
  cases r <;> simp_all [cutOut, Recv.EndsBatch, Recv.bytes]

theorem cutOut_isSome (acc : List UInt8) (rs : List Recv) : (cutOut acc rs).isSome := by
  induction rs generalizing acc with
  | nil => exact splitIntoPackets_isSome acc
  | cons r rs ih =>
      by_cases h : r.EndsBatch
      · obtain ⟨out, hout⟩ := Option.isSome_iff_exists.mp (splitIntoPackets_isSome (acc ++ r.bytes))
        simp [cutOut_of_endsBatch acc rs h, hout, ih]
      · simp [cutOut_of_not_endsBatch acc rs h, ih]

theorem ReadChannel.process_eq (c : ReadChannel) :
    c.process = (splitIntoPackets c.completeData).map fun out =>
      { c with responses := out.foldl store c.responses, completeData := [] } := by
  obtain ⟨connected, data, responses⟩ := c
  by_cases h : data = []
  · subst h
    simp [process, splitIntoPackets]
  · simp [process, h, Option.map_eq_bind, Function.comp_def]

/-- The thread's run over live receptions and a last one without data: it files
everything it cut out, in that order. -/
theorem ReadChannel.run_eq (c : ReadChannel) (connected : c.isConnected = true) {rs : List Recv}
    (live : ∀ r ∈ rs, r.Live) {last : Recv} (stop : last.bytes = []) :
    ∃ out c', cutOut c.completeData rs = some out ∧ c.run (rs ++ [last]) = some c' ∧
      c'.responses = out.foldl store c.responses := by
  induction rs generalizing c with
  | nil =>
      obtain ⟨out, hout⟩ := Option.isSome_iff_exists.mp (splitIntoPackets_isSome c.completeData)
      refine ⟨out, ?_⟩
      cases last <;> simp_all [run, recv, process_eq, cutOut, Recv.bytes, bufferSize]
  | cons r rs ih =>
      rw [List.forall_mem_cons] at live
      -- the state after `r`, in the two ways the pass can go
      by_cases ends : r.EndsBatch
      · obtain ⟨out, hout⟩ :=
          Option.isSome_iff_exists.mp (splitIntoPackets_isSome (c.completeData ++ r.bytes))
        have pass : c.recv r =
            some { c with responses := out.foldl store c.responses, completeData := [] } := by
          cases r <;> simp_all [recv, process_eq, Recv.bytes, Recv.EndsBatch, Recv.Live]
        obtain ⟨later, c', hlater, hrun, hresponses⟩ := ih
          { c with responses := out.foldl store c.responses, completeData := [] } connected live.2
        refine ⟨out ++ later, c', ?_, ?_, ?_⟩
        · rw [cutOut_of_endsBatch _ _ ends, hout, Option.bind_some, hlater, Option.map_some]
        · rw [List.cons_append, run, if_pos connected, pass, Option.bind_some, hrun]
        · rw [hresponses, List.foldl_append]
      · have pass : c.recv r = some { c with completeData := c.completeData ++ r.bytes } := by
          cases r <;> simp_all [recv, Recv.bytes, Recv.EndsBatch]
        obtain ⟨out, c', hout, hrun, hresponses⟩ := ih
          { c with completeData := c.completeData ++ r.bytes } connected live.2
        refine ⟨out, c', ?_, ?_, hresponses⟩
        · rw [cutOut_of_not_endsBatch _ _ ends, hout]
        · rw [List.cons_append, run, if_pos connected, pass, Option.bind_some, hrun]

/-- Cutting batch by batch through a stream that may begin inside a frame. -/
theorem cutOut_tail {packets : List (List UInt8)} {rs : List Recv} {acc : List UInt8}
    {out : List (List UInt8)} (tail : Tail packets (acc ++ received rs))
    (h : cutOut acc rs = some out) : ∀ p ∈ out, p = [] ∨ p ∈ packets := by
  induction rs generalizing acc out with
  | nil =>
      obtain ⟨out', hout, ok, -⟩ := (OnStream.outside tail).split
      have same : out' = out := Option.some.inj (hout.symm.trans h)
      exact same ▸ ok
  | cons r rs ih =>
      have stream : acc ++ received (r :: rs) = acc ++ r.bytes ++ received rs := by
        simp [received]
      rw [stream] at tail
      by_cases ends : r.EndsBatch
      · obtain ⟨first, hfirst, ok, after⟩ := (OnStream.outside tail).split
        obtain ⟨later, hlater⟩ := Option.isSome_iff_exists.mp (cutOut_isSome [] rs)
        rw [cutOut_of_endsBatch _ _ ends, splitIntoPackets, hfirst, Option.bind_some, hlater,
          Option.map_some, Option.some.injEq] at h
        subst h
        intro p hp
        rcases List.mem_append.mp hp with hp | hp
        · exact ok p hp
        · exact ih (by simpa using after) hlater p hp
      · rw [cutOut_of_not_endsBatch _ _ ends] at h
        exact ih tail h

/-! ## Nothing is lost exactly when batches end between frames -/

/-- Whole frames followed by a proper, non-empty part of the next one are not
whole frames. -/
theorem not_whole_of_cut {done rest : List (List UInt8)} {p u v : List UInt8}
    (frame : encode p = u ++ v) (hu : u ≠ []) (hv : v ≠ []) (k : Nat) :
    done.flatMap encode ++ u ≠ ((done ++ p :: rest).take k).flatMap encode := by
  intro whole
  have lengths := congrArg List.length whole
  have total := congrArg List.length frame
  have hu := List.length_pos_of_ne_nil hu
  have hv := List.length_pos_of_ne_nil hv
  rcases Nat.lt_or_ge done.length k with hk | hk
  · obtain ⟨j, rfl⟩ : ∃ j, k = done.length + 1 + j := ⟨k - done.length - 1, by omega⟩
    rw [Nat.add_assoc, List.take_length_add_append, Nat.add_comm 1 j, List.take_succ_cons] at lengths
    simp only [List.flatMap_append, List.flatMap_cons, List.length_append] at lengths total
    omega
  · rw [List.take_append_of_le_length hk] at lengths
    have part : (done.take k).flatMap encode ++ (done.drop k).flatMap encode =
        done.flatMap encode := by
      rw [← List.flatMap_append, List.take_append_drop]
    have part := congrArg List.length part
    simp only [List.length_append] at lengths part
    omega

/-- Whole frames followed by whole frames. -/
theorem whole_append_iff {done rest : List (List UInt8)} {bytes : List UInt8} :
    (∃ k, done.flatMap encode ++ bytes = ((done ++ rest).take k).flatMap encode) ↔
      ∃ k, bytes = (rest.take k).flatMap encode := by
  constructor
  · rintro ⟨k, whole⟩
    rcases Nat.le_total done.length k with hk | hk
    · obtain ⟨j, rfl⟩ := Nat.exists_eq_add_of_le hk
      rw [List.take_length_add_append, List.flatMap_append, List.append_cancel_left_eq] at whole
      exact ⟨j, whole⟩
    · have part : (done.take k).flatMap encode ++ (done.drop k).flatMap encode =
          done.flatMap encode := by
        rw [← List.flatMap_append, List.take_append_drop]
      rw [List.take_append_of_le_length hk, ← part, List.append_assoc] at whole
      have none_left := List.append_right_eq_self.mp whole
      exact ⟨0, by simpa using (List.append_eq_nil_iff.mp none_left).2⟩
  · rintro ⟨k, rfl⟩
    exact ⟨done.length + k, by rw [List.take_length_add_append, List.flatMap_append]⟩

/-- `FrameAligned` when `acc` was received before and not yet processed. -/
def FrameAlignedFrom (acc : List UInt8) (packets : List (List UInt8)) (rs : List Recv) : Prop :=
  ∀ front r back, rs = front ++ r :: back → r.EndsBatch →
    ∃ k, acc ++ received (front ++ [r]) = (packets.take k).flatMap encode

theorem frameAlignedFrom_cons {acc : List UInt8} {packets : List (List UInt8)} {r : Recv}
    {rs : List Recv} : FrameAlignedFrom acc packets (r :: rs) ↔
      (r.EndsBatch → ∃ k, acc ++ r.bytes = (packets.take k).flatMap encode) ∧
        FrameAlignedFrom (acc ++ r.bytes) packets rs := by
  constructor
  · intro aligned
    refine ⟨fun ends => ?_, ?_⟩
    · simpa [received] using aligned [] r rs rfl ends
    · rintro front q back rfl ends
      simpa [received] using aligned (r :: front) q back rfl ends
  · rintro ⟨here, later⟩ front q back split ends
    cases front with
    | nil =>
        obtain ⟨rfl, rfl⟩ := List.cons.inj split
        simpa [received] using here ends
    | cons r' front =>
        obtain ⟨rfl, rfl⟩ := List.cons.inj split
        simpa [received] using later front q back rfl ends

/-- The list is cut out completely exactly when no batch ends inside a frame. A
batch that does loses the frame it cuts, which no later batch can bring back. -/
theorem subset_cutOut_iff {packets : List (List UInt8)} (distinct : packets.Nodup)
    (nonempty : ∀ p ∈ packets, p ≠ []) {rs : List Recv} {acc : List UInt8}
    {out : List (List UInt8)} (stream : acc ++ received rs = packets.flatMap encode)
    (h : cutOut acc rs = some out) :
    packets ⊆ out ↔ FrameAlignedFrom acc packets rs := by
  induction rs generalizing acc packets out with
  | nil =>
      have whole : acc = packets.flatMap encode := by simpa [received] using stream
      rw [cutOut, whole, splitIntoPackets_flatMap_encode, Option.some.injEq] at h
      subst h
      refine iff_of_true (List.Subset.refl _) ?_
      intro front r back split
      simp at split
  | cons r rs ih =>
      have split : acc ++ r.bytes ++ received rs = packets.flatMap encode := by
        simpa [received] using stream
      rw [frameAlignedFrom_cons]
      by_cases ends : r.EndsBatch
      · obtain ⟨later, hlater⟩ := Option.isSome_iff_exists.mp (cutOut_isSome [] rs)
        rw [cutOut_of_endsBatch _ _ ends, hlater] at h
        rcases cut_flatMap_encode split with ⟨done, rest, rfl, whole, after⟩ |
          ⟨done, p, rest, u, v, rfl, frame, hu, hv, before, after⟩
        · rw [whole, splitIntoPackets_flatMap_encode, Option.bind_some, Option.map_some,
            Option.some.injEq] at h
          subst h
          obtain ⟨-, distinctRest, apart⟩ := List.nodup_append.mp distinct
          have here : ∃ k, done.flatMap encode = ((done ++ rest).take k).flatMap encode :=
            ⟨done.length, by simp⟩
          have rest_iff := ih distinctRest (fun p hp => nonempty p (List.mem_append_right _ hp))
            (by simpa using after) hlater
          have shifted : FrameAlignedFrom (acc ++ r.bytes) (done ++ rest) rs ↔
              FrameAlignedFrom [] rest rs := by
            simp only [FrameAlignedFrom, whole, whole_append_iff, List.nil_append]
          rw [whole] at shifted ⊢
          rw [shifted, ← rest_iff]
          refine ⟨fun sub => ⟨fun _ => here, fun p hp => ?_⟩, fun both => ?_⟩
          · rcases List.mem_append.mp (sub (List.mem_append_right _ hp)) with hdone | hp'
            · exact absurd rfl (apart p hdone p hp)
            · exact hp'
          · exact List.append_subset.mpr ⟨List.subset_append_left _ _,
              List.subset_append_of_subset_right _ both.2⟩
        · obtain ⟨x, y, rfl, rfl, hx, hy⟩ := exists_of_encode_eq_append frame hu hv
          have opened : splitFrom none (END :: x) = some [] := by
            simpa using splitFrom_some_append hx [END] []
          rw [before, splitIntoPackets, splitFrom_flatMap_encode_append, opened, Option.map_some,
            Option.bind_some, Option.map_some, Option.some.injEq, List.append_nil] at h
          subst h
          refine iff_of_false (fun sub => ?_) fun both => ?_
          · -- the frame cut here is in no batch, before or after
            obtain ⟨-, distinctRest, apart⟩ := List.nodup_append.mp distinct
            have tail : Tail rest ([] ++ received rs) :=
              ⟨y ++ [END], rest, after, fun _ h => h, .inr ⟨y, rfl, hy⟩⟩
            have hp : p ∈ done ++ p :: rest := by simp
            rcases List.mem_append.mp (sub hp) with hdone | hlost
            · exact apart p hdone p (by simp) rfl
            · rcases cutOut_tail tail hlater p hlost with empty | hrest
              · exact nonempty p hp empty
              · exact (List.nodup_cons.mp distinctRest).1 hrest
          · obtain ⟨k, hk⟩ := both.1 ends
            exact not_whole_of_cut frame hu hv k (before ▸ hk)
      · rw [cutOut_of_not_endsBatch _ _ ends] at h
        rw [ih distinct nonempty split h]
        exact ⟨fun later => ⟨fun e => absurd e ends, later⟩, fun both => both.2⟩

/-- Filing packets whose first bytes tell them apart. -/
theorem mem_foldl_store {packets : List (List UInt8)} (distinct : (packets.map List.head?).Nodup)
    {out : List (List UInt8)} (known : ∀ p ∈ out, p = [] ∨ p ∈ packets)
    {m : OrderedMap UInt8 (List UInt8)}
    (filed : ∀ e ∈ m.entries, ∃ p ∈ packets, p.head? = some e.1 ∧ p = e.2)
    (e : UInt8 × List UInt8) : e ∈ (out.foldl ReadChannel.store m).entries ↔
      e ∈ m.entries ∨ ∃ p ∈ out, p.head? = some e.1 ∧ p = e.2 := by
  induction out generalizing m with
  | nil => simp
  | cons p out ih =>
      rw [List.forall_mem_cons] at known
      cases p with
      | nil =>
          rw [List.foldl_cons, ReadChannel.store, ih known.2 filed]
          refine or_congr_right ⟨fun ⟨p, hp, h⟩ => ⟨p, List.mem_cons_of_mem _ hp, h⟩, ?_⟩
          rintro ⟨p, hp, head, h⟩
          rcases List.mem_cons.mp hp with rfl | hp
          · simp at head
          · exact ⟨p, hp, head, h⟩
      | cons b rest =>
          have hp : b :: rest ∈ packets := by simpa using known.1
          have stored (e : UInt8 × List UInt8) : e ∈ (m.assign b (b :: rest)).entries ↔
              e = (b, b :: rest) ∨ e ∈ m.entries := by
            rw [OrderedMap.mem_assign_iff]
            refine ⟨fun h => h.imp_right And.right, fun h => ?_⟩
            rcases h with h | h
            · exact .inl h
            · obtain ⟨q, hq, head, rfl⟩ := filed e h
              by_cases same : e.1 = b
              · have heads : e.2.head? = (b :: rest).head? := by rw [head, same]; rfl
                refine .inl (Prod.ext same ?_)
                exact List.inj_on_of_nodup_map distinct hq hp heads
              · exact .inr ⟨same, h⟩
          have filed' : ∀ e ∈ (m.assign b (b :: rest)).entries,
              ∃ p ∈ packets, p.head? = some e.1 ∧ p = e.2 := by
            intro e he
            rcases (stored e).mp he with rfl | he
            · exact ⟨_, hp, rfl, rfl⟩
            · exact filed e he
          rw [List.foldl_cons, ReadChannel.store, ih known.2 filed', stored, List.exists_mem_cons_iff,
            or_assoc, or_left_comm]
          refine or_congr_right (or_congr_left ?_)
          rw [Prod.ext_iff, List.head?_cons, Option.some.injEq]
          exact and_congr eq_comm eq_comm

/-- `create_read_channel` on a stream of frames with distinct first bytes, cut by
`recv` in any way and with any time-outs in between: the packets stored are those
sent if and only if whenever the thread processes its data, what it received so
far consists of whole frames. -/
theorem createReadChannel_storesExactly_iff {packets : List (List UInt8)}
    (nonempty : ∀ p ∈ packets, p ≠ []) (distinct : (packets.map List.head?).Nodup)
    {rs : List Recv} (live : ∀ r ∈ rs, r.Live) (stream : received rs = packets.flatMap encode)
    {last : Recv} (stop : last.bytes = []) :
    ∃ c, createReadChannel (rs ++ [last]) = some c ∧
      (StoresExactly c packets ↔ FrameAligned packets rs) := by
  obtain ⟨out, c, hout, hrun, responses⟩ := ReadChannel.run_eq .initial rfl live stop
  refine ⟨c, hrun, ?_⟩
  have known : ∀ p ∈ out, p = [] ∨ p ∈ packets :=
    cutOut_tail ⟨[], packets, stream, fun _ h => h, .inl rfl⟩ hout
  have aligned : packets ⊆ out ↔ FrameAligned packets rs :=
    subset_cutOut_iff (distinct.of_map _) nonempty stream hout
  rw [← aligned]
  have entries (e : UInt8 × List UInt8) :
      e ∈ c.responses.entries ↔ ∃ p ∈ out, p.head? = some e.1 ∧ p = e.2 := by
    rw [responses, mem_foldl_store distinct known (by simp [ReadChannel.initial])]
    simp [ReadChannel.initial]
  constructor
  · intro exact p hp
    obtain ⟨b, rest, rfl⟩ := List.exists_cons_of_ne_nil (nonempty p hp)
    obtain ⟨q, hq, -, rfl⟩ := (entries (b, b :: rest)).mp ((exact _).mpr ⟨_, hp, rfl, rfl⟩)
    exact hq
  · intro sub e
    rw [entries]
    refine ⟨fun ⟨p, hp, head, same⟩ => ?_, fun ⟨p, hp, h⟩ => ⟨p, sub hp, h⟩⟩
    rcases known p hp with rfl | hp'
    · simp at head
    · exact ⟨p, hp', head, same⟩

theorem createReadChannel_storesExactly_iff_aligned :
    ∃ c, createReadChannel ([.data [0xC0, 1, 0xDB, 0xDC, 0xC0], .wouldBlock] ++ [.closed]) = some c ∧
      (StoresExactly c [[1, 0xC0]] ↔
        FrameAligned [[1, 0xC0]] [.data [0xC0, 1, 0xDB, 0xDC, 0xC0], .wouldBlock]) :=
  createReadChannel_storesExactly_iff (by decide) (by decide)
    (by simp [Recv.Live, bufferSize]) (by decide) rfl

/-- A frame cut after its first byte is lost. -/
theorem createReadChannel_loses_cut_frame :
    ¬ ∀ (packets : List (List UInt8)) (rs : List Recv), (∀ p ∈ packets, p ≠ []) →
      (packets.map List.head?).Nodup → (∀ r ∈ rs, r.Live) →
      received rs = packets.flatMap encode →
      ∃ c, createReadChannel (rs ++ [.wouldBlock]) = some c ∧ StoresExactly c packets := by
  intro claim
  obtain ⟨c, hc, exact⟩ := claim [[1, 2]] [.data [0xC0, 1], .data [2, 0xC0]] (by decide)
    (by decide) (by simp [Recv.Live, bufferSize]) (by decide)
  have empty : (createReadChannel
      ([.data [0xC0, 1], .data [2, 0xC0]] ++ [.wouldBlock])).map (·.responses.entries) =
        some [] := by
    decide
  rw [hc, Option.map_some, Option.some.injEq] at empty
  have stored := (exact (1, [1, 2])).mpr ⟨[1, 2], by simp, rfl, rfl⟩
  simp [empty] at stored

end FujiNet.Iwm
