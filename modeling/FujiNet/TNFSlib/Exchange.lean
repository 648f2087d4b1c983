import FujiNet.TNFSlib.Transaction

/-!
# How a transaction ends

Three lemmas say what `_tnfs_transaction` returns when the network answers a
request at once, stays silent on it, or reports an expired session. They are all
that the operations on files and directories use of the retry loop.
-/

namespace FujiNet.TNFS

/-- The client after a transaction used a sequence number. -/
def MountInfo.bump (m : MountInfo) : MountInfo :=
  { m with currentSequenceNum := m.currentSequenceNum + 1 }

/-- The client after it mounted a server of version 1.2 that asks for no delay. -/
def MountInfo.remounted (m : MountInfo) (session : Nat) : MountInfo :=
  { m.prepareMount.bump with session, serverVersion := 0x0102, minRetryMs := 0 }

/-! ## Packets -/

namespace Packet

/-- The payload of a packet after a datagram with a whole header was read into it. -/
theorem payload_read (p : Packet) (lo hi seq cmd : UInt8) (r : List UInt8)
    (short : r.length ≤ 528) :
    (p.read (lo :: hi :: seq :: cmd :: r)).payload = r ++ p.payload.drop r.length := by
  have whole : (lo :: hi :: seq :: cmd :: r).take 532 = lo :: hi :: seq :: cmd :: r :=
    List.take_of_length_le (by simp only [List.length_cons]; omega)
  simp only [payload, read, whole, List.cons_append, List.drop_succ_cons, List.drop_zero,
    List.length_cons, List.drop_drop]
  rw [Nat.add_comm 4]

theorem session_read (p : Packet) (lo hi seq cmd : UInt8) (r : List UInt8) :
    (p.read (lo :: hi :: seq :: cmd :: r)).session = u16 lo hi := by
  simp [session, byte_read]

theorem sequenceNum_read (p : Packet) (lo hi seq cmd : UInt8) (r : List UInt8) :
    (p.read (lo :: hi :: seq :: cmd :: r)).sequenceNum = seq := by
  simp [sequenceNum, byte_read]

theorem command_read (p : Packet) (lo hi seq cmd : UInt8) (r : List UInt8) :
    (p.read (lo :: hi :: seq :: cmd :: r)).command = cmd := by
  simp [command, byte_read]

/-- The bytes of a reply, as they stand in the payload. -/
theorem payloadByte_of_payload {p : Packet} {r rest : List UInt8} (h : p.payload = r ++ rest)
    {i : Nat} (hi : i < r.length) : p.payloadByte i = r.getD i 0 := by
  rw [payloadByte, h, List.getD_eq_getElem?_getD, List.getElem?_append_left hi,
    ← List.getD_eq_getElem?_getD]

theorem payloadByte_zero_of_payload {p : Packet} {b : UInt8} {rest : List UInt8}
    (h : p.payload = b :: rest) : p.payloadByte 0 = b := by
  rw [payloadByte, h, List.getD_cons_zero]

end Packet

section

variable {ν : Type*} {net : Net ν} {c : Client ν} {n : ν} {fuel : Nat}

/-- The datagram of a request that fits the packet. -/
theorem datagram_firstAttempt (command : UInt8) (payload : List UInt8)
    (short : payload.length ≤ 528) (c : Client ν) :
    (firstAttempt (.request command payload) c).pkt.datagram payload.length =
      lobyte c.mInfo.session :: hibyte c.mInfo.session :: c.mInfo.currentSequenceNum ::
        command :: payload := by
  have whole : payload.take 528 = payload := List.take_of_length_le short
  simp only [firstAttempt, Packet.datagram, Packet.setSession, Packet.set, Packet.request, whole,
    List.cons_append, List.nil_append, List.set_cons_zero, List.set_cons_succ]
  rw [Nat.add_comm 4]
  simp

/-! ## One attempt -/

variable {recovery : UInt8 → Client ν → Option (UInt8 × Client ν)} {payload0 : UInt8}
  {size : Nat} {a : Attempt ν}

theorem attempt_of_reply (retry : a.retry < a.client.mInfo.maxRetries) {lo hi : UInt8}
    (cmd : UInt8) {r : List UInt8} (short : r.length ≤ 528) {result : UInt8} (first : r.head? = some result)
    (tryAgain : result ≠ Result.tryAgain) (invalid : result ≠ Result.invalidHandle)
    (sent : net.send (a.pkt.datagram size) a.client.net =
      (some [{ datagram := lo :: hi :: a.pkt.sequenceNum :: cmd :: r }], n)) :
    attempt net recovery payload0 size a =
      some (.inr (some (a.pkt.read (lo :: hi :: a.pkt.sequenceNum :: cmd :: r)),
        { a.client with net := n })) := by
  obtain ⟨rest, rfl⟩ : ∃ rest, r = result :: rest := by
    cases r with
    | nil => simp at first
    | cons b rest => exact ⟨rest, by simpa using first⟩
  have payload := a.pkt.payload_read lo hi a.pkt.sequenceNum cmd (result :: rest) short
  have first := Packet.payloadByte_zero_of_payload payload
  simp only [attempt, if_pos retry, sent, receive, Packet.sequenceNum_read, first, tryAgain,
    invalid]
  simp

theorem attempt_of_silence (retry : a.retry < a.client.mInfo.maxRetries)
    (sent : net.send (a.pkt.datagram size) a.client.net = (some [], n)) :
    attempt net recovery payload0 size a =
      some (.inl ⟨a.retry + 1, a.pkt, { a.client with net := n }⟩) := by
  simp [attempt, retry, sent, receive]

/-- An expired session is left to the recovery. -/
theorem attempt_of_expired (net : Net ν)
    (recovery : UInt8 → Client ν → Option (UInt8 × Client ν)) (payload0 : UInt8) (size : Nat)
    (retry : a.retry < a.client.mInfo.maxRetries) {lo hi cmd : UInt8}
    (needsSession : cmd ≠ Cmd.mount ∧ cmd ≠ Cmd.unmount)
    (sent : net.send (a.pkt.datagram size) a.client.net =
      (some [{ datagram := [lo, hi, a.pkt.sequenceNum, cmd, Result.invalidHandle] }], n)) :
    ∃ p : Packet, p.command = cmd ∧ attempt net recovery payload0 size a =
      (recovery cmd { a.client with net := n }).bind fun (result, c) =>
        if result ≠ Result.success then some (.inr (some (p.setPayload0 result), c))
        else some (.inl ⟨0, (p.setSession c.mInfo.session).setPayload0 payload0, c⟩) := by
  have payload := a.pkt.payload_read lo hi a.pkt.sequenceNum cmd [Result.invalidHandle] (by simp)
  have first := Packet.payloadByte_zero_of_payload payload
  have waited : receive a.pkt.sequenceNum a.pkt
      [{ datagram := [lo, hi, a.pkt.sequenceNum, cmd, Result.invalidHandle] }] =
      (a.pkt.read [lo, hi, a.pkt.sequenceNum, cmd, Result.invalidHandle],
        [[lo, hi, a.pkt.sequenceNum, cmd, Result.invalidHandle]], .expired) := by
    have other : Result.invalidHandle ≠ Result.tryAgain := by decide
    simp [receive, Packet.sequenceNum_read, first, Packet.command_read, needsSession, other]
  refine ⟨a.pkt.read [lo, hi, a.pkt.sequenceNum, cmd, Result.invalidHandle],
    Packet.command_read _ _ _ _ _ _, ?_⟩
  simp only [attempt, if_pos retry, sent, waited, Packet.command_read]
  rfl

theorem attempt_of_expiry (net : Net ν) (payload0 : UInt8) (size : Nat)
    (retry : a.retry < a.client.mInfo.maxRetries) {lo hi cmd : UInt8}
    (needsSession : cmd ≠ Cmd.mount ∧ cmd ≠ Cmd.unmount)
    (sent : net.send (a.pkt.datagram size) a.client.net =
      (some [{ datagram := [lo, hi, a.pkt.sequenceNum, cmd, Result.invalidHandle] }], n))
    {result : UInt8} {c : Client ν} (failed : result ≠ Result.success)
    (recovered : recovery cmd { a.client with net := n } = some (result, c)) :
    ∃ p : Packet, attempt net recovery payload0 size a = some (.inr (some p, c)) ∧
      p.payloadByte 0 = result := by
  obtain ⟨p, -, expired⟩ := attempt_of_expired net recovery payload0 size retry needsSession sent
  rw [recovered, Option.bind_some] at expired
  refine ⟨p.setPayload0 result, expired.trans (if_pos failed), ?_⟩
  simp [Packet.payloadByte_eq_byte, Packet.byte_setPayload0]

/-! ## The whole transaction -/

theorem firstAttempt_sequenceNum (pkt : Packet) (c : Client ν) :
    (firstAttempt pkt c).pkt.sequenceNum = c.mInfo.currentSequenceNum := by
  simp [firstAttempt, Packet.sequenceNum, Packet.byte_set]

variable {command : UInt8} {payload : List UInt8}

/-- A request answered at once, with anything but a demand to try again or to mount
again. -/
theorem transaction_of_reply (net : Net ν) (command lo hi : UInt8) (enough : 0 < fuel)
    (retries : 0 < c.mInfo.maxRetries) (fits : payload.length ≤ 528) {r : List UInt8} (short : r.length ≤ 528)
    {result : UInt8} (first : r.head? = some result) (tryAgain : result ≠ Result.tryAgain)
    (invalid : result ≠ Result.invalidHandle)
    (sent : net.send (lobyte c.mInfo.session :: hibyte c.mInfo.session ::
        c.mInfo.currentSequenceNum :: command :: payload) c.net =
      (some [{ datagram := lo :: hi :: c.mInfo.currentSequenceNum :: command :: r }], n)) :
    ∃ p : Packet, transaction net fuel (.request command payload) payload.length c =
        some (some p, ⟨c.mInfo.bump, n⟩) ∧
      (∃ rest, p.payload = r ++ rest) ∧ p.session = u16 lo hi := by
  obtain ⟨fuel, rfl⟩ : ∃ k, fuel = k + 1 := ⟨fuel - 1, by omega⟩
  refine ⟨_, Loop.run_succ_inr (attempt_of_reply retries command short first tryAgain
    invalid ?_), ⟨_, Packet.payload_read _ _ _ _ _ _ short⟩, Packet.session_read _ _ _ _ _ _⟩
  rw [datagram_firstAttempt _ _ fits, firstAttempt_sequenceNum]
  exact sent

/-- A request that is never answered, over all its retransmissions. The first one may
change the network. -/
theorem transaction_of_silence (enough : c.mInfo.maxRetries < fuel)
    (retries : 0 < c.mInfo.maxRetries) (fits : payload.length ≤ 528)
    (sent : net.send (lobyte c.mInfo.session :: hibyte c.mInfo.session ::
        c.mInfo.currentSequenceNum :: command :: payload) c.net = (some [], n))
    (again : net.send (lobyte c.mInfo.session :: hibyte c.mInfo.session ::
        c.mInfo.currentSequenceNum :: command :: payload) n = (some [], n)) :
    transaction net fuel (.request command payload) payload.length c =
      some (none, ⟨c.mInfo.bump, n⟩) := by
  obtain ⟨fuel, rfl⟩ : ∃ k, fuel = k + 1 := ⟨fuel - 1, by omega⟩
  suffices total : ∃ b, Loop.run (attempt net (sessionRecovery (transaction net fuel))
      ((Packet.request command payload).payloadByte 0) payload.length) (fuel + 1)
      (firstAttempt (.request command payload) c) = some b ∧
        b = (none, ⟨c.mInfo.bump, n⟩) by
    obtain ⟨b, hrun, rfl⟩ := total
    exact hrun
  refine Loop.run_total (fun a => a.pkt = (firstAttempt (.request command payload) c).pkt ∧
      a.client.mInfo = c.mInfo.bump ∧ a.retry ≤ c.mInfo.maxRetries ∧
      (a.client.net = n ∨ a.retry = 0 ∧ a.client.net = c.net)) _
    (fun a => c.mInfo.maxRetries - a.retry) ?_
    ⟨rfl, rfl, Nat.zero_le _, .inr ⟨rfl, rfl⟩⟩ (by simp only [firstAttempt]; omega)
  · rintro ⟨retry, pkt, m, s⟩ ⟨hpkt, hm, le, hnet⟩
    simp only at hpkt hm le hnet
    subst hpkt hm
    rcases Nat.lt_or_eq_of_le le with lt | exhausted
    · left
      refine ⟨⟨retry + 1, _, ⟨_, n⟩⟩, attempt_of_silence lt ?_, ⟨rfl, rfl, lt, .inl rfl⟩,
        by simp only; omega⟩
      rw [datagram_firstAttempt _ _ fits]
      rcases hnet with rfl | ⟨-, rfl⟩
      · exact again
      · exact sent
    · right
      refine ⟨_, ?_, rfl⟩
      have stayed : s = n := by
        rcases hnet with h | ⟨h, -⟩
        · exact h
        · omega
      simp [attempt, exhausted, MountInfo.bump, stayed]

/-- A request that meets an expired session, where recovery does not allow it to be
sent again. -/
theorem transaction_of_expiry (net : Net ν) (lo hi : UInt8) (retries : 0 < c.mInfo.maxRetries)
    (fits : payload.length ≤ 528)
    (needsSession : command ≠ Cmd.mount ∧ command ≠ Cmd.unmount)
    (sent : net.send (lobyte c.mInfo.session :: hibyte c.mInfo.session ::
        c.mInfo.currentSequenceNum :: command :: payload) c.net =
      (some [{ datagram := [lo, hi, c.mInfo.currentSequenceNum, command,
        Result.invalidHandle] }], n))
    {result : UInt8} {c' : Client ν} (failed : result ≠ Result.success)
    (recovered : sessionRecovery (transaction net fuel) command ⟨c.mInfo.bump, n⟩ =
      some (result, c')) :
    ∃ p : Packet, transaction net (fuel + 1) (.request command payload) payload.length c =
      some (some p, c') ∧ p.payloadByte 0 = result := by
  obtain ⟨p, hattempt, hresult⟩ := attempt_of_expiry net
    ((Packet.request command payload).payloadByte 0) payload.length
    (a := firstAttempt (.request command payload) c) retries needsSession
    (by rw [datagram_firstAttempt _ _ fits, firstAttempt_sequenceNum]; exact sent) failed recovered
  exact ⟨p, Loop.run_succ_inr hattempt, hresult⟩

/-- Recovery when the server mounts: only commands that need no old handle may be
sent again. -/
theorem sessionRecovery_of_reply (net : Net ν) (command lo hi : UInt8) (enough : 0 < fuel)
    (retries : 0 < c.mInfo.maxRetries)
    (fits : (mountPayload c.mInfo.prepareMount).length ≤ 528)
    (sent : net.send (lobyte invalidSession :: hibyte invalidSession ::
        c.mInfo.currentSequenceNum :: Cmd.mount :: mountPayload c.mInfo.prepareMount) c.net =
      (some [{ datagram := [lo, hi, c.mInfo.currentSequenceNum, Cmd.mount, Result.success,
        2, 1, 0, 0] }], n)) :
    sessionRecovery (transaction net fuel) command c =
      some (if retriable command then Result.success else Result.badFilenum,
        ⟨c.mInfo.remounted (u16 lo hi), n⟩) := by
  obtain ⟨p, hmount, ⟨rest, payload⟩, session⟩ := transaction_of_reply (n := n)
    (c := ⟨c.mInfo.prepareMount, c.net⟩) net Cmd.mount lo hi enough retries fits
    (r := [Result.success, 2, 1, 0, 0]) (by decide) rfl (by decide) (by decide) sent
  have bytes : p.payloadByte 0 = 0 ∧ p.payloadByte 1 = 2 ∧ p.payloadByte 2 = 1 ∧
      p.payloadByte 3 = 0 ∧ p.payloadByte 4 = 0 := by
    simp [Packet.payloadByte, payload, Result.success]
  have mounted : tnfsMount (transaction net fuel) { c with mInfo.session := invalidSession } =
      some (code Result.success, ⟨c.mInfo.prepareMount.bump.mounted p, n⟩) := by
    have prepared : MountInfo.prepareMount { c.mInfo with session := invalidSession } =
        c.mInfo.prepareMount := rfl
    have version : u16 2 1 = 0x0102 := by decide
    simp [tnfsMount, prepared, hmount, MountInfo.mounted, bytes, Result.success, version]
  have result : c.mInfo.prepareMount.bump.mounted p = c.mInfo.remounted (u16 lo hi) := by
    simp only [MountInfo.mounted, session, bytes]
    rfl
  rw [sessionRecovery, mounted, result]
  by_cases retry : retriable command <;> simp [retry]

end

end FujiNet.TNFS
