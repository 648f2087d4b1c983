import FujiNet.TNFSlib.Transaction

/-!
# What a transaction puts on the wire

Every datagram that a transaction receives is read into the buffer it sends from,
also when it is passed over as out of sequence or asks to try again. The next
attempt then sends what that datagram left in the buffer, and waits for the
sequence number found there.

A call returns a packet when an answer has come, when a new session could not be
opened, and when the system shuts down. In the last case the packet may hold a
datagram that was passed over.

`sendsTheRequest_iff` says when each attempt sends the caller's request with the
current session, and what is returned carried the request's own sequence number:
exactly when the datagrams of a wait that is followed by another attempt do not
differ from the request where they reach it, the last datagram of the wait that
ends the call is long enough to carry a sequence number, and a shutdown does not
come after one with another number.
-/

namespace FujiNet.TNFS

/-- The byte at `j` of the last datagram long enough to have one. -/
def lastByte (ds : List (List UInt8)) (j : Nat) : Option UInt8 := ds.reverse.findSome? (·[j]?)

theorem byte_foldl_read (ds : List (List UInt8)) (p : Packet) {j : Nat} (hj : j < 532) :
    (ds.foldl Packet.read p).byte j = (lastByte ds j).getD (p.byte j) := by
  induction ds generalizing p with
  | nil => rfl
  | cons d ds ih =>
      rw [List.foldl_cons, ih, Packet.byte_read p d j hj]
      simp only [lastByte, List.reverse_cons, List.findSome?_append]
      cases ds.reverse.findSome? (·[j]?) with
      | some byte => rfl
      | none => cases h : d[j]? <;> simp [List.findSome?, h]

/-! ## The waiting loop -/

/-- The buffer holds what the datagrams left in it, in order of arrival. -/
theorem receive_eq_foldl {expected : UInt8} {pkt p : Packet} {polls : List Poll}
    {ds : List (List UInt8)} {wait : Wait} (h : receive expected pkt polls = (p, ds, wait)) :
    p = ds.foldl Packet.read pkt := by
  induction polls generalizing pkt p ds wait with
  | nil =>
      obtain ⟨rfl, rfl, -⟩ : pkt = p ∧ [] = ds ∧ _ := by simpa [receive] using h
      rfl
  | cons poll polls ih =>
      simp only [receive] at h
      split_ifs at h
      · obtain ⟨rfl, rfl, -⟩ : pkt = p ∧ [] = ds ∧ _ := by simpa using h
        rfl
      · exact ih h
      · rcases hlater : receive expected (pkt.read poll.datagram) polls with ⟨later, ds', wait'⟩
        rw [hlater] at h
        obtain ⟨rfl, rfl, rfl⟩ : later = p ∧ poll.datagram :: ds' = ds ∧ wait' = wait := by
          simpa using h
        rw [List.foldl_cons]
        exact ih hlater
      all_goals
        obtain ⟨rfl, rfl, -⟩ : pkt.read poll.datagram = p ∧ [poll.datagram] = ds ∧ _ := by
          simpa using h
        rfl

/-- An answer has the expected sequence number, as the buffer shows it, and so has the
report of an expired session. -/
theorem receive_accepted {expected : UInt8} {pkt p : Packet} {polls : List Poll}
    {ds : List (List UInt8)} {w : Wait} (accepted : w = .answered ∨ w = .expired)
    (h : receive expected pkt polls = (p, ds, w)) :
    p.sequenceNum = expected ∧ ∃ front d, ds = front ++ [d] := by
  induction polls generalizing pkt ds with
  | nil =>
      obtain ⟨-, -, rfl⟩ : pkt = p ∧ [] = ds ∧ Wait.timedOut = w := by simpa [receive] using h
      simp at accepted
  | cons poll polls ih =>
      simp only [receive] at h
      split_ifs at h with down none_arrived passed_over expired
      · obtain ⟨-, -, rfl⟩ : pkt = p ∧ [] = ds ∧ Wait.shutDown = w := by simpa using h
        simp at accepted
      · exact ih h
      · rcases hlater : receive expected (pkt.read poll.datagram) polls with ⟨later, ds', wait'⟩
        rw [hlater] at h
        obtain ⟨rfl, rfl, rfl⟩ : later = p ∧ poll.datagram :: ds' = ds ∧ wait' = w := by
          simpa using h
        obtain ⟨seq, front, d, rfl⟩ := ih hlater
        exact ⟨seq, poll.datagram :: front, d, rfl⟩
      all_goals
        obtain ⟨rfl, rfl, -⟩ : pkt.read poll.datagram = p ∧ [poll.datagram] = ds ∧ _ := by
          simpa using h
        rw [not_or, not_not] at passed_over
        exact ⟨passed_over.1, [], poll.datagram, rfl⟩

/-! ## One attempt -/

section Attempt

variable {ν : Type*} {net : Net ν} {recovery : UInt8 → Client ν → Option (UInt8 × Client ν)}
  {payload0 : UInt8} {size : Nat} {a b : Attempt ν}

/-- What the wait of an attempt brings. A datagram that could not be sent is like
one that is not answered. -/
def Attempt.wait (net : Net ν) (size : Nat) (a : Attempt ν) :
    Packet × List (List UInt8) × Wait :=
  match (net.send (a.pkt.datagram size) a.client.net).1 with
  | none => (a.pkt, [], .timedOut)
  | some polls => receive a.pkt.sequenceNum a.pkt polls

theorem Attempt.wait_eq_foldl {p : Packet} {ds : List (List UInt8)} {w : Wait}
    (h : a.wait net size = (p, ds, w)) : p = ds.foldl Packet.read a.pkt := by
  simp only [Attempt.wait] at h
  split at h
  · obtain ⟨rfl, rfl, -⟩ : a.pkt = p ∧ [] = ds ∧ _ := by simpa using h
    rfl
  · exact receive_eq_foldl h

/-- The ways from one attempt to the next: nothing usable came in time, or a new
session was opened for the same request. -/
theorem attempt_next_cases (h : attempt net recovery payload0 size a = some (.inl b)) :
    a.retry < a.client.mInfo.maxRetries ∧ ∃ p ds,
      (a.wait net size = (p, ds, .timedOut) ∧ b.pkt = p ∧ b.client.mInfo = a.client.mInfo) ∨
      (a.wait net size = (p, ds, .expired) ∧
        b.pkt = (p.setSession b.client.mInfo.session).setPayload0 payload0) := by
  have retry : a.retry < a.client.mInfo.maxRetries := by
    by_contra exhausted
    simp [attempt, exhausted] at h
  simp only [attempt, if_pos retry] at h
  refine ⟨retry, ?_⟩
  rcases hsend : net.send (a.pkt.datagram size) a.client.net with ⟨_ | polls, n⟩
  · rw [hsend] at h
    obtain rfl := Sum.inl.inj (Option.some.inj h)
    exact ⟨a.pkt, [], .inl ⟨by simp only [Attempt.wait, hsend], rfl, rfl⟩⟩
  · rcases hwait : receive a.pkt.sequenceNum a.pkt polls with ⟨p, ds, w⟩
    have brings : a.wait net size = (p, ds, w) := by simp only [Attempt.wait, hsend, hwait]
    rw [hsend] at h
    simp only [hwait] at h
    cases w with
    | timedOut =>
        obtain rfl := Sum.inl.inj (Option.some.inj h)
        exact ⟨p, ds, .inl ⟨brings, rfl, rfl⟩⟩
    | shutDown => simp at h
    | answered => simp at h
    | expired =>
        refine ⟨p, ds, .inr ⟨brings, ?_⟩⟩
        obtain ⟨⟨result, c⟩, -, h⟩ := Option.bind_eq_some_iff.mp h
        by_cases success : result = Result.success
        · simp only [success, ne_eq, not_true_eq_false, if_false] at h
          obtain rfl := Sum.inl.inj (Option.some.inj h)
          rfl
        · simp [success] at h

/-- The ways to return a packet: as the wait left it, or with the result of a failed
recovery in it. -/
theorem attempt_return_cases {packet : Packet} {c' : Client ν}
    (h : attempt net recovery payload0 size a = some (.inr (some packet, c'))) :
    ∃ p ds w, a.wait net size = (p, ds, w) ∧ w ≠ .timedOut ∧
      (packet = p ∨ ∃ result, packet = p.setPayload0 result) := by
  have retry : a.retry < a.client.mInfo.maxRetries := by
    by_contra exhausted
    simp [attempt, exhausted] at h
  simp only [attempt, if_pos retry] at h
  rcases hsend : net.send (a.pkt.datagram size) a.client.net with ⟨_ | polls, n⟩
  · simp [hsend] at h
  · rcases hwait : receive a.pkt.sequenceNum a.pkt polls with ⟨p, ds, w⟩
    have brings : a.wait net size = (p, ds, w) := by simp only [Attempt.wait, hsend, hwait]
    rw [hsend] at h
    simp only [hwait] at h
    refine ⟨p, ds, w, brings, ?_⟩
    cases w with
    | timedOut => simp at h
    | shutDown =>
        obtain ⟨rfl, -⟩ : p = packet ∧ _ := by simpa using h
        exact ⟨by simp, .inl rfl⟩
    | answered =>
        obtain ⟨rfl, -⟩ : p = packet ∧ _ := by simpa using h
        exact ⟨by simp, .inl rfl⟩
    | expired =>
        obtain ⟨⟨result, c⟩, -, h⟩ := Option.bind_eq_some_iff.mp h
        by_cases success : result = Result.success
        · simp [success] at h
        · obtain ⟨rfl, -⟩ : p.setPayload0 result = packet ∧ _ := by simpa [success] using h
          exact ⟨by simp, .inr ⟨result, rfl⟩⟩

end Attempt

/-! ## The whole call -/

section Call

variable {ν : Type*} (net : Net ν) (fuel : Nat) (pkt : Packet) (size : Nat) (c : Client ν)

/-- The pass function of one call of `_tnfs_transaction`. -/
def pass : Attempt ν → Option (Attempt ν ⊕ (Option Packet × Client ν)) :=
  attempt net (sessionRecovery (transaction net fuel)) (pkt.payloadByte 0) size

/-- An attempt of the call that sends. -/
def Sending (a : Attempt ν) : Prop :=
  Loop.Reaches (pass net fuel pkt size) (firstAttempt pkt c) a ∧
    a.retry < a.client.mInfo.maxRetries

/-- The caller's request, with the session that is current at an attempt. -/
def requestAt (a : Attempt ν) : Packet :=
  (firstAttempt pkt c).pkt.setSession a.client.mInfo.session

/-- An attempt that sends, and after which the call returns this packet. -/
def Returning (a : Attempt ν) (packet : Packet) : Prop :=
  Sending net fuel pkt size c a ∧ ∃ c', pass net fuel pkt size a = some (.inr (some packet, c'))

/-- Every attempt sends the request. Whatever packet is returned has the sequence number
of the request, and so has the last datagram that the wait read into it. -/
def SendsTheRequest : Prop :=
  (∀ a, Sending net fuel pkt size c a →
    a.pkt.datagram size = (requestAt pkt c a).datagram size) ∧
  ∀ a packet, Returning net fuel pkt size c a packet →
    packet.sequenceNum = c.mInfo.currentSequenceNum ∧
    ∀ p ds w d, a.wait net size = (p, ds, w) → ds.getLast? = some d →
      d[2]? = some c.mInfo.currentSequenceNum

/-- When an attempt follows on a wait, then at each byte of the request the last
datagram of the wait that reaches it repeats it; after a new session was opened,
the session id and the first byte of the payload are set anew and exempt. And the
last datagram of the wait that ends the call is long enough to carry a sequence
number; if a shutdown ended the wait, this datagram was passed over, and it has the
number of the request. -/
def Undisturbed : Prop :=
  (∀ a b, Sending net fuel pkt size c a → Sending net fuel pkt size c b →
    pass net fuel pkt size a = some (.inl b) →
    ∀ p ds w, a.wait net size = (p, ds, w) →
    ∀ j < 4 + size, j < 532 → (w = .expired → j ∉ [0, 1, 4]) →
    ∀ byte, lastByte ds j = some byte → byte = (requestAt pkt c a).byte j) ∧
  ∀ a packet, Returning net fuel pkt size c a packet →
    ∀ p ds w d, a.wait net size = (p, ds, w) → ds.getLast? = some d →
      3 ≤ d.length ∧ (w = .shutDown → d[2]? = some c.mInfo.currentSequenceNum)

variable {net fuel pkt size c}

/-- The same bytes are sent when the buffers agree on them. -/
theorem datagram_eq_requestAt_iff {a : Attempt ν} :
    a.pkt.datagram size = (requestAt pkt c a).datagram size ↔
      ∀ j < 4 + size, j < 532 → a.pkt.byte j = (requestAt pkt c a).byte j :=
  Packet.datagram_eq_iff

theorem requestAt_byte_of_two_le (a b : Attempt ν) {j : Nat} (hj : 2 ≤ j) :
    (requestAt pkt c a).byte j = (requestAt pkt c b).byte j := by
  simp only [requestAt, Packet.byte_setSession]
  rw [if_neg (by omega), if_neg (by omega), if_neg (by omega), if_neg (by omega)]

theorem requestAt_byte_two (a : Attempt ν) :
    (requestAt pkt c a).byte 2 = c.mInfo.currentSequenceNum := by
  simp [requestAt, firstAttempt, Packet.byte_setSession, Packet.byte_set]

theorem requestAt_byte_four (a : Attempt ν) :
    (requestAt pkt c a).byte 4 = pkt.payloadByte 0 := by
  simp [requestAt, firstAttempt, Packet.byte_setSession, Packet.byte_set,
    Packet.payloadByte_eq_byte]

/-- From one attempt to the next, each byte of the buffer is set anew or is what the
last datagram that reaches it left there. -/
theorem pass_byte {a b : Attempt ν} (h : pass net fuel pkt size a = some (.inl b)) :
    ∃ p ds w, a.wait net size = (p, ds, w) ∧ ∀ j < 532,
      (w = .expired ∧ j ∈ [0, 1, 4] ∧ b.pkt.byte j = (requestAt pkt c b).byte j) ∨
      ((w = .expired → j ∉ [0, 1, 4]) ∧ b.pkt.byte j = (lastByte ds j).getD (a.pkt.byte j) ∧
        (requestAt pkt c b).byte j = (requestAt pkt c a).byte j) := by
  obtain ⟨-, p, ds, ⟨hwait, rfl, same⟩ | ⟨hwait, hb⟩⟩ := attempt_next_cases h
  · refine ⟨_, ds, .timedOut, hwait, fun j hj => .inr ⟨by simp, ?_, ?_⟩⟩
    · rw [Attempt.wait_eq_foldl hwait, byte_foldl_read ds a.pkt hj]
    · simp only [requestAt, same]
  · refine ⟨p, ds, .expired, hwait, fun j hj => ?_⟩
    by_cases exempt : j ∈ [0, 1, 4]
    · refine .inl ⟨rfl, exempt, ?_⟩
      rw [hb, Packet.byte_setPayload0]
      by_cases four : j = 4
      · rw [if_pos four, four, requestAt_byte_four]
      · have two : j = 0 ∨ j = 1 := by simpa [four] using exempt
        rcases two with rfl | rfl <;> simp [requestAt, Packet.byte_setSession]
    · refine .inr ⟨fun _ => exempt, ?_, ?_⟩
      · simp only [List.mem_cons, List.not_mem_nil, or_false, not_or] at exempt
        rw [hb, Packet.byte_setPayload0, if_neg exempt.2.2, Packet.byte_setSession,
          if_neg exempt.1, if_neg exempt.2.1, Attempt.wait_eq_foldl hwait,
          byte_foldl_read ds a.pkt hj]
      · refine requestAt_byte_of_two_le b a ?_
        simp only [List.mem_cons, List.not_mem_nil, or_false, not_or] at exempt
        omega

theorem Sending.of_pass {a b : Attempt ν}
    (reached : Loop.Reaches (pass net fuel pkt size) (firstAttempt pkt c) a)
    (h : pass net fuel pkt size a = some (.inl b)) : Sending net fuel pkt size c a :=
  ⟨reached, (attempt_next_cases h).1⟩

/-- As long as waits leave the request alone, every attempt has it in its buffer. -/
theorem Undisturbed.byte_eq (h : Undisturbed net fuel pkt size c) {a : Attempt ν}
    (sending : Sending net fuel pkt size c a) :
    ∀ j < 4 + size, j < 532 → a.pkt.byte j = (requestAt pkt c a).byte j := by
  obtain ⟨reached, retry⟩ := sending
  induction reached with
  | refl =>
      intro j _ hj
      simp only [requestAt, Packet.byte_setSession, firstAttempt,
        Packet.byte_set _ 2 _ _ (show 2 < 532 by omega)]
      split_ifs <;> first | rfl | omega
  | @tail a b reached step ih =>
      have sending := Sending.of_pass reached step
      obtain ⟨p, ds, w, hwait, bytes⟩ := pass_byte (c := c) step
      intro j hj hj'
      rcases bytes j hj' with ⟨-, -, fresh⟩ | ⟨notExempt, left, same⟩
      · exact fresh
      · rw [left, same]
        cases last : lastByte ds j with
        | none => exact ih sending.2 j hj hj'
        | some byte =>
            exact h.1 a b sending ⟨.tail reached step, retry⟩ step p ds w hwait j hj hj'
              notExempt byte last

/-- The datagram that ends a wait, if it is long enough. -/
theorem accepted_sequence {a : Attempt ν} {p : Packet} {ds : List (List UInt8)} {d : List UInt8}
    {w : Wait} (accepted : w = .answered ∨ w = .expired)
    (hwait : a.wait net size = (p, ds, w)) (last : ds.getLast? = some d)
    (long : 3 ≤ d.length) : d[2]? = some a.pkt.sequenceNum := by
  have hp := Attempt.wait_eq_foldl hwait
  simp only [Attempt.wait] at hwait
  split at hwait
  · obtain ⟨-, rfl, -⟩ : a.pkt = p ∧ [] = ds ∧ _ := by simpa using hwait
    simp at last
  · obtain ⟨seq, front, d', rfl⟩ := receive_accepted accepted hwait
    obtain rfl : d' = d := by simpa using last
    rw [← seq, Packet.sequenceNum, hp, List.foldl_append]
    simp only [List.foldl_cons, List.foldl_nil]
    rw [Packet.byte_read _ _ 2 (by omega), List.getElem?_eq_getElem (by omega)]
    rfl

/-- The sequence number of a packet that is returned: that of the last datagram of the
wait, or that which was sent. -/
theorem Returning.sequenceNum {a : Attempt ν} {packet : Packet} {number : UInt8}
    (returning : Returning net fuel pkt size c a packet) (sent : a.pkt.sequenceNum = number)
    (received : ∀ p ds w d, a.wait net size = (p, ds, w) → ds.getLast? = some d →
      d[2]? = some number) : packet.sequenceNum = number := by
  obtain ⟨-, c', step⟩ := returning
  obtain ⟨p, ds, w, hwait, -, holds⟩ := attempt_return_cases step
  have same : packet.sequenceNum = p.sequenceNum := by
    rcases holds with rfl | ⟨result, rfl⟩
    · rfl
    · rw [Packet.sequenceNum, Packet.byte_setPayload0, if_neg (by decide)]
      rfl
  rw [same, Packet.sequenceNum, Attempt.wait_eq_foldl hwait, byte_foldl_read ds a.pkt (by omega)]
  rcases List.eq_nil_or_concat ds with rfl | ⟨front, d, rfl⟩
  · exact sent
  · have at_two := received p _ w d hwait (by simp)
    rw [lastByte, List.concat_eq_append, List.reverse_append, List.reverse_singleton,
      List.singleton_append, List.findSome?_cons_of_isSome (by rw [at_two]; rfl), at_two,
      Option.getD_some]

/-- One call of `_tnfs_transaction`, over any network: every attempt sends the
caller's request with the current session, and the packet that is returned carried the
request's sequence number, if and only if the incoming datagrams leave the request
alone. -/
theorem sendsTheRequest_iff (net : Net ν) (fuel : Nat) (pkt : Packet) (size : Nat)
    (c : Client ν) :
    SendsTheRequest net fuel pkt size c ↔ Undisturbed net fuel pkt size c := by
  constructor
  · rintro ⟨sends, answers⟩
    refine ⟨fun a b ha hb step p ds w hwait j hj hj' notExempt byte last => ?_,
      fun a packet returning p ds w d hwait hlast => ?_⟩
    · obtain ⟨p', ds', w', hwait', bytes⟩ := pass_byte (c := c) step
      obtain ⟨rfl, rfl, rfl⟩ : p' = p ∧ ds' = ds ∧ w' = w := by simpa [hwait] using hwait'.symm
      have sent := datagram_eq_requestAt_iff.mp (sends b hb) j hj hj'
      rcases bytes j hj' with ⟨expired, exempt, -⟩ | ⟨-, left, same⟩
      · exact absurd exempt (notExempt expired)
      · rw [← same, ← sent, left, last]
        rfl
    · have at_two := (answers a packet returning).2 p ds w d hwait hlast
      exact ⟨(List.getElem?_eq_some_iff.mp at_two).1, fun _ => at_two⟩
  · intro undisturbed
    have bytes {a : Attempt ν} (sending : Sending net fuel pkt size c a) :=
      undisturbed.byte_eq sending
    refine ⟨fun a ha => datagram_eq_requestAt_iff.mpr (bytes ha), fun a packet returning => ?_⟩
    have sent : a.pkt.sequenceNum = c.mInfo.currentSequenceNum := by
      rw [Packet.sequenceNum, bytes returning.1 2 (by omega) (by omega), requestAt_byte_two]
    have received : ∀ p ds w d, a.wait net size = (p, ds, w) → ds.getLast? = some d →
        d[2]? = some c.mInfo.currentSequenceNum := by
      intro p ds w d hwait hlast
      obtain ⟨long, shutDown⟩ := undisturbed.2 a packet returning p ds w d hwait hlast
      have ended : w ≠ .timedOut := by
        obtain ⟨-, c', step⟩ := returning
        obtain ⟨p', ds', w', hwait', ended, -⟩ := attempt_return_cases step
        rw [hwait, Prod.mk.injEq, Prod.mk.injEq] at hwait'
        exact hwait'.2.2 ▸ ended
      cases w with
      | timedOut => exact absurd rfl ended
      | shutDown => exact shutDown rfl
      | answered => rw [accepted_sequence (.inl rfl) hwait hlast long, sent]
      | expired => rw [accepted_sequence (.inr rfl) hwait hlast long, sent]
    exact ⟨returning.sequenceNum sent received, received⟩

/-- What the call itself returns. -/
theorem SendsTheRequest.transaction (sends : SendsTheRequest net fuel pkt size c)
    {packet : Packet} {c' : Client ν}
    (returned : transaction net (fuel + 1) pkt size c = some (some packet, c')) :
    packet.sequenceNum = c.mInfo.currentSequenceNum := by
  obtain ⟨a, reached, step⟩ := Loop.exists_reaches_of_run returned
  have retry : a.retry < a.client.mInfo.maxRetries := by
    by_contra exhausted
    simp [attempt, exhausted] at step
  exact (sends.2 a packet ⟨⟨reached, retry⟩, c', step⟩).1

end Call

/-- A reply left over from another request is sent back as the next attempt. -/
theorem sendsTheRequest_fails_on_stale_reply :
    ¬ ∀ (net : Net Unit) (fuel : Nat) (pkt : Packet) (size : Nat) (c : Client Unit),
      SendsTheRequest net fuel pkt size c := by
  intro claim
  let stale : Net Unit := ⟨fun _ n => (some [{ datagram := [1, 0, 9, 0x24, 0] }], n)⟩
  let request : Packet := .request Cmd.read [2, 0x00, 0x02]
  let c : Client Unit := ⟨{ session := 1 }, ()⟩
  let second : Attempt Unit :=
    ⟨1, (firstAttempt request c).pkt.read [1, 0, 9, 0x24, 0], (firstAttempt request c).client⟩
  have step : pass stale 0 request 3 (firstAttempt request c) = some (.inl second) := rfl
  have sending : Sending stale 0 request 3 c second := ⟨.single step, by decide⟩
  have same := (claim stale 0 request 3 c).1 second sending
  revert same
  decide +kernel

end FujiNet.TNFS
