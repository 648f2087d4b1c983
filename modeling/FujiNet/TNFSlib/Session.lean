import FujiNet.TNFSlib.Server

/-!
# A client connected to the server

`Connected` relates a client to the server it talks to: they agree on the session,
and the server does not take the next request for a retransmission. Each request of
a connected client has one of three outcomes, following the fate that the server
gives it, and leaves the client connected.
-/

namespace FujiNet.TNFS

open FileServer

/-- Client and server agree on the session. -/
structure Connected (c : Client FileServer) : Prop where
  session : c.mInfo.session = c.net.session
  valid : c.net.session < 65536
  retries : 0 < c.mInfo.maxRetries
  heard : c.net.mute ≠ some c.mInfo.currentSequenceNum
  fits : (mountPayload c.mInfo.prepareMount).length ≤ 528
  rooted : c.mInfo.currentWorkingDirectory.head? = some 0x2F

/-- What a transaction leaves as it was, apart from the network. -/
structure Keeps (m m' : MountInfo) : Prop where
  fileHandles : m'.fileHandles = m.fileHandles
  currentWorkingDirectory : m'.currentWorkingDirectory = m.currentWorkingDirectory
  maxRetries : m'.maxRetries = m.maxRetries

theorem Keeps.refl (m : MountInfo) : Keeps m m := ⟨rfl, rfl, rfl⟩

theorem Keeps.trans {m m' m'' : MountInfo} (h : Keeps m m') (h' : Keeps m' m'') : Keeps m m'' :=
  ⟨h'.fileHandles.trans h.fileHandles,
    h'.currentWorkingDirectory.trans h.currentWorkingDirectory, h'.maxRetries.trans h.maxRetries⟩

theorem Keeps.bump (m : MountInfo) : Keeps m m.bump := ⟨rfl, rfl, rfl⟩

/-! ## What the server keeps -/

namespace FileServer

section

variable {policy : Policy} {command : UInt8} {payload : List UInt8} {s s' : FileServer}

@[simp] theorem session_execute (s : FileServer) (n : Nat) (command : UInt8)
    (payload : List UInt8) : (s.execute n command payload).2.session = s.session := by
  simp only [execute]
  split_ifs
  · rfl
  · simp only [open_]
    split
    · rfl
    · split <;> rfl
  · simp only [read]
    split
    · rfl
    · split_ifs <;> rfl
  · simp only [write]
    split
    · rfl
    · split_ifs <;> rfl
  · simp only [lseek]
    split
    · rfl
    · split_ifs <;> rfl
  · simp only [close]
    split <;> rfl
  · rfl

theorem fate_of_ne_expired {fate : Fate} (h : s.fate policy command payload = (fate, s'))
    (ne : fate ≠ .expired) : s'.session = s.session ∧ s'.mute = none := by
  simp only [FileServer.fate] at h
  split at h <;> obtain ⟨rfl, rfl⟩ := Prod.mk.inj h <;>
    first | exact absurd rfl ne | simp [tick, note]

theorem fate_expired (h : s.fate policy command payload = (.expired, s')) :
    s'.session = s.session % 65535 + 1 ∧ s'.mute = none := by
  simp only [FileServer.fate] at h
  split at h
  case h_3 =>
    obtain ⟨-, rfl⟩ := Prod.mk.inj h
    simp [tick, note, newSession]
  all_goals simp at h

end

end FileServer

/-! ## The three outcomes of a request -/

/-- The network hands each request on to the server, perhaps with another payload, which may
depend on the number of requests handled before. -/
def Net.HandsOn (N : Net FileServer) (policy : Policy)
    (rewrite : Nat → UInt8 → List UInt8 → List UInt8) : Prop :=
  ∀ lo hi seq command payload s, N.send (lo :: hi :: seq :: command :: payload) s =
    (net policy).send (lo :: hi :: seq :: command :: rewrite s.clock command payload) s

theorem net_handsOn (policy : Policy) :
    (net policy).HandsOn policy fun _ _ payload => payload :=
  fun _ _ _ _ _ _ => rfl

section

variable {policy : Policy} {command : UInt8} {payload : List UInt8} {c : Client FileServer}
  {s' : FileServer} {fuel : Nat}

theorem Connected.header (connected : Connected c) :
    u16 (lobyte c.mInfo.session) (hibyte c.mInfo.session) = c.net.session := by
  rw [connected.session]
  exact u16_lobyte_hibyte connected.valid

section

variable {N : Net FileServer} {rewrite : Nat → UInt8 → List UInt8 → List UInt8}
  (handsOn : N.HandsOn policy rewrite)
include handsOn

/-- An answered request. -/
theorem Connected.transaction_answered (connected : Connected c) (enough : 0 < fuel)
    (notMount : command ≠ Cmd.mount) (fits : payload.length ≤ 528) {reply : List UInt8}
    (h : c.net.fate policy command (rewrite c.net.clock command payload) =
      (.answered reply, s')) :
    Connected ⟨c.mInfo.bump, s'⟩ ∧
    ∃ p : Packet, transaction N fuel (.request command payload) payload.length c =
      some (some p, ⟨c.mInfo.bump, s'⟩) ∧ ∃ rest, p.payload = reply ++ rest := by
  obtain ⟨replyFits, result, first, tryAgain, invalid⟩ := conclusive_of_fate h
  obtain ⟨session, heard⟩ := fate_of_ne_expired h (by simp)
  refine ⟨⟨connected.session.trans session.symm, session ▸ connected.valid, connected.retries,
    by simp [heard], connected.fits, connected.rooted⟩, ?_⟩
  obtain ⟨p, htransaction, hpayload, -⟩ := transaction_of_reply (n := s') N command
    (lobyte c.mInfo.session) (hibyte c.mInfo.session) enough connected.retries fits replyFits first
    tryAgain invalid
    (by simp [handsOn _, net, respond, connected.heard, notMount, connected.header, h])
  exact ⟨p, htransaction, hpayload⟩

/-- An unanswered request. -/
theorem Connected.transaction_silent (connected : Connected c)
    (enough : c.mInfo.maxRetries < fuel) (notMount : command ≠ Cmd.mount)
    (fits : payload.length ≤ 528)
    (h : c.net.fate policy command (rewrite c.net.clock command payload) = (.silent, s')) :
    Connected ⟨c.mInfo.bump, { s' with mute := some c.mInfo.currentSequenceNum }⟩ ∧
    transaction N fuel (.request command payload) payload.length c =
      some (none, ⟨c.mInfo.bump, { s' with mute := some c.mInfo.currentSequenceNum }⟩) := by
  obtain ⟨session, -⟩ := fate_of_ne_expired h (by simp)
  refine ⟨⟨connected.session.trans session.symm, session ▸ connected.valid, connected.retries,
    by simp [MountInfo.bump], connected.fits, connected.rooted⟩, ?_⟩
  refine transaction_of_silence enough connected.retries fits ?_ ?_
  · simp [handsOn _, net, respond, connected.heard, notMount, connected.header, h]
  · simp [handsOn _, net, respond]

/-- A request that finds the session expired: the client mounts again, and the
request fails because its handle is gone. -/
theorem Connected.transaction_expired (connected : Connected c) (enough : 1 < fuel)
    (needsSession : command ≠ Cmd.mount ∧ command ≠ Cmd.unmount)
    (needsHandle : retriable command = false) (fits : payload.length ≤ 528)
    (h : c.net.fate policy command (rewrite c.net.clock command payload) = (.expired, s')) :
    ∃ m, Keeps c.mInfo m ∧ Connected ⟨m, s'.newSession⟩ ∧
    ∃ p : Packet, transaction N fuel (.request command payload) payload.length c =
      some (some p, ⟨m, s'.newSession⟩) ∧ p.payloadByte 0 = Result.badFilenum := by
  obtain ⟨fuel, rfl⟩ : ∃ k, fuel = k + 1 := ⟨fuel - 1, by omega⟩
  obtain ⟨session, heard⟩ := fate_expired h
  have newValid : s'.newSession.session < 65536 := by
    simp only [newSession]
    omega
  have root : 0x2F :: c.mInfo.currentWorkingDirectory.tail = c.mInfo.currentWorkingDirectory := by
    obtain ⟨rest, hrest⟩ := List.head?_eq_some_iff.mp connected.rooted
    rw [hrest]
    rfl
  have recovered := sessionRecovery_of_reply (n := s'.newSession) (c := ⟨c.mInfo.bump, s'⟩)
    N command (lobyte s'.newSession.session) (hibyte s'.newSession.session)
    (by omega : 0 < fuel) connected.retries connected.fits
    (by simp [handsOn _, net, respond, heard])
  rw [needsHandle] at recovered
  obtain ⟨p, htransaction, hresult⟩ := transaction_of_expiry N (lobyte c.mInfo.session)
    (hibyte c.mInfo.session) connected.retries fits needsSession
    (by simp [handsOn _, net, respond, connected.heard, needsSession.1, connected.header, h])
    (show Result.badFilenum ≠ Result.success by decide) recovered
  have same : mountPayload (c.mInfo.bump.remounted s'.newSession.session).prepareMount =
      mountPayload c.mInfo.prepareMount := by
    simp only [mountPayload, MountInfo.remounted, MountInfo.prepareMount, MountInfo.bump]
    split_ifs <;> simp_all
  have stillFits := connected.fits
  rw [← same] at stillFits
  rw [u16_lobyte_hibyte newValid] at htransaction
  refine ⟨c.mInfo.bump.remounted s'.newSession.session, ⟨rfl, root, rfl⟩, ?_,
    p, htransaction, hresult⟩
  exact ⟨rfl, newValid, connected.retries, by simp [newSession], stillFits, rfl⟩

end

/-! ## One request, whatever the server chooses -/

/-- Two servers with the same files, open handles and history. -/
structure FileServer.Agree (s s' : FileServer) : Prop where
  handles : s'.handles = s.handles
  files : s'.files = s.files
  incidents : s'.incidents = s.incidents

theorem FileServer.Agree.tick (s : FileServer) : s.Agree s.tick :=
  ⟨rfl, rfl, rfl⟩

theorem FileServer.Agree.muted (s : FileServer) (sequence : Option UInt8) :
    s.Agree { s.tick with mute := sequence } :=
  ⟨rfl, rfl, rfl⟩

/-- What the client gets for a request, and what it does to the server. -/
inductive Outcome (policy : Policy) (command : UInt8) (payload : List UInt8) (s : FileServer) :
    Option Packet → FileServer → Prop
  | granted {n : Nat} {p : Packet} {rest : List UInt8} {s' : FileServer} :
      policy command s.clock = .grant n →
      p.payload = (s.execute n command payload).1 ++ rest →
      (s.execute n command payload).2.Agree s' →
      Outcome policy command payload s (some p) s'
  | refused {result : UInt8} {p : Packet} {s' : FileServer} :
      policy command s.clock = .refuse result →
      p.payloadByte 0 ≠ Result.success → p.payloadByte 0 ≠ Result.endOfFile →
      (s.note ⟨command, payload, .refuse result, s.positionOf payload,
        s.positionOf payload⟩).Agree s' →
      Outcome policy command payload s (some p) s'
  | expired {p : Packet} {s' : FileServer} :
      policy command s.clock = .expire → p.payloadByte 0 = Result.badFilenum →
      ((s.note ⟨command, payload, .expire, s.positionOf payload,
        s.positionOf payload⟩).newSession).Agree s' →
      Outcome policy command payload s (some p) s'
  | lost {s' : FileServer} :
      policy command s.clock = .lose →
      (s.note ⟨command, payload, .lose, s.positionOf payload, s.positionOf payload⟩).Agree s' →
      Outcome policy command payload s none s'
  | replyLost {n : Nat} {s' : FileServer} :
      policy command s.clock = .loseReply n →
      ((s.execute n command payload).2.note ⟨command, payload, .loseReply n, s.positionOf payload,
        (s.execute n command payload).2.positionOf payload⟩).Agree s' →
      Outcome policy command payload s none s'

/-- A granted request. -/
theorem Connected.granted (connected : Connected c) (enough : 0 < fuel)
    (notMount : command ≠ Cmd.mount) (fits : payload.length ≤ 528) {n : Nat}
    (choice : policy command c.net.clock = .grant n) :
    ∃ p c' rest, transaction (net policy) fuel (.request command payload) payload.length c =
        some (some p, c') ∧
      Keeps c.mInfo c'.mInfo ∧ Connected c' ∧
      p.payload = (c.net.execute n command payload).1 ++ rest ∧
      (c.net.execute n command payload).2.Agree c'.net := by
  have h : c.net.fate policy command payload = (.answered (c.net.execute n command payload).1,
      (c.net.execute n command payload).2.tick) := by
    simp only [FileServer.fate, choice]
  obtain ⟨connected', p, htx, rest, hp⟩ :=
    Connected.transaction_answered (net_handsOn policy) connected enough notMount fits h
  exact ⟨p, _, rest, htx, .bump _, connected', hp, .tick _⟩

/-- Every request of a connected client that needs a handle comes to one of these
outcomes, also when it reaches the server with another payload. -/
theorem Connected.request_via {N : Net FileServer}
    {rewrite : Nat → UInt8 → List UInt8 → List UInt8} (handsOn : N.HandsOn policy rewrite)
    (connected : Connected c) (enough : c.mInfo.maxRetries + 1 < fuel) (command : UInt8)
    (payload : List UInt8) (needsSession : command ≠ Cmd.mount ∧ command ≠ Cmd.unmount)
    (needsHandle : retriable command = false) (fits : payload.length ≤ 528) :
    ∃ reply c', transaction N fuel (.request command payload) payload.length c =
        some (reply, c') ∧
      Keeps c.mInfo c'.mInfo ∧ Connected c' ∧
      Outcome policy command (rewrite c.net.clock command payload) c.net reply c'.net := by
  have retries := connected.retries
  generalize arrived : rewrite c.net.clock command payload = payload'
  cases choice : policy command c.net.clock with
  | grant n =>
      have h : c.net.fate policy command payload' =
          (.answered (c.net.execute n command payload').1,
            (c.net.execute n command payload').2.tick) := by
        simp only [FileServer.fate, choice]
      obtain ⟨connected', p, htx, rest, hp⟩ := Connected.transaction_answered handsOn connected
        (by omega : 0 < fuel) needsSession.1 fits (by rw [arrived]; exact h)
      exact ⟨_, _, htx, .bump _, connected', .granted choice hp (.tick _)⟩
  | refuse result =>
      have h : c.net.fate policy command payload' = (.answered [refusal result],
          (c.net.note ⟨command, payload', .refuse result, c.net.positionOf payload',
            c.net.positionOf payload'⟩).tick) := by
        simp only [FileServer.fate, choice]
      obtain ⟨connected', p, htx, rest, hp⟩ := Connected.transaction_answered handsOn connected
        (by omega : 0 < fuel) needsSession.1 fits (by rw [arrived]; exact h)
      have first := Packet.payloadByte_zero_of_payload hp
      refine ⟨_, _, htx, .bump _, connected', .refused choice ?_ ?_ (.tick _)⟩
      · exact first ▸ (refusal_ne result).1
      · exact first ▸ (refusal_ne result).2.2.1
  | expire =>
      have h : c.net.fate policy command payload' = (.expired,
          (c.net.note ⟨command, payload', .expire, c.net.positionOf payload',
            c.net.positionOf payload'⟩).tick.newSession) := by
        simp only [FileServer.fate, choice]
      obtain ⟨m, keeps, connected', p, htx, hp⟩ := Connected.transaction_expired handsOn connected
        (by omega : 1 < fuel) needsSession needsHandle fits (by rw [arrived]; exact h)
      exact ⟨_, _, htx, keeps, connected', .expired choice hp ⟨rfl, rfl, rfl⟩⟩
  | lose =>
      have h : c.net.fate policy command payload' = (.silent,
          (c.net.note ⟨command, payload', .lose, c.net.positionOf payload',
            c.net.positionOf payload'⟩).tick) := by
        simp only [FileServer.fate, choice]
      obtain ⟨connected', htx⟩ := Connected.transaction_silent handsOn connected
        (by omega : _ < fuel) needsSession.1 fits (by rw [arrived]; exact h)
      exact ⟨_, _, htx, .bump _, connected', .lost choice (.muted _ _)⟩
  | loseReply n =>
      have h : c.net.fate policy command payload' = (.silent,
          ((c.net.execute n command payload').2.note ⟨command, payload', .loseReply n,
            c.net.positionOf payload',
            (c.net.execute n command payload').2.positionOf payload'⟩).tick) := by
        simp only [FileServer.fate, choice]
      obtain ⟨connected', htx⟩ := Connected.transaction_silent handsOn connected
        (by omega : _ < fuel) needsSession.1 fits (by rw [arrived]; exact h)
      exact ⟨_, _, htx, .bump _, connected', .replyLost choice (.muted _ _)⟩

theorem Connected.request (policy : Policy) (connected : Connected c)
    (enough : c.mInfo.maxRetries + 1 < fuel) (command : UInt8) (payload : List UInt8)
    (needsSession : command ≠ Cmd.mount ∧ command ≠ Cmd.unmount)
    (needsHandle : retriable command = false) (fits : payload.length ≤ 528) :
    ∃ reply c', transaction (net policy) fuel (.request command payload) payload.length c =
        some (reply, c') ∧
      Keeps c.mInfo c'.mInfo ∧ Connected c' ∧
      Outcome policy command payload c.net reply c'.net :=
  Connected.request_via (net_handsOn policy) connected enough command payload needsSession
    needsHandle fits

end

end FujiNet.TNFS
