import FujiNet.FileSystem.FileTNFS
import FujiNet.TNFSlib.Write

/-!
# Writing to a server that takes what it likes

The server takes a non-empty part of each WRITE, or fails it. `tnfs_write` reports the
part, and the loop of `FileHandlerTNFS::write` goes on behind it, so that it always
stores a prefix of the buffer. It returns the right number as long as the size of the
request fits its `uint16_t`; a larger request is cut to its last 16 bits.
-/

namespace FujiNet.FileSystem

open TNFS FileServer

/-! ## The server -/

/-- A WRITE of which only a part arrives: `n` bytes, but at least one if there is one. -/
def partOf (n : Nat) (payload : List UInt8) : List UInt8 :=
  writePayload (payload.getD 0 0)
    (((payload.drop 3).take (u16 (payload.getD 1 0) (payload.getD 2 0))).take (max 1 n))

/-- What the server takes of a request, depending on the number of requests before. -/
def taken (accept : Nat → Nat) (t : Nat) (command : UInt8) (payload : List UInt8) : List UInt8 :=
  if command = Cmd.write then partOf (accept t) payload else payload

/-- The file server, which takes a part of each WRITE. -/
def partialNet (policy : Policy) (accept : Nat → Nat) : Net FileServer where
  send d s :=
    match d with
    | lo :: hi :: seq :: command :: payload =>
      (net policy).send (lo :: hi :: seq :: command :: taken accept s.clock command payload) s
    | _ => (net policy).send d s

theorem partialNet_handsOn (policy : Policy) (accept : Nat → Nat) :
    (partialNet policy accept).HandsOn policy (taken accept) :=
  fun _ _ _ _ _ _ => rfl

theorem taken_lseek (accept : Nat → Nat) (t : Nat) (payload : List UInt8) :
    taken accept t Cmd.lseek payload = payload :=
  if_neg (by decide)

theorem taken_write (accept : Nat → Nat) (t : Nat) (h : UInt8) {bytes : List UInt8}
    (short : bytes.length < 65536) :
    taken accept t Cmd.write (writePayload h bytes) =
      writePayload h (bytes.take (max 1 (accept t))) := by
  rw [taken, if_pos rfl, partOf]
  simp [writePayload, u16_lobyte_hibyte short]

/-- The server fails a WRITE without carrying it out. -/
def AcceptsOrFails (policy : Policy) : Prop := ∀ t n, policy Cmd.write t ≠ .loseReply n

section

variable {policy : Policy} {accept : Nat → Nat} {fuel : Nat} {c : Client FileServer}
  {f : FileHandleInfo} {i : Fin maxFileHandles} {g : OpenFile} {F : List UInt8}

/-! ## Requests -/

/-- A request whose execution keeps the files leaves them alone however it ends. -/
theorem files_of_outcome {command : UInt8} {payload : List UInt8} {s s' : FileServer}
    {reply : Option Packet} (outcome : Outcome policy command payload s reply s')
    (keeps : ∀ n, (s.execute n command payload).2.files = s.files) : s'.files = s.files := by
  cases outcome with
  | granted _ _ agree => exact agree.files.trans (keeps _)
  | refused _ _ _ agree => exact agree.files
  | expired _ _ agree => exact agree.files
  | lost _ agree => exact agree.files
  | replyLost _ agree => exact agree.files.trans (keeps _)

/-- What is granted is carried out; otherwise the request fails, and is not carried out unless
its reply was lost. -/
theorem granted_of_outcome {command : UInt8} {payload : List UInt8} {s s' : FileServer}
    {reply : Option Packet} (outcome : Outcome policy command payload s reply s') :
    (∃ n p rest, reply = some p ∧ p.payload = (s.execute n command payload).1 ++ rest ∧
      (s.execute n command payload).2.Agree s') ∨
    (∀ p, reply = some p → p.payloadByte 0 ≠ Result.success) ∧ ¬policy.Grants command ∧
      ((∀ n, policy command s.clock ≠ .loseReply n) → s'.files = s.files) := by
  have other {choice : Choice} (chosen : policy command s.clock = choice)
      (notGrant : ∀ n, choice ≠ .grant n) : ¬policy.Grants command := by
    intro grants
    obtain ⟨n, grant⟩ := grants s.clock
    exact notGrant n (chosen.symm.trans grant)
  cases outcome with
  | granted _ payload agree => exact .inl ⟨_, _, _, rfl, payload, agree⟩
  | refused chosen failed _ agree =>
      exact .inr ⟨fun p same => Option.some.inj same ▸ failed, other chosen (by simp),
        fun _ => agree.files⟩
  | expired chosen failed agree =>
      refine .inr ⟨fun p same => ?_, other chosen (by simp), fun _ => agree.files⟩
      rw [← Option.some.inj same, failed]
      decide
  | lost chosen agree => exact .inr ⟨by simp, other chosen (by simp), fun _ => agree.files⟩
  | replyLost chosen _ =>
      exact .inr ⟨by simp, other chosen (by simp), fun heard => absurd chosen (heard _)⟩

/-- The seek in front of a write. -/
theorem seek_back (opened : Opened c i f) (enough : c.mInfo.maxRetries + 1 < fuel)
    (at_q : At c.net f.handleId g F f.filePosition) (position : f.cachedPos < word)
    (dropped : f.cacheAvailable = 0) :
    ∃ result newPosition c', tnfsLseek (transaction (partialNet policy accept) fuel)
        f.handleId.toNat f.cachedPos seekSet true c = some ((result, newPosition), c') ∧
      c'.mInfo.maxRetries = c.mInfo.maxRetries ∧ c'.net.files g.path = some F ∧
      (result = 0 → Opened c' i (f.movedTo f.cachedPos) ∧ At c'.net f.handleId g F f.cachedPos) ∧
      (policy.Grants Cmd.lseek → result = 0) := by
  obtain ⟨reply, c', htx, keeps, connected, outcome⟩ := Connected.request_via
    (partialNet_handsOn policy accept) opened.connected enough Cmd.lseek
    (lseekPayload f.handleId seekSet f.cachedPos) (by decide) (by decide) (by simp [lseekPayload])
  rw [taken_lseek] at outcome
  have absolute : seekTarget f.cachedPos seekSet f.filePosition F.length = f.cachedPos := by
    rw [seekTarget_seekSet, toUint32_natCast position]
  have executed (n : Nat) :
      c.net.execute n Cmd.lseek (lseekPayload f.handleId seekSet f.cachedPos) =
        (Result.success :: le32 f.cachedPos,
          c.net.moveTo f.handleId { g with position := f.filePosition } f.cachedPos) := by
    rw [execute_lseek at_q n (by simp), absolute, if_pos (by omega)]
    rfl
  have files : c'.net.files g.path = some F := by
    rw [files_of_outcome outcome fun n => by rw [executed]; rfl]
    exact at_q.content
  have destination : f.destination f.filePosition f.cachedPos seekSet = f.cachedPos := by
    rw [destination_eq, seekTarget_seekSet, toUint32_natCast position, toUint32_natCast position]
  have miss : cacheSeek f f.cachedPos seekSet = none := by rw [cacheSeek, if_pos dropped]
  have request : (lseekPayload f.handleId seekSet f.cachedPos).length = 6 := rfl
  rw [request] at htx
  rw [tnfsLseek_skipCache _ opened.slot opened.lookup dropped,
    tnfsLseek_of_opened _ _ opened (.inl rfl), miss]
  simp only [htx, Option.bind_some]
  rcases granted_of_outcome outcome with
    ⟨n, p, rest, rfl, payload, agree⟩ | ⟨failed, notGrants, -⟩
  · rw [executed] at payload agree
    simp only [if_pos (Packet.payloadByte_zero_of_payload payload), destination]
    exact ⟨_, _, _, rfl, keeps.maxRetries, files, fun _ =>
      ⟨opened.setFile keeps connected rfl, (at_q.moveTo _).of_agree agree⟩, fun _ => rfl⟩
  · cases reply with
    | none =>
        exact ⟨_, _, _, rfl, keeps.maxRetries, files, (by rintro ⟨⟩),
          fun grants => absurd grants notGrants⟩
    | some p =>
        simp only [if_neg (failed p rfl)]
        exact ⟨_, _, _, rfl, keeps.maxRetries, files,
          fun success => absurd success (code_ne (failed p rfl)),
          fun grants => absurd grants notGrants⟩

/-- What one `tnfs_write` does: a non-empty part of the bytes is in the file and was counted,
or the file is as it was. -/
structure Taken (policy : Policy) (c : Client FileServer) (f : FileHandleInfo)
    (i : Fin maxFileHandles) (g : OpenFile) (F bytes : List UInt8) (result : Int) (written : Nat)
    (c' : Client FileServer) : Prop where
  maxRetries : c'.mInfo.maxRetries = c.mInfo.maxRetries
  failed : result ≠ 0 → c'.net.files g.path = some F
  success : result = 0 → 0 < written ∧ written ≤ bytes.length ∧
    f.cachedPos + written < word ∧
    Opened c' i (f.movedTo (f.cachedPos + written)) ∧
    At c'.net f.handleId g (writeAt F f.cachedPos (bytes.take written)) (f.cachedPos + written)
  grants : policy.Grants Cmd.lseek → policy.Grants Cmd.write → g.writable = true →
    f.cachedPos + bytes.length < word → result = 0

/-- The server stands at the client's position, or the seek failed. -/
theorem synced (policy : Policy) (accept : Nat → Nat) (opened : Opened c i f)
    (enough : c.mInfo.maxRetries + 1 < fuel)
    (at_q : At c.net f.handleId g F f.filePosition) (position : f.cachedPos < word)
    (dropped : f.cacheAvailable = 0) :
    ∃ result newPosition c', (if f.cachedPos = f.filePosition then some ((0, none), c)
        else tnfsLseek (transaction (partialNet policy accept) fuel) f.handleId.toNat f.cachedPos
          seekSet true c) = some ((result, newPosition), c') ∧
      c'.mInfo.maxRetries = c.mInfo.maxRetries ∧ c'.net.files g.path = some F ∧
      (result = 0 → Opened c' i (f.movedTo f.cachedPos) ∧ At c'.net f.handleId g F f.cachedPos) ∧
      (policy.Grants Cmd.lseek → result = 0) := by
  by_cases meets : f.cachedPos = f.filePosition
  · have same : f.movedTo f.cachedPos = f := by
      rw [FileHandleInfo.movedTo, ← dropped]
      conv_lhs =>
        arg 2
        rw [meets]
    rw [if_pos meets, same]
    exact ⟨0, none, c, rfl, rfl, at_q.content, fun _ => ⟨opened, meets ▸ at_q⟩, fun _ => rfl⟩
  · rw [if_neg meets]
    exact seek_back opened enough at_q position dropped

/-- The WRITE request of a synchronised client. -/
theorem write_request (acceptsOrFails : AcceptsOrFails policy) (accept : Nat → Nat)
    (connected : Connected c) (enough : c.mInfo.maxRetries + 1 < fuel) {h : UInt8}
    {q : Nat} (at_q : At c.net h g F q)
    {bytes : List UInt8} (some_ : 0 < bytes.length) (short : bytes.length ≤ 525) :
    ∃ reply c', transaction (partialNet policy accept) fuel
        (.request Cmd.write (writePayload h bytes)) (bytes.length + 3) c = some (reply, c') ∧
      Keeps c.mInfo c'.mInfo ∧ Connected c' ∧
      ((∃ p k, reply = some p ∧ p.payloadByte 0 = Result.success ∧ p.payloadU16 1 = k ∧ 0 < k ∧
          k ≤ bytes.length ∧ q + k < word ∧ At c'.net h g (writeAt F q (bytes.take k)) (q + k)) ∨
        (∀ p, reply = some p → p.payloadByte 0 ≠ Result.success) ∧
          c'.net.files g.path = some F ∧
          (policy.Grants Cmd.write → g.writable = true → ¬ q + bytes.length < word)) := by
  obtain ⟨reply, c', htx, keeps, connected', outcome⟩ := Connected.request_via
    (partialNet_handsOn policy accept) connected enough Cmd.write (writePayload h bytes)
    (by decide) (by decide) (by simp [writePayload]; omega)
  rw [taken_write _ _ _ (by omega)] at outcome
  have size : (writePayload h bytes).length = bytes.length + 3 := by simp [writePayload]
  rw [size] at htx
  refine ⟨reply, c', htx, keeps, connected', ?_⟩
  obtain ⟨k, hk⟩ : ∃ k, k = min (max 1 (accept c.net.clock)) bytes.length := ⟨_, rfl⟩
  have part : (bytes.take (max 1 (accept c.net.clock))).length = k := by
    rw [List.length_take, hk]
  have same : bytes.take (max 1 (accept c.net.clock)) = bytes.take k := by
    rw [hk, ← List.take_take, List.take_length]
  rcases granted_of_outcome outcome with
    ⟨n, p, rest, rfl, payload, agree⟩ | ⟨failed, notGrants, files⟩
  · rw [execute_write at_q n (by omega), part] at payload agree
    by_cases readOnly : g.writable = false
    · rw [if_pos readOnly] at payload agree
      refine .inr ⟨?_, (agree.files ▸ at_q.content :), fun _ writable => ?_⟩
      · rintro _ ⟨⟩
        rw [Packet.payloadByte_zero_of_payload payload]
        decide
      · rw [readOnly] at writable
        cases writable
    by_cases large : word ≤ q + k
    · rw [if_neg readOnly, if_pos large] at payload agree
      refine .inr ⟨?_, (agree.files ▸ at_q.content :), fun _ _ => by omega⟩
      rintro _ ⟨⟩
      rw [Packet.payloadByte_zero_of_payload payload]
      decide
    rw [if_neg readOnly, if_neg large] at payload agree
    refine .inl ⟨p, k, rfl, Packet.payloadByte_zero_of_payload payload, ?_, by omega, by omega,
      by omega, ?_⟩
    · rw [Packet.payloadU16, Packet.payloadByte_of_payload payload (by simp),
        Packet.payloadByte_of_payload payload (by simp)]
      exact u16_lobyte_hibyte (by omega)
    · rw [← same]
      exact (at_q.write _).of_agree agree
  · refine .inr ⟨failed, ?_, fun grants => absurd grants notGrants⟩
    rw [files fun n => acceptsOrFails _ n]
    exact at_q.content

/-- What `tnfs_write` makes of the reply. -/
def afterWrite (i : Fin maxFileHandles) (reply : Option Packet) (c : Client FileServer) :
    Option ((Int × Nat) × Client FileServer) :=
  match reply with
  | none => some ((-1, 0), c)
  | some packet =>
    if packet.payloadByte 0 = Result.success then
      (c.mInfo.fileHandles i).bind fun f =>
        let newPos := (f.filePosition + packet.payloadU16 1) % word
        let f := { f with filePosition := newPos, cachedPos := newPos }
        some ((code Result.success, packet.payloadU16 1),
          { c with mInfo := c.mInfo.setFile i f })
    else some ((code (packet.payloadByte 0), 0), c)

/-- `tnfs_write` of at most 525 bytes. -/
theorem tnfsWrite_taken (acceptsOrFails : AcceptsOrFails policy) (accept : Nat → Nat)
    (opened : Opened c i f) (enough : c.mInfo.maxRetries + 1 < fuel)
    (at_q : At c.net f.handleId g F f.filePosition) (position : f.cachedPos < word)
    (bytes : List UInt8) (some_ : 0 < bytes.length)
    (short : bytes.length ≤ 525) :
    ∃ result written c', tnfsWrite (transaction (partialNet policy accept) fuel)
        f.handleId.toNat bytes c = some ((result, written), c') ∧
      Taken policy c f i g F bytes result written c' := by
  have admitted : ¬ bytes.length > payloadSize - 3 := by
    simp only [payloadSize]
    omega
  have dropped : Opened { c with mInfo := c.mInfo.setFile i f.dropCache } i f.dropCache :=
    opened.setFile (.refl _) opened.connected rfl
  obtain ⟨seek, newPosition, c₁, hsync, retries₁, files₁, sought, grantsSeek⟩ :=
    synced policy accept dropped enough at_q position rfl
  have entered : tnfsWrite (transaction (partialNet policy accept) fuel) f.handleId.toNat bytes c =
      if seek ≠ 0 then some ((seek, 0), c₁)
      else (transaction (partialNet policy accept) fuel
          (.request Cmd.write (writePayload f.handleId bytes)) (bytes.length + 3) c₁).bind
        fun r => afterWrite i r.1 r.2 := by
    simp only [tnfsWrite, validAsUint8_toNat, if_neg admitted, opened.lookup, opened.slot,
      Option.bind_eq_bind, Option.bind_some]
    refine (congrArg (Option.bind · _) hsync).trans ?_
    rfl
  by_cases seeked : seek = 0
  case neg =>
    refine ⟨seek, 0, c₁, entered.trans (if_pos seeked), ?_⟩
    exact ⟨retries₁, fun _ => files₁, fun success => absurd success seeked,
      fun grants _ _ _ => absurd (grantsSeek grants) seeked⟩
  obtain ⟨opened₁, at₁⟩ := sought seeked
  obtain ⟨reply, c₂, htx, keeps₂, connected₂, ends⟩ := write_request
    acceptsOrFails accept opened₁.connected (by rw [retries₁]; exact enough) at₁ some_ short
  rw [entered, if_neg (not_not_intro seeked)]
  have htx' : transaction (partialNet policy accept) fuel
      (.request Cmd.write (writePayload f.handleId bytes)) (bytes.length + 3) c₁ =
      some (reply, c₂) := htx
  simp only [htx', Option.bind_some]
  have retries : c₂.mInfo.maxRetries = c.mInfo.maxRetries := keeps₂.maxRetries.trans retries₁
  rcases ends with
    ⟨p, k, rfl, success, number, positive, le, inRange, at₂⟩ | ⟨failed, files₂, open_⟩
  · have slot₂ : c₂.mInfo.fileHandles i = some (f.dropCache.movedTo f.dropCache.cachedPos) := by
      rw [keeps₂.fileHandles]
      exact opened₁.slot
    have moved : (f.dropCache.cachedPos + k) % word = f.cachedPos + k := Nat.mod_eq_of_lt inRange
    simp only [afterWrite, if_pos success, slot₂, Option.bind_some, number,
      FileHandleInfo.movedTo, moved]
    refine ⟨_, _, _, rfl, retries, fun failed => absurd rfl failed, fun _ =>
      ⟨positive, le, inRange, opened₁.setFile keeps₂ connected₂ rfl, at₂⟩, fun _ _ _ _ => rfl⟩
  · obtain ⟨result, notZero, ended⟩ : ∃ result, result ≠ 0 ∧
        afterWrite i reply c₂ = some ((result, 0), c₂) := by
      cases reply with
      | none => exact ⟨-1, by decide, rfl⟩
      | some p => exact ⟨_, code_ne (failed p rfl), if_neg (failed p rfl)⟩
    exact ⟨result, 0, c₂, ended, retries, fun _ => files₂, fun success => absurd success notZero,
      fun _ grants writable inRange => absurd inRange (open_ grants writable)⟩

/-! ## The loop -/

/-- The file after some bytes were stored at a position. -/
def stored (F : List UInt8) (position : Nat) (bytes : List UInt8) : List UInt8 :=
  if bytes = [] then F else writeAt F position bytes

theorem writeAt_stored (F : List UInt8) (position : Nat) (bytes : List UInt8) {more : List UInt8}
    (some_ : more ≠ []) :
    writeAt (stored F position bytes) (position + bytes.length) more =
      stored F position (bytes ++ more) := by
  have whole : bytes ++ more ≠ [] := fun none_ => some_ (List.append_eq_nil_iff.mp none_).2
  simp only [stored, if_neg whole]
  split
  · next none_ => rw [none_, List.length_nil, Nat.add_zero, List.nil_append]
  · exact writeAt_writeAt _ _ _ _

/-- The loop of `write` at its head: what was counted is in the file, and the client stands
behind it. -/
structure WriteHead (fuel : Nat) (g : OpenFile) (F buffer : List UInt8) (h : UInt8)
    (start requested : Nat) (t : Sending FileServer) : Prop where
  handle : t.handling.handler.handle = h.toNat
  le : t.totalBytesWritten ≤ requested
  enough : t.handling.client.mInfo.maxRetries + 1 < fuel
  inRange : start + t.totalBytesWritten < word
  opened : ∃ f i, Opened t.handling.client i f ∧ f.handleId = h ∧
    f.cachedPos = start + t.totalBytesWritten ∧
    At t.handling.client.net h g (stored F start (buffer.take t.totalBytesWritten)) f.filePosition

/-- How the loop ends: what was counted is in the file, and it is everything if the server
grants all requests. -/
structure Sent (policy : Policy) (g : OpenFile) (F buffer : List UInt8) (start requested : Nat)
    (t : Sending FileServer) : Prop where
  le : t.totalBytesWritten ≤ requested
  files : t.handling.client.net.files g.path =
    some (stored F start (buffer.take t.totalBytesWritten))
  complete : policy.Grants Cmd.lseek → policy.Grants Cmd.write → g.writable = true →
    start + requested < word → t.totalBytesWritten = requested

variable {buffer : List UInt8} {h : UInt8} {start requested : Nat} {t : Sending FileServer}

/-- One pass of the loop goes on behind the part that was taken, or ends. -/
theorem WriteHead.pass (acceptsOrFails : AcceptsOrFails policy) (whole : requested ≤ buffer.length)
    (progress : WriteHead fuel g F buffer h start requested t) :
    (∃ t', writePass (transaction (partialNet policy accept) fuel) requested buffer t =
        some (.inl t') ∧ WriteHead fuel g F buffer h start requested t' ∧
        requested - t'.totalBytesWritten < requested - t.totalBytesWritten) ∨
      ∃ r, writePass (transaction (partialNet policy accept) fuel) requested buffer t =
        some (.inr r) ∧ Sent policy g F buffer start requested r.2 := by
  obtain ⟨f, i, opened, rfl, position, at_q⟩ := progress.opened
  have le := progress.le
  by_cases more : t.totalBytesWritten < requested
  case neg =>
    exact .inr ⟨(none, t), if_neg more, le, at_q.content, fun _ _ _ _ =>
      show t.totalBytesWritten = requested by omega⟩
  obtain ⟨n, hn⟩ : ∃ n, n = min (requested - t.totalBytesWritten) maxReadwritePayload := ⟨_, rfl⟩
  have small : n ≤ 525 ∧ 0 < n ∧ t.totalBytesWritten + n ≤ requested := by
    simp only [maxReadwritePayload, payloadSize] at hn
    omega
  have length : (slice buffer t.totalBytesWritten n).length = n := by
    rw [length_slice]
    omega
  obtain ⟨result, written, c', sent, taken⟩ := tnfsWrite_taken acceptsOrFails accept opened
    progress.enough at_q (position ▸ progress.inRange) (slice buffer t.totalBytesWritten n)
    (by omega) (by omega)
  simp only [writePass, if_pos more, ← hn, progress.handle, sent, Option.bind_some]
  by_cases success : result = 0
  case neg =>
    refine .inr ⟨_, if_pos success, le, taken.failed success, fun seek write writable inRange => ?_⟩
    exact absurd (taken.grants seek write writable (by omega)) success
  obtain ⟨positive, within, inRange, opened', at'⟩ := taken.success success
  refine .inl ⟨_, if_neg (not_not_intro success), ?_, by dsimp only; omega⟩
  have front : (buffer.take t.totalBytesWritten).length = t.totalBytesWritten := by
    rw [List.length_take]
    omega
  have part : (slice buffer t.totalBytesWritten n).take written =
      slice buffer t.totalBytesWritten written := slice_take_slice _ _ _ (by omega)
  have nonempty : slice buffer t.totalBytesWritten written ≠ [] := by
    rw [← List.length_pos_iff, length_slice]
    omega
  have content := writeAt_stored F start (buffer.take t.totalBytesWritten) nonempty
  rw [front, slice, ← List.take_add] at content
  rw [part, position, slice, content] at at'
  refine ⟨progress.handle, by dsimp only; omega, taken.maxRetries ▸ progress.enough, ?_,
    ⟨_, i, opened', rfl, ?_, ?_⟩⟩
  · dsimp only
    omega
  · simp only [FileHandleInfo.movedTo]
    omega
  · have stands : (f.movedTo (start + t.totalBytesWritten + written)).filePosition =
        start + t.totalBytesWritten + written := rfl
    rw [position, stands]
    exact at'

/-- A handler of an open file. The client knows where the server stands, and its own position
is a 32-bit value. -/
structure Writable (fuel : Nat) (s : Handling FileServer) (i : Fin maxFileHandles)
    (f : FileHandleInfo) (g : OpenFile) (F : List UInt8) : Prop where
  handle : s.handler.handle = f.handleId.toNat
  enough : s.client.mInfo.maxRetries + 1 < fuel
  position : f.cachedPos < word
  opened : Opened s.client i f
  at_q : At s.client.net f.handleId g F f.filePosition

/-- `write` ends. What it counted is a prefix of the buffer and in the file. -/
theorem write_spec (acceptsOrFails : AcceptsOrFails policy) (accept : Nat → Nat)
    (buffer : List UInt8) {size count : Nat} (whole : size * count % 65536 ≤ buffer.length)
    {s : Handling FileServer}
    (standing : Writable fuel s i f g F) :
    ∃ answer s', write (transaction (partialNet policy accept) fuel) buffer size count s =
        some (answer, s') ∧
      answer.totalBytesWritten ≤ size * count % 65536 ∧
      s'.client.net.files g.path =
        some (stored F f.cachedPos (buffer.take answer.totalBytesWritten)) ∧
      answer.returned = (if size * count % 65536 = 0 then 0
        else if size * count % 65536 = answer.totalBytesWritten then count
        else answer.totalBytesWritten / size) ∧
      (policy.Grants Cmd.lseek → policy.Grants Cmd.write → g.writable = true →
        f.cachedPos + size * count % 65536 < word →
        answer.totalBytesWritten = size * count % 65536) := by
  simp only [write]
  generalize size * count % 65536 = requested at whole ⊢
  by_cases nothing : requested = 0
  · rw [if_pos nothing]
    refine ⟨_, _, rfl, Nat.zero_le _, ?_, (if_pos nothing).symm, fun _ _ _ _ => nothing.symm⟩
    exact standing.at_q.content
  rw [if_neg nothing]
  have initial : WriteHead fuel g F buffer f.handleId f.cachedPos requested ⟨s, 0⟩ :=
    ⟨standing.handle, Nat.zero_le _, standing.enough, standing.position,
      f, i, standing.opened, rfl, rfl, standing.at_q⟩
  obtain ⟨⟨errno, t⟩, ran, sent⟩ := Loop.run_total
    (WriteHead fuel g F buffer f.handleId f.cachedPos requested)
    (fun r : Option Int × Sending FileServer => Sent policy g F buffer f.cachedPos requested r.2)
    (fun t => requested - t.totalBytesWritten)
    (fun t progress => progress.pass acceptsOrFails whole) initial
    (show requested - 0 < requested + 1 by omega)
  rw [ran, Option.map_some]
  exact ⟨_, _, rfl, sent.le, sent.files, (if_neg nothing).symm, sent.complete⟩

end

/-! ## What `write` returns -/

/-- `write` ends, the file holds the bytes it counted at the client's position, and it returns
`count` exactly if these are all, and otherwise as many items as are whole. With items of no
size it returns 0 like `fwrite`. -/
def WriteExact (tx : Transact FileServer) (path F : List UInt8) (start : Nat) (buffer : List UInt8)
    (size count : Nat) (s : Handling FileServer) : Prop :=
  ∃ answer s', write tx buffer size count s = some (answer, s') ∧
    answer.totalBytesWritten ≤ size * count ∧
    s'.client.net.files path = some (stored F start (buffer.take answer.totalBytesWritten)) ∧
    if size = 0 then answer.returned = 0
    else (answer.returned = count ↔ answer.totalBytesWritten = size * count) ∧
      (answer.totalBytesWritten ≠ size * count →
        answer.returned = answer.totalBytesWritten / size)

theorem neZero_fileHandles : @NeZero Nat Zero.ofOfNat0 maxFileHandles := ⟨by decide⟩

attribute [local instance] neZero_fileHandles

/-- An empty file that is open for writing, and the client that opened it. -/
def openedForWriting : Handling FileServer where
  handler := ⟨0, 0⟩
  client := ⟨{ fileHandles := Function.update (fun _ => none) 0 (some {})
               currentWorkingDirectory := [0x2F], session := 1 },
    { session := 1, files := fun _ => some [], handles := fun _ => some ⟨[], 0, true⟩ }⟩

theorem writable_openedForWriting : Writable 7 openedForWriting 0 {} ⟨[], 0, true⟩ [] where
  handle := rfl
  enough := by decide
  position := by decide
  opened := ⟨by simp [openedForWriting], by decide,
    ⟨rfl, by decide, by decide, by decide, by decide, rfl⟩⟩
  at_q := ⟨rfl, rfl⟩

/-- The value that `write` returns, when all or nothing of the size fits its 16 bits. -/
theorem returned_exact {size count requested total : Nat} (positive : 0 < size)
    (le : total ≤ requested) (fits : requested = size * count ∨ requested = 0) :
    ((if requested = 0 then 0 else if requested = total then count else total / size) = count ↔
        total = size * count) ∧
      (total ≠ size * count →
        (if requested = 0 then 0 else if requested = total then count else total / size) =
          total / size) := by
  by_cases nothing : requested = 0
  · obtain rfl : total = 0 := by omega
    rw [if_pos nothing, Nat.zero_div]
    refine ⟨?_, fun _ => rfl⟩
    rw [eq_comm, eq_comm (b := size * count), Nat.mul_eq_zero]
    exact ⟨.inr, fun none_ => none_.resolve_left (by omega)⟩
  · obtain rfl : requested = size * count := fits.resolve_right nothing
    rw [if_neg nothing]
    by_cases all : size * count = total
    · rw [if_pos all]
      exact ⟨⟨fun _ => all.symm, fun _ => rfl⟩, fun other => absurd all.symm other⟩
    · rw [if_neg all]
      have less : total / size < count := by
        rw [Nat.div_lt_iff_lt_mul positive, Nat.mul_comm]
        omega
      exact ⟨⟨fun same => absurd same (by omega), fun same => absurd same.symm all⟩, fun _ => rfl⟩

/-- A server that grants everything gets the last 16 bits of the size, and `write` reports that
all was written. -/
theorem not_writeExact {size count : Nat} (odd : size * count % 65536 ≠ 0)
    (large : 65536 ≤ size * count) :
    ¬ WriteExact (transaction (partialNet (fun _ _ => .grant 0) fun _ => 0) 7) [] [] 0
      (List.replicate (size * count) 0) size count openedForWriting := by
  rintro ⟨answer, s', written, -, -, ends⟩
  have nonzero : size ≠ 0 := by
    rintro rfl
    rw [Nat.zero_mul] at odd
    exact odd rfl
  have grants (command : UInt8) : Policy.Grants (fun _ _ => .grant 0) command := fun _ => ⟨0, rfl⟩
  have acceptsOrFails : AcceptsOrFails fun _ _ => .grant 0 := nofun
  obtain ⟨answer', s'', written', -, -, returned, complete⟩ := write_spec acceptsOrFails
    (fun _ => 0) (List.replicate (size * count) 0)
    (by rw [List.length_replicate]; exact Nat.mod_le _ _) writable_openedForWriting
  obtain ⟨rfl, rfl⟩ := Prod.mk.inj (Option.some.inj (written.symm.trans written'))
  have small : 0 + size * count % 65536 < word := by
    simp only [word]
    omega
  have all := complete (grants _) (grants _) rfl small
  rw [if_neg odd, if_pos all.symm] at returned
  rw [if_neg nonzero] at ends
  have := ends.1.mp returned
  omega

/-- `write` is exact for a size and a count, with every server and every buffer, exactly if the
request has less than 65536 bytes or the last 16 bits of its size are zero, where nothing
is written. A server that grants everything gets as many bytes as the last 16 bits say. -/
theorem write_exact_iff (size count : Nat) :
    ((∀ policy accept fuel s i f g F buffer, AcceptsOrFails policy → Writable fuel s i f g F →
      buffer.length = size * count →
      WriteExact (transaction (partialNet policy accept) fuel) g.path F f.cachedPos buffer size
        count s) ↔
      size * count < 65536 ∨ 65536 ∣ size * count) ∧
    ∀ policy accept fuel s i f g F buffer, AcceptsOrFails policy → Writable fuel s i f g F →
      buffer.length = size * count → policy.Grants Cmd.lseek → policy.Grants Cmd.write →
      g.writable = true → f.cachedPos + size * count % 65536 < word →
      ∃ answer s', write (transaction (partialNet policy accept) fuel) buffer size count s =
          some (answer, s') ∧ answer.totalBytesWritten = size * count % 65536 := by
  refine ⟨⟨?_, ?_⟩, ?_⟩
  · intro exact_
    by_contra large
    obtain ⟨large, odd⟩ := not_or.mp large
    have odd : size * count % 65536 ≠ 0 := fun zero => odd (Nat.dvd_of_mod_eq_zero zero)
    exact not_writeExact odd (by omega) (exact_ _ _ 7 openedForWriting 0 {} ⟨[], 0, true⟩ [] _ nofun
      writable_openedForWriting List.length_replicate)
  · intro fits policy accept fuel s i f g F buffer acceptsOrFails standing length
    obtain ⟨answer, s', written, le, files, returned, -⟩ := write_spec acceptsOrFails
      accept buffer (by rw [length]; exact Nat.mod_le (size * count) 65536) standing
    refine ⟨answer, s', written, le.trans (Nat.mod_le _ _), files, ?_⟩
    by_cases zero : size = 0
    · rw [if_pos zero, returned, zero, Nat.zero_mul]
      rfl
    rw [if_neg zero]
    rw [returned]
    refine returned_exact (Nat.pos_of_ne_zero zero) le ?_
    rcases fits with small | multiple
    · exact .inl (Nat.mod_eq_of_lt small)
    · exact .inr (Nat.mod_eq_zero_of_dvd multiple)
  · intro policy accept fuel s i f g F buffer acceptsOrFails standing length seeks writes writable
      room
    obtain ⟨answer, s', written, -, -, -, complete⟩ := write_spec acceptsOrFails accept buffer
      (by rw [length]; exact Nat.mod_le (size * count) 65536) standing
    exact ⟨answer, s', written, complete seeks writes writable room⟩

/-- Of 65537 bytes one is written. -/
theorem write_of_65537 :
    ¬ WriteExact (transaction (partialNet (fun _ _ => .grant 0) fun _ => 0) 7) [] [] 0
      (List.replicate (1 * 65537) 0) 1 65537 openedForWriting :=
  not_writeExact (by decide) (by decide)

end FujiNet.FileSystem
