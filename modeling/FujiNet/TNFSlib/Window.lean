import FujiNet.TNFSlib.Session

/-!
# The cached window of a file

An open file has two positions, that of the server (`file_position`) and that of
the client (`cached_pos`), and a window of the file in the cache. `Window` says
that the cache holds the file's bytes, and `InStep` how the two positions lie
relative to the window: the window ends where the server stands, and without a
window both positions coincide.

The specifications of `_tnfs_fill_cache` and `tnfs_read` below are for every policy
of the server. A READ brings data, the end of the file, or an incident; a filling
brings a window or one of the latter two; and a read delivers the file's bytes from
the client's position on until it is full or one of the latter two stops it.
-/

namespace FujiNet.TNFS

open FileServer

/-- The server has the handle `h` open on a file with content `F`, at position `q`.
Path and mode are those of `g`. -/
structure At (s : FileServer) (h : UInt8) (g : OpenFile) (F : List UInt8) (q : Nat) : Prop where
  handle : s.handles h = some { g with position := q }
  content : s.files g.path = some F

/-- What an incident leaves of an open file: no handle at all if the session expired. -/
def Incident.Leaves (i : Incident) (s : FileServer) (h : UInt8) (g : OpenFile)
    (F : List UInt8) : Prop :=
  if i.choice = .expire then (∀ h, s.handles h = none) ∧ s.files g.path = some F
  else At s h g F i.after

section

variable {s s' : FileServer} {h : UInt8} {g : OpenFile} {F : List UInt8} {q : Nat}

theorem At.congr (at_q : At s h g F q) (handles : s'.handles = s.handles)
    (files : s'.files = s.files) : At s' h g F q :=
  ⟨handles ▸ at_q.handle, files ▸ at_q.content⟩

theorem At.of_agree (at_q : At s h g F q) (agree : s.Agree s') : At s' h g F q :=
  at_q.congr agree.handles agree.files

theorem At.moveTo (at_q : At s h g F q) (position : Nat) :
    At (s.moveTo h { g with position := q } position) h g F position :=
  ⟨by simp [FileServer.moveTo], at_q.content⟩

theorem At.positionOf (at_q : At s h g F q) (payload : List UInt8) (first : payload.getD 0 0 = h) :
    s.positionOf payload = q := by
  simp only [FileServer.positionOf, first, at_q.handle]
  rfl

end

/-- The incident `i` happens to a request about an open file at position `q`. -/
structure Occurs (policy : Policy) (command : UInt8) (payload : List UInt8) (s : FileServer)
    (h : UInt8) (g : OpenFile) (F : List UInt8) (q : Nat) (i : Incident) (s' : FileServer) :
    Prop where
  chosen : ∃ t, policy command t = i.choice
  notGranted : ∀ n, i.choice ≠ .grant n
  incidents : s'.incidents = i :: s.incidents
  command : i.command = command
  payload : i.payload = payload
  before : i.before = q
  leaves : i.Leaves s' h g F

/-- The server stands ahead of `q`, where the client believes it to be, by the length of `first`:
what the client takes the file to be, `F`, lacks these first bytes. -/
def Ahead (first : List UInt8) (s : FileServer) (h : UInt8) (g : OpenFile) (F : List UInt8)
    (q : Nat) : Prop :=
  At s h g (first ++ F) (q + first.length)

/-- The same of a server to whose request an incident happens. -/
def OccursAhead (first : List UInt8) (policy : Policy) (command : UInt8) (payload : List UInt8)
    (s : FileServer) (h : UInt8) (g : OpenFile) (F : List UInt8) (q : Nat) (i : Incident)
    (s' : FileServer) : Prop :=
  Occurs policy command payload s h g (first ++ F) (q + first.length) i s'

section

variable {s s' : FileServer} {h : UInt8} {g : OpenFile} {F : List UInt8} {q : Nat}

theorem At.ahead (at_q : At s h g F q) : Ahead [] s h g F q := at_q

theorem Ahead.at_q (ahead : Ahead [] s h g F q) : At s h g F q := ahead

theorem OccursAhead.occurs {policy : Policy} {command : UInt8} {payload : List UInt8} {i : Incident}
    (ahead : OccursAhead [] policy command payload s h g F q i s') :
    Occurs policy command payload s h g F q i s' := ahead

/-- An incident is one more, however many there were. -/
theorem OccursAhead.of_incidents {first : List UInt8} {policy : Policy} {command : UInt8}
    {payload : List UInt8} {i : Incident} {s₀ : FileServer}
    (ahead : OccursAhead first policy command payload s h g F q i s')
    (quiet : s.incidents = s₀.incidents) :
    OccursAhead first policy command payload s₀ h g F q i s' :=
  { ahead with incidents := by rw [ahead.incidents, quiet] }

end

/-- The reply to a request that failed, if there is one. -/
def FailedReply (reply : Option Packet) : Prop :=
  ∀ p, reply = some p → p.payloadByte 0 ≠ Result.success ∧ p.payloadByte 0 ≠ Result.endOfFile

/-- An expired session is reported as a bad handle. -/
def Incident.ReportedBy (i : Incident) (reply : Option Packet) : Prop :=
  i.choice = .expire → ∃ p, reply = some p ∧ p.payloadByte 0 = Result.badFilenum

/-- The error that an operation returns because of an incident. -/
structure Incident.ReportedAs (i : Incident) (error : Int) : Prop where
  notZero : error ≠ 0
  notEof : error ≠ code Result.endOfFile
  expired : i.choice = .expire → error = code Result.badFilenum

/-- A request that does not change the file is granted or fails. -/
theorem Outcome.granted_or_failed {policy : Policy} {command : UInt8} {payload : List UInt8}
    {s s' : FileServer} {h : UInt8} {g : OpenFile} {F : List UInt8} {q : Nat}
    {reply : Option Packet} (at_q : At s h g F q) (first : payload.getD 0 0 = h)
    (executes : ∀ n, (s.execute n command payload).2.incidents = s.incidents ∧
      ∃ q', At (s.execute n command payload).2 h g F q')
    (outcome : Outcome policy command payload s reply s') :
    (∃ n p rest, policy command s.clock = .grant n ∧ reply = some p ∧
      p.payload = (s.execute n command payload).1 ++ rest ∧
      (s.execute n command payload).2.Agree s') ∨
    FailedReply reply ∧ ∃ i, i.ReportedBy reply ∧
      Occurs policy command payload s h g F q i s' := by
  have position : s.positionOf payload = q := at_q.positionOf _ first
  cases outcome with
  | granted choice payload agree => exact .inl ⟨_, _, _, choice, rfl, payload, agree⟩
  | refused choice notSuccess notEof agree =>
      refine .inr ⟨by rintro p ⟨⟩; exact ⟨notSuccess, notEof⟩, _, by simp [Incident.ReportedBy],
        ⟨_, choice⟩, by simp, agree.incidents, rfl, rfl, position, ?_⟩
      simp only [Incident.Leaves, reduceCtorEq, if_false, position]
      exact at_q.congr agree.handles agree.files
  | expired choice result agree =>
      refine .inr ⟨?_, _, fun _ => ⟨_, rfl, result⟩, ⟨_, choice⟩, by simp, agree.incidents, rfl,
        rfl, position, ?_⟩
      · rintro p ⟨⟩
        rw [result]
        decide
      · simp only [Incident.Leaves, if_true, agree.handles, agree.files]
        exact ⟨fun _ => rfl, at_q.content⟩
  | lost choice agree =>
      refine .inr ⟨by simp [FailedReply], _, by simp [Incident.ReportedBy], ⟨_, choice⟩, by simp,
        agree.incidents, rfl, rfl, position, ?_⟩
      simp only [Incident.Leaves, reduceCtorEq, if_false, position]
      exact at_q.congr agree.handles agree.files
  | @replyLost n s' choice agree =>
      obtain ⟨quiet, q', moved⟩ := executes n
      refine .inr ⟨by simp [FailedReply], ⟨command, payload, .loseReply n, q, q'⟩,
        by simp [Incident.ReportedBy], ⟨_, choice⟩, by simp, ?_, rfl, rfl, rfl, ?_⟩
      · rw [agree.incidents]
        simp only [note, quiet, position, moved.positionOf _ first]
      · simp only [Incident.Leaves, reduceCtorEq, if_false]
        exact moved.congr agree.handles agree.files

/-! ## READ requests -/

/-- The payload of a READ request. -/
def readPayload (h : UInt8) (k : Nat) : List UInt8 := [h, lobyte k, hibyte k]

/-- What a READ of `k` bytes brings from a file at position `q`. -/
inductive ReadReply (policy : Policy) (k : Nat) (first : List UInt8) (s : FileServer) (h : UInt8) (g : OpenFile)
    (F : List UInt8) (q : Nat) : Option Packet → FileServer → Prop
  | data {j : Nat} {p : Packet} {s' : FileServer} : 0 < j → j ≤ k → q + j ≤ F.length →
      p.payloadByte 0 = Result.success → p.payloadU16 1 = j →
      slice p.payload 3 j = slice F q j → Ahead first s' h g F (q + j) →
      s'.incidents = s.incidents → ReadReply policy k first s h g F q (some p) s'
  | eof {p : Packet} {s' : FileServer} : F.length ≤ q → p.payloadByte 0 = Result.endOfFile →
      Ahead first s' h g F q → s'.incidents = s.incidents → ReadReply policy k first s h g F q (some p) s'
  | failed {i : Incident} {reply : Option Packet} {s' : FileServer} : FailedReply reply →
      i.ReportedBy reply → OccursAhead first policy Cmd.read (readPayload h k) s h g F q i s' →
      ReadReply policy k first s h g F q reply s'

section

variable {policy : Policy} {fuel : Nat} {c : Client FileServer} {h : UInt8} {g : OpenFile}
  {F : List UInt8} {q : Nat}

/-- Carrying out a READ. -/
theorem execute_read {s : FileServer} (at_q : At s h g F q) (n : Nat) {k : Nat} (hk : 0 < k)
    (hk' : k ≤ 525) :
    (F.length ≤ q ∧ s.execute n Cmd.read (readPayload h k) = ([Result.endOfFile], s)) ∨
    ∃ j, 0 < j ∧ j ≤ k ∧ q + j ≤ F.length ∧
      s.execute n Cmd.read (readPayload h k) =
        (Result.success :: lobyte j :: hibyte j :: slice F q j,
          s.moveTo h { g with position := q } (q + j)) := by
  have requested : u16 (lobyte k) (hibyte k) = k := u16_lobyte_hibyte (by omega)
  have executed : s.execute n Cmd.read (readPayload h k) = s.read n h k := by
    simp only [execute, readPayload, show Cmd.read ≠ Cmd.stat by decide,
      show Cmd.read ≠ Cmd.open_ by decide, if_false, if_true]
    simp [requested]
  rw [executed, FileServer.read, at_q.handle]
  simp only [at_q.content, Option.getD_some]
  by_cases stop : F.length ≤ q
  · exact .inl ⟨stop, by rw [if_pos stop]⟩
  · refine .inr ⟨(slice F q (min (max 1 n) (min k maxReadwritePayload))).length, ?_, ?_, ?_, ?_⟩
    · simp only [length_slice, maxReadwritePayload, payloadSize]
      omega
    · simp only [length_slice]
      omega
    · simp only [length_slice]
      omega
    · rw [if_neg stop, slice_length_slice]

theorem Connected.read_request (policy : Policy) (connected : Connected c)
    (enough : c.mInfo.maxRetries + 1 < fuel) {first : List UInt8}
    (at_q : Ahead first c.net h g F q) {k : Nat} (hk : 0 < k) (hk' : k ≤ 525) :
    ∃ reply c', transaction (net policy) fuel (.request Cmd.read (readPayload h k)) 3 c =
        some (reply, c') ∧
      Keeps c.mInfo c'.mInfo ∧ Connected c' ∧
      ReadReply policy k first c.net h g F q reply c'.net := by
  obtain ⟨reply, c', htx, keeps, connected', outcome⟩ := connected.request policy enough Cmd.read
    (readPayload h k) (by decide) (by decide) (by simp [readPayload])
  refine ⟨reply, c', htx, keeps, connected', ?_⟩
  have executes (n : Nat) : (c.net.execute n Cmd.read (readPayload h k)).2.incidents =
      c.net.incidents ∧
      ∃ q', At (c.net.execute n Cmd.read (readPayload h k)).2 h g (first ++ F) q' := by
    rcases execute_read at_q n hk hk' with ⟨_, executed⟩ | ⟨j, _, _, _, executed⟩
    · exact executed ▸ ⟨rfl, _, at_q⟩
    · exact executed ▸ ⟨rfl, _, at_q.moveTo _⟩
  have whole : (first ++ F).length = first.length + F.length := List.length_append
  rcases outcome.granted_or_failed at_q rfl executes with
    ⟨n, p, rest, _, rfl, payload, agree⟩ | ⟨failed, i, reported, occurs⟩
  · rcases execute_read at_q n hk hk' with ⟨stop, executed⟩ | ⟨j, hj, hjk, hjF, executed⟩
    · rw [executed] at payload agree
      exact .eof (by omega) (Packet.payloadByte_zero_of_payload payload) (at_q.of_agree agree)
        agree.incidents
    · rw [executed] at payload agree
      have moved : Ahead first c'.net h g F (q + j) := by
        rw [Ahead, Nat.add_right_comm]
        exact (at_q.moveTo _).of_agree agree
      refine .data hj hjk (by omega) (Packet.payloadByte_zero_of_payload payload) ?_ ?_ moved
        agree.incidents
      · have bytes : p.payloadByte 1 = lobyte j ∧ p.payloadByte 2 = hibyte j := by
          simp [Packet.payloadByte, payload]
        rw [Packet.payloadU16, bytes.1, bytes.2, u16_lobyte_hibyte (by omega)]
      · rw [payload, slice_append_right]
        simp only [slice, List.cons_append, List.drop_succ_cons, List.drop_zero]
        have size : (slice F q j).length = j := by
          rw [length_slice]
          omega
        exact List.take_left' size
  · exact .failed failed reported occurs

/-- A request about a handle that the server does not know. -/
theorem Connected.request_closed (policy : Policy) (connected : Connected c)
    (enough : c.mInfo.maxRetries + 1 < fuel) (closed : c.net.handles h = none) (command : UInt8)
    (payload : List UInt8) (needsSession : command ≠ Cmd.mount ∧ command ≠ Cmd.unmount)
    (needsHandle : retriable command = false) (fits : payload.length ≤ 528)
    (executed : ∀ n, c.net.execute n command payload = ([Result.badFilenum], c.net)) :
    ∃ reply c', transaction (net policy) fuel (.request command payload) payload.length c =
        some (reply, c') ∧
      Keeps c.mInfo c'.mInfo ∧ Connected c' ∧ c'.net.handles h = none ∧ FailedReply reply := by
  obtain ⟨reply, c', htx, keeps, connected', outcome⟩ := connected.request policy enough command
    payload needsSession needsHandle fits
  refine ⟨reply, c', htx, keeps, connected', ?_⟩
  cases outcome with
  | granted _ payload agree =>
      rw [executed] at payload agree
      refine ⟨by rw [agree.handles, closed], ?_⟩
      rintro p ⟨⟩
      rw [Packet.payloadByte_zero_of_payload payload]
      decide
  | refused _ notSuccess notEof agree =>
      refine ⟨by rw [agree.handles]; exact closed, ?_⟩
      rintro p ⟨⟩
      exact ⟨notSuccess, notEof⟩
  | expired _ result agree =>
      refine ⟨by rw [agree.handles]; rfl, ?_⟩
      rintro p ⟨⟩
      rw [result]
      decide
  | lost _ agree => exact ⟨by rw [agree.handles]; exact closed, by simp [FailedReply]⟩
  | replyLost _ agree =>
      rw [executed] at agree
      exact ⟨by rw [agree.handles]; exact closed, by simp [FailedReply]⟩

theorem execute_read_closed {s : FileServer} (closed : s.handles h = none) (k n : Nat) :
    s.execute n Cmd.read (readPayload h k) = ([Result.badFilenum], s) := by
  simp only [execute, readPayload, show Cmd.read ≠ Cmd.stat by decide,
    show Cmd.read ≠ Cmd.open_ by decide, if_false, if_true, FileServer.read]
  simp [closed]

/-! ## Filling the cache -/

/-- The file during a filling that began with `f` and has fetched `j` bytes. -/
structure Fetched (f : FileHandleInfo) (F : List UInt8) (j : Nat) (f' : FileHandleInfo) : Prop where
  file : f' = { f with
    cacheAvailable := f'.cacheAvailable, cacheStart := f.filePosition, cache := f'.cache
    filePosition := f.filePosition + j }
  length : f'.cache.length = 512
  holds : f'.cache.take j = slice F f.filePosition j
  within : 0 < j → f.filePosition + j ≤ F.length

/-- The loop of `_tnfs_fill_cache` at its head. -/
structure FillHead (first : List UInt8) (c : Client FileServer) (f : FileHandleInfo) (g : OpenFile)
    (F : List UInt8) (s : Filling FileServer) : Prop where
  remaining : s.remaining ≤ 512
  fetched : Fetched f F (512 - s.remaining) s.file
  dropped : s.file.cacheAvailable = 0
  keeps : Keeps c.mInfo s.client.mInfo
  connected : Connected s.client
  ahead : Ahead first s.client.net f.handleId g F (f.filePosition + (512 - s.remaining))
  quiet : s.client.net.incidents = c.net.incidents

/-- How the loop of `_tnfs_fill_cache` ends. -/
inductive FillEnd (policy : Policy) (first : List UInt8) (c : Client FileServer)
    (f : FileHandleInfo) (g : OpenFile) (F : List UInt8) : Int → Filling FileServer → Prop
  | full {s : Filling FileServer} : FillHead first c f g F s → s.remaining = 0 →
      FillEnd policy first c f g F 0 s
  | eof {s : Filling FileServer} : FillHead first c f g F s → 0 < s.remaining →
      F.length ≤ f.filePosition + (512 - s.remaining) →
      FillEnd policy first c f g F (code Result.endOfFile) s
  | failed {s : Filling FileServer} {i : Incident} {error : Int} : 0 < s.remaining →
      s.remaining ≤ 512 → Fetched f F (512 - s.remaining) s.file → s.file.cacheAvailable = 0 →
      Keeps c.mInfo s.client.mInfo → Connected s.client → i.ReportedAs error →
      OccursAhead first policy Cmd.read (readPayload f.handleId s.remaining) c.net f.handleId g F
        (f.filePosition + (512 - s.remaining)) i s.client.net →
      FillEnd policy first c f g F error s

/-- The bytes of one more READ continue those in the cache. -/
theorem Fetched.append {f f' : FileHandleInfo} {j k : Nat} (fetched : Fetched f F j f')
    (room : j + k ≤ 512) (within : f.filePosition + j + k ≤ F.length) (small : F.length < word) :
    Fetched f F (j + k) { f' with
      cache := overlay f'.cache j (slice F (f.filePosition + j) k)
      filePosition := (f'.filePosition + k) % word } := by
  have length := fetched.length
  have copied : (slice F (f.filePosition + j) k).length = k := by
    rw [length_slice]
    omega
  refine ⟨?_, ?_, ?_, fun _ => by omega⟩
  · have position : (f'.filePosition + k) % word = f.filePosition + (j + k) := by
      rw [congrArg FileHandleInfo.filePosition fetched.file, Nat.mod_eq_of_lt] <;>
        simp only <;> omega
    rw [position]
    conv_lhs => rw [fetched.file]
  · rw [length_overlay _ _ _ (by rw [copied, length]; omega), length]
  · have joined := take_overlay_add f'.cache j (slice F (f.filePosition + j) k) (by omega)
    rw [copied] at joined
    rw [joined, fetched.holds, slice_append_slice]

theorem Fetched.setAvailable {f f' : FileHandleInfo} {j : Nat} (fetched : Fetched f F j f')
    (available : Nat) : Fetched f F j { f' with cacheAvailable := available } := by
  refine ⟨?_, fetched.length, fetched.holds, fetched.within⟩
  conv_lhs => rw [fetched.file]

variable {first : List UInt8}

/-- One pass of the filling loop. -/
theorem fillPass_spec (policy : Policy) {f : FileHandleInfo} {s : Filling FileServer}
    (enough : c.mInfo.maxRetries + 1 < fuel) (small : F.length < word)
    (head : FillHead first c f g F s) :
    (∃ s', fillPass (transaction (net policy) fuel) s = some (.inl s') ∧ FillHead first c f g F s' ∧
      s'.remaining < s.remaining) ∨
    ∃ b, fillPass (transaction (net policy) fuel) s = some (.inr b) ∧ FillEnd policy first c f g F b.1 b.2 := by
  obtain ⟨client, file, remaining⟩ := s
  obtain ⟨le, fetched, dropped, keeps, connected, ahead, quiet⟩ := head
  simp only at le fetched dropped keeps connected ahead quiet
  by_cases empty : remaining = 0
  · refine .inr ⟨(0, ⟨client, file, remaining⟩), by simp only [fillPass, if_pos empty], ?_⟩
    exact .full ⟨le, fetched, dropped, keeps, connected, ahead, quiet⟩ empty
  have toRead : min remaining maxReadwritePayload = remaining := by
    simp only [maxReadwritePayload, payloadSize]
    omega
  have request : [file.handleId, lobyte remaining, hibyte remaining] =
      readPayload f.handleId remaining := by
    rw [congrArg FileHandleInfo.handleId fetched.file]
    rfl
  obtain ⟨reply, c', htx, keeps', connected', hreply⟩ := connected.read_request policy
    (by rw [keeps.maxRetries]; exact enough) ahead (k := remaining) (by omega) (by omega)
  simp only [fillPass, if_neg empty, toRead, request, htx, Option.bind_some]
  cases hreply with
  | @data j p _ hj hjk hjF success count bytes at_q' quiet' =>
      have slot : fileCacheSize - remaining = 512 - remaining := rfl
      have more := fetched.append (k := j) (by omega) (by omega) small
      have left : 512 - (remaining - j) = 512 - remaining + j := by omega
      refine .inl ⟨_, by dsimp only; rw [if_pos success, count, if_neg (by omega), bytes], ?_, ?_⟩
      · refine ⟨by simp only; omega, ?_, dropped, keeps.trans keeps', connected', ?_,
          quiet'.trans quiet⟩
        · simpa only [left, slot, Nat.add_assoc] using more
        · simpa only [left, ← Nat.add_assoc] using at_q'
      · simp only
        omega
  | eof stop result at_q' quiet' =>
      refine .inr ⟨_, by dsimp only; rw [if_neg (by rw [result]; decide)], ?_⟩
      rw [result]
      exact .eof ⟨le, fetched, dropped, keeps.trans keeps', connected', at_q', quiet'.trans quiet⟩
        (by simp only; omega) stop
  | @failed i _ _ failed reported occurs =>
      have occurs' : OccursAhead first policy Cmd.read (readPayload f.handleId remaining) c.net f.handleId
          g F (f.filePosition + (512 - remaining)) i c'.net := occurs.of_incidents quiet
      cases reply with
      | none =>
          refine .inr ⟨_, rfl, .failed (by simp only; omega) le fetched dropped
            (keeps.trans keeps') connected' ⟨by simp, by simp [code], fun expired => ?_⟩ occurs'⟩
          obtain ⟨p, none_, -⟩ := reported expired
          exact absurd none_ (by simp)
      | some p =>
          obtain ⟨notSuccess, notEof⟩ := failed p rfl
          refine .inr ⟨_, by dsimp only; rw [if_neg notSuccess], .failed (by simp only; omega) le
            fetched dropped (keeps.trans keeps') connected'
            ⟨code_ne notSuccess, code_ne notEof, fun expired => ?_⟩ occurs'⟩
          obtain ⟨_, ⟨⟩, result⟩ := reported expired
          rw [result]

/-- What `_tnfs_fill_cache` brings for a file whose server stands at `file_position`. -/
inductive Filled (policy : Policy) (first : List UInt8) (c : Client FileServer) (f : FileHandleInfo)
    (g : OpenFile) (F : List UInt8) : Int → FileHandleInfo → Client FileServer → Prop
  | window {j : Nat} {f' : FileHandleInfo} {c' : Client FileServer} : 0 < j →
      j = min 512 (F.length - f.filePosition) →
      Fetched f F j f' → f'.cacheAvailable = j →
      Keeps c.mInfo c'.mInfo → Connected c' → Ahead first c'.net f.handleId g F (f.filePosition + j) →
      c'.net.incidents = c.net.incidents → Filled policy first c f g F 0 f' c'
  | eof {f' : FileHandleInfo} {c' : Client FileServer} : F.length ≤ f.filePosition →
      Fetched f F 0 f' → f'.cacheAvailable = 0 → Keeps c.mInfo c'.mInfo → Connected c' →
      Ahead first c'.net f.handleId g F f.filePosition → c'.net.incidents = c.net.incidents →
      Filled policy first c f g F (code Result.endOfFile) f' c'
  | failed {j : Nat} {i : Incident} {error : Int} {f' : FileHandleInfo} {c' : Client FileServer} :
      j < 512 → Fetched f F j f' → f'.cacheAvailable = 0 → Keeps c.mInfo c'.mInfo →
      Connected c' → i.ReportedAs error →
      OccursAhead first policy Cmd.read (readPayload f.handleId (512 - j)) c.net f.handleId g F
        (f.filePosition + j) i c'.net →
      Filled policy first c f g F error f' c'

theorem fillCache_spec (policy : Policy) {f : FileHandleInfo} (connected : Connected c)
    (enough : c.mInfo.maxRetries + 1 < fuel) (enough' : 512 < fuel) (small : F.length < word)
    (length : f.cache.length = 512) (ahead : Ahead first c.net f.handleId g F f.filePosition) :
    ∃ error f' c', fillCache (transaction (net policy) fuel) fuel f c = some (error, f', c') ∧
      Filled policy first c f g F error f' c' := by
  have start : FillHead first c f g F
      ⟨c, { f with cacheAvailable := 0, cacheStart := f.filePosition }, 512⟩ :=
    ⟨Nat.le_refl _, ⟨rfl, length, by simp, by simp⟩, rfl, .refl _, connected, ahead, rfl⟩
  obtain ⟨⟨error, client, file, remaining⟩, hrun, hend⟩ := Loop.run_total (FillHead first c f g F) _ (fun s => s.remaining)
    (fun s => fillPass_spec policy enough small) start enough'
  change FillEnd policy first c f g F error ⟨client, file, remaining⟩ at hend
  have result : fillCache (transaction (net policy) fuel) fuel f c =
      if error = 0 ∨ error = code Result.endOfFile then
        some (if 512 - remaining > 0 then 0 else error,
          { file with cacheAvailable := 512 - remaining }, client)
      else some (error, file, client) := by
    simp only [fillCache, show fileCacheSize = 512 from rfl]
    rw [hrun]
    rfl
  rw [result]
  cases hend with
  | full head exhausted =>
      obtain ⟨-, fetched, -, keeps, connected', at_q', quiet⟩ := head
      simp only at exhausted fetched keeps connected' at_q' quiet
      subst exhausted
      have within := fetched.within (by omega)
      exact ⟨0, _, client, if_pos (.inl rfl), .window (by omega) (by omega)
        (fetched.setAvailable _) rfl keeps connected' at_q' quiet⟩
  | eof head pending stop =>
      obtain ⟨-, fetched, -, keeps, connected', at_q', quiet⟩ := head
      simp only at pending stop fetched keeps connected' at_q' quiet
      rw [if_pos (.inr rfl)]
      by_cases any : 512 - remaining = 0
      · rw [any] at fetched at_q' stop ⊢
        exact ⟨_, _, client, rfl, .eof stop (fetched.setAvailable _) rfl keeps connected' at_q' quiet⟩
      · have within := fetched.within (by omega)
        exact ⟨0, _, client, by rw [if_pos (by omega)], .window (by omega) (by omega)
          (fetched.setAvailable _) rfl keeps connected' at_q' quiet⟩
  | @failed _ i _ pending le fetched dropped keeps connected' reported occurs =>
      simp only at pending le fetched occurs
      refine ⟨error, file, client, if_neg (by simp [reported.notZero, reported.notEof]), ?_⟩
      refine .failed (j := 512 - remaining) (i := i) (by omega) fetched dropped keeps connected'
        reported ?_
      rwa [Nat.sub_sub_self le]

/-- Filling the cache of a file that the server does not know. -/
theorem fillCache_closed (policy : Policy) {f : FileHandleInfo} (connected : Connected c)
    (enough : c.mInfo.maxRetries + 1 < fuel) (closed : c.net.handles f.handleId = none) :
    ∃ error c', fillCache (transaction (net policy) fuel) fuel f c = some (error,
        { f with cacheAvailable := 0, cacheStart := f.filePosition }, c') ∧
      error ≠ 0 ∧ error ≠ code Result.endOfFile ∧ Keeps c.mInfo c'.mInfo ∧ Connected c' ∧
      c'.net.handles f.handleId = none := by
  obtain ⟨fuel', rfl⟩ : ∃ k, fuel = k + 1 := ⟨fuel - 1, by omega⟩
  obtain ⟨reply, c', htx, keeps, connected', closed', hreply⟩ :=
    connected.request_closed policy enough closed Cmd.read (readPayload f.handleId 512) (by decide)
      (by decide) (by simp [readPayload]) (execute_read_closed closed 512)
  rw [show (readPayload f.handleId 512).length = 3 from rfl] at htx
  have request : [f.handleId, lobyte 512, hibyte 512] = readPayload f.handleId 512 := rfl
  have toRead : min 512 maxReadwritePayload = 512 := rfl
  have pass : ∃ error, fillPass (transaction (net policy) (fuel' + 1))
      ⟨c, { f with cacheAvailable := 0, cacheStart := f.filePosition }, 512⟩ =
        some (.inr (error, ⟨c', { f with cacheAvailable := 0, cacheStart := f.filePosition }, 512⟩)) ∧
      error ≠ 0 ∧ error ≠ code Result.endOfFile := by
    simp only [fillPass, toRead, request, htx, Option.bind_some]
    cases reply with
    | none => exact ⟨-1, by simp, by simp, by simp [code]⟩
    | some p =>
        obtain ⟨notSuccess, notEof⟩ := hreply p rfl
        exact ⟨code (p.payloadByte 0), by simp [notSuccess], code_ne notSuccess, code_ne notEof⟩
  obtain ⟨error, hpass, notZero, notEof⟩ := pass
  refine ⟨error, c', ?_, notZero, notEof, keeps, connected', closed'⟩
  simp only [fillCache, show fileCacheSize = 512 from rfl]
  rw [Loop.run_succ_inr hpass]
  simp [notZero, notEof]

end

end FujiNet.TNFS
