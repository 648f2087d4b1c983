import FujiNet.TNFSlib.FileRun
import FujiNet.FileSystem.HandleTable

/-!
# Reading across an expired session

`FileHandlerTNFS::read` meets an expired session in the middle of a `tnfs_read` that
may have copied the rest of the cached window already. The file is then opened again
at the position behind these bytes, but the bytes are not counted, and the next
request writes over them. So such bytes are lost to the caller.

The loop of `read` is followed here with the number of bytes lost so far, and with the
place where it ends: a request is given up when the session expires a second time.
`handler_read_exact_iff` says that a read is exact if and only if every filling of the cache
that met an expired session began where a request of the loop began, so that nothing
had been copied, and the read does not end inside an element, whose first bytes were
then read and are not counted.
-/

namespace FujiNet.TNFS

/-- Where the filling of the cache began that a READ belongs to: it asks for what is still
missing of the cache. -/
def Incident.fillStart (i : Incident) : Nat :=
  i.before + u16 (i.payload.getD 1 0) (i.payload.getD 2 0) - fileCacheSize

theorem Incident.fillStart_eq {i : Incident} {h : UInt8} {p k : Nat} (lt : k < 512)
    (before : i.before = p + k) (payload : i.payload = readPayload h (512 - k)) :
    i.fillStart = p := by
  simp only [Incident.fillStart, before, payload, readPayload, List.getD_cons_succ,
    List.getD_cons_zero, fileCacheSize]
  rw [u16_lobyte_hibyte (by omega)]
  omega

/-- The filling began where a request of a `read` from position `p` on begins. -/
def Incident.StartsRequest (i : Incident) (p : Nat) : Prop :=
  p ≤ i.fillStart ∧ (i.fillStart - p) % maxReadwritePayload = 0

/-- The number of bytes that a `read` of `bytesRequested` bytes at `p` comes to, if nothing
is lost: up to the end of the file, or up to a filling that is given up, because the two
latest incidents belong to it. -/
def readTotal (F : List UInt8) (p bytesRequested : Nat) (happened : List Incident) : Nat :=
  match happened with
  | i :: j :: _ =>
    if i.fillStart = j.fillStart then i.fillStart - p else min bytesRequested (F.length - p)
  | _ => min bytesRequested (F.length - p)

theorem readTotal_cons_of_lt (F : List UInt8) (p bytesRequested : Nat) {i : Incident}
    {happened : List Incident} (later : ∀ j ∈ happened, j.fillStart < i.fillStart) :
    readTotal F p bytesRequested (i :: happened) = min bytesRequested (F.length - p) := by
  cases happened with
  | nil => rfl
  | cons j _ =>
      have apart : i.fillStart ≠ j.fillStart := Nat.ne_of_gt (later j List.mem_cons_self)
      simp only [readTotal, apart, if_false]

theorem readTotal_cons_cons_of_eq (F : List UInt8) (p bytesRequested : Nat) {i j : Incident}
    (happened : List Incident) (same : i.fillStart = j.fillStart) :
    readTotal F p bytesRequested (i :: j :: happened) = i.fillStart - p := by
  simp only [readTotal, same, if_true]

end FujiNet.TNFS

namespace FujiNet.FileSystem

open TNFS FileServer

/-- Only READ requests meet an expired session, and everything needed for opening a file
again is granted, with a handle that no other file in the table has. -/
structure Reopens (policy : Policy) (fuel : Nat)
    (base : Fin maxFileHandles → Option FileHandleInfo) (F : List UInt8) : Prop where
  read : ∀ t, (∃ n, policy Cmd.read t = .grant n) ∨ policy Cmd.read t = .expire
  stat : policy.Grants Cmd.stat
  open_ : policy.Grants Cmd.open_
  lseek : policy.Grants Cmd.lseek
  unused : ∀ t n, policy Cmd.open_ t = .grant n →
    ∀ j g, base j = some g → g.handleId ≠ UInt8.ofNat n
  enough : 1051 < fuel
  small : F.length < word

/-- The handler's file, whether the server knows it or not: what the client has recorded of
it is right, and there is room in the table for opening it again. -/
structure Standing (fuel : Nat) (base : Fin maxFileHandles → Option FileHandleInfo)
    (F : List UInt8) (s : Handling FileServer) (f : FileHandleInfo) : Prop where
  holds : Holds base s f
  connected : Connected s.client
  retries : s.client.mInfo.maxRetries + 1 < fuel
  window : Window f F
  size : f.fileSize = F.length
  spare : ∃ j, j ≠ s.handler.slot ∧ base j = none
  good : GoodPath s.client.mInfo.currentWorkingDirectory f.filename
  named : joinPath s.client.mInfo.currentWorkingDirectory f.filename = f.filename

/-- The handler's file is open at the server. -/
structure Ready (fuel : Nat) (base : Fin maxFileHandles → Option FileHandleInfo)
    (F : List UInt8) (s : Handling FileServer) (f : FileHandleInfo) : Prop
    extends Standing fuel base F s f where
  inStep : ∃ writable, InStep f s.client.net ⟨f.filename, 0, writable⟩ F

/-- The server has forgotten all handles. -/
structure Forgotten (fuel : Nat) (base : Fin maxFileHandles → Option FileHandleInfo)
    (F : List UInt8) (s : Handling FileServer) (f : FileHandleInfo) : Prop
    extends Standing fuel base F s f where
  closed : ∀ h, s.client.net.handles h = none
  content : s.client.net.files f.filename = some F

theorem Holds.opened {base : Fin maxFileHandles → Option FileHandleInfo}
    {s : Handling FileServer} {f : FileHandleInfo} (holds : Holds base s f)
    (connected : Connected s.client) : Opened s.client s.handler.slot f :=
  ⟨by rw [holds.table, Function.update_self], holds.lookup, connected⟩

theorem Holds.setFile {base : Fin maxFileHandles → Option FileHandleInfo}
    {s : Handling FileServer} {f f' : FileHandleInfo} {c : Client FileServer}
    (holds : Holds base s f) (keeps : Keeps s.client.mInfo c.mInfo)
    (same : f'.handleId = f.handleId) :
    Holds base { s with client := { c with mInfo := c.mInfo.setFile s.handler.slot f' } } f' := by
  refine ⟨?_, holds.free, by rw [same]; exact holds.handle, fun j g hg => ?_⟩
  · simp only [MountInfo.setFile, keeps.fileHandles, holds.table, Function.update_idem]
  · rw [same]
    exact holds.apart j g hg

theorem Holds.tell {ν : Type} {base : Fin maxFileHandles → Option FileHandleInfo}
    {s : Handling ν} {f : FileHandleInfo} (holds : Holds base s f) :
    tell s = f.cachedPos := by
  simp only [FileSystem.tell, holds.handle, toUint8_toNat, holds.lookup, Option.bind_some,
    holds.table, Function.update_self]

/-! ## One request -/

section

variable {policy : Policy} {fuel : Nat} {base : Fin maxFileHandles → Option FileHandleInfo}
  {F : List UInt8}

/-- What a `tnfs_read` of `n` bytes does to the handler's file: it copies the bytes `data`
and comes to its end, or meets an expired session. -/
inductive Requested (fuel : Nat) (base : Fin maxFileHandles → Option FileHandleInfo)
    (F : List UInt8) (n : Nat) (s : Handling FileServer) (f : FileHandleInfo)
    (data : List UInt8) (result : Int) (s' : Handling FileServer) (f' : FileHandleInfo) : Prop
  | done : Ready fuel base F s' f' → s'.client.net.incidents = s.client.net.incidents →
      data.length = min n (F.length - f.cachedPos) →
      result = (if data.length = n then 0 else code Result.endOfFile) →
      Requested fuel base F n s f data result s' f'
  | expired {i : Incident} : Forgotten fuel base F s' f' → data.length < n →
      s'.client.net.incidents = i :: s.client.net.incidents → i.fillStart = f'.cachedPos →
      result = code Result.badFilenum → Requested fuel base F n s f data result s' f'

theorem Ready.request (reopens : Reopens policy fuel base F) {s : Handling FileServer}
    {f : FileHandleInfo} (ready : Ready fuel base F s f) {n : Nat} (hn : 0 < n) (hn' : n ≤ 525) :
    ∃ result data c f', tnfsRead (transaction (net policy) fuel) fuel s.handler.handle n s.client =
        some ((result, data), c) ∧
      data = slice F f.cachedPos data.length ∧ f'.cachedPos = f.cachedPos + data.length ∧
      Requested fuel base F n s f data result { s with client := c } f' := by
  obtain ⟨writable, inStep⟩ := ready.inStep
  obtain ⟨result, c', f', data, hread, opened', hend⟩ := tnfsRead_spec policy
    (ready.holds.opened ready.connected) ready.retries reopens.enough reopens.small ready.window
    inStep.ahead hn hn'
  rw [← ready.holds.handle] at hread
  have standing (delivered : Delivered f F data f') (keeps : Keeps s.client.mInfo c'.mInfo) :
      Standing fuel base F
        { s with client := { c' with mInfo := c'.mInfo.setFile s.handler.slot f' } } f' := by
    refine ⟨ready.holds.setFile keeps delivered.handleId, opened'.connected,
      keeps.maxRetries ▸ ready.retries, delivered.window, delivered.fileSize.trans ready.size,
      ready.spare, ?_, ?_⟩
    · rw [delivered.filename]
      exact keeps.currentWorkingDirectory ▸ ready.good
    · rw [delivered.filename]
      exact keeps.currentWorkingDirectory ▸ ready.named
  cases hend with
  | done delivered inStep' keeps connected quiet count hresult =>
      refine ⟨result, data, _, f', hread, delivered.bytes, delivered.position,
        .done ⟨standing delivered keeps, writable, delivered.filename ▸ inStep'.inStep⟩ quiet ?_ hresult⟩
      rw [count, inStep.meets, ready.window.readCount_eq ready.size]
  | @failed i k delivered short keeps connected reported lt dropped position occurs =>
      have occurs := occurs.occurs
      have expired : i.choice = .expire := by
        obtain ⟨t, chosen⟩ := occurs.chosen
        rcases reopens.read t with ⟨n, granted⟩ | expires
        · exact absurd (chosen.symm.trans granted) (occurs.notGranted n)
        · exact chosen.symm.trans expires
      have leaves := occurs.leaves
      rw [Incident.Leaves, if_pos expired] at leaves
      refine ⟨result, data, _, f', hread, delivered.bytes, delivered.position,
        .expired ⟨standing delivered keeps, leaves.1, ?_⟩ short occurs.incidents ?_
          (reported.expired expired)⟩
      · exact delivered.filename ▸ leaves.2
      · exact Incident.fillStart_eq lt (occurs.before.trans position) occurs.payload

/-! ## Recovery -/

/-- The file can be opened again. -/
theorem Forgotten.canOpen (reopens : Reopens policy fuel base F) {s : Handling FileServer}
    {f : FileHandleInfo} (forgotten : Forgotten fuel base F s f) :
    CanOpen s.client f.filename openmodeRead F := by
  obtain ⟨j, elsewhere, spare⟩ := forgotten.spare
  refine ⟨forgotten.connected, forgotten.good, ⟨j, ?_⟩, ⟨0, forgotten.closed 0⟩, ?_, ?_⟩
  · rw [forgotten.holds.table, Function.update_of_ne elsewhere, spare]
  · rw [forgotten.named, forgotten.content]
    rfl
  · intro content known
    rw [forgotten.named, forgotten.content, Option.some.injEq] at known
    exact known ▸ reopens.small

/-- `_bad_fd_recovery` of a file whose session has expired: it is open again, at the
position that the client had come to. -/
theorem Forgotten.recovery (reopens : Reopens policy fuel base F) {s : Handling FileServer}
    {f : FileHandleInfo} (forgotten : Forgotten fuel base F s f) :
    ∃ s' f', badFdRecovery (transaction (net policy) fuel) s = some (Result.success, s') ∧
      Ready fuel base F s' f' ∧ f'.cachedPos = f.cachedPos ∧
      s'.client.net.incidents = s.client.net.incidents := by
  have holds := forgotten.holds
  have retries := forgotten.retries
  obtain ⟨i, f₁, c₁, hopen, just⟩ := tnfsOpen_spec 0 reopens.stat reopens.open_
    (forgotten.canOpen reopens) (by omega : 0 < fuel) (by decide)
  have apart : ∀ j g, base j = some g → g.handleId ≠ f₁.handleId := by
    obtain ⟨t, n, granted, unused⟩ := just.handle
    rw [freeHandle_of_closed forgotten.closed, Option.some.injEq] at unused
    exact unused ▸ reopens.unused t n granted
  have reopened := holds.reopen just.free just.table apart
    (⟨s.client.mInfo.fileHandles, some s.handler.slot, f₁.handleId⟩ :: s.openings)
  have elsewhere : s.handler.slot ≠ i := by
    rintro rfl
    have free := just.free
    rw [holds.table, Function.update_self] at free
    exact absurd free (by simp)
  have old : c₁.mInfo.fileHandles s.handler.slot = some f := by
    rw [just.table, Function.update_of_ne elsewhere, holds.table, Function.update_self]
  have connected₁ := just.connected.deleteFilehandleinfo s.handler.slot
  have name : f₁.filename = f.filename := just.filename.trans forgotten.named
  have position : toUint32 (f.cachedPos : Int) = f.cachedPos :=
    toUint32_natCast forgotten.window.position
  obtain ⟨result, newPosition, c₂, f₂, hseek, opened₂, hend⟩ := tnfsLseek_spec policy
    f.cachedPos seekSet (reopened.opened connected₁) (just.maxRetries ▸ retries) reopens.small
    just.window just.inStep.at_q (.inl rfl) (fun h => absurd rfl h)
  cases hend with
  | inside inWindow => exact absurd inWindow.1 (by rw [just.dropped]; decide)
  | @moved d _ target inRange hresult hf keeps connected₂ at_d quiet =>
      rw [destination_of_target inRange (fun h => absurd h (by decide)) (.inl rfl) target] at hf
      rw [seekTarget_seekSet, position, Int.natCast_inj] at target
      subst hf target hresult
      have cwd := keeps.currentWorkingDirectory.trans just.currentWorkingDirectory
      have good := forgotten.good
      have named := forgotten.named
      refine ⟨_, f₁.movedTo f.cachedPos, ?_, ⟨⟨reopened.setFile keeps rfl, opened₂.connected,
        ?_, just.window.movedTo forgotten.window.position F, just.size, ?_, ?_, ?_⟩, false, ?_⟩,
        rfl, ?_⟩
      · simp only [badFdRecovery, openFile, holds.handle, toUint8_toNat, holds.lookup,
          holds.table, Function.update_self, Option.bind_eq_bind, Option.bind_some]
        rw [hopen]
        simp only [Option.bind_some, ne_eq, not_true_eq_false, if_false, just.place,
          Option.map_some, old, toUint8_toNat, hseek]
        rfl
      · exact keeps.maxRetries ▸ just.maxRetries ▸ retries
      · exact ⟨s.handler.slot, elsewhere, holds.free⟩
      · rw [← cwd, ← name] at good
        exact good
      · rw [← cwd, ← name] at named
        exact named
      · refine ⟨rfl, ?_⟩
        rw [forgotten.named, ← name] at at_d
        exact at_d
      · exact quiet.trans just.incidents
  | invalid _ outOfRange =>
      rw [seekTarget_seekSet] at outOfRange
      exact absurd ⟨by omega, by exact_mod_cast toUint32_lt _⟩ outOfRange
  | failed _ _ _ _ _ occurs => exact (occurs.not_grants reopens.lseek).elim

/-! ## The loop -/

/-- A `read` from position `p` on, of which `lost` bytes were delivered but not counted.
What happened before it is `start`, and `new` has happened during it. -/
structure Progress (base : Fin maxFileHandles → Option FileHandleInfo) (F : List UInt8)
    (p bytesRequested : Nat) (start new : List Incident) (lost : Nat) (t : Transfer FileServer)
    (f : FileHandleInfo) : Prop where
  holds : Holds base t.handling f
  position : f.cachedPos = p + t.totalBytesRead + lost
  total_le : t.totalBytesRead ≤ bytesRequested
  room : bytesRequested ≤ t.buffer.length
  bytes : lost = 0 → t.buffer.take t.totalBytesRead = slice F p t.totalBytesRead
  incidents : t.handling.client.net.incidents = new ++ start
  starts : lost = 0 ↔ ∀ i ∈ new, i.StartsRequest p

/-- The requests made so far were full ones, unless everything has been read. -/
def Aligned (bytesRequested lost : Nat) (t : Transfer FileServer) : Prop :=
  lost = 0 → t.totalBytesRead < bytesRequested → t.totalBytesRead % maxReadwritePayload = 0

/-- The loop of `read` at its head. -/
structure ReadHead (fuel : Nat) (base : Fin maxFileHandles → Option FileHandleInfo)
    (F : List UInt8) (p bytesRequested : Nat) (start new : List Incident) (lost : Nat)
    (t : Transfer FileServer) (f : FileHandleInfo) : Prop
    extends Progress base F p bytesRequested start new lost t f where
  ready : Ready fuel base F t.handling f
  aligned : Aligned bytesRequested lost t

/-- The fillings that met an expired session were left behind. -/
def Passed (F : List UInt8) (p bytesRequested : Nat) (new : List Incident) (lost : Nat)
    (t : Transfer FileServer) : Prop :=
  lost = 0 → (∀ i ∈ new, i.fillStart < p + t.totalBytesRead) ∧
    readTotal F p bytesRequested new = min bytesRequested (F.length - p)

/-- What was counted is what a read comes to that loses nothing. -/
def Ended (F : List UInt8) (p bytesRequested : Nat) (new : List Incident) (lost : Nat)
    (t : Transfer FileServer) : Prop :=
  lost = 0 → t.totalBytesRead = readTotal F p bytesRequested new

/-- The transfer once the bytes of a request are counted. -/
def Transfer.counted {ν : Type} (t : Transfer ν) : Transfer ν :=
  { t with totalBytesRead := t.totalBytesRead + t.bytesRead }

/-- How a request of the loop ends. -/
inductive Requesting (fuel : Nat) (base : Fin maxFileHandles → Option FileHandleInfo)
    (F : List UInt8) (p bytesRequested : Nat) (start new : List Incident) (lost : Nat) :
    Int → Transfer FileServer → Prop
  | full {t : Transfer FileServer} {f : FileHandleInfo} : 0 < t.bytesRead →
      ReadHead fuel base F p bytesRequested start new lost t.counted f →
      Requesting fuel base F p bytesRequested start new lost 0 t
  | eof {t : Transfer FileServer} {f : FileHandleInfo} :
      Progress base F p bytesRequested start new lost t.counted f →
      (lost = 0 → t.counted.totalBytesRead = min bytesRequested (F.length - p)) →
      Requesting fuel base F p bytesRequested start new lost (code Result.endOfFile) t
  | expired {t : Transfer FileServer} {lost' : Nat} {i : Incident} {f : FileHandleInfo} :
      Progress base F p bytesRequested start (i :: new) lost' t f →
      (lost' = 0 → lost = 0 ∧ i.fillStart = p + t.totalBytesRead) →
      Aligned bytesRequested lost' t → Forgotten fuel base F t.handling f →
      Requesting fuel base F p bytesRequested start new lost (code Result.badFilenum) t

/-- How a request of the loop ends that is tried once more if need be. -/
inductive Tried (fuel : Nat) (base : Fin maxFileHandles → Option FileHandleInfo)
    (F : List UInt8) (p bytesRequested : Nat) (start : List Incident) :
    Int → Transfer FileServer → Prop
  | full {t : Transfer FileServer} {new : List Incident} {lost : Nat} {f : FileHandleInfo} :
      0 < t.bytesRead → ReadHead fuel base F p bytesRequested start new lost t.counted f →
      Passed F p bytesRequested new lost t.counted →
      Tried fuel base F p bytesRequested start 0 t
  | eof {t : Transfer FileServer} {new : List Incident} {lost : Nat} {f : FileHandleInfo} :
      Progress base F p bytesRequested start new lost t.counted f →
      Ended F p bytesRequested new lost t.counted →
      Tried fuel base F p bytesRequested start (code Result.endOfFile) t
  | expired {t : Transfer FileServer} {new : List Incident} {lost : Nat} {f : FileHandleInfo} :
      Progress base F p bytesRequested start new lost t f →
      Ended F p bytesRequested new lost t →
      Tried fuel base F p bytesRequested start (code Result.badFilenum) t

section

variable {p bytesRequested lost : Nat} {start new : List Incident} {t : Transfer FileServer}
  {f f' : FileHandleInfo} {data : List UInt8} {c : Client FileServer}

/-- The transfer after a request that delivered `data`. -/
def Transfer.copied {ν : Type} (t : Transfer ν) (data : List UInt8) (c : Client ν) : Transfer ν :=
  { t with
    handling := { t.handling with client := c }
    buffer := overlay t.buffer t.totalBytesRead data
    bytesRead := data.length }

/-- The file has the bytes that were counted. -/
theorem Progress.total_le_rest (progress : Progress base F p bytesRequested start new 0 t f) :
    t.totalBytesRead ≤ F.length - p := by
  have lengths := congrArg List.length (progress.bytes rfl)
  rw [List.length_take, length_slice] at lengths
  have room := progress.room
  have total_le := progress.total_le
  omega

/-- The bytes of a request that came to its end are counted. -/
theorem Progress.count (progress : Progress base F p bytesRequested start new lost t f)
    (holds : Holds base { t.handling with client := c } f')
    (bytes : data = slice F f.cachedPos data.length)
    (position : f'.cachedPos = f.cachedPos + data.length)
    (fits : t.totalBytesRead + data.length ≤ bytesRequested)
    (quiet : c.net.incidents = t.handling.client.net.incidents) :
    Progress base F p bytesRequested start new lost (t.copied data c).counted f' := by
  have room := progress.room
  have before := progress.position
  refine ⟨holds, ?_, fits, ?_, fun none_ => ?_, quiet.trans progress.incidents, progress.starts⟩
  · simp only [Transfer.counted, Transfer.copied]
    omega
  · simp only [Transfer.counted, Transfer.copied]
    rw [length_overlay _ _ _ (by omega)]
    exact room
  · have continued := bytes.symm
    rw [before, none_, Nat.add_zero] at continued
    simp only [Transfer.counted, Transfer.copied]
    rw [take_overlay_add _ _ _ (by omega), progress.bytes none_, ← slice_append_slice, continued]

/-- The bytes of a request that met an expired session are lost. None are if and only if
the filling began where the request began. -/
theorem Progress.lose (progress : Progress base F p bytesRequested start new lost t f)
    (aligned : Aligned bytesRequested lost t) (more : t.totalBytesRead < bytesRequested)
    (holds : Holds base { t.handling with client := c } f')
    (position : f'.cachedPos = f.cachedPos + data.length)
    (short : data.length < min (bytesRequested - t.totalBytesRead) maxReadwritePayload)
    {i : Incident} (happened : c.net.incidents = i :: t.handling.client.net.incidents)
    (fill : i.fillStart = f'.cachedPos) :
    Progress base F p bytesRequested start (i :: new) (lost + data.length) (t.copied data c) f' ∧
      Aligned bytesRequested (lost + data.length) (t.copied data c) := by
  have room := progress.room
  have before := progress.position
  refine ⟨⟨holds, ?_, progress.total_le, ?_, fun none_ => ?_, ?_, ?_⟩,
    fun none_ => aligned (by omega)⟩
  · simp only [Transfer.copied]
    omega
  · simp only [Transfer.copied]
    rw [length_overlay _ _ _ (by omega)]
    exact room
  · have empty : data = [] := List.length_eq_zero_iff.mp (by omega)
    simp only [Transfer.copied, empty, overlay_nil]
    exact progress.bytes (by omega)
  · simp only [Transfer.copied, happened, progress.incidents, List.cons_append]
  · rw [List.forall_mem_cons, ← progress.starts]
    by_cases none_ : lost = 0
    · have multiple := aligned none_ more
      have start_ : i.fillStart = p + (t.totalBytesRead + data.length) := by omega
      rw [Incident.StartsRequest, start_, Nat.add_sub_cancel_left, Nat.add_mod, multiple,
        Nat.zero_add, Nat.mod_mod, Nat.mod_eq_of_lt (by omega)]
      simp [none_]
    · simp [none_]

/-- One request of the loop. -/
theorem ReadHead.request (reopens : Reopens policy fuel base F)
    (head : ReadHead fuel base F p bytesRequested start new lost t f)
    (more : t.totalBytesRead < bytesRequested) :
    ∃ result t', readRequest (transaction (net policy) fuel) fuel
        (min (bytesRequested - t.totalBytesRead) maxReadwritePayload) t = some (result, t') ∧
      t'.totalBytesRead = t.totalBytesRead ∧
      Requesting fuel base F p bytesRequested start new lost result t' := by
  have positive : 0 < min (bytesRequested - t.totalBytesRead) maxReadwritePayload := by
    simp only [maxReadwritePayload, payloadSize]
    omega
  obtain ⟨result, data, c, f', hread, bytes, position, requested⟩ :=
    head.ready.request reopens positive (Nat.min_le_right _ _)
  refine ⟨result, t.copied data c, by simp only [readRequest, hread]; rfl, rfl, ?_⟩
  have before := head.position
  cases requested with
  | done ready quiet length hresult =>
      have progress := head.toProgress.count ready.holds bytes position (by omega) quiet
      by_cases whole : data.length =
          min (bytesRequested - t.totalBytesRead) maxReadwritePayload
      · rw [hresult, if_pos whole]
        refine .full (by simp only [Transfer.copied]; omega) ⟨progress, ready, ?_⟩
        intro none_ unfinished
        have multiple := head.aligned none_ more
        simp only [Transfer.counted, Transfer.copied] at unfinished ⊢
        simp only [maxReadwritePayload, payloadSize] at *
        omega
      · rw [hresult, if_neg whole]
        refine .eof progress ?_
        rintro rfl
        have inside := head.toProgress.total_le_rest
        simp only [Transfer.counted, Transfer.copied]
        omega
  | expired forgotten short happened fill hresult =>
      obtain ⟨progress, aligned⟩ := head.toProgress.lose head.aligned more forgotten.holds position
        short happened fill
      rw [hresult]
      refine .expired progress (fun none_ => ⟨by omega, ?_⟩) aligned forgotten
      simp only [Transfer.copied]
      omega

/-- After a recovery the loop is at its head again. -/
theorem Progress.recovered (reopens : Reopens policy fuel base F)
    (progress : Progress base F p bytesRequested start new lost t f)
    (aligned : Aligned bytesRequested lost t) (forgotten : Forgotten fuel base F t.handling f) :
    ∃ t' f', readRecovery (transaction (net policy) fuel) t = some (Result.success, t') ∧
      t'.totalBytesRead = t.totalBytesRead ∧
      ReadHead fuel base F p bytesRequested start new lost t' f' := by
  obtain ⟨s, f', hrecovery, ready, position, quiet⟩ := forgotten.recovery reopens
  exact ⟨{ t with handling := s }, f', by simp only [readRecovery, hrecovery, Option.map_some],
    rfl, ⟨⟨ready.holds, position.trans progress.position, progress.total_le, progress.room,
      progress.bytes, quiet.trans progress.incidents, progress.starts⟩, ready, aligned⟩⟩

/-- A request that is tried once more if need be. -/
theorem ReadHead.withRecovery (reopens : Reopens policy fuel base F)
    (head : ReadHead fuel base F p bytesRequested start new lost t f)
    (passed : Passed F p bytesRequested new lost t) (more : t.totalBytesRead < bytesRequested) :
    ∃ result t', FileSystem.withRecovery (readRequest (transaction (net policy) fuel) fuel
        (min (bytesRequested - t.totalBytesRead) maxReadwritePayload))
        (readRecovery (transaction (net policy) fuel)) t = some (result, t') ∧
      t'.totalBytesRead = t.totalBytesRead ∧
      Tried fuel base F p bytesRequested start result t' := by
  obtain ⟨result, t₁, first, same₁, requesting⟩ := head.request reopens more
  simp only [FileSystem.withRecovery, first, Option.bind_eq_bind, Option.bind_some]
  cases requesting with
  | full some_ head' =>
      have success : ¬ (0 : Int) = code Result.badFilenum := by decide
      refine ⟨0, t₁, by simp only [success, if_false], same₁, .full some_ head' fun none_ => ?_⟩
      obtain ⟨behind, whole⟩ := passed none_
      refine ⟨fun i mem => (behind i mem).trans_le ?_, whole⟩
      simp only [Transfer.counted]
      omega
  | eof progress total =>
      have ended : ¬ code Result.endOfFile = code Result.badFilenum := by decide
      refine ⟨code Result.endOfFile, t₁, by simp only [ended, if_false], same₁,
        .eof progress fun none_ => ?_⟩
      rw [total none_, (passed none_).2]
  | @expired _ lost₁ i _ progress fill aligned forgotten =>
      obtain ⟨t₂, f₂, hrecovery, same₂, head₂⟩ := progress.recovered reopens aligned forgotten
      have same : t₂.totalBytesRead = t.totalBytesRead := same₂.trans same₁
      obtain ⟨result, t₃, second, same₃, again⟩ := head₂.request reopens (same ▸ more)
      rw [same] at second
      simp only [if_true, hrecovery, Option.bind_some, second]
      refine ⟨result, t₃, rfl, same₃.trans same, ?_⟩
      -- The first filling of this request is behind the others.
      have here (none_ : lost₁ = 0) : i.fillStart = p + t.totalBytesRead ∧
          readTotal F p bytesRequested (i :: new) = min bytesRequested (F.length - p) := by
        obtain ⟨none₀, fillStart⟩ := fill none_
        rw [same₁] at fillStart
        refine ⟨fillStart, readTotal_cons_of_lt F p bytesRequested fun j mem => ?_⟩
        rw [fillStart]
        exact (passed none₀).1 j mem
      cases again with
      | full some_ head₃ =>
          refine .full some_ head₃ fun none_ => ⟨fun j mem => ?_, (here none_).2⟩
          have reached : p + t.totalBytesRead < p + t₃.counted.totalBytesRead := by
            simp only [Transfer.counted]
            omega
          rcases List.mem_cons.mp mem with rfl | mem
          · rw [(here none_).1]
            exact reached
          · exact ((passed (fill none_).1).1 j mem).trans reached
      | eof progress total =>
          exact .eof progress fun none_ => (total none_).trans (here none_).2.symm
      | expired progress fill' _ _ =>
          refine .expired progress fun none_ => ?_
          obtain ⟨none₁, fillStart⟩ := fill' none_
          have twice := fillStart
          rw [same₃, same, ← (here none₁).1] at twice
          rw [readTotal_cons_cons_of_eq _ _ _ _ twice, fillStart, Nat.add_sub_cancel_left]

/-- One pass of the loop. -/
theorem ReadHead.pass (reopens : Reopens policy fuel base F)
    (head : ReadHead fuel base F p bytesRequested start new lost t f)
    (passed : Passed F p bytesRequested new lost t) :
    (∃ t', readPass (transaction (net policy) fuel) fuel bytesRequested t = some (.inl t') ∧
      (∃ new lost f, ReadHead fuel base F p bytesRequested start new lost t' f ∧
        Passed F p bytesRequested new lost t') ∧
      bytesRequested - t'.totalBytesRead < bytesRequested - t.totalBytesRead) ∨
    ∃ b, readPass (transaction (net policy) fuel) fuel bytesRequested t = some (.inr b) ∧
      ∃ new lost f, Progress base F p bytesRequested start new lost b.2 f ∧
        Ended F p bytesRequested new lost b.2 := by
  by_cases more : t.totalBytesRead < bytesRequested
  · have restarted : ReadHead fuel base F p bytesRequested start new lost
        { t with bytesRead := 0 } f := { head with }
    obtain ⟨result, t', htried, same, tried⟩ := restarted.withRecovery reopens passed more
    simp only at same htried
    simp only [FileSystem.readPass, if_pos more, htried, Option.bind_some]
    cases tried with
    | @full _ new lost f' some_ head' passed' =>
        refine .inl ⟨t'.counted, if_neg (by decide), ⟨new, lost, f', head', passed'⟩, ?_⟩
        simp only [Transfer.counted]
        omega
    | @eof _ new lost f' progress ended =>
        rw [if_pos (by decide)]
        by_cases any : t'.bytesRead > 0
        · exact .inr ⟨(none, t'.counted), if_pos ⟨rfl, any⟩, new, lost, f', progress, ended⟩
        · refine .inr ⟨(some _, t'), if_neg fun h => any h.2, new, lost, f', ?_⟩
          obtain ⟨handling, buffer, total, bytesRead⟩ := t'
          obtain rfl : bytesRead = 0 := by simpa using any
          exact ⟨progress, ended⟩
    | @expired _ new lost f' progress ended =>
        rw [if_pos (by decide), if_neg fun h => absurd h.1 (by decide)]
        exact .inr ⟨_, rfl, new, lost, f', progress, ended⟩
  · simp only [FileSystem.readPass, if_neg more]
    refine .inr ⟨_, rfl, new, lost, f, head.toProgress, ?_⟩
    rintro rfl
    have inside := head.toProgress.total_le_rest
    have total_le := head.total_le
    rw [(passed rfl).2]
    simp only
    omega

end

/-! ## `read` -/

/-- The requests that were not simply granted during an operation, latest first. -/
def newIncidents (s s' : Handling FileServer) : List Incident :=
  s'.client.net.incidents.take
    (s'.client.net.incidents.length - s.client.net.incidents.length)

/-- A `read` of `count` elements at position `p` of the file is exact: the bytes of the
elements that it returns are those of the file, the position has advanced by as many, and if
`count` elements are returned then all that was asked for is there. -/
structure Exact (F : List UInt8) (p size count : Nat) (answer : ReadAnswer)
    (s' : Handling FileServer) : Prop where
  bytes : answer.buffer.take (answer.returned * size) = slice F p (answer.returned * size)
  position : tell s' = (p + answer.returned * size : Nat)
  full : answer.returned = count → (slice F p (size * count)).length = size * count ∧
    answer.buffer.take (size * count) = slice F p (size * count) ∧
    tell s' = (p + size * count : Nat)

theorem newIncidents_of_append {s s' : Handling FileServer} {new : List Incident}
    (happened : s'.client.net.incidents = new ++ s.client.net.incidents) :
    newIncidents s s' = new := by
  rw [newIncidents, happened, List.length_append, Nat.add_sub_cancel, List.take_left]

/-- The elements that `read` returns are the whole ones among the bytes that were read. -/
theorem returned_mul (size count total : Nat) :
    (if size * count = total then count else total / size) * size ≤ total ∧
      ((if size * count = total then count else total / size) * size = total ↔ size ∣ total) := by
  split_ifs with all
  · rw [← all, Nat.mul_comm count]
    exact ⟨Nat.le_refl _, iff_of_true rfl (Nat.dvd_mul_right _ _)⟩
  · refine ⟨Nat.div_mul_le_self _ _, fun whole => ?_, Nat.div_mul_cancel⟩
    exact ⟨total / size, by rw [Nat.mul_comm, whole]⟩

/-- What a read returns is exact if nothing is lost and it ends at the end of an element. -/
theorem Progress.exact_iff {p size count : Nat} {start new : List Incident} {lost : Nat}
    {t : Transfer FileServer} {f : FileHandleInfo}
    (progress : Progress base F p (size * count) start new lost t f)
    (ended : Ended F p (size * count) new lost t) (errno : Option Int) :
    Exact F p size count
      { returned := if size * count = t.totalBytesRead then count else t.totalBytesRead / size
        errno, totalBytesRead := t.totalBytesRead, buffer := t.buffer } t.handling ↔
      lost = 0 ∧ size ∣ readTotal F p (size * count) new := by
  obtain ⟨le, whole_iff⟩ := returned_mul size count t.totalBytesRead
  have tells : tell t.handling = (p + t.totalBytesRead + lost : Nat) := by
    rw [progress.holds.tell, progress.position]
  constructor
  · intro exact_
    have moved := exact_.position
    rw [tells, Int.natCast_inj] at moved
    simp only at moved
    obtain rfl : lost = 0 := by omega
    rw [← ended rfl, ← whole_iff]
    exact ⟨rfl, by omega⟩
  · rintro ⟨rfl, whole⟩
    rw [← ended rfl, ← whole_iff] at whole
    have bytes := progress.bytes rfl
    refine ⟨?_, ?_, fun full => ?_⟩
    · simp only [whole, bytes]
    · simp only [whole, tells, Nat.add_zero]
    · simp only at full
      have all : t.totalBytesRead = size * count := by rw [← whole, full, Nat.mul_comm]
      rw [all] at bytes tells
      refine ⟨?_, bytes, tells⟩
      rw [← bytes, List.length_take]
      exact Nat.min_eq_left progress.room

/-- `read` across expired sessions. -/
theorem handler_read_exact_iff (reopens : Reopens policy fuel base F) {s : Handling FileServer}
    {f : FileHandleInfo} (ready : Ready fuel base F s f) {buffer : List UInt8} {size count : Nat}
    (room : size * count ≤ buffer.length) (object : buffer.length < sizeMax) :
    ∃ answer s', read (transaction (net policy) fuel) fuel buffer size count s =
        some (answer, s') ∧
      (Exact F f.cachedPos size count answer s' ↔
        (∀ i ∈ newIncidents s s', i.StartsRequest f.cachedPos) ∧
          size ∣ readTotal F f.cachedPos (size * count) (newIncidents s s')) := by
  have requested : size * count % sizeMax = size * count := Nat.mod_eq_of_lt (by omega)
  simp only [read, requested]
  by_cases nothing : size * count = 0
  · refine ⟨_, s, if_pos nothing, iff_of_true ⟨by simp, ?_, fun _ => ?_⟩ ⟨?_, ?_⟩⟩
    · rw [ready.holds.tell, Nat.zero_mul, Nat.add_zero]
    · rw [nothing, ready.holds.tell]
      simp
    · simp [newIncidents]
    · simp [newIncidents, readTotal, nothing]
  · have head : ReadHead fuel base F f.cachedPos (size * count) s.client.net.incidents [] 0
        ⟨s, buffer, 0, 0⟩ f :=
      ⟨⟨ready.holds, by simp, Nat.zero_le _, room, by simp, rfl, by simp⟩, ready,
        fun _ _ => Nat.zero_mod _⟩
    obtain ⟨⟨errno, t⟩, hrun, new, lost, f', progress, ended⟩ : ∃ b,
        Loop.run (readPass (transaction (net policy) fuel) fuel (size * count)) (size * count + 1)
          ⟨s, buffer, 0, 0⟩ = some b ∧
        ∃ new lost f', Progress base F f.cachedPos (size * count) s.client.net.incidents new lost
          b.2 f' ∧ Ended F f.cachedPos (size * count) new lost b.2 :=
      Loop.run_total (fun t => ∃ new lost f', ReadHead fuel base F f.cachedPos (size * count)
          s.client.net.incidents new lost t f' ∧ Passed F f.cachedPos (size * count) new lost t)
        _ (fun t => size * count - t.totalBytesRead)
        (by rintro t ⟨_, _, _, head, passed⟩; exact head.pass reopens passed)
        ⟨[], 0, f, head, fun _ => ⟨by simp, rfl⟩⟩ (Nat.lt_succ_self _)
    rw [if_neg nothing, hrun]
    refine ⟨_, _, rfl, ?_⟩
    rw [newIncidents_of_append progress.incidents, ← progress.starts]
    exact progress.exact_iff ended errno

end

/-! ## A handler to begin with -/

theorem joinPath_root (source : List UInt8) :
    joinPath [0x2F] (joinPath [0x2F] source) = joinPath [0x2F] source := by
  by_cases absolute : source.head? = some 0x2F
  · simp [joinPath, absolute]
  · simp [joinPath, absolute]

/-- A file that was just opened in the root directory is ready to be read. -/
theorem ready_of_justOpened {policy : Policy} {fuel : Nat} {c c' : Client FileServer}
    {source F : List UInt8} {mode : UInt16} {i : Fin maxFileHandles} {f : FileHandleInfo}
    (just : JustOpened policy c source mode F i f c') (known : Known c)
    (retries : c.mInfo.maxRetries + 1 < fuel)
    (spare : ∃ j, j ≠ i ∧ c.mInfo.fileHandles j = none)
    (root : c.mInfo.currentWorkingDirectory = [0x2F])
    (good : GoodPath [0x2F] (joinPath [0x2F] source)) :
    Ready fuel c.mInfo.fileHandles F ⟨⟨f.handleId.toNat, i⟩, c', []⟩ f := by
  have cwd := just.currentWorkingDirectory.trans root
  have name := just.filename
  have inStep := just.inStep
  rw [root] at name inStep
  refine ⟨⟨⟨just.table, just.free, rfl, fun j g hg same => ?_⟩, just.connected,
    just.maxRetries ▸ retries, just.window, just.size, spare, ?_, ?_⟩, _, name ▸ inStep⟩
  · obtain ⟨_, _, _, unused⟩ := just.handle
    exact known j g hg (same ▸ handles_of_freeHandle unused)
  · simp only [cwd, name]
    exact good
  · simp only [cwd, name]
    exact joinPath_root source

/-- The session expires at the first READ. Nothing was copied, and the whole file is read. -/
theorem handler_read_exact_iff_of_first_filling :
    ∃ (opening : Opening) (s s' : Handling FileServer) (answer : ReadAnswer),
      filehandlerOpen (transaction (net (expiringRead 2 id)) 1052) [0x61] ['r']
        (freshClient fun _ => some [1, 2, 3]) = some ((0, some (s.handler, opening)), s.client) ∧
      read (transaction (net (expiringRead 2 id)) 1052) 1052 [0, 0, 0] 1 3 s =
        some (answer, s') ∧
      newIncidents s s' = [⟨Cmd.read, readPayload 1 512, .expire, 0, 0⟩] ∧
      Exact [1, 2, 3] 0 1 3 answer s' := by
  have computed : ((filehandlerOpen (transaction (net (expiringRead 2 id)) 1052) [0x61] ['r']
      (freshClient fun _ => some [1, 2, 3])).bind fun (opened, c) =>
    opened.2.bind fun (handler, _) =>
    (read (transaction (net (expiringRead 2 id)) 1052) 1052 [0, 0, 0] 1 3
      ⟨handler, c, []⟩).map fun (_, s') =>
      (opened.1, handler, newIncidents ⟨handler, c, []⟩ s')) =
      some (0, ⟨1, 0⟩, [⟨Cmd.read, readPayload 1 512, .expire, 0, 0⟩]) := by
    decide +kernel
  simp only [Option.bind_eq_some_iff, Option.map_eq_some_iff, Prod.exists, Prod.mk.injEq]
    at computed
  obtain ⟨_, _, c, hopen, handler, opening, rfl, answer, s', hread, rfl, rfl, happened⟩ := computed
  have grants {command : UInt8} (notRead : command ≠ Cmd.read) :
      (expiringRead 2 id).Grants command := fun t => ⟨_, if_neg fun h => notRead h.1⟩
  have reopens : Reopens (expiringRead 2 id) 1052 (fun _ => none) [1, 2, 3] :=
    ⟨fun t => by by_cases h : t = 2 <;> simp [expiringRead, h], grants (by decide),
      grants (by decide), grants (by decide), by simp, by decide, by decide⟩
  obtain ⟨i, f, c', hopen', just⟩ := tnfsOpen_spec createpermOwner (grants (by decide))
    (grants (by decide)) (canOpen_three_bytes openmodeRead (by decide)) (by decide : 0 < 1052)
    (by decide)
  have opened := hopen
  simp only [filehandlerOpen, openFile, show ['r'].foldl nextOpenMode 0 = openmodeRead from rfl,
    if_neg (show openmodeRead ≠ 0 by decide), hopen', just.place, Option.bind_eq_bind,
    Option.bind_some, Option.map_some, ne_eq, not_true_eq_false, if_false, Option.some.injEq,
    Prod.mk.injEq] at opened
  obtain ⟨⟨-, handler, -⟩, rfl⟩ := opened
  rw [FileHandlerTNFS.mk.injEq] at handler
  have ready := ready_of_justOpened just (known_freshClient _) (by decide : 5 + 1 < 1052)
    ⟨1, by rw [handler.2]; decide, rfl⟩ rfl ⟨by decide, by decide, by decide, by decide⟩
  rw [handler.1, handler.2] at ready
  obtain ⟨_, _, hread', exact_⟩ := handler_read_exact_iff reopens ready
    (by decide : 1 * 3 ≤ [(0 : UInt8), 0, 0].length) (by decide)
  rw [hread, Option.some.injEq, Prod.mk.injEq] at hread'
  obtain ⟨rfl, rfl⟩ := hread'
  rw [just.start] at exact_
  refine ⟨opening, ⟨⟨1, 0⟩, c', []⟩, s', answer, hopen, hread, happened,
    exact_.mpr ⟨?_, Nat.one_dvd _⟩⟩
  rw [happened]
  simp [Incident.StartsRequest, Incident.fillStart, readPayload, fileCacheSize]

/-- A file of 512 zeros and two ones. After a read of 511 bytes one zero is left in the
cached window. The session expires when the next two bytes are read: the zero is lost, and
the two ones are returned for it. -/
theorem read_loses_rest_of_window :
    ∃ (opening : Opening) (s s₁ s₂ : Handling FileServer) (answer : ReadAnswer),
      filehandlerOpen (transaction (net (expiringRead 3 id)) 1052) [0x61] ['r']
        (freshClient fun _ => some (List.replicate 512 0 ++ [1, 1])) =
          some ((0, some (s.handler, opening)), s.client) ∧
      read (transaction (net (expiringRead 3 id)) 1052) 1052 (List.replicate 511 9) 1 511 s =
        some (answer, s₁) ∧
      answer.returned = 511 ∧ tell s₁ = 511 ∧
      read (transaction (net (expiringRead 3 id)) 1052) 1052 [9, 9] 1 2 s₁ =
        some (⟨2, none, 2, [1, 1]⟩, s₂) ∧
      slice (List.replicate 512 0 ++ [1, 1]) 511 2 = ([0, 1] : List UInt8) ∧ tell s₂ = 514 := by
  have computed : ((filehandlerOpen (transaction (net (expiringRead 3 id)) 1052) [0x61] ['r']
      (freshClient fun _ => some (List.replicate 512 0 ++ [1, 1]))).bind fun (opened, c) =>
    opened.2.bind fun (handler, _) =>
    (read (transaction (net (expiringRead 3 id)) 1052) 1052 (List.replicate 511 9) 1 511
      ⟨handler, c, []⟩).bind fun (a₁, s₁) =>
    (read (transaction (net (expiringRead 3 id)) 1052) 1052 [9, 9] 1 2 s₁).map fun (a₂, s₂) =>
      (opened.1, a₁.returned, a₂, [tell s₁, tell s₂])) =
      some (0, 511, ⟨2, none, 2, [1, 1]⟩, [511, 514]) := by
    decide +kernel
  simp only [Option.bind_eq_some_iff, Option.map_eq_some_iff, Prod.exists, Prod.mk.injEq,
    List.cons.injEq, and_true] at computed
  obtain ⟨_, _, c, hopen, handler, opening, rfl, a₁, s₁, h₁, a₂, s₂, h₂, rfl, returned, rfl,
    before, after⟩ := computed
  exact ⟨opening, ⟨handler, c, []⟩, s₁, s₂, a₁, hopen, h₁, returned, before, h₂,
    by decide +kernel, after⟩

example : (filehandlerOpen (transaction (net (expiringRead 3 id)) 1052) [0x61] ['r']
    (freshClient fun _ => some [1])).isSome = true := by
  decide +kernel

end FujiNet.FileSystem
