import FujiNet.TNFSlib.Window

/-!
# Reading through the cache

`tnfs_read` alternates between taking bytes from the cached window and filling the
cache. Its specification, `tnfsRead_spec`, says for every policy of the server what
it delivers: the file's bytes from the client's position on, as many as `readCount`
says unless an incident stops it.

`readCount` compares the position with the size that the client recorded when it
opened the file, as the source does, and it does so only where a window ends. When
the recorded size is right this is invisible: see `readCount_of_size_eq`.
-/

namespace FujiNet.TNFS

open FileServer

/-- Where the cached window ends; an empty window ends at the client's position. -/
def FileHandleInfo.windowEnd (f : FileHandleInfo) : Nat :=
  if f.cacheAvailable = 0 then f.cachedPos else f.cacheStart + f.cacheAvailable

/-- The cache holds the bytes of the file, and the client stands inside the window. -/
structure Window (f : FileHandleInfo) (F : List UInt8) : Prop where
  length : f.cache.length = 512
  available : f.cacheAvailable ≤ 512
  holds : f.cache.take f.cacheAvailable = slice F f.cacheStart f.cacheAvailable
  within : 0 < f.cacheAvailable → f.cacheStart + f.cacheAvailable ≤ F.length
  inside : 0 < f.cacheAvailable → f.cacheStart ≤ f.cachedPos ∧
    f.cachedPos ≤ f.cacheStart + f.cacheAvailable
  position : f.cachedPos < word

theorem Window.cachedPos_le {f : FileHandleInfo} {F : List UInt8} (window : Window f F) :
    f.cachedPos ≤ f.windowEnd := by
  simp only [FileHandleInfo.windowEnd]
  split_ifs with empty
  · exact Nat.le_refl _
  · exact (window.inside (by omega)).2

/-- Taking bytes from the window. -/
theorem readFromCache_spec {f : FileHandleInfo} {F : List UInt8} (window : Window f F)
    (small : F.length < word) {n : Nat} (hn : 0 < n) :
    readFromCache f n =
      if f.fileSize ≤ f.cachedPos then (code Result.endOfFile, [], f)
      else (if n ≤ f.windowEnd - f.cachedPos then 0 else -1,
        slice F f.cachedPos (min n (f.windowEnd - f.cachedPos)),
        { f with cachedPos := f.cachedPos + min n (f.windowEnd - f.cachedPos) }) := by
  by_cases eof : f.fileSize ≤ f.cachedPos
  · simp [readFromCache, eof]
  simp only [readFromCache, ge_iff_le, if_neg eof, FileHandleInfo.windowEnd]
  by_cases empty : f.cacheAvailable = 0
  · simp only [if_pos empty, Nat.sub_self, Nat.min_zero, Nat.add_zero, slice_zero]
    rw [if_neg (by omega)]
  · obtain ⟨after, before⟩ := window.inside (by omega)
    have within := window.within (by omega)
    have cacheEnd : f.cacheEnd = f.cacheStart + f.cacheAvailable := Nat.mod_eq_of_lt (by omega)
    have provided : (if f.cacheStart ≤ f.cachedPos ∧ f.cachedPos < f.cacheEnd then
        min n (f.cacheEnd - f.cachedPos) else 0) =
          min n (f.cacheStart + f.cacheAvailable - f.cachedPos) := by
      rw [cacheEnd]
      split_ifs with h
      · rfl
      · omega
    have bytes : slice f.cache (f.cachedPos - f.cacheStart)
        (min n (f.cacheStart + f.cacheAvailable - f.cachedPos)) =
          slice F f.cachedPos (min n (f.cacheStart + f.cacheAvailable - f.cachedPos)) := by
      have inCache := slice_slice f.cache 0 f.cacheAvailable
        (min n (f.cacheStart + f.cacheAvailable - f.cachedPos)) (f.cachedPos - f.cacheStart)
        (by omega)
      have inFile := slice_slice F f.cacheStart f.cacheAvailable
        (min n (f.cacheStart + f.cacheAvailable - f.cachedPos)) (f.cachedPos - f.cacheStart)
        (by omega)
      have same : slice f.cache 0 f.cacheAvailable = slice F f.cacheStart f.cacheAvailable := by
        rw [← window.holds, slice, List.drop_zero]
      rw [Nat.zero_add] at inCache
      rw [← inCache, same, inFile]
      congr 1
      omega
    have fits : f.cachedPos + min n (f.cacheStart + f.cacheAvailable - f.cachedPos) < word := by
      omega
    simp only [if_neg empty, provided, bytes, Nat.mod_eq_of_lt fits, Prod.mk.injEq, and_true]
    split_ifs <;> omega

/-! ## How many bytes a read delivers -/

/-- The number of bytes that a read of `n` bytes delivers when the server grants all
requests: the file has `len` bytes, the client believes it to have `size`, stands at
`pos` and has a window up to `windowEnd`. -/
def readCount (len size pos windowEnd n : Nat) : Nat :=
  if size ≤ pos then 0
  else if n ≤ windowEnd - pos then n
  else if len ≤ windowEnd then windowEnd - pos
  else (windowEnd - pos) +
    readCount len size windowEnd (min len (windowEnd + 512)) (n - (windowEnd - pos))
termination_by len - windowEnd

theorem readCount_of_size_eq (len : Nat) {pos windowEnd n : Nat} (le : pos ≤ windowEnd)
    (within : pos < windowEnd → windowEnd ≤ len) :
    readCount len len pos windowEnd n = min n (len - pos) := by
  induction pos, windowEnd, n using readCount.induct len len with
  | case1 pos windowEnd n eof =>
      rw [readCount, if_pos eof]
      omega
  | case2 pos windowEnd n notEof enough =>
      rw [readCount, if_neg notEof, if_pos enough]
      omega
  | case3 pos windowEnd n notEof short last =>
      rw [readCount, if_neg notEof, if_neg short, if_pos last]
      omega
  | case4 pos windowEnd n notEof short more ih =>
      rw [readCount, if_neg notEof, if_neg short, if_neg more, ih (by omega) (by omega)]
      omega

/-- When the recorded size is right, a read delivers all there is. -/
theorem Window.readCount_eq {f : FileHandleInfo} {F : List UInt8} (window : Window f F)
    (size : f.fileSize = F.length) (n : Nat) :
    readCount F.length f.fileSize f.cachedPos f.windowEnd n = min n (F.length - f.cachedPos) := by
  rw [size]
  refine readCount_of_size_eq _ window.cachedPos_le fun before => ?_
  simp only [FileHandleInfo.windowEnd] at before ⊢
  split_ifs at before ⊢ with empty
  · omega
  · exact window.within (by omega)

/-! ## The loop of `tnfs_read` -/

/-- What a read of the file `f` has done so far: it delivered the bytes of the file
from the client's position on, and moved the client past them. -/
structure Delivered (f : FileHandleInfo) (F : List UInt8) (data : List UInt8)
    (f' : FileHandleInfo) : Prop where
  window : Window f' F
  bytes : data = slice F f.cachedPos data.length
  position : f'.cachedPos = f.cachedPos + data.length
  handleId : f'.handleId = f.handleId
  fileSize : f'.fileSize = f.fileSize
  filename : f'.filename = f.filename

/-- The client's position, the window and the server's position fit together. -/
structure InStep (f : FileHandleInfo) (s : FileServer) (g : OpenFile) (F : List UInt8) : Prop where
  meets : f.filePosition = f.windowEnd
  at_q : At s f.handleId g F f.filePosition

/-- The same with a server that stands ahead by the length of `first`. -/
structure InStepAhead (first : List UInt8) (f : FileHandleInfo) (s : FileServer) (g : OpenFile)
    (F : List UInt8) : Prop where
  meets : f.filePosition = f.windowEnd
  ahead : Ahead first s f.handleId g F f.filePosition

theorem InStep.ahead {f : FileHandleInfo} {s : FileServer} {g : OpenFile} {F : List UInt8}
    (inStep : InStep f s g F) : InStepAhead [] f s g F := ⟨inStep.meets, inStep.at_q.ahead⟩

theorem InStepAhead.inStep {f : FileHandleInfo} {s : FileServer} {g : OpenFile} {F : List UInt8}
    (inStep : InStepAhead [] f s g F) : InStep f s g F := ⟨inStep.meets, inStep.ahead.at_q⟩

/-- The loop of `tnfs_read` at its head. -/
structure ReadHead (first : List UInt8) (c : Client FileServer) (f : FileHandleInfo) (g : OpenFile) (F : List UInt8)
    (n : Nat) (s : Reading FileServer) : Prop where
  delivered : Delivered f F s.data s.file
  room : s.data.length < n
  inStep : InStepAhead first s.file s.client.net g F
  keeps : Keeps c.mInfo s.client.mInfo
  connected : Connected s.client
  quiet : s.client.net.incidents = c.net.incidents
  count : s.data.length + readCount F.length f.fileSize s.file.cachedPos s.file.filePosition
    (n - s.data.length) = readCount F.length f.fileSize f.cachedPos f.filePosition n

/-- How a read of `n` bytes ends: the result, the client, the file and the bytes
delivered. -/
inductive ReadEnd (policy : Policy) (first : List UInt8) (c : Client FileServer) (f : FileHandleInfo)
    (g : OpenFile) (F : List UInt8) (n : Nat) (result : Int) (c' : Client FileServer)
    (f' : FileHandleInfo) (data : List UInt8) : Prop
  | done : Delivered f F data f' → InStepAhead first f' c'.net g F → Keeps c.mInfo c'.mInfo →
      Connected c' → c'.net.incidents = c.net.incidents →
      data.length = readCount F.length f.fileSize f.cachedPos f.filePosition n →
      result = (if data.length = n then 0 else code Result.endOfFile) →
      ReadEnd policy first c f g F n result c' f' data
  | failed {i : Incident} {k : Nat} : Delivered f F data f' → data.length < n →
      Keeps c.mInfo c'.mInfo → Connected c' → i.ReportedAs result → k < 512 →
      f'.cacheAvailable = 0 → f'.filePosition = f'.cachedPos + k →
      OccursAhead first policy Cmd.read (readPayload f.handleId (512 - k)) c.net f.handleId g F
        f'.filePosition i c'.net →
      ReadEnd policy first c f g F n result c' f' data

section

variable {policy : Policy} {fuel n : Nat} {first : List UInt8} {c : Client FileServer} {f : FileHandleInfo}
  {g : OpenFile} {F : List UInt8}

/-- Delivering `k` more bytes from the window. -/
theorem Delivered.advance {f' : FileHandleInfo} {data : List UInt8}
    (delivered : Delivered f F data f') (small : F.length < word) {k : Nat}
    (hk : k ≤ f'.windowEnd - f'.cachedPos) :
    Delivered f F (data ++ slice F f'.cachedPos k) { f' with cachedPos := f'.cachedPos + k } ∧
      (slice F f'.cachedPos k).length = k ∧
      FileHandleInfo.windowEnd { f' with cachedPos := f'.cachedPos + k } = f'.windowEnd := by
  obtain ⟨window, hdata, position, handleId, fileSize, filename⟩ := delivered
  have bound : k = 0 ∨ f'.cachedPos + k ≤ F.length := by
    simp only [FileHandleInfo.windowEnd] at hk
    split_ifs at hk with empty
    · omega
    · have within := window.within (by omega)
      have inside := window.inside (by omega)
      omega
  have length : (slice F f'.cachedPos k).length = k := by
    rw [length_slice]
    omega
  have sameEnd : FileHandleInfo.windowEnd { f' with cachedPos := f'.cachedPos + k } =
      f'.windowEnd := by
    simp only [FileHandleInfo.windowEnd] at hk ⊢
    split_ifs at hk ⊢ <;> omega
  refine ⟨⟨⟨window.length, window.available, window.holds, window.within, fun some_ => ?_, ?_⟩,
    ?_, ?_, handleId, fileSize, filename⟩, length, sameEnd⟩
  · have inside := window.inside some_
    simp only [FileHandleInfo.windowEnd] at hk
    rw [if_neg (by simp only at some_; omega)] at hk
    simp only
    omega
  · have := window.position
    simp only
    omega
  · rw [List.length_append, length]
    conv_lhs => rw [hdata, position]
    exact slice_append_slice F f.cachedPos data.length k
  · rw [List.length_append, length]
    simp only
    omega

/-- A new window at the client's position. -/
theorem Delivered.fill {f' f'' : FileHandleInfo} {data : List UInt8} {j : Nat}
    (delivered : Delivered f F data f') (meets : f'.cachedPos = f'.filePosition)
    (fetched : Fetched f' F j f'') (le : j ≤ 512)
    (available : f''.cacheAvailable = j ∨ f''.cacheAvailable = 0) :
    Delivered f F data f'' := by
  obtain ⟨window, hdata, position, handleId, fileSize, filename⟩ := delivered
  have same := fetched.file
  have start := congrArg FileHandleInfo.cacheStart same
  have cachedPos := congrArg FileHandleInfo.cachedPos same
  simp only at start cachedPos
  refine ⟨⟨fetched.length, by omega, ?_, fun some_ => ?_, fun some_ => ?_, ?_⟩, hdata, ?_, ?_, ?_, ?_⟩
  · rcases available with h | h
    · rw [h, start, fetched.holds]
    · rw [h, List.take_zero, slice_zero]
  · have within := fetched.within (by omega)
    omega
  · omega
  · exact cachedPos ▸ window.position
  · rw [cachedPos, position]
  · rw [congrArg FileHandleInfo.handleId same, handleId]
  · rw [congrArg FileHandleInfo.fileSize same, fileSize]
  · rw [congrArg FileHandleInfo.filename same, filename]

/-- One pass of the loop. -/
theorem readPass_spec (policy : Policy) {s : Reading FileServer}
    (enough : c.mInfo.maxRetries + 1 < fuel) (enough' : 512 < fuel) (small : F.length < word)
    (head : ReadHead first c f g F n s) :
    (∃ s', readPass (transaction (net policy) fuel) fuel n s = some (.inl s') ∧
      ReadHead first c f g F n s' ∧ s'.file.cachedPos < s'.file.windowEnd ∧
      (s.file.cachedPos < s.file.windowEnd → s.data.length < s'.data.length) ∧
      s.data.length ≤ s'.data.length) ∨
    ∃ b, readPass (transaction (net policy) fuel) fuel n s = some (.inr b) ∧
      ReadEnd policy first c f g F n b.1 b.2.client b.2.file b.2.data := by
  obtain ⟨client, file, data⟩ := s
  obtain ⟨delivered, room, inStep, keeps, connected, quiet, count⟩ := head
  simp only at delivered room inStep keeps connected quiet count ⊢
  have cache := readFromCache_spec delivered.window small (n := n - data.length) (by omega)
  have order := delivered.window.cachedPos_le
  have meets := inStep.meets
  rw [readCount, delivered.fileSize.symm, meets] at count
  by_cases eof : file.fileSize ≤ file.cachedPos
  · rw [if_pos eof, delivered.fileSize, Nat.add_zero] at count
    refine .inr ⟨(code Result.endOfFile, ⟨client, file, data⟩), by simp [readPass, cache, eof], ?_⟩
    exact .done delivered inStep keeps connected quiet count (if_neg (Nat.ne_of_lt room)).symm
  rw [if_neg eof] at cache count
  by_cases full : n - data.length ≤ file.windowEnd - file.cachedPos
  · -- the window holds the rest of what was asked for
    rw [if_pos full] at cache count
    rw [Nat.min_eq_left full] at cache
    obtain ⟨delivered', length, sameEnd⟩ := delivered.advance small full
    have complete : (data ++ slice F file.cachedPos (n - data.length)).length = n := by
      rw [List.length_append, length]
      omega
    have pass : readPass (transaction (net policy) fuel) fuel n ⟨client, file, data⟩ =
        some (.inr (0, ⟨client, { file with cachedPos := file.cachedPos + (n - data.length) },
          data ++ slice F file.cachedPos (n - data.length)⟩)) := by
      simp [readPass, cache]
    refine .inr ⟨_, pass, ?_⟩
    refine .done delivered' ⟨meets.trans sameEnd.symm, inStep.ahead⟩ keeps connected quiet ?_
      (if_pos complete).symm
    rw [delivered.fileSize] at count
    rw [complete, ← count]
    omega
  · -- the window is used up and the cache is filled again
    rw [if_neg full] at cache count
    rw [Nat.min_eq_right (by omega)] at cache
    obtain ⟨delivered', length, sameEnd⟩ := delivered.advance small (Nat.le_refl _)
    have atEnd : file.cachedPos + (file.windowEnd - file.cachedPos) = file.windowEnd := by omega
    rw [atEnd] at cache delivered' sameEnd
    have taken : (data ++ slice F file.cachedPos (file.windowEnd - file.cachedPos)).length =
        data.length + (file.windowEnd - file.cachedPos) := by
      rw [List.length_append, length]
    obtain ⟨error, f', c', hfill, filled⟩ := fillCache_spec policy
      (f := { file with cachedPos := file.windowEnd }) connected
      (by rw [keeps.maxRetries]; exact enough) enough' small delivered'.window.length inStep.ahead
    generalize hdata' : data ++ slice F file.cachedPos (file.windowEnd - file.cachedPos) = data' at *
    have pass : readPass (transaction (net policy) fuel) fuel n ⟨client, file, data⟩ =
        if error ≠ 0 then some (.inr (error, ⟨c', f', data'⟩))
        else some (.inl ⟨c', f', data'⟩) := by
      simp only [readPass, cache, hdata']
      rw [if_neg (by decide), hfill]
      rfl
    rw [pass]
    cases filled with
    | @window j _ _ hj hmin fetched available keeps' connected' at_q' quiet' =>
        have same := fetched.file
        simp only [meets] at hmin at_q'
        have start : f'.cacheStart = file.windowEnd := by rw [same, meets]
        have cachedPos : f'.cachedPos = file.windowEnd := by rw [same]
        have filePosition : f'.filePosition = file.windowEnd + j := by rw [same, meets]
        have windowEnd : f'.windowEnd = file.windowEnd + j := by
          rw [FileHandleInfo.windowEnd, if_neg (by omega), start, available]
        refine .inl ⟨⟨c', f', data'⟩, if_neg (by simp), ⟨?_, ?_, ⟨?_, ?_⟩, ?_, connected', ?_, ?_⟩,
          ?_, ?_, ?_⟩
        · exact delivered'.fill meets.symm fetched (by omega) (.inl available)
        · simp only [taken]
          omega
        · exact filePosition.trans windowEnd.symm
        · simp only [filePosition, congrArg FileHandleInfo.handleId same]
          exact at_q'
        · exact keeps.trans keeps'
        · exact quiet'.trans quiet
        · simp only [cachedPos, filePosition, taken]
          rw [if_neg (by omega), delivered.fileSize] at count
          rw [← count, show file.windowEnd + j = min F.length (file.windowEnd + 512) by omega,
            ← Nat.sub_sub, Nat.add_assoc]
        · simp only [cachedPos, windowEnd]
          omega
        · simp only [taken]
          omega
        · simp only [taken]
          omega
    | eof stop fetched available keeps' connected' at_q' quiet' =>
        have same := fetched.file
        simp only [meets] at stop at_q'
        refine .inr ⟨(_, ⟨c', f', data'⟩), if_pos (by simp [code, Result.endOfFile]), ?_⟩
        refine .done (delivered'.fill meets.symm fetched (by omega) (.inr available)) ⟨?_, ?_⟩
          (keeps.trans keeps') connected' (quiet'.trans quiet) ?_ (if_neg ?_).symm
        · rw [FileHandleInfo.windowEnd, if_pos available, same, meets]
          rfl
        · simp only [congrArg FileHandleInfo.filePosition same,
            congrArg FileHandleInfo.handleId same, meets]
          exact at_q'
        · rw [if_pos stop, delivered.fileSize] at count
          simp only [taken, count]
        · simp only [taken]
          omega
    | @failed j i _ _ _ lt fetched available keeps' connected' reported occurs =>
        have same := fetched.file
        have filePosition : f'.filePosition = file.filePosition + j := by rw [same]
        refine .inr ⟨(error, ⟨c', f', data'⟩), if_pos reported.notZero, ?_⟩
        refine .failed (k := j) (delivered'.fill meets.symm fetched (by omega) (.inr available))
          ?_ (keeps.trans keeps') connected' reported lt available ?_ ?_ (i := i)
        · simp only [taken]
          omega
        · rw [same, meets]
        · rw [filePosition, ← delivered.handleId]
          exact occurs.of_incidents quiet

/-- The whole loop. Two passes bring at least one byte, so there are at most twice as
many passes as bytes asked for, and one. -/
theorem readLoop_spec (policy : Policy) (connected : Connected c)
    (enough : c.mInfo.maxRetries + 1 < fuel) (enough' : 1051 < fuel) (small : F.length < word)
    (window : Window f F) (inStep : InStepAhead first f c.net g F) (hn : 0 < n) (hn' : n ≤ 525) :
    ∃ result c' f' data, Loop.run (readPass (transaction (net policy) fuel) fuel n) fuel
        ⟨c, f, []⟩ = some (result, ⟨c', f', data⟩) ∧
      ReadEnd policy first c f g F n result c' f' data := by
  have start : ReadHead first c f g F n ⟨c, f, []⟩ :=
    ⟨⟨window, by simp, rfl, rfl, rfl, rfl⟩, hn, inStep, .refl _, connected, rfl, by simp⟩
  let variant (s : Reading FileServer) : Nat :=
    2 * (n - s.data.length) + if s.file.cachedPos < s.file.windowEnd then 0 else 1
  have bound : variant ⟨c, f, []⟩ < fuel := by
    simp only [variant, List.length_nil]
    split_ifs <;> omega
  suffices total : ∃ b, Loop.run (readPass (transaction (net policy) fuel) fuel n) fuel
      ⟨c, f, []⟩ = some b ∧ ReadEnd policy first c f g F n b.1 b.2.client b.2.file b.2.data by
    obtain ⟨⟨result, c', f', data⟩, hrun, hend⟩ := total
    exact ⟨result, c', f', data, hrun, hend⟩
  refine Loop.run_total (ReadHead first c f g F n) _ variant ?_ start bound
  intro s head
  rcases readPass_spec policy enough (by omega) small head with
    ⟨s', pass, head', nonempty, more, le⟩ | exit
  · refine .inl ⟨s', pass, head', ?_⟩
    have room := head.room
    simp only [variant, if_pos nonempty]
    by_cases some_ : s.file.cachedPos < s.file.windowEnd
    · have := more some_
      rw [if_pos some_]
      omega
    · rw [if_neg some_]
      omega
  · exact .inr exit

end

/-! ## `tnfs_read` of an open file -/

/-- The file `f` stands at place `i` of the table of a connected client, and is the one
found for its handle. -/
structure Opened (c : Client FileServer) (i : Fin maxFileHandles) (f : FileHandleInfo) : Prop where
  slot : c.mInfo.fileHandles i = some f
  lookup : c.mInfo.getFilehandleinfo f.handleId = some i
  connected : Connected c

theorem Connected.setFile {c : Client FileServer} (connected : Connected c)
    (i : Fin maxFileHandles) (f : FileHandleInfo) :
    Connected { c with mInfo := c.mInfo.setFile i f } :=
  ⟨connected.session, connected.valid, connected.retries, connected.heard, connected.fits,
    connected.rooted⟩

theorem Connected.deleteFilehandleinfo {c : Client FileServer} (connected : Connected c)
    (i : Fin maxFileHandles) :
    Connected { c with mInfo := c.mInfo.deleteFilehandleinfo i } :=
  ⟨connected.session, connected.valid, connected.retries, connected.heard, connected.fits,
    connected.rooted⟩

theorem Keeps.getFilehandleinfo {m m' : MountInfo} (keeps : Keeps m m') (h : UInt8) :
    m'.getFilehandleinfo h = m.getFilehandleinfo h := by
  simp only [MountInfo.getFilehandleinfo, keeps.fileHandles]

/-- After a transaction and a change of the file that keeps its handle. -/
theorem Opened.setFile {c c' : Client FileServer} {i : Fin maxFileHandles}
    {f f' : FileHandleInfo} (opened : Opened c i f) (keeps : Keeps c.mInfo c'.mInfo)
    (connected : Connected c') (same : f'.handleId = f.handleId) :
    Opened { c' with mInfo := c'.mInfo.setFile i f' } i f' := by
  refine ⟨MountInfo.fileHandles_setFile, ?_, connected.setFile i f'⟩
  have slot : c'.mInfo.fileHandles i = some f := by rw [keeps.fileHandles, opened.slot]
  rw [same]
  exact (MountInfo.getFilehandleinfo_setFile slot same).trans
    ((keeps.getFilehandleinfo _).trans opened.lookup)

theorem validAsUint8_toNat (h : UInt8) : validAsUint8 h.toNat = some h := by
  have := h.toNat_lt
  simp only [validAsUint8]
  rw [if_pos (by omega), Int.toNat_natCast, UInt8.ofNat_toNat]

section

variable {policy : Policy} {fuel n : Nat} {first : List UInt8} {c : Client FileServer} {f : FileHandleInfo}
  {i : Fin maxFileHandles} {g : OpenFile} {F : List UInt8}

/-- `tnfs_read` of 1 to 525 bytes from an open file. -/
theorem tnfsRead_spec (policy : Policy) (opened : Opened c i f)
    (enough : c.mInfo.maxRetries + 1 < fuel) (enough' : 1051 < fuel) (small : F.length < word)
    (window : Window f F) (inStep : InStepAhead first f c.net g F) (hn : 0 < n) (hn' : n ≤ 525) :
    ∃ result c' f' data, tnfsRead (transaction (net policy) fuel) fuel f.handleId.toNat n c =
        some ((result, data), { c' with mInfo := c'.mInfo.setFile i f' }) ∧
      Opened { c' with mInfo := c'.mInfo.setFile i f' } i f' ∧
      ReadEnd policy first c f g F n result c' f' data := by
  obtain ⟨result, c', f', data, hrun, hend⟩ :=
    readLoop_spec policy opened.connected enough enough' small window inStep hn hn'
  refine ⟨result, c', f', data, ?_, ?_, hend⟩
  · have admitted : ¬ n > payloadSize - 3 := by
      simp only [payloadSize]
      omega
    simp only [tnfsRead, validAsUint8_toNat, if_neg admitted]
    simp only [opened.lookup, opened.slot, Option.bind_eq_bind, Option.bind_some, hrun]
  · cases hend with
    | done delivered _ keeps connected => exact opened.setFile keeps connected delivered.handleId
    | failed delivered _ keeps connected => exact opened.setFile keeps connected delivered.handleId

end

end FujiNet.TNFS
