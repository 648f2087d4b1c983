import FujiNet.TNFSlib.Open

/-!
# Writing

`tnfs_write` drops the cached window and brings the server to the client's position
before it writes, unless it believes the server to stand there already; then it writes
wherever the server stands. `tnfsWrite_spec` says what it does to the file when the
server grants its requests. The recorded size of the file is not among the things it
changes.
-/

namespace FujiNet.TNFS

open FileServer

/-! ## WRITE requests -/

/-- The payload of a WRITE request. -/
def writePayload (h : UInt8) (bytes : List UInt8) : List UInt8 :=
  [h, lobyte bytes.length, hibyte bytes.length] ++ bytes

section

variable {policy : Policy} {fuel : Nat} {c : Client FileServer} {f : FileHandleInfo}
  {i : Fin maxFileHandles} {g : OpenFile} {F : List UInt8} {h : UInt8} {q : Nat}
  {bytes : List UInt8}

/-- Carrying out a WRITE. -/
theorem execute_write {s : FileServer} (at_q : At s h g F q) (n : Nat)
    (short : bytes.length < 65536) :
    s.execute n Cmd.write (writePayload h bytes) =
      if g.writable = false then ([Result.badFilenum], s)
      else if word ≤ q + bytes.length then ([Result.fileTooLarge], s)
      else ([Result.success, lobyte bytes.length, hibyte bytes.length],
        { s with files := Function.update s.files g.path (some (writeAt F q bytes)) }.moveTo h
          { g with position := q } (q + bytes.length)) := by
  have executed : s.execute n Cmd.write (writePayload h bytes) = s.write h bytes := by
    simp only [execute, writePayload, show Cmd.write ≠ Cmd.stat by decide,
      show Cmd.write ≠ Cmd.open_ by decide, show Cmd.write ≠ Cmd.read by decide, if_false, if_true]
    simp [u16_lobyte_hibyte short]
  rw [executed, FileServer.write, at_q.handle]
  simp only [at_q.content, Option.getD_some]

theorem At.write {s : FileServer} (at_q : At s h g F q) (position : Nat) :
    At ({ s with files := Function.update s.files g.path (some (writeAt F q bytes)) }.moveTo h
      { g with position := q } position) h g (writeAt F q bytes) position := by
  have := at_q.handle
  exact ⟨by simp [FileServer.moveTo], by simp [FileServer.moveTo]⟩

/-! ## `tnfs_write` -/

/-- What an operation on the file at place `i` leaves as it was. -/
structure KeepsOthers (i : Fin maxFileHandles) (m m' : MountInfo) : Prop where
  others : ∀ j ≠ i, m'.fileHandles j = m.fileHandles j
  currentWorkingDirectory : m'.currentWorkingDirectory = m.currentWorkingDirectory
  maxRetries : m'.maxRetries = m.maxRetries

theorem KeepsOthers.refl (i : Fin maxFileHandles) (m : MountInfo) : KeepsOthers i m m :=
  ⟨fun _ _ => rfl, rfl, rfl⟩

theorem KeepsOthers.trans {m m' m'' : MountInfo} (h : KeepsOthers i m m')
    (h' : KeepsOthers i m' m'') : KeepsOthers i m m'' :=
  ⟨fun j ne => (h'.others j ne).trans (h.others j ne),
    h'.currentWorkingDirectory.trans h.currentWorkingDirectory, h'.maxRetries.trans h.maxRetries⟩

theorem Keeps.setFile {m m' : MountInfo} (keeps : Keeps m m') (i : Fin maxFileHandles)
    (f : FileHandleInfo) : KeepsOthers i m (m'.setFile i f) :=
  ⟨fun j ne => (MountInfo.fileHandles_setFile_of_ne ne).trans (congrFun keeps.fileHandles j),
    keeps.currentWorkingDirectory, keeps.maxRetries⟩

/-- A granted request does not fail. -/
theorem Occurs.not_grants {command : UInt8} {payload : List UInt8} {s s' : FileServer}
    {incident : Incident} (occurs : Occurs policy command payload s h g F q incident s')
    (grants : policy.Grants command) : False := by
  obtain ⟨t, chosen⟩ := occurs.chosen
  obtain ⟨n, grant⟩ := grants t
  exact occurs.notGranted n (chosen ▸ grant)

/-- Where a write goes when the server stands at `q`. -/
def FileHandleInfo.writePosition (f : FileHandleInfo) (q : Nat) : Nat :=
  if f.cachedPos = f.filePosition then q else f.cachedPos

/-- Bring the server to the client's position. -/
theorem resync (grants : policy.Grants Cmd.lseek) (opened : Opened c i f)
    (enough : c.mInfo.maxRetries + 1 < fuel) {view : List UInt8} (small : view.length < word)
    (window : Window f view) (at_q : At c.net f.handleId g F q) (dropped : f.cacheAvailable = 0) :
    ∃ newPosition c', (if f.cachedPos = f.filePosition then some ((0, none), c)
        else tnfsLseek (transaction (net policy) fuel) f.handleId.toNat f.cachedPos seekSet true c) =
        some ((0, newPosition), c') ∧
      Opened c' i (f.movedTo f.cachedPos) ∧ KeepsOthers i c.mInfo c'.mInfo ∧
      At c'.net f.handleId g F (f.writePosition q) ∧ c'.net.incidents = c.net.incidents := by
  rw [FileHandleInfo.writePosition]
  by_cases meets : f.cachedPos = f.filePosition
  · have same : f.movedTo f.cachedPos = f := by
      rw [FileHandleInfo.movedTo, ← dropped]
      conv_lhs =>
        arg 2
        rw [meets]
    rw [if_pos meets, if_pos meets, same]
    exact ⟨none, c, rfl, opened, .refl _ _, at_q, rfl⟩
  rw [if_neg meets, if_neg meets, tnfsLseek_skipCache _ opened.slot opened.lookup dropped]
  obtain ⟨result, newPosition, c', f', hseek, opened', hend⟩ := tnfsLseek_spec policy f.cachedPos
    seekSet opened enough small window at_q (.inl rfl) (by simp)
  have target : seekTarget f.cachedPos seekSet q F.length = f.cachedPos := by
    rw [seekTarget_seekSet, toUint32_natCast window.position]
  have destination : f.destination f.filePosition f.cachedPos seekSet = f.cachedPos := by
    rw [destination_eq, seekTarget_seekSet, toUint32_natCast window.position,
      toUint32_natCast window.position]
  have miss (d : Nat) : ¬ f.InWindow d := by simp [FileHandleInfo.InWindow, dropped]
  cases hend with
  | inside inWindow => exact absurd inWindow (miss _)
  | @moved d _ hd inRange hresult hf' keeps connected at_d quiet =>
      obtain rfl : d = f.cachedPos := by
        rw [target] at hd
        omega
      rw [destination] at hf'
      subst hresult hf'
      exact ⟨newPosition, _, hseek, opened', keeps.setFile _ _, at_d, quiet⟩
  | invalid _ outOfRange =>
      rw [target] at outOfRange
      have := window.position
      omega
  | failed _ _ _ _ _ occurs => exact (occurs.not_grants grants).elim

/-- How a write ends when all requests are granted and it goes to `start`. -/
inductive WriteEnd (f : FileHandleInfo) (g : OpenFile) (F bytes : List UInt8) (start : Nat)
    (result : Int) (written : Nat) (c' : Client FileServer) (i : Fin maxFileHandles) : Prop
  | written : g.writable = true → start + bytes.length < word → result = 0 →
      written = bytes.length →
      Opened c' i (f.movedTo ((f.cachedPos + bytes.length) % word)) →
      At c'.net f.handleId g (writeAt F start bytes) (start + bytes.length) →
      WriteEnd f g F bytes start result written c' i
  | refused : g.writable = false ∨ word ≤ start + bytes.length → result ≠ 0 →
      Opened c' i (f.movedTo f.cachedPos) → At c'.net f.handleId g F start →
      WriteEnd f g F bytes start result written c' i

/-- `tnfs_write` of at most 525 bytes to an open file. -/
theorem tnfsWrite_spec (grantsWrite : policy.Grants Cmd.write)
    (grantsSeek : policy.Grants Cmd.lseek) (opened : Opened c i f)
    (enough : c.mInfo.maxRetries + 1 < fuel) {view : List UInt8} (small : view.length < word)
    (window : Window f view) (at_q : At c.net f.handleId g F q) (short : bytes.length ≤ 525) :
    ∃ result written c', tnfsWrite (transaction (net policy) fuel) f.handleId.toNat bytes c =
        some ((result, written), c') ∧
      KeepsOthers i c.mInfo c'.mInfo ∧
      WriteEnd f g F bytes (f.writePosition q) result written c' i := by
  have dropped : Opened { c with mInfo := c.mInfo.setFile i f.dropCache } i f.dropCache :=
    opened.setFile (.refl _) opened.connected rfl
  obtain ⟨newPosition, c₁, hsync, opened₁, keeps₁, at₁, -⟩ := resync grantsSeek dropped enough
    small window.dropCache at_q rfl
  obtain ⟨n, choice⟩ := grantsWrite c₁.net.clock
  obtain ⟨p, c₂, rest, htx, keeps₂, connected₂, payload, agree⟩ :=
    opened₁.connected.granted (by omega : 0 < fuel) (by decide)
      (by simp [writePayload]; omega : (writePayload f.handleId bytes).length ≤ 528) choice
  have slot₂ : c₂.mInfo.fileHandles i = some (f.movedTo f.cachedPos) := by
    rw [keeps₂.fileHandles]
    exact opened₁.slot
  have run : tnfsWrite (transaction (net policy) fuel) f.handleId.toNat bytes c =
      if p.payloadByte 0 = Result.success then
        some ((code Result.success, p.payloadU16 1), { c₂ with
          mInfo := c₂.mInfo.setFile i (f.movedTo ((f.cachedPos + p.payloadU16 1) % word)) })
      else some ((code (p.payloadByte 0), 0), c₂) := by
    have admitted : ¬ bytes.length > payloadSize - 3 := by
      simp only [payloadSize]
      omega
    have request : [f.handleId, lobyte bytes.length, hibyte bytes.length] ++ bytes =
      writePayload f.handleId bytes := rfl
    have size : bytes.length + 3 = (writePayload f.handleId bytes).length := by
      simp [writePayload]
    simp only [tnfsWrite, validAsUint8_toNat, if_neg admitted, opened.lookup, opened.slot,
      Option.bind_eq_bind, Option.bind_some, request, size]
    refine (congrArg (Option.bind · _) hsync).trans ?_
    simp only [Option.bind_some, htx, slot₂]
    rfl
  rw [run]
  change Opened c₁ i (f.movedTo f.cachedPos) at opened₁
  change At c₁.net f.handleId g F (f.writePosition q) at at₁
  have keeps : KeepsOthers i c.mInfo c₁.mInfo := ((Keeps.refl c.mInfo).setFile i _).trans keeps₁
  rw [execute_write at₁ n (by omega)] at payload agree
  by_cases refused : g.writable = false ∨ word ≤ f.writePosition q + bytes.length
  · obtain ⟨failed, agree⟩ : p.payloadByte 0 ≠ Result.success ∧ c₁.net.Agree c₂.net := by
      split_ifs at payload agree with readOnly large
      · exact ⟨by rw [Packet.payloadByte_zero_of_payload payload]; decide, agree⟩
      · exact ⟨by rw [Packet.payloadByte_zero_of_payload payload]; decide, agree⟩
      · exact absurd refused (not_or.mpr ⟨readOnly, large⟩)
    have unchanged : c₂ = { c₂ with mInfo := c₂.mInfo.setFile i (f.movedTo f.cachedPos) } := by
      rw [MountInfo.setFile_of_fileHandles slot₂]
    rw [if_neg failed]
    refine ⟨_, _, _, rfl, ?_, .refused refused (code_ne failed) ?_ (at₁.of_agree agree)⟩
    · rw [unchanged]
      exact keeps.trans (keeps₂.setFile i _)
    · rw [unchanged]
      exact opened₁.setFile keeps₂ connected₂ rfl
  · obtain ⟨writable, inRange⟩ := not_or.mp refused
    rw [if_neg writable, if_neg inRange] at payload agree
    have first := Packet.payloadByte_zero_of_payload payload
    have length : p.payloadByte 1 = lobyte bytes.length ∧ p.payloadByte 2 = hibyte bytes.length := by
      simp [Packet.payloadByte, payload]
    have count : p.payloadU16 1 = bytes.length := by
      rw [Packet.payloadU16, length.1, length.2, u16_lobyte_hibyte (by omega)]
    rw [if_pos first, count]
    refine ⟨_, _, _, rfl, keeps.trans (keeps₂.setFile i _),
      .written (by simpa using writable) (by omega) rfl rfl ?_ ?_⟩
    · exact opened₁.setFile keeps₂ connected₂ rfl
    · exact (at₁.write _).of_agree agree

end

end FujiNet.TNFS
