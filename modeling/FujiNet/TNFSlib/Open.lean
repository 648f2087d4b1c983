import Mathlib.Data.List.TakeWhile
import Mathlib.Data.List.Infix
import FujiNet.TNFSlib.Seek

/-!
# Opening a file

`tnfs_open` asks for the size of the file and then opens it. `tnfsOpen_spec` says
that a connected client with a free place in its table gets a file whose recorded
size is right, with an empty window and both positions at the start.
-/

namespace FujiNet.TNFS

open FileServer

/-- The server grants every request with this command. -/
def Policy.Grants (policy : Policy) (command : UInt8) : Prop :=
  ∀ t, ∃ n, policy command t = .grant n

/-! ## Paths -/

/-- Working directory and path joined with one slash between them. -/
def joinPath (cwd source : List UInt8) : List UInt8 :=
  (if source.head? ≠ some 0x2F ∧ ¬ cwd.getLast? = some 0x2F then cwd ++ [0x2F]
    else if ¬ source.head? ≠ some 0x2F ∧ cwd.getLast? = some 0x2F then cwd.dropLast
    else cwd) ++ source

/-- A path that fits the buffers and, like the working directory, has no NUL. -/
structure GoodPath (cwd source : List UInt8) : Prop where
  nonempty : cwd ≠ []
  cwd_noNul : 0 ∉ cwd
  source_noNul : 0 ∉ source
  short : cwd.length + source.length + 2 ≤ maxFilelen

theorem strlcpy_of_length_lt {source : List UInt8} {size : Nat} (noNul : 0 ∉ source)
    (short : source.length < size) : strlcpy source size = source := by
  have whole : source.takeWhile (· ≠ 0) = source := by
    rw [List.takeWhile_eq_self_iff]
    intro b hb
    simpa using fun h : b = 0 => noNul (h ▸ hb)
  rw [strlcpy, whole, List.take_of_length_le (by omega)]

section

variable {m : MountInfo} {source : List UInt8}

theorem GoodPath.length_joinPath_le (good : GoodPath m.currentWorkingDirectory source) :
    (joinPath m.currentWorkingDirectory source).length < maxFilelen := by
  have short := good.short
  simp only [joinPath, List.length_append]
  split_ifs
  · simp only [List.length_append, List.length_singleton]
    omega
  · simp only [List.length_dropLast]
    omega
  · omega

theorem GoodPath.nul_notMem (good : GoodPath m.currentWorkingDirectory source) :
    0 ∉ joinPath m.currentWorkingDirectory source := by
  simp only [joinPath, List.mem_append, not_or]
  refine ⟨?_, good.source_noNul⟩
  split_ifs
  · simp [good.cwd_noNul]
  · exact fun h => good.cwd_noNul (List.mem_of_mem_dropLast h)
  · exact good.cwd_noNul

theorem GoodPath.adjust (good : GoodPath m.currentWorkingDirectory source) {bufflen : Nat}
    (room : maxFilelen ≤ bufflen) : adjustWithFullPath m source bufflen =
      (((joinPath m.currentWorkingDirectory source).length : Int),
        joinPath m.currentWorkingDirectory source) := by
  have short := good.short
  have nonempty := List.length_pos_of_ne_nil good.nonempty
  have copied : strlcpy m.currentWorkingDirectory bufflen = m.currentWorkingDirectory :=
    strlcpy_of_length_lt good.cwd_noNul (by omega)
  simp only [adjustWithFullPath, copied]
  rw [if_neg (by omega)]
  have tail (prefix_ : List UInt8) (le : prefix_.length ≤ m.currentWorkingDirectory.length + 1) :
      strlcpy source (bufflen - prefix_.length) = source :=
    strlcpy_of_length_lt good.source_noNul (by omega)
  rw [tail]
  · rfl
  · split_ifs
    · simp only [List.length_append, List.length_singleton, le_refl]
    · simp only [List.length_dropLast]
      omega
    · omega

end

/-- A terminated string is read up to its NUL. -/
theorem takeWhile_append_nul {path : List UInt8} (noNul : 0 ∉ path) :
    (path ++ [0]).takeWhile (· ≠ 0) = path := by
  rw [List.takeWhile_append_of_pos]
  · simp
  · intro b hb
    simpa using fun h : b = 0 => noNul (h ▸ hb)

/-! ## The server's side -/

namespace FileServer

/-- The content of a file after OPEN, if it can be opened. -/
def openContent (mode : UInt16) : Option (List UInt8) → Option (List UInt8)
  | none => if mode &&& openmodeWrite ≠ 0 ∧ mode &&& openmodeCreate ≠ 0 then some [] else none
  | some content =>
    some (if mode &&& openmodeWrite ≠ 0 ∧ mode &&& openmodeWriteTruncate ≠ 0 then [] else content)

theorem exists_freeHandle {s : FileServer} (free : ∃ h, s.handles h = none) (wanted : UInt8) :
    ∃ h, s.freeHandle wanted = some h := by
  obtain ⟨h, free⟩ := free
  refine Option.isSome_iff_exists.mp ?_
  rw [freeHandle, List.find?_isSome]
  refine ⟨h, List.mem_cons_of_mem _ (List.mem_map.mpr ⟨h.toNat, ?_, UInt8.ofNat_toNat⟩), ?_⟩
  · exact List.mem_range.mpr h.toNat_lt
  · simp [free]

theorem freeHandle_of_closed {s : FileServer} (closed : ∀ h, s.handles h = none)
    (wanted : UInt8) : s.freeHandle wanted = some wanted := by
  simp [freeHandle, closed]

theorem handles_of_freeHandle {s : FileServer} {wanted h : UInt8}
    (found : s.freeHandle wanted = some h) : s.handles h = none := by
  simpa using List.find?_some found

theorem execute_stat (s : FileServer) (n : Nat) {path : List UInt8} (noNul : 0 ∉ path) :
    s.execute n Cmd.stat (path ++ [0]) = (s.stat path, s) := by
  simp only [execute, if_true, takeWhile_append_nul noNul]

/-- The payload of an OPEN request. -/
def openPayload (mode perms : UInt16) (path : List UInt8) : List UInt8 :=
  [lobyte mode.toNat, hibyte mode.toNat, lobyte perms.toNat, hibyte perms.toNat] ++ path ++ [0]

theorem execute_open {s : FileServer} {n : Nat} {h : UInt8}
    (found : s.freeHandle (UInt8.ofNat n) = some h) (mode perms : UInt16) {path F : List UInt8}
    (noNul : 0 ∉ path) (content : openContent mode (s.files path) = some F) :
    s.execute n Cmd.open_ (openPayload mode perms path) =
      ([Result.success, h], { s with
        files := Function.update s.files path (some F)
        handles := Function.update s.handles h
          (some ⟨path, 0, mode &&& openmodeWrite ≠ 0⟩) }) := by
  have modeBytes : UInt16.ofNat (u16 (lobyte mode.toNat) (hibyte mode.toNat)) = mode := by
    rw [u16_lobyte_hibyte mode.toNat_lt, UInt16.ofNat_toNat]
  have executed : s.execute n Cmd.open_ (openPayload mode perms path) =
      s.open_ (UInt8.ofNat n) mode path := by
    have name := takeWhile_append_nul noNul
    simp only [execute, openPayload, show Cmd.open_ ≠ Cmd.stat by decide, if_false, if_true]
    simp only [List.cons_append, List.nil_append, List.getD_cons_zero, List.getD_cons_succ,
      modeBytes, List.drop_succ_cons, List.drop_zero, name]
  rw [executed, open_, found]
  cases known : s.files path with
  | none =>
      rw [known, openContent] at content
      split_ifs at content with creates
      obtain rfl := Option.some.inj content
      simp only [if_pos creates]
  | some old =>
      rw [known, openContent] at content
      obtain rfl := Option.some.inj content
      rfl

end FileServer

/-! ## `tnfs_open` -/

section

variable {policy : Policy} {fuel : Nat} {c : Client FileServer} {source F : List UInt8}
  {mode perms : UInt16}

/-- What `tnfs_stat` brings when its request is granted. -/
theorem tnfsStat_spec (grants : policy.Grants Cmd.stat) (connected : Connected c)
    (enough : 0 < fuel) (good : GoodPath c.mInfo.currentWorkingDirectory source)
    (small : ∀ content, c.net.files (joinPath c.mInfo.currentWorkingDirectory source) =
      some content → content.length < word) :
    ∃ rs stat c', tnfsStat (transaction (net policy) fuel) source c = some ((rs, stat), c') ∧
      Keeps c.mInfo c'.mInfo ∧ Connected c' ∧ c.net.Agree c'.net ∧
      (rs = code Result.success ∨ rs = code Result.fileNotFound) ∧
      stat.map Stat.filesize =
        (c.net.files (joinPath c.mInfo.currentWorkingDirectory source)).map List.length := by
  obtain ⟨n, choice⟩ := grants c.net.clock
  have short := good.length_joinPath_le
  have noNul := good.nul_notMem
  generalize hpath : joinPath c.mInfo.currentWorkingDirectory source = path at *
  have fits : (path ++ [0]).length ≤ 528 := by
    simp only [maxFilelen, List.length_append, List.length_singleton] at *
    omega
  obtain ⟨p, c', rest, htx, keeps, connected', payload, agree⟩ :=
    connected.granted enough (by decide) fits choice
  rw [execute_stat _ _ noNul] at payload agree
  have size : ((path.length : Int) + 1).toNat = (path ++ [0]).length := by
    rw [List.length_append, List.length_singleton]
    omega
  have adjusted := good.adjust (by decide : maxFilelen ≤ payloadSize)
  simp only [tnfsStat, adjusted, hpath, size, Option.bind_eq_bind]
  rw [htx]
  simp only [Option.bind_some]
  refine ⟨_, _, c', rfl, keeps, connected', agree, ?_⟩
  cases known : c.net.files path with
  | none =>
      simp only [FileServer.stat, known, List.cons_append] at payload
      have first := Packet.payloadByte_zero_of_payload payload
      rw [first]
      exact ⟨.inr rfl, by simp [Result.fileNotFound, Result.success]⟩
  | some content =>
      simp only [FileServer.stat, known, List.cons_append] at payload
      have first := Packet.payloadByte_zero_of_payload payload
      have bytes : p.payloadByte 7 = UInt8.ofNat content.length ∧
          p.payloadByte 8 = UInt8.ofNat (content.length / 256) ∧
          p.payloadByte 9 = UInt8.ofNat (content.length / 65536) ∧
          p.payloadByte 10 = UInt8.ofNat (content.length / 16777216) := by
        simp [Packet.payloadByte, payload, le32, List.replicate]
      rw [first]
      refine ⟨.inl rfl, ?_⟩
      simp only [if_true, Option.map_some, Packet.payloadU32, bytes]
      rw [u32_le32 (small content known)]

/-- A connected client that can open a file, whose content is then `F`. -/
structure CanOpen (c : Client FileServer) (source : List UInt8) (mode : UInt16)
    (F : List UInt8) : Prop where
  connected : Connected c
  good : GoodPath c.mInfo.currentWorkingDirectory source
  slot : ∃ i, c.mInfo.fileHandles i = none
  handle : ∃ h, c.net.handles h = none
  content : openContent mode
    (c.net.files (joinPath c.mInfo.currentWorkingDirectory source)) = some F
  small : ∀ content, c.net.files (joinPath c.mInfo.currentWorkingDirectory source) =
    some content → content.length < word

theorem CanOpen.length_lt (can : CanOpen c source mode F) : F.length < word := by
  have content := can.content
  cases known : c.net.files (joinPath c.mInfo.currentWorkingDirectory source) with
  | none =>
      rw [known, openContent] at content
      split_ifs at content
      rw [← Option.some.inj content]
      decide
  | some old =>
      have := can.small old known
      rw [known, openContent] at content
      rw [← Option.some.inj content]
      split_ifs
      · decide
      · exact this

/-- The file `f` at place `i` of the table has just been opened. -/
structure JustOpened (policy : Policy) (c : Client FileServer) (source : List UInt8)
    (mode : UInt16) (F : List UInt8) (i : Fin maxFileHandles) (f : FileHandleInfo)
    (c' : Client FileServer) : Prop where
  free : c.mInfo.fileHandles i = none
  place : c.mInfo.newFilehandleinfo.map Prod.fst = some i
  table : c'.mInfo.fileHandles = Function.update c.mInfo.fileHandles i (some f)
  handle : ∃ t n, policy Cmd.open_ t = .grant n ∧
    c.net.freeHandle (UInt8.ofNat n) = some f.handleId
  connected : Connected c'
  currentWorkingDirectory :
    c'.mInfo.currentWorkingDirectory = c.mInfo.currentWorkingDirectory
  maxRetries : c'.mInfo.maxRetries = c.mInfo.maxRetries
  window : Window f F
  inStep : InStep f c'.net ⟨joinPath c.mInfo.currentWorkingDirectory source, 0,
    mode &&& openmodeWrite ≠ 0⟩ F
  start : f.cachedPos = 0
  dropped : f.cacheAvailable = 0
  size : f.fileSize = F.length
  filename : f.filename = joinPath c.mInfo.currentWorkingDirectory source
  incidents : c'.net.incidents = c.net.incidents

/-- The recorded size of a file that was not opened for appending. -/
theorem opened_eq (f : FileHandleInfo) (h : UInt8) (notAppend : mode &&& openmodeWriteAppend = 0)
    {old : Option (List UInt8)} (content : openContent mode old = some F)
    (size : f.fileSize = (old.map List.length).getD 0) :
    f.opened h mode old.isSome =
      { f with handleId := h, filePosition := 0, cachedPos := 0, fileSize := F.length } := by
  cases old with
  | none =>
      simp only [openContent] at content
      split_ifs at content
      obtain rfl := Option.some.inj content
      simp only [FileHandleInfo.opened, Option.isSome_none, Bool.false_eq_true, false_and, if_false]
      rw [size]
      rfl
  | some old =>
      simp only [openContent, Option.some.injEq] at content
      simp only [Option.map_some, Option.getD_some] at size
      simp only [FileHandleInfo.opened, Option.isSome_some, true_and, notAppend, ne_eq,
        not_true_eq_false, if_false]
      by_cases write : mode &&& openmodeWrite = 0
      · rw [if_neg (by simp [write])] at content ⊢
        rw [← content, ← size]
      · by_cases truncate : mode &&& openmodeWriteTruncate = 0
        · rw [if_neg (by simp [truncate])] at content
          rw [if_pos write, if_neg (by simp [truncate]), ← content, ← size]
        · rw [if_pos ⟨write, truncate⟩] at content
          rw [if_pos write, if_pos truncate, ← content]
          rfl

/-- `tnfs_open` when both of its requests are granted. -/
theorem tnfsOpen_spec (perms : UInt16) (grantsStat : policy.Grants Cmd.stat)
    (grantsOpen : policy.Grants Cmd.open_) (can : CanOpen c source mode F) (enough : 0 < fuel)
    (notAppend : mode &&& openmodeWriteAppend = 0) :
    ∃ i f c', tnfsOpen (transaction (net policy) fuel) source mode perms c =
        some ((code Result.success, f.handleId.toNat), c') ∧
      JustOpened policy c source mode F i f c' := by
  obtain ⟨connected, good, ⟨k, hk⟩, free, content, small⟩ := can
  obtain ⟨i, found⟩ : ∃ i, (List.finRange maxFileHandles).find?
      (fun i => (c.mInfo.fileHandles i).isNone) = some i := by
    refine Option.isSome_iff_exists.mp ?_
    rw [List.find?_isSome]
    exact ⟨k, List.mem_finRange k, by simp [hk]⟩
  have new : c.mInfo.newFilehandleinfo = some (i, c.mInfo.setFile i {}) := by
    simp only [MountInfo.newFilehandleinfo, found, Option.map_some]
  obtain ⟨rs, stat, c₁, hstat, keeps₁, connected₁, agree₁, accepted, statSize⟩ :=
    tnfsStat_spec (c := { c with mInfo := c.mInfo.setFile i {} }) grantsStat
      (connected.setFile i {}) enough good small
  obtain ⟨n, choice⟩ := grantsOpen c₁.net.clock
  obtain ⟨h, hfree⟩ := exists_freeHandle free (UInt8.ofNat n)
  have freeHandle₁ : c₁.net.freeHandle (UInt8.ofNat n) = some h := by
    rw [← hfree, FileServer.freeHandle, FileServer.freeHandle, agree₁.handles]
  have short := good.length_joinPath_le
  have noNul := good.nul_notMem
  have cwd : c₁.mInfo.currentWorkingDirectory = c.mInfo.currentWorkingDirectory :=
    keeps₁.currentWorkingDirectory
  have adjusted := GoodPath.adjust (m := c₁.mInfo) (cwd ▸ good)
    (by decide : maxFilelen ≤ payloadSize - 4)
  rw [cwd] at adjusted
  simp only [MountInfo.setFile] at statSize
  generalize hpath : joinPath c.mInfo.currentWorkingDirectory source = path at *
  have fits : (openPayload mode perms path).length ≤ 528 := by
    simp only [openPayload, maxFilelen, List.length_append, List.length_cons, List.length_nil] at *
    omega
  obtain ⟨p, c₂, rest, htx, keeps₂, connected₂, payload, agree₂⟩ :=
    connected₁.granted enough (by decide) fits choice
  rw [execute_open freeHandle₁ mode perms noNul (agree₁.files ▸ content)] at payload agree₂
  have first := Packet.payloadByte_zero_of_payload payload
  have second : p.payloadByte 1 = h := by simp [Packet.payloadByte, payload]
  have size : ((path.length : Int) + 4 + 1).toNat = (openPayload mode perms path).length := by
    simp only [openPayload, List.length_append, List.length_cons, List.length_nil]
    omega
  have slot : c₁.mInfo.fileHandles i = some {} := by
    rw [keeps₁.fileHandles]
    exact MountInfo.fileHandles_setFile
  have exists_ : stat.isSome = (c.net.files path).isSome := by
    rw [← Option.isSome_map, statSize, Option.isSome_map]
  have filename : strlcpy path maxFilelen = path := strlcpy_of_length_lt noNul short
  have opened := opened_eq
    { fileSize := (stat.map Stat.filesize).getD 0, filename := path } h notAppend content
    (congrArg (Option.getD · 0) statSize)
  have run : tnfsOpen (transaction (net policy) fuel) source mode perms c =
      some ((code Result.success, (h.toNat : Int)), ⟨c₂.mInfo.setFile i
        { handleId := h, filename := path, fileSize := F.length }, c₂.net⟩) := by
    simp only [tnfsOpen, new, Option.bind_eq_bind]
    rw [hstat]
    simp only [Option.bind_some]
    rw [if_neg (by rintro ⟨h₁, h₂⟩; rcases accepted with h | h; exacts [h₁ h, h₂ h])]
    simp only [adjusted, slot, Option.bind_some, size, filename]
    rw [show [lobyte mode.toNat, hibyte mode.toNat, lobyte perms.toNat, hibyte perms.toNat] ++
      path ++ [0] = openPayload mode perms path from rfl, htx]
    simp only [Option.bind_some, first, second, if_true, exists_, opened]
  refine ⟨i, { handleId := h, filename := path, fileSize := F.length }, _, run, ⟨?_, ?_, ?_,
    ⟨_, n, choice, hfree⟩, connected₂.setFile _ _, ?_, ?_, ?_, ⟨rfl, ?_, ?_⟩, rfl, rfl, rfl,
    hpath.symm, ?_⟩⟩
  · simpa using List.find?_some found
  · rw [new, Option.map_some]
  · simp only [MountInfo.setFile, keeps₂.fileHandles, keeps₁.fileHandles, Function.update_idem]
  · exact keeps₂.currentWorkingDirectory.trans cwd
  · exact keeps₂.maxRetries.trans keeps₁.maxRetries
  · exact ⟨List.length_replicate, Nat.zero_le _, by simp, by simp, by simp, by simp⟩
  · simp only [agree₂.handles, hpath, agree₁.handles]
    simp
  · simp only [agree₂.files, hpath]
    simp
  · exact agree₂.incidents.trans agree₁.incidents

/-- The new file is the one found for its handle when no other file in the table has
that handle. -/
theorem JustOpened.opened {i : Fin maxFileHandles} {f : FileHandleInfo} {c' : Client FileServer}
    (just : JustOpened policy c source mode F i f c')
    (fresh : ∀ j f', c.mInfo.fileHandles j = some f' → f'.handleId ≠ f.handleId) :
    Opened c' i f := by
  have slot : c'.mInfo.fileHandles i = some f := by rw [just.table, Function.update_self]
  refine ⟨slot, MountInfo.getFilehandleinfo_eq_some_iff.mpr ⟨⟨f, slot, rfl⟩, ?_⟩, just.connected⟩
  intro j before f' hf'
  rw [just.table, Function.update_of_ne (Fin.ne_of_lt before)] at hf'
  exact fresh j f' hf'

end

end FujiNet.TNFS
