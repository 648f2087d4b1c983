import FujiNet.TNFSlib.ReadCache

/-!
# Seeking

A seek to a position inside the cached window only moves the client. Any other seek
drops the window and asks the server, which counts relative offsets from its own
position and from the real end of the file. The client computes where it leads from
`file_position` and the size it has on record. `tnfsLseek_spec` is for every policy of
the server, wherever it stands.
-/

namespace FujiNet.TNFS

open FileServer

/-- Values of `int32_t`. -/
def IsInt32 (n : Int) : Prop := -2147483648 ≤ n ∧ n < 2147483648

theorem toUint32_natCast {n : Nat} (h : n < word) : toUint32 n = n := by
  simp only [toUint32, word] at *
  omega

theorem toUint32_of_lt {n : Int} (nonneg : 0 ≤ n) (lt : n < word) : (toUint32 n : Int) = n := by
  simp only [toUint32, word] at *
  omega

theorem toUint32_lt (n : Int) : toUint32 n < word := by
  simp only [toUint32, word]
  omega

/-- The offset survives its way through the unsigned bytes of the request. -/
theorem i32_toUint32 {n : Int} (h : IsInt32 n) : i32 (toUint32 n) = n := by
  simp only [i32, toUint32, IsInt32, word] at *
  split_ifs <;> omega

/-- Seek types that the operation accepts. -/
def IsSeekType (type : UInt8) : Prop := type = seekSet ∨ type = seekCur ∨ type = seekEnd

/-- Where a seek should lead from a client or server position, in a file of the given
length. -/
def seekTarget (position : Int) (type : UInt8) (current length : Nat) : Int :=
  if type = seekSet then toUint32 position
  else if type = seekCur then current + position
  else length + position

@[simp] theorem seekTarget_seekSet (position : Int) (current length : Nat) :
    seekTarget position seekSet current length = toUint32 position := rfl

@[simp] theorem seekTarget_seekCur (position : Int) (current length : Nat) :
    seekTarget position seekCur current length = current + position := rfl

@[simp] theorem seekTarget_seekEnd (position : Int) (current length : Nat) :
    seekTarget position seekEnd current length = length + position := rfl

/-- The client computes the target modulo 2^32. -/
theorem destination_eq (f : FileHandleInfo) {position : Int} {type : UInt8} (current : Nat) :
    f.destination current position type =
      toUint32 (seekTarget position type current f.fileSize) := by
  simp only [FileHandleInfo.destination, seekTarget]
  split_ifs
  · exact (toUint32_natCast (toUint32_lt _)).symm
  · rfl
  · rfl

/-- The payload of an LSEEK request. -/
def lseekPayload (h type : UInt8) (position : Int) : List UInt8 :=
  [h, type] ++ le32 (toUint32 position)

section

variable {policy : Policy} {fuel : Nat} {c : Client FileServer} {f : FileHandleInfo}
  {i : Fin maxFileHandles} {g : OpenFile} {F : List UInt8} {h type : UInt8} {q : Nat}
  {position : Int}

theorem execute_lseekPayload (s : FileServer) (n : Nat) (h type : UInt8) (position : Int) :
    s.execute n Cmd.lseek (lseekPayload h type position) = s.lseek h type (toUint32 position) := by
  have bytes : u32 (UInt8.ofNat (toUint32 position)) (UInt8.ofNat (toUint32 position / 256))
      (UInt8.ofNat (toUint32 position / 65536)) (UInt8.ofNat (toUint32 position / 16777216)) =
        toUint32 position := u32_le32 (toUint32_lt position)
  simp only [execute, lseekPayload, show Cmd.lseek ≠ Cmd.stat by decide,
    show Cmd.lseek ≠ Cmd.open_ by decide, show Cmd.lseek ≠ Cmd.read by decide,
    show Cmd.lseek ≠ Cmd.write by decide, if_false, if_true]
  simp [le32, bytes]

/-- Carrying out an LSEEK. -/
theorem execute_lseek {s : FileServer} (at_q : At s h g F q) (n : Nat)
    (offset : type ≠ seekSet → IsInt32 position) :
    s.execute n Cmd.lseek (lseekPayload h type position) =
      if 0 ≤ seekTarget position type q F.length ∧ seekTarget position type q F.length < word then
        (Result.success :: le32 (seekTarget position type q F.length).toNat,
          s.moveTo h { g with position := q } (seekTarget position type q F.length).toNat)
      else ([Result.invalidArgument], s) := by
  rw [execute_lseekPayload, FileServer.lseek, at_q.handle]
  simp only [at_q.content, Option.getD_some, seekTarget]
  by_cases absolute : type = seekSet
  · simp only [absolute, if_true]
  · rw [i32_toUint32 (offset absolute)]
    rfl

/-- A seek on a handle that the server does not know. -/
theorem execute_lseek_closed {s : FileServer} (closed : s.handles h = none) (type : UInt8)
    (position : Int) (n : Nat) :
    s.execute n Cmd.lseek (lseekPayload h type position) = ([Result.badFilenum], s) := by
  rw [execute_lseekPayload, FileServer.lseek, closed]

/-- What an LSEEK request brings. -/
inductive SeekReply (policy : Policy) (position : Int) (s : FileServer) (h type : UInt8)
    (g : OpenFile) (F : List UInt8) (q : Nat) : Option Packet → FileServer → Prop
  | moved {p : Packet} {s' : FileServer} {d : Nat} :
      (d : Int) = seekTarget position type q F.length → d < word →
      p.payloadByte 0 = Result.success → At s' h g F d → s'.incidents = s.incidents →
      SeekReply policy position s h type g F q (some p) s'
  | invalid {p : Packet} {s' : FileServer} :
      ¬ (0 ≤ seekTarget position type q F.length ∧ seekTarget position type q F.length < word) →
      p.payloadByte 0 = Result.invalidArgument → At s' h g F q → s'.incidents = s.incidents →
      SeekReply policy position s h type g F q (some p) s'
  | failed {reply : Option Packet} {s' : FileServer} {i : Incident} : FailedReply reply →
      Occurs policy Cmd.lseek (lseekPayload h type position) s h g F q i s' →
      SeekReply policy position s h type g F q reply s'

theorem Connected.lseek_request (policy : Policy) (connected : Connected c)
    (enough : c.mInfo.maxRetries + 1 < fuel) (at_q : At c.net h g F q) (type : UInt8)
    (offset : type ≠ seekSet → IsInt32 position) :
    ∃ reply c', transaction (net policy) fuel
        (.request Cmd.lseek (lseekPayload h type position)) 6 c = some (reply, c') ∧
      Keeps c.mInfo c'.mInfo ∧ Connected c' ∧
      SeekReply policy position c.net h type g F q reply c'.net := by
  obtain ⟨reply, c', htx, keeps, connected', outcome⟩ := connected.request policy enough Cmd.lseek
    (lseekPayload h type position) (by decide) (by decide) (by simp [lseekPayload])
  refine ⟨reply, c', htx, keeps, connected', ?_⟩
  have executes (n : Nat) :
      (c.net.execute n Cmd.lseek (lseekPayload h type position)).2.incidents = c.net.incidents ∧
      ∃ q', At (c.net.execute n Cmd.lseek (lseekPayload h type position)).2 h g F q' := by
    rw [execute_lseek at_q n offset]
    split_ifs
    · exact ⟨rfl, _, at_q.moveTo _⟩
    · exact ⟨rfl, _, at_q⟩
  rcases outcome.granted_or_failed at_q rfl executes with
    ⟨n, p, rest, _, rfl, payload, agree⟩ | ⟨failed, i, -, occurs⟩
  · rw [execute_lseek at_q n offset] at payload agree
    by_cases inRange : 0 ≤ seekTarget position type q F.length ∧
        seekTarget position type q F.length < word
    · rw [if_pos inRange] at payload agree
      exact .moved (Int.toNat_of_nonneg inRange.1) (by omega)
        (Packet.payloadByte_zero_of_payload payload) ((at_q.moveTo _).of_agree agree)
        agree.incidents
    · rw [if_neg inRange] at payload agree
      exact .invalid inRange (Packet.payloadByte_zero_of_payload payload) (at_q.of_agree agree)
        agree.incidents
  · exact .failed failed occurs

/-! ## `tnfs_lseek` -/

/-- A position inside the cached window. -/
def FileHandleInfo.InWindow (f : FileHandleInfo) (p : Nat) : Prop :=
  0 < f.cacheAvailable ∧ f.cacheStart ≤ p ∧ p < f.cacheStart + f.cacheAvailable

instance (f : FileHandleInfo) (p : Nat) : Decidable (f.InWindow p) :=
  inferInstanceAs (Decidable (_ ∧ _ ∧ _))

/-- The file after its window was dropped. -/
def FileHandleInfo.dropCache (f : FileHandleInfo) : FileHandleInfo :=
  { f with cacheAvailable := 0 }

theorem Window.dropCache {f : FileHandleInfo} {F : List UInt8} (window : Window f F) :
    Window f.dropCache F :=
  ⟨window.length, Nat.zero_le _, by simp [FileHandleInfo.dropCache],
    by simp [FileHandleInfo.dropCache], by simp [FileHandleInfo.dropCache], window.position⟩

/-- The file after a seek that the server carried out. -/
def FileHandleInfo.movedTo (f : FileHandleInfo) (d : Nat) : FileHandleInfo :=
  { f with cacheAvailable := 0, filePosition := d, cachedPos := d }

theorem cacheSeek_eq {f : FileHandleInfo} {F : List UInt8} (window : Window f F)
    (small : F.length < word) (position : Int) (type : UInt8) :
    cacheSeek f position type =
      if f.InWindow (f.destination f.cachedPos position type) then
        some { f with cachedPos := f.destination f.cachedPos position type }
      else none := by
  by_cases empty : f.cacheAvailable = 0
  · simp [cacheSeek, FileHandleInfo.InWindow, empty]
  · have within := window.within (by omega)
    have cacheEnd : f.cacheEnd = f.cacheStart + f.cacheAvailable := Nat.mod_eq_of_lt (by omega)
    simp only [cacheSeek, if_neg empty, cacheEnd, ge_iff_le]
    by_cases hit : f.InWindow (f.destination f.cachedPos position type)
    · rw [if_pos hit, if_pos hit.2]
    · rw [if_neg hit, if_neg fun h => hit ⟨by omega, h⟩]

/-- Without a window there is nothing that could be skipped. -/
theorem tnfsLseek_skipCache {ν : Type} (tx : Transact ν) {c : Client ν}
    (slot : c.mInfo.fileHandles i = some f)
    (lookup : c.mInfo.getFilehandleinfo f.handleId = some i) (dropped : f.cacheAvailable = 0)
    (position : Int) (type : UInt8) :
    tnfsLseek tx f.handleId.toNat position type true c =
      tnfsLseek tx f.handleId.toNat position type false c := by
  have miss : cacheSeek f position type = none := by rw [cacheSeek, if_pos dropped]
  simp only [tnfsLseek, validAsUint8_toNat, lookup, slot, Option.bind_eq_bind, Option.bind_some,
    miss, if_true, Bool.false_eq_true, if_false]

/-- How a seek of an open file ends when the server stands at `q`. -/
inductive SeekEnd (policy : Policy) (c : Client FileServer) (f : FileHandleInfo) (g : OpenFile)
    (F : List UInt8) (q : Nat) (position : Int) (type : UInt8) (result : Int)
    (c' : Client FileServer) (f' : FileHandleInfo) : Prop
  | inside : f.InWindow (f.destination f.cachedPos position type) → result = 0 → c' = c →
      f' = { f with cachedPos := f.destination f.cachedPos position type } →
      SeekEnd policy c f g F q position type result c' f'
  | moved {d : Nat} : ¬ f.InWindow (f.destination f.cachedPos position type) →
      (d : Int) = seekTarget position type q F.length → d < word → result = 0 →
      f' = f.movedTo (f.destination f.filePosition position type) → Keeps c.mInfo c'.mInfo →
      Connected c' → At c'.net f.handleId g F d → c'.net.incidents = c.net.incidents →
      SeekEnd policy c f g F q position type result c' f'
  | invalid : ¬ f.InWindow (f.destination f.cachedPos position type) →
      ¬ (0 ≤ seekTarget position type q F.length ∧ seekTarget position type q F.length < word) →
      result ≠ 0 → f' = f.dropCache → Keeps c.mInfo c'.mInfo → Connected c' →
      At c'.net f.handleId g F q → c'.net.incidents = c.net.incidents →
      SeekEnd policy c f g F q position type result c' f'
  | failed {i : Incident} : ¬ f.InWindow (f.destination f.cachedPos position type) →
      result ≠ 0 → f' = f.dropCache → Keeps c.mInfo c'.mInfo → Connected c' →
      Occurs policy Cmd.lseek (lseekPayload f.handleId type position) c.net f.handleId g F q i
        c'.net →
      SeekEnd policy c f g F q position type result c' f'

/-- A client that is in step with the server and knows the size goes where the server goes. -/
theorem destination_of_target {d : Nat} (inRange : d < word)
    (size : type = seekEnd → f.fileSize = F.length) (accepted : IsSeekType type)
    (target : (d : Int) = seekTarget position type f.filePosition F.length) :
    f.destination f.filePosition position type = d := by
  rw [destination_eq, ← toUint32_natCast inRange, target]
  rcases accepted with rfl | rfl | rfl
  · rfl
  · rfl
  · rw [size rfl]

/-- `tnfs_lseek` of an open file, once the file is found: the cached window is tried first,
then the server is asked. -/
theorem tnfsLseek_of_opened (tx : Transact FileServer) (position : Int) {type : UInt8}
    (opened : Opened c i f) (accepted : IsSeekType type) :
    tnfsLseek tx f.handleId.toNat position type false c =
      match cacheSeek f position type with
      | some f => some ((0, some f.cachedPos), { c with mInfo := c.mInfo.setFile i f })
      | none =>
        (tx (.request Cmd.lseek (lseekPayload f.handleId type position)) 6 c).bind fun (reply, c) =>
        match reply with
        | none => some ((-1, none), { c with mInfo := c.mInfo.setFile i f.dropCache })
        | some packet =>
          if packet.payloadByte 0 = Result.success then
            some ((code Result.success, some (f.destination f.filePosition position type)),
              { c with mInfo :=
                c.mInfo.setFile i (f.movedTo (f.destination f.filePosition position type)) })
          else
            some ((code (packet.payloadByte 0), none),
              { c with mInfo := c.mInfo.setFile i f.dropCache }) := by
  have typeOk : ¬ (type ≠ seekSet ∧ type ≠ seekCur ∧ type ≠ seekEnd) := by
    rcases accepted with h | h | h <;> simp [h]
  simp only [tnfsLseek, validAsUint8_toNat, if_neg typeOk, opened.lookup, opened.slot,
    Option.bind_eq_bind, Option.bind_some, Bool.false_eq_true, if_false]
  rfl

/-- `tnfs_lseek` of an open file. -/
theorem tnfsLseek_spec (policy : Policy) (position : Int) (type : UInt8) (opened : Opened c i f)
    (enough : c.mInfo.maxRetries + 1 < fuel) {view : List UInt8} (small : view.length < word)
    (window : Window f view) (at_q : At c.net f.handleId g F q) (accepted : IsSeekType type)
    (offset : type ≠ seekSet → IsInt32 position) :
    ∃ result newPosition c' f', tnfsLseek (transaction (net policy) fuel) f.handleId.toNat position
        type false c = some ((result, newPosition), { c' with mInfo := c'.mInfo.setFile i f' }) ∧
      Opened { c' with mInfo := c'.mInfo.setFile i f' } i f' ∧
      SeekEnd policy c f g F q position type result c' f' := by
  rw [tnfsLseek_of_opened _ _ opened accepted, cacheSeek_eq window small]
  by_cases inWindow : f.InWindow (f.destination f.cachedPos position type)
  · rw [if_pos inWindow]
    exact ⟨0, _, c, _, rfl, opened.setFile (.refl _) opened.connected rfl, .inside inWindow rfl rfl rfl⟩
  rw [if_neg inWindow]
  obtain ⟨reply, c', htx, keeps, connected, hreply⟩ :=
    opened.connected.lseek_request policy enough at_q type offset
  simp only [htx, Option.bind_some]
  cases hreply with
  | @moved p _ d target inRange success at_q' quiet =>
      simp only [if_pos success]
      exact ⟨_, _, c', _, rfl, opened.setFile keeps connected rfl,
        .moved inWindow target inRange rfl rfl keeps connected at_q' quiet⟩
  | @invalid p _ outOfRange result at_q' quiet =>
      have failed : p.payloadByte 0 ≠ Result.success := by
        rw [result]
        decide
      simp only [if_neg failed]
      exact ⟨_, _, c', _, rfl, opened.setFile keeps connected rfl,
        .invalid inWindow outOfRange (code_ne failed) rfl keeps connected at_q' quiet⟩
  | failed hfailed occurs =>
      cases reply with
      | none =>
          exact ⟨_, _, c', _, rfl, opened.setFile keeps connected rfl,
            .failed inWindow (by decide) rfl keeps connected occurs⟩
      | some p =>
          simp only [if_neg (hfailed p rfl).1]
          exact ⟨_, _, c', _, rfl, opened.setFile keeps connected rfl,
            .failed inWindow (code_ne (hfailed p rfl).1) rfl keeps connected occurs⟩

end

end FujiNet.TNFS
