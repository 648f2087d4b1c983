import FujiNet.Control.Machine
import FujiNet.TNFSlib.Write

/-!
# Runs of file operations

The operations of a program on one open file, as the inputs of a machine. `Synced`
is the invariant of its runs: the client knows the file, its window holds the
file's bytes, and the two positions fit together. The lemmas here say what one
operation does to a synced file when the server grants its requests.
-/

namespace FujiNet.TNFS

open FileServer

/-- An operation on an open file. -/
inductive FileOp where
  | read (bufflen : Nat)
  | lseek (position : Int) (type : UInt8)
  | write (buffer : List UInt8)
  deriving DecidableEq, Repr

/-- What an operation returns and stores for its caller. -/
structure Answer where
  result : Int
  data : List UInt8 := []
  written : Nat := 0
  deriving DecidableEq, Repr

section

variable {ν : Type} (tx : Transact ν) (fuel : Nat)

def FileOp.perform (fileHandle : Int) : FileOp → Client ν → Option (Answer × Client ν)
  | .read bufflen, c =>
    (tnfsRead tx fuel fileHandle bufflen c).map fun ((result, data), c) => (⟨result, data, 0⟩, c)
  | .lseek position type, c =>
    (tnfsLseek tx fileHandle position type false c).map fun ((result, _), c) =>
      (⟨result, [], 0⟩, c)
  | .write buffer, c =>
    (tnfsWrite tx fileHandle buffer c).map fun ((result, written), c) => (⟨result, [], written⟩, c)

end

/-- What the client knows about the file with a handle. -/
def Client.file {ν : Type} (c : Client ν) (h : UInt8) : Option FileHandleInfo :=
  (c.mInfo.getFilehandleinfo h).bind c.mInfo.fileHandles

/-- What is in the file that a handle is open on. -/
def FileServer.contentOf (s : FileServer) (h : UInt8) : Option (List UInt8) :=
  (s.handles h).bind fun g => s.files g.path

theorem Opened.file {c : Client FileServer} {i : Fin maxFileHandles} {f : FileHandleInfo}
    (opened : Opened c i f) : c.file f.handleId = some f := by
  rw [Client.file, opened.lookup, Option.bind_some, opened.slot]

theorem At.contentOf {s : FileServer} {h : UInt8} {g : OpenFile} {F : List UInt8} {q : Nat}
    (at_q : At s h g F q) : s.contentOf h = some F := by
  rw [FileServer.contentOf, at_q.handle, Option.bind_some]
  exact at_q.content

/-- An open file whose window and positions fit together. The server stands `δ` bytes ahead of
`file_position`, counting modulo 2^32, and the window shows the file without its first `δ`
bytes: a seek from the end leads there in a file that has grown. The recorded size is never too
large. -/
structure Synced (fuel δ : Nat) (c : Client FileServer) (i : Fin maxFileHandles)
    (f : FileHandleInfo) (g : OpenFile) (F : List UInt8) : Prop where
  opened : Opened c i f
  enough : c.mInfo.maxRetries + 1 < fuel
  enough' : 1051 < fuel
  small : F.length < word
  size : δ + f.fileSize ≤ F.length
  window : Window f (F.drop δ)
  meets : f.filePosition = f.windowEnd
  at_q : At c.net f.handleId g F ((f.filePosition + δ) % word)
  /-- Where the count wraps around, there is no window. -/
  wraps : f.filePosition + δ < word ∨ f.cacheAvailable = 0

/-- All requests of the operations on an open file are granted. -/
structure Policy.GrantsFile (policy : Policy) : Prop where
  read : policy.Grants Cmd.read
  lseek : policy.Grants Cmd.lseek
  write : policy.Grants Cmd.write

section

variable {policy : Policy} {fuel n δ : Nat} {c : Client FileServer} {f : FileHandleInfo}
  {i : Fin maxFileHandles} {g : OpenFile} {F : List UInt8}

theorem Synced.view_lt (synced : Synced fuel δ c i f g F) : (F.drop δ).length < word := by
  have := synced.small
  rw [List.length_drop]
  omega

theorem Synced.windowEnd_le (synced : Synced fuel δ c i f g F)
    (before : f.cachedPos < f.windowEnd) : f.windowEnd ≤ F.length - δ := by
  simp only [FileHandleInfo.windowEnd] at before ⊢
  split_ifs at before ⊢ with empty
  · omega
  · have within := synced.window.within (by omega)
    rwa [List.length_drop] at within

theorem Synced.filePosition_lt (synced : Synced fuel δ c i f g F) : f.filePosition < word := by
  have := synced.window.position
  have le := synced.window.cachedPos_le
  have small := synced.small
  rw [synced.meets]
  rcases Nat.lt_or_eq_of_le le with before | same
  · have := synced.windowEnd_le before
    omega
  · omega

theorem Synced.ahead (synced : Synced fuel δ c i f g F) (near : f.filePosition + δ < word) :
    InStepAhead (F.take δ) f c.net g (F.drop δ) := by
  have size := synced.size
  refine ⟨synced.meets, ?_⟩
  rw [Ahead, List.take_append_drop, List.length_take_of_le (by omega)]
  exact Nat.mod_eq_of_lt near ▸ synced.at_q

/-- Where the count wraps around, the client takes itself to be behind the end. -/
theorem Synced.behind_end (synced : Synced fuel δ c i f g F) (wraps : ¬ f.filePosition + δ < word) :
    f.fileSize ≤ f.cachedPos := by
  have empty := synced.wraps.resolve_left wraps
  have meets := synced.meets
  have size := synced.size
  have small := synced.small
  rw [FileHandleInfo.windowEnd, if_pos empty] at meets
  omega

theorem Window.movedTo (window : Window f F) {d : Nat} (inRange : d < word) (F' : List UInt8) :
    Window (f.movedTo d) F' :=
  ⟨window.length, Nat.zero_le _, by simp [FileHandleInfo.movedTo],
    by simp [FileHandleInfo.movedTo], by simp [FileHandleInfo.movedTo], inRange⟩

/-- A file without a window, at one position. -/
theorem Synced.movedTo (synced : Synced fuel δ c i f g F) {c' : Client FileServer} {d δ' q : Nat}
    {F' : List UInt8} (opened : Opened c' i (f.movedTo d)) (keeps : KeepsOthers i c.mInfo c'.mInfo)
    (inRange : d < word) (small : F'.length < word) (size : δ' + f.fileSize ≤ F'.length)
    (at_q : At c'.net f.handleId g F' q) (stands : (d + δ') % word = q) :
    Synced fuel δ' c' i (f.movedTo d) g F' :=
  ⟨opened, keeps.maxRetries ▸ synced.enough, synced.enough', small, size,
    synced.window.movedTo inRange _, rfl, by subst stands; exact at_q, .inr rfl⟩

/-! ## Reads -/

/-- An operation that changes nothing. -/
theorem Opened.unchanged (opened : Opened c i f) :
    { c with mInfo := c.mInfo.setFile i f } = c := by
  rw [MountInfo.setFile_of_fileHandles opened.slot]

/-- A read, given the run of its loop. -/
theorem Opened.read_of_run (opened : Opened c i f) (hn' : n ≤ 525) {s : Reading FileServer}
    {result : Int}
    (hrun : Loop.run (readPass (transaction (net policy) fuel) fuel n) fuel ⟨c, f, []⟩ =
      some (result, s)) :
    (FileOp.read n).perform (transaction (net policy) fuel) fuel f.handleId.toNat c =
      some (⟨result, s.data, 0⟩, { s.client with mInfo := s.client.mInfo.setFile i s.file }) := by
  have admitted : ¬ n > payloadSize - 3 := by
    simp only [payloadSize]
    omega
  simp only [FileOp.perform, tnfsRead, validAsUint8_toNat, if_neg admitted]
  simp only [opened.lookup, opened.slot, Option.bind_eq_bind, Option.bind_some, hrun,
    Option.map_some]

/-- A read that its first pass ends. -/
theorem Opened.read_of_pass (opened : Opened c i f) (enough' : 1051 < fuel) (hn' : n ≤ 525)
    {result : Int} {data : List UInt8}
    (pass : readPass (transaction (net policy) fuel) fuel n ⟨c, f, []⟩ =
      some (.inr (result, ⟨c, f, data⟩))) :
    (FileOp.read n).perform (transaction (net policy) fuel) fuel f.handleId.toNat c =
      some (⟨result, data, 0⟩, c) := by
  obtain ⟨k, rfl⟩ : ∃ k, fuel = k + 1 := ⟨fuel - 1, by omega⟩
  have read := opened.read_of_run hn' (Loop.run_succ_inr pass)
  rwa [opened.unchanged] at read

/-- After a read the count does not wrap around either. -/
theorem Delivered.near {data : List UInt8} {f' : FileHandleInfo}
    (delivered : Delivered f (F.drop δ) data f') (synced : Synced fuel δ c i f g F)
    (meets : f'.filePosition = f'.windowEnd) (near : f.filePosition + δ < word) :
    f'.filePosition + δ < word := by
  have size := synced.size
  have small := synced.small
  have position := delivered.position
  have le := synced.window.cachedPos_le
  have start := synced.meets
  have length := congrArg List.length delivered.bytes
  rw [length_slice, List.length_drop] at length
  rw [FileHandleInfo.windowEnd] at meets
  split_ifs at meets with empty
  · omega
  · have within := delivered.window.within (by omega)
    rw [List.length_drop] at within
    omega

theorem Synced.of_delivered (synced : Synced fuel δ c i f g F) {data : List UInt8}
    {f' : FileHandleInfo} {c' : Client FileServer} (delivered : Delivered f (F.drop δ) data f')
    (inStep : InStepAhead (F.take δ) f' c'.net g (F.drop δ)) (keeps : Keeps c.mInfo c'.mInfo)
    (connected : Connected c') (near : f.filePosition + δ < word) :
    Synced fuel δ { c' with mInfo := c'.mInfo.setFile i f' } i f' g F := by
  have size := synced.size
  have moved := inStep.ahead
  rw [Ahead, List.take_append_drop, List.length_take_of_le (by omega)] at moved
  have near' := delivered.near synced inStep.meets near
  refine ⟨synced.opened.setFile keeps connected delivered.handleId,
    (keeps.setFile i f').maxRetries ▸ synced.enough, synced.enough', synced.small,
    delivered.fileSize ▸ size, delivered.window, inStep.meets, ?_, .inl near'⟩
  rw [Nat.mod_eq_of_lt near']
  exact moved

/-- A read of a synced file. -/
theorem Synced.read (grants : policy.Grants Cmd.read) (synced : Synced fuel δ c i f g F)
    (hn : 0 < n) (hn' : n ≤ 525) :
    ∃ data c' f', (FileOp.read n).perform (transaction (net policy) fuel) fuel f.handleId.toNat c =
        some (⟨if data.length = n then 0 else code Result.endOfFile, data, 0⟩, c') ∧
      Synced fuel δ c' i f' g F ∧ KeepsOthers i c.mInfo c'.mInfo ∧
      Delivered f (F.drop δ) data f' ∧
      data.length = readCount (F.length - δ) f.fileSize f.cachedPos f.windowEnd n := by
  by_cases near : f.filePosition + δ < word
  · obtain ⟨result, c', f', data, hread, opened', hend⟩ := tnfsRead_spec policy synced.opened
      synced.enough synced.enough' synced.view_lt synced.window (synced.ahead near) hn hn'
    cases hend with
    | done delivered inStep keeps connected quiet count hresult =>
        rw [synced.meets, List.length_drop] at count
        refine ⟨data, _, f', ?_, synced.of_delivered delivered inStep keeps connected near,
          keeps.setFile i f', delivered, count⟩
        simp only [FileOp.perform, hread, Option.map_some, hresult]
    | failed _ _ _ _ _ _ _ _ occurs =>
        exact (Occurs.not_grants occurs grants).elim
  · -- the client takes itself to be behind the end, and asks for nothing
    have stop := synced.behind_end near
    have pass : readPass (transaction (net policy) fuel) fuel n ⟨c, f, []⟩ =
        some (.inr (code Result.endOfFile, ⟨c, f, []⟩)) := by
      simp [readPass, readFromCache, stop]
    refine ⟨[], c, f, ?_, synced, .refl i _, ⟨synced.window, by simp, rfl, rfl, rfl, rfl⟩, ?_⟩
    · rw [if_neg (by simp only [List.length_nil]; omega)]
      exact synced.opened.read_of_pass synced.enough' hn' pass
    · rw [readCount, if_pos stop]
      rfl

/-- Reading nothing from a window. -/
theorem readPass_zero (some_ : 0 < f.cacheAvailable) (position : f.cachedPos < word)
    (notEof : ¬ f.fileSize ≤ f.cachedPos) :
    readPass (transaction (net policy) fuel) fuel 0 ⟨c, f, []⟩ = some (.inr (0, ⟨c, f, []⟩)) := by
  have cache : readFromCache f 0 = (0, [], f) := by
    simp only [readFromCache, ge_iff_le, if_neg notEof, if_neg (Nat.ne_of_gt some_), Nat.zero_min,
      ite_self, Nat.sub_self, ne_eq, not_true_eq_false, if_false, slice_zero, Nat.add_zero,
      Nat.mod_eq_of_lt position]
  simp [readPass, cache]

/-- A read of nothing without a window fills the cache first. -/
theorem Synced.readPass_fill (grants : policy.Grants Cmd.read) (synced : Synced fuel δ c i f g F)
    (empty : f.cacheAvailable = 0) (notEof : ¬ f.fileSize ≤ f.cachedPos) :
    ∃ c' f', readPass (transaction (net policy) fuel) fuel 0 ⟨c, f, []⟩ = some (.inl ⟨c', f', []⟩) ∧
      0 < f'.cacheAvailable ∧ ¬ f'.fileSize ≤ f'.cachedPos ∧
      Synced fuel δ { c' with mInfo := c'.mInfo.setFile i f' } i f' g F ∧
      f'.handleId = f.handleId := by
  have near : f.filePosition + δ < word := by_contra fun wraps => notEof (synced.behind_end wraps)
  have meets := synced.meets
  rw [FileHandleInfo.windowEnd, if_pos empty] at meets
  have size := synced.size
  have enough' := synced.enough'
  have length : (F.drop δ).length = F.length - δ := List.length_drop
  obtain ⟨error, f', c', hfill, filled⟩ := fillCache_spec policy synced.opened.connected
    synced.enough (by omega) synced.view_lt synced.window.length (synced.ahead near).ahead
  cases filled with
  | @window j _ _ hj hmin fetched available keeps connected at_q quiet =>
      have same := fetched.file
      have start : Delivered f (F.drop δ) [] f := ⟨synced.window, by simp, rfl, rfl, rfl, rfl⟩
      have delivered := start.fill meets.symm fetched (by omega) (.inl available)
      have inStep : InStepAhead (F.take δ) f' c'.net g (F.drop δ) := by
        refine ⟨?_, ?_⟩
        · rw [FileHandleInfo.windowEnd, if_neg (by omega), same, available]
        · rw [congrArg FileHandleInfo.filePosition same, congrArg FileHandleInfo.handleId same]
          exact at_q
      have pass : readPass (transaction (net policy) fuel) fuel 0 ⟨c, f, []⟩ =
          some (.inl ⟨c', f', []⟩) := by
        simp [readPass, readFromCache, notEof, empty, hfill, code, Result.endOfFile]
      refine ⟨c', f', pass, by omega, ?_,
        synced.of_delivered delivered inStep keeps connected near, delivered.handleId⟩
      rw [congrArg FileHandleInfo.cachedPos same, congrArg FileHandleInfo.fileSize same]
      exact notEof
  | eof end_ => omega
  | failed _ _ _ _ _ _ occurs => exact (Occurs.not_grants occurs grants).elim

/-- Reading nothing may fill the cache. -/
theorem Synced.read_zero (grants : policy.Grants Cmd.read) (synced : Synced fuel δ c i f g F) :
    ∃ answer c' f', (FileOp.read 0).perform (transaction (net policy) fuel) fuel f.handleId.toNat c =
        some (answer, c') ∧ Synced fuel δ c' i f' g F ∧ f'.handleId = f.handleId := by
  have enough' := synced.enough'
  by_cases stop : f.fileSize ≤ f.cachedPos
  · have pass : readPass (transaction (net policy) fuel) fuel 0 ⟨c, f, []⟩ =
        some (.inr (code Result.endOfFile, ⟨c, f, []⟩)) := by
      simp [readPass, readFromCache, stop]
    exact ⟨_, c, f, synced.opened.read_of_pass enough' (by omega) pass, synced, rfl⟩
  by_cases empty : f.cacheAvailable = 0
  · obtain ⟨c', f', first, some_, notEof, synced', handle⟩ := synced.readPass_fill grants empty stop
    obtain ⟨k, rfl⟩ : ∃ k, fuel = k + 2 := ⟨fuel - 2, by omega⟩
    have run : Loop.run _ (k + 2) _ = _ := Loop.run_succ_inl first
    rw [Loop.run_succ_inr (readPass_zero some_ synced'.window.position notEof)] at run
    exact ⟨_, _, f', synced.opened.read_of_run (by omega) run, synced', handle⟩
  · exact ⟨_, c, f, synced.opened.read_of_pass enough' (by omega)
      (readPass_zero (by omega) synced.window.position stop), synced, rfl⟩

/-! ## Seeks -/

/-- How far the server is ahead after a seek that it carried out. -/
def driftAfter (type : UInt8) (δ : Nat) (f : FileHandleInfo) (F : List UInt8) : Nat :=
  if type = seekSet then 0 else if type = seekCur then δ else F.length - f.fileSize

/-- What a seek does to a synced file. -/
inductive Sought (fuel δ : Nat) (f : FileHandleInfo) (i : Fin maxFileHandles) (g : OpenFile)
    (F : List UInt8) (position : Int) (type : UInt8) (result : Int) (c' : Client FileServer) : Prop
  | inside : f.InWindow (f.destination f.cachedPos position type) → result = 0 →
      Synced fuel δ c' i { f with cachedPos := f.destination f.cachedPos position type } g F →
      Sought fuel δ f i g F position type result c'
  | moved {d : Nat} : ¬ f.InWindow (f.destination f.cachedPos position type) →
      (d : Int) = seekTarget position type ((f.filePosition + δ) % word) F.length → d < word →
      result = 0 →
      Synced fuel (driftAfter type δ f F) c' i
        (f.movedTo (f.destination f.filePosition position type)) g F →
      Sought fuel δ f i g F position type result c'
  | invalid : ¬ f.InWindow (f.destination f.cachedPos position type) →
      ¬ (0 ≤ seekTarget position type ((f.filePosition + δ) % word) F.length ∧
        seekTarget position type ((f.filePosition + δ) % word) F.length < word) → result ≠ 0 →
      (f.cachedPos = f.filePosition → Synced fuel δ c' i f.dropCache g F) →
      Sought fuel δ f i g F position type result c'

theorem Window.seek (window : Window f F) {d : Nat} (small : F.length < word)
    (inWindow : f.InWindow d) : Window { f with cachedPos := d } F := by
  have within := window.within inWindow.1
  have := inWindow.2.2
  exact ⟨window.length, window.available, window.holds, window.within,
    fun _ => ⟨inWindow.2.1, by simp only; omega⟩, by simp only; omega⟩

/-- Client and server move by the same way, or both to a place they agree on. -/
theorem destination_add_driftAfter {position : Int} {type : UInt8} {d : Nat}
    (accepted : IsSeekType type) (size : δ + f.fileSize ≤ F.length)
    (target : (d : Int) = seekTarget position type ((f.filePosition + δ) % word) F.length)
    (inRange : d < word) :
    (f.destination f.filePosition position type + driftAfter type δ f F) % word = d := by
  rw [destination_eq]
  rcases accepted with rfl | rfl | rfl
  · rw [seekTarget_seekSet] at target ⊢
    rw [toUint32_natCast (toUint32_lt _), driftAfter, if_pos rfl, Nat.add_zero,
      Nat.mod_eq_of_lt (toUint32_lt _)]
    omega
  · rw [seekTarget_seekCur] at target ⊢
    rw [driftAfter, if_neg (by decide), if_pos rfl]
    simp only [toUint32, word] at *
    omega
  · rw [seekTarget_seekEnd] at target ⊢
    rw [driftAfter, if_neg (by decide), if_neg (by decide)]
    simp only [toUint32, word] at *
    omega

theorem driftAfter_le {type : UInt8} (size : δ + f.fileSize ≤ F.length) :
    driftAfter type δ f F + f.fileSize ≤ F.length := by
  simp only [driftAfter]
  split_ifs <;> omega

theorem destination_lt (f : FileHandleInfo) (current : Nat) (position : Int) (type : UInt8) :
    f.destination current position type < word := by
  rw [destination_eq]
  exact toUint32_lt _

/-- A seek of a synced file. -/
theorem Synced.lseek (grants : policy.Grants Cmd.lseek) (synced : Synced fuel δ c i f g F)
    (position : Int) (type : UInt8) (accepted : IsSeekType type)
    (offset : type ≠ seekSet → IsInt32 position) :
    ∃ result c', (FileOp.lseek position type).perform (transaction (net policy) fuel) fuel
        f.handleId.toNat c = some (⟨result, [], 0⟩, c') ∧
      KeepsOthers i c.mInfo c'.mInfo ∧ Sought fuel δ f i g F position type result c' := by
  obtain ⟨result, newPosition, c', f', hseek, opened', hend⟩ := tnfsLseek_spec policy position type
    synced.opened synced.enough synced.view_lt synced.window synced.at_q accepted offset
  have performed : (FileOp.lseek position type).perform (transaction (net policy) fuel) fuel
      f.handleId.toNat c = some (⟨result, [], 0⟩, { c' with mInfo := c'.mInfo.setFile i f' }) := by
    simp only [FileOp.perform, hseek, Option.map_some]
  cases hend with
  | inside inWindow hresult hc hf =>
      subst hresult hc hf
      refine ⟨0, _, performed, (Keeps.refl _).setFile i _, .inside inWindow rfl ?_⟩
      have meets := synced.meets
      rw [FileHandleInfo.windowEnd, if_neg (Nat.ne_of_gt inWindow.1)] at meets
      refine ⟨opened', synced.enough, synced.enough', synced.small, synced.size,
        synced.window.seek synced.view_lt inWindow, ?_, synced.at_q, synced.wraps⟩
      rw [FileHandleInfo.windowEnd, if_neg (Nat.ne_of_gt inWindow.1)]
      exact meets
  | @moved d miss target inRange hresult hf keeps connected at_d quiet =>
      subst hresult hf
      exact ⟨0, _, performed, keeps.setFile i _, .moved miss target inRange rfl
        (synced.movedTo opened' (keeps.setFile i _) (destination_lt f _ _ _) synced.small
          (driftAfter_le synced.size) at_d
          (destination_add_driftAfter accepted synced.size target inRange))⟩
  | invalid miss outOfRange hresult hf keeps connected at_q quiet =>
      subst hf
      refine ⟨result, _, performed, keeps.setFile i _, .invalid miss outOfRange hresult ?_⟩
      intro meets
      have same : f.dropCache = f.movedTo f.cachedPos := by
        rw [FileHandleInfo.movedTo]
        conv_rhs =>
          arg 2
          rw [meets]
        rfl
      rw [same] at opened' ⊢
      exact synced.movedTo opened' (keeps.setFile i _) synced.window.position synced.small
        synced.size at_q (by rw [meets])
  | failed _ _ _ _ _ occurs => exact (occurs.not_grants grants).elim

/-! ## Writes -/

/-- How far the server is ahead after a write. -/
def FileHandleInfo.writeDrift (f : FileHandleInfo) (δ : Nat) : Nat :=
  if f.cachedPos = f.filePosition then δ else 0

/-- What a write does to a synced file when it goes to `start`. -/
inductive Stored (fuel δ : Nat) (f : FileHandleInfo) (i : Fin maxFileHandles) (g : OpenFile)
    (F bytes : List UInt8) (start : Nat) (result : Int) (c' : Client FileServer) : Prop
  | written : g.writable = true → start + bytes.length < word → result = 0 →
      Synced fuel (f.writeDrift δ) c' i (f.movedTo ((f.cachedPos + bytes.length) % word)) g
        (writeAt F start bytes) →
      Stored fuel δ f i g F bytes start result c'
  | refused : g.writable = false ∨ word ≤ start + bytes.length → result ≠ 0 →
      Synced fuel (f.writeDrift δ) c' i (f.movedTo f.cachedPos) g F →
      Stored fuel δ f i g F bytes start result c'

theorem Synced.writePosition_eq (synced : Synced fuel δ c i f g F) :
    f.writePosition ((f.filePosition + δ) % word) = (f.cachedPos + f.writeDrift δ) % word := by
  have position := synced.window.position
  rw [FileHandleInfo.writePosition, FileHandleInfo.writeDrift]
  split_ifs with meets
  · rw [meets]
  · rw [Nat.add_zero, Nat.mod_eq_of_lt position]

/-- A write to a synced file. -/
theorem Synced.write (grants : policy.GrantsFile) (synced : Synced fuel δ c i f g F)
    {bytes : List UInt8} (short : bytes.length ≤ 525) :
    ∃ result written c', (FileOp.write bytes).perform (transaction (net policy) fuel) fuel
        f.handleId.toNat c = some (⟨result, [], written⟩, c') ∧
      KeepsOthers i c.mInfo c'.mInfo ∧
      Stored fuel δ f i g F bytes (f.writePosition ((f.filePosition + δ) % word)) result c' := by
  obtain ⟨result, written, c', hwrite, keeps, hend⟩ := tnfsWrite_spec grants.write grants.lseek
    synced.opened synced.enough synced.view_lt synced.window synced.at_q short
  refine ⟨result, written, c', by simp only [FileOp.perform, hwrite, Option.map_some], keeps, ?_⟩
  have small := synced.small
  have size := synced.size
  have stands := synced.writePosition_eq
  have drift : f.writeDrift δ + f.fileSize ≤ F.length := by
    rw [FileHandleInfo.writeDrift]
    split_ifs <;> omega
  cases hend with
  | written writable inRange hresult _ opened at_q =>
      refine .written writable inRange hresult
        (synced.movedTo opened keeps (Nat.mod_lt _ (by decide)) ?_ ?_ at_q ?_)
      · rw [length_writeAt]
        omega
      · rw [length_writeAt]
        omega
      · rw [stands] at inRange ⊢
        simp only [word] at *
        omega
  | refused refused hresult opened at_q =>
      exact .refused refused hresult
        (synced.movedTo opened keeps synced.window.position small drift at_q stands.symm)

end

/-! ## A file that has just been opened -/

/-- Every file in the client's table is open at the server. -/
def Known (c : Client FileServer) : Prop :=
  ∀ j f, c.mInfo.fileHandles j = some f → c.net.handles f.handleId ≠ none

theorem JustOpened.synced {policy : Policy} {fuel : Nat} {c c' : Client FileServer}
    {source F : List UInt8} {mode : UInt16} {i : Fin maxFileHandles} {f : FileHandleInfo}
    (just : JustOpened policy c source mode F i f c') (known : Known c)
    (enough : c.mInfo.maxRetries + 1 < fuel) (enough' : 1051 < fuel) (small : F.length < word) :
    Synced fuel 0 c' i f ⟨joinPath c.mInfo.currentWorkingDirectory source, 0,
      mode &&& openmodeWrite ≠ 0⟩ F := by
  obtain ⟨_, _, _, unused⟩ := just.handle
  have start : f.filePosition = 0 := by
    rw [just.inStep.meets, FileHandleInfo.windowEnd, if_pos just.dropped, just.start]
  have at_q := just.inStep.at_q
  rw [start] at at_q
  refine ⟨just.opened fun j f' hf' same => known j f' hf' ?_, just.maxRetries ▸ enough, enough',
    small, by rw [Nat.zero_add, just.size], just.window, just.inStep.meets, ?_, .inr just.dropped⟩
  · rw [same]
    exact handles_of_freeHandle unused
  · rw [start]
    exact at_q

/-! ## Reachable states -/

/-- The client stands where it takes the server to stand. -/
def CaughtUp (c : Client FileServer) (h : UInt8) : Prop :=
  ∀ f, c.file h = some f → f.cachedPos = f.filePosition

/-- The steps of the runs considered: reads and writes of any size, and seeks that succeed or
are made where the client stands where it takes the server to stand. -/
def FileRule (h : UInt8) : FileOp → Client FileServer → Answer → Client FileServer → Prop
  | .lseek position _, c, answer, _ => IsInt32 position ∧ (answer.result = 0 ∨ CaughtUp c h)
  | _, _, _, _ => True

/-- A synced file with a given handle, wherever the server stands. -/
def SyncedHandle (fuel : Nat) (h : UInt8) (g : OpenFile) (c : Client FileServer) : Prop :=
  ∃ δ i f F, Synced fuel δ c i f g F ∧ f.handleId = h

/-! A request that the library refuses changes nothing. -/

section

variable {policy : Policy} {fuel n δ : Nat} {c : Client FileServer} {f : FileHandleInfo}
  {i : Fin maxFileHandles} {g : OpenFile} {F : List UInt8}

theorem perform_read_large (large : 525 < n) (h : UInt8) :
    (FileOp.read n).perform (transaction (net policy) fuel) fuel h.toNat c = some (⟨-1, [], 0⟩, c) := by
  have refused : n > payloadSize - 3 := by
    simp only [payloadSize]
    omega
  simp only [FileOp.perform, tnfsRead, validAsUint8_toNat, if_pos refused, Option.map_some]

theorem perform_write_large {bytes : List UInt8} (large : 525 < bytes.length) (h : UInt8) :
    (FileOp.write bytes).perform (transaction (net policy) fuel) fuel h.toNat c =
      some (⟨-1, [], 0⟩, c) := by
  have refused : bytes.length > payloadSize - 3 := by
    simp only [payloadSize]
    omega
  simp only [FileOp.perform, tnfsWrite, validAsUint8_toNat, if_pos refused, Option.map_some]

theorem perform_lseek_refused {type : UInt8} (refused : ¬ IsSeekType type) (h : UInt8)
    (position : Int) :
    (FileOp.lseek position type).perform (transaction (net policy) fuel) fuel h.toNat c =
      some (⟨code Result.invalidArgument, [], 0⟩, c) := by
  simp only [IsSeekType, not_or] at refused
  simp only [FileOp.perform, tnfsLseek, validAsUint8_toNat, if_pos refused, Option.map_some]

end

section

variable {policy : Policy} {fuel : Nat} {h : UInt8} {g : OpenFile} {c c' : Client FileServer}

/-- Every allowed step keeps the file synced. -/
theorem SyncedHandle.step (grants : policy.GrantsFile) {op : FileOp} {answer : Answer}
    (inv : SyncedHandle fuel h g c)
    (performed : op.perform (transaction (net policy) fuel) fuel h.toNat c = some (answer, c'))
    (rule : FileRule h op c answer c') : SyncedHandle fuel h g c' := by
  obtain ⟨δ, i, f, F, synced, rfl⟩ := inv
  have unchanged {answer' : Answer}
      (performed' : op.perform (transaction (net policy) fuel) fuel f.handleId.toNat c =
        some (answer', c)) : SyncedHandle fuel f.handleId g c' := by
    rw [performed, Option.some.injEq, Prod.mk.injEq] at performed'
    obtain ⟨-, rfl⟩ := performed'
    exact ⟨δ, i, f, F, synced, rfl⟩
  cases op with
  | read n =>
      by_cases large : 525 < n
      · exact unchanged (perform_read_large large _)
      rcases Nat.eq_zero_or_pos n with rfl | some_
      · obtain ⟨answer', c'', f', performed', synced', handle⟩ := synced.read_zero grants.read
        rw [performed, Option.some.injEq, Prod.mk.injEq] at performed'
        obtain ⟨-, rfl⟩ := performed'
        exact ⟨δ, i, f', F, synced', handle⟩
      · obtain ⟨data, c'', f', performed', synced', -, delivered, -⟩ :=
          synced.read grants.read some_ (by omega)
        rw [performed, Option.some.injEq, Prod.mk.injEq] at performed'
        obtain ⟨-, rfl⟩ := performed'
        exact ⟨δ, i, f', F, synced', delivered.handleId⟩
  | lseek position type =>
      obtain ⟨offset, success⟩ := rule
      by_cases accepted : IsSeekType type
      · obtain ⟨result, c'', performed', -, sought⟩ := synced.lseek grants.lseek position type
          accepted (fun _ => offset)
        rw [performed, Option.some.injEq, Prod.mk.injEq] at performed'
        obtain ⟨rfl, rfl⟩ := performed'
        cases sought with
        | inside _ _ synced' => exact ⟨δ, i, _, F, synced', rfl⟩
        | moved _ _ _ _ synced' => exact ⟨_, i, _, F, synced', rfl⟩
        | invalid _ _ failed synced' =>
            rcases success with success | meets
            · exact absurd success failed
            · exact ⟨δ, i, _, F, synced' (meets f synced.opened.file), rfl⟩
      · exact unchanged (perform_lseek_refused accepted _ _)
  | write bytes =>
      by_cases large : 525 < bytes.length
      · exact unchanged (perform_write_large large _)
      have short : bytes.length ≤ 525 := by omega
      obtain ⟨result, written, c'', performed', -, stored⟩ := synced.write grants short
      rw [performed, Option.some.injEq, Prod.mk.injEq] at performed'
      obtain ⟨-, rfl⟩ := performed'
      cases stored with
      | written _ _ _ synced' => exact ⟨_, i, _, _, synced', rfl⟩
      | refused _ _ synced' => exact ⟨_, i, _, F, synced', rfl⟩

/-- The client `c` opens a file, gets the handle `h`, and a run of operations on it
leads to `c'`. -/
structure FileRun (policy : Policy) (fuel : Nat) (c : Client FileServer) (source : List UInt8)
    (mode perms : UInt16) (h : UInt8) (c' : Client FileServer) : Prop where
  grants : policy.GrantsFile
  grantsStat : policy.Grants Cmd.stat
  grantsOpen : policy.Grants Cmd.open_
  can : ∃ F, CanOpen c source mode F
  known : Known c
  notAppend : mode &&& openmodeWriteAppend = 0
  enough : c.mInfo.maxRetries + 1 < fuel
  enough' : 1051 < fuel
  reached : ∃ c₁, tnfsOpen (transaction (net policy) fuel) source mode perms c =
      some ((code Result.success, (h.toNat : Int)), c₁) ∧
    Machine.Reaches (FileOp.perform (transaction (net policy) fuel) fuel h.toNat) (FileRule h) c₁ c'

/-- In every state that a run of an opened file reaches, the file is synced. -/
theorem FileRun.synced {source : List UInt8} {mode perms : UInt16}
    (run : FileRun policy fuel c source mode perms h c') :
    SyncedHandle fuel h ⟨joinPath c.mInfo.currentWorkingDirectory source, 0,
      mode &&& openmodeWrite ≠ 0⟩ c' := by
  obtain ⟨F, can⟩ := run.can
  obtain ⟨c₁, hopen, reached⟩ := run.reached
  have enough := run.enough
  obtain ⟨i, f, c₁', hopen', just⟩ := tnfsOpen_spec perms run.grantsStat run.grantsOpen
    can (by omega : 0 < fuel) run.notAppend
  rw [hopen] at hopen'
  simp only [Option.some.injEq, Prod.mk.injEq, Int.natCast_inj, UInt8.toNat_inj, true_and]
    at hopen'
  obtain ⟨rfl, rfl⟩ := hopen'
  refine reached.invariant (SyncedHandle fuel f.handleId _)
    ⟨0, i, f, F, just.synced run.known enough run.enough' can.length_lt, rfl⟩ ?_
  intro op c answer c' inv performed rule
  exact inv.step run.grants performed rule

end

/-! ## A client to begin with -/

/-- A client that has just mounted, with no file open. -/
def freshClient (files : List UInt8 → Option (List UInt8)) : Client FileServer :=
  ⟨{ session := 1, mountpath := [0x2F], currentWorkingDirectory := [0x2F] }, { session := 1, files }⟩

section

variable (files : List UInt8 → Option (List UInt8)) {source F : List UInt8} {mode : UInt16}

theorem connected_freshClient : Connected (freshClient files) :=
  ⟨rfl, by simp [freshClient], by simp [freshClient], by simp [freshClient],
    by simp [freshClient, mountPayload, MountInfo.prepareMount, strlcpy, payloadSize], rfl⟩

theorem known_freshClient : Known (freshClient files) := by
  simp [Known, freshClient]

theorem canOpen_freshClient (good : GoodPath [0x2F] source)
    (content : openContent mode (files (joinPath [0x2F] source)) = some F)
    (small : ∀ content, files (joinPath [0x2F] source) = some content → content.length < word) :
    CanOpen (freshClient files) source mode F :=
  ⟨connected_freshClient files, good, ⟨0, rfl⟩, ⟨0, rfl⟩, content, small⟩

end

theorem canOpen_three_bytes (mode : UInt16)
    (content : openContent mode (some [1, 2, 3]) = some [1, 2, 3]) :
    CanOpen (freshClient fun _ => some [1, 2, 3]) [0x61] mode [1, 2, 3] :=
  canOpen_freshClient _ ⟨by decide, by decide, by decide, by decide⟩ content
    fun content h => by rw [← Option.some.inj h]; decide

/-- A run on a file of three bytes, at a server that grants everything. -/
theorem FileRun.of_three_bytes {policy : Policy} {fuel : Nat} {mode : UInt16} {h : UInt8}
    {c₁ c' : Client FileServer} (grants : ∀ command, policy.Grants command)
    (content : openContent mode (some [1, 2, 3]) = some [1, 2, 3])
    (notAppend : mode &&& openmodeWriteAppend = 0) (enough : 1051 < fuel)
    (opening : tnfsOpen (transaction (net policy) fuel) [0x61] mode 0
      (freshClient fun _ => some [1, 2, 3]) = some ((code Result.success, (h.toNat : Int)), c₁))
    (reached : Machine.Reaches (FileOp.perform (transaction (net policy) fuel) fuel h.toNat)
      (FileRule h) c₁ c') :
    FileRun policy fuel (freshClient fun _ => some [1, 2, 3]) [0x61] mode 0 h c' :=
  ⟨⟨grants _, grants _, grants _⟩, grants _, grants _, ⟨_, canOpen_three_bytes mode content⟩,
    known_freshClient _, notAppend, show 5 + 1 < fuel by omega, enough, c₁, opening, reached⟩

end FujiNet.TNFS
