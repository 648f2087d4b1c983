import FujiNet.TNFSlib.PlainFile

/-!
# After a failed operation

Here the server may treat READ and LSEEK requests in any way: refuse them, not
answer them, carry them out without answering, or let the session expire. A failed
operation drops the window, and the next filling begins at `file_position`. So the
client's position survives only if it is the server's position too, and if the
server has not moved unnoticed. `FailureRule` states this for single steps;
`failures_do_not_shift_reads` is about the runs that keep to it.

A file whose session has expired stays lost for `tnfslib`, and its reads fail.
-/

namespace FujiNet.TNFS

open FileServer

/-! ## Operations on a file that the server does not know -/

section

variable {policy : Policy} {fuel n : Nat} {c : Client FileServer} {f : FileHandleInfo}
  {i : Fin maxFileHandles} {F : List UInt8}

theorem tnfsRead_closed (policy : Policy) (opened : Opened c i f)
    (enough : c.mInfo.maxRetries + 1 < fuel) (closed : c.net.handles f.handleId = none)
    (dropped : f.cacheAvailable = 0) (hn' : n ≤ 525) :
    ∃ result c' f', tnfsRead (transaction (net policy) fuel) fuel f.handleId.toNat n c =
        some ((result, []), { c' with mInfo := c'.mInfo.setFile i f' }) ∧
      (f' = f ∨ f' = { f with cacheAvailable := 0, cacheStart := f.filePosition }) ∧
      (result = 0 ∨ result = code Result.endOfFile → f.fileSize ≤ f.cachedPos) ∧
      Keeps c.mInfo c'.mInfo ∧ Connected c' ∧ c'.net.handles f.handleId = none := by
  obtain ⟨fuel', rfl⟩ : ∃ k, fuel = k + 1 := ⟨fuel - 1, by omega⟩
  have admitted : ¬ n > payloadSize - 3 := by
    simp only [payloadSize]
    omega
  suffices pass : ∃ result c' f', readPass (transaction (net policy) (fuel' + 1)) (fuel' + 1) n
      ⟨c, f, []⟩ = some (.inr (result, ⟨c', f', []⟩)) ∧
      (f' = f ∨ f' = { f with cacheAvailable := 0, cacheStart := f.filePosition }) ∧
      (result = 0 ∨ result = code Result.endOfFile → f.fileSize ≤ f.cachedPos) ∧
      Keeps c.mInfo c'.mInfo ∧ Connected c' ∧ c'.net.handles f.handleId = none by
    obtain ⟨result, c', f', hpass, rest⟩ := pass
    refine ⟨result, c', f', ?_, rest⟩
    simp only [tnfsRead, validAsUint8_toNat, if_neg admitted, opened.lookup, opened.slot,
      Option.bind_eq_bind, Option.bind_some]
    rw [Loop.run_succ_inr hpass]
    rfl
  by_cases eof : f.fileSize ≤ f.cachedPos
  · refine ⟨code Result.endOfFile, c, f, ?_, .inl rfl, fun _ => eof, .refl _, opened.connected,
      closed⟩
    simp [readPass, readFromCache, eof]
  · obtain ⟨error, c', hfill, notZero, notEof, keeps, connected, closed'⟩ :=
      fillCache_closed policy opened.connected enough closed
    refine ⟨error, c', _, ?_, .inr rfl, ?_, keeps, connected, closed'⟩
    · have empty : readFromCache f n = (-1, [], f) := by
        simp [readFromCache, eof, dropped]
      simp only [readPass, List.length_nil, Nat.sub_zero, empty, List.append_nil]
      rw [if_neg (by decide), hfill]
      simp only [Option.bind_some]
      rw [if_pos notZero]
    · rintro (h | h)
      · exact absurd h notZero
      · exact absurd h notEof

theorem tnfsLseek_closed (policy : Policy) (opened : Opened c i f)
    (enough : c.mInfo.maxRetries + 1 < fuel) (closed : c.net.handles f.handleId = none)
    (dropped : f.cacheAvailable = 0) {type : UInt8} (accepted : IsSeekType type)
    (position : Int) :
    ∃ result c', tnfsLseek (transaction (net policy) fuel) f.handleId.toNat position type false c =
        some ((result, none), { c' with mInfo := c'.mInfo.setFile i f.dropCache }) ∧
      result ≠ 0 ∧ Keeps c.mInfo c'.mInfo ∧ Connected c' ∧ c'.net.handles f.handleId = none := by
  obtain ⟨reply, c', htx, keeps, connected, closed', hreply⟩ :=
    opened.connected.request_closed policy enough closed Cmd.lseek
      (lseekPayload f.handleId type position) (by decide) (by decide) (by simp [lseekPayload])
      (execute_lseek_closed closed type position)
  have typeOk : ¬ (type ≠ seekSet ∧ type ≠ seekCur ∧ type ≠ seekEnd) := by
    rcases accepted with h | h | h <;> simp [h]
  have miss : cacheSeek f position type = none := by rw [cacheSeek, if_pos dropped]
  have request : [f.handleId, type] ++ le32 (toUint32 position) =
    lseekPayload f.handleId type position := rfl
  rw [show (lseekPayload f.handleId type position).length = 6 from rfl] at htx
  simp only [tnfsLseek, validAsUint8_toNat, if_neg typeOk, opened.lookup, opened.slot,
    Option.bind_eq_bind, Option.bind_some, Bool.false_eq_true, if_false, miss, request, htx]
  cases reply with
  | none => exact ⟨-1, c', rfl, by decide, keeps, connected, closed'⟩
  | some p =>
      have failed := (hreply p rfl).1
      refine ⟨code (p.payloadByte 0), c', ?_, code_ne failed, keeps, connected, closed'⟩
      simp only [if_neg failed]
      rfl

end

/-! ## The invariant -/

/-- A file opened for reading. Its window holds the file's bytes, and its positions fit
together as long as the server knows the handle. -/
structure Tracked (fuel : Nat) (c : Client FileServer) (i : Fin maxFileHandles)
    (f : FileHandleInfo) (g : OpenFile) (F : List UInt8) : Prop where
  opened : Opened c i f
  enough : c.mInfo.maxRetries + 1 < fuel
  enough' : 1051 < fuel
  small : F.length < word
  window : Window f F
  size : f.fileSize = F.length
  state : InStep f c.net g F ∨ c.net.handles f.handleId = none ∧ f.cacheAvailable = 0

/-- An operation stays harmless for later reads when it fails: the session has expired,
or the server has not moved and stands where the client stands. A read has the client
there if the READ that failed was the first of its filling. -/
def FailureRule (h : UInt8) : FileOp → Client FileServer → Answer → Client FileServer → Prop
  | .read n, c, _, c' => 0 < n ∧ n ≤ 525 ∧
      ∀ i, c'.net.incidents = i :: c.net.incidents →
        i.choice = .expire ∨ i.after = i.before ∧ i.payload = readPayload h 512
  | .lseek position type, c, answer, c' => IsSeekType type ∧ IsInt32 position ∧
      (answer.result ≠ 0 → c.net.handles h = none ∨
        (∃ i, c'.net.incidents = i :: c.net.incidents ∧ i.choice = .expire) ∨
        CaughtUp c h ∧ ∀ i, c'.net.incidents = i :: c.net.incidents → i.after = i.before)
  | .write _, _, _, _ => False

theorem readPayload_inj {h : UInt8} {j k : Nat} (hj : j < 65536) (hk : k < 65536)
    (same : readPayload h j = readPayload h k) : j = k := by
  simp only [readPayload, List.cons.injEq, true_and, and_true] at same
  rw [← u16_lobyte_hibyte hj, ← u16_lobyte_hibyte hk, same.1, same.2]

section

variable {policy : Policy} {fuel n : Nat} {c : Client FileServer} {f : FileHandleInfo}
  {i : Fin maxFileHandles} {g : OpenFile} {F : List UInt8}

/-- A read, whatever the server does. It delivers bytes at the client's position, and all
of them unless it reports an error. -/
theorem Tracked.read (policy : Policy) (tracked : Tracked fuel c i f g F) (hn : 0 < n)
    (hn' : n ≤ 525) :
    ∃ result data c' f', (FileOp.read n).perform (transaction (net policy) fuel) fuel
        f.handleId.toNat c = some (⟨result, data, 0⟩, c') ∧
      Opened c' i f' ∧ Delivered f F data f' ∧
      (result = 0 ∨ result = code Result.endOfFile → data = slice F f.cachedPos n) ∧
      (FailureRule f.handleId (.read n) c ⟨result, data, 0⟩ c' → Tracked fuel c' i f' g F) := by
  have enough := tracked.enough
  rcases tracked.state with inStep | ⟨closed, dropped⟩
  · obtain ⟨result, c', f', data, hread, opened', hend⟩ := tnfsRead_spec policy tracked.opened
      enough tracked.enough' tracked.small tracked.window inStep.ahead hn hn'
    refine ⟨result, data, _, f', by simp only [FileOp.perform, hread, Option.map_some], opened', ?_⟩
    cases hend with
    | done delivered inStep' keeps connected quiet count hresult =>
        rw [inStep.meets, tracked.window.readCount_eq tracked.size] at count
        refine ⟨delivered, fun _ => ?_, fun _ => ⟨opened', keeps.maxRetries ▸ enough,
          tracked.enough', tracked.small, delivered.window, delivered.fileSize.trans tracked.size,
          .inl inStep'.inStep⟩⟩
        rw [delivered.bytes, count, ← length_slice, slice_length_slice]
    | @failed incident k delivered _ keeps connected reported lt dropped position occurs =>
        refine ⟨delivered, ?_, fun rule => ⟨opened', keeps.maxRetries ▸ enough, tracked.enough',
          tracked.small, delivered.window, delivered.fileSize.trans tracked.size, ?_⟩⟩
        · rintro (h | h)
          · exact absurd h reported.notZero
          · exact absurd h reported.notEof
        · have occurs := occurs.occurs
          have leaves := occurs.leaves
          rcases rule.2.2 incident occurs.incidents with expired | ⟨unmoved, first⟩
          · rw [Incident.Leaves, if_pos expired] at leaves
            exact .inr ⟨leaves.1 _, dropped⟩
          · rw [occurs.payload] at first
            have := readPayload_inj (by omega) (by omega) first
            rw [Incident.Leaves] at leaves
            split_ifs at leaves with expired
            · exact .inr ⟨leaves.1 _, dropped⟩
            · refine .inl ⟨?_, ?_⟩
              · rw [FileHandleInfo.windowEnd, if_pos dropped]
                omega
              · rw [unmoved, occurs.before] at leaves
                exact delivered.handleId ▸ leaves
  · obtain ⟨result, c', f', hread, same, eof, keeps, connected, closed'⟩ :=
      tnfsRead_closed policy tracked.opened enough closed dropped hn'
    have handle : f'.handleId = f.handleId := by rcases same with rfl | rfl <;> rfl
    have opened' := tracked.opened.setFile keeps connected handle
    have delivered : Delivered f F [] f' := by
      have window := tracked.window
      rcases same with rfl | rfl
      · exact ⟨window, by simp, rfl, rfl, rfl, rfl⟩
      · exact ⟨⟨window.length, Nat.zero_le _, by simp, by simp, by simp, window.position⟩, by simp,
          rfl, rfl, rfl, rfl⟩
    have dropped' : f'.cacheAvailable = 0 := by rcases same with rfl | rfl <;> first | exact dropped | rfl
    refine ⟨result, [], _, f', by simp only [FileOp.perform, hread, Option.map_some], opened',
      delivered, fun ok => ?_, fun _ => ⟨opened', keeps.maxRetries ▸ enough, tracked.enough',
        tracked.small, delivered.window, delivered.fileSize.trans tracked.size,
        .inr ⟨handle ▸ closed', dropped'⟩⟩⟩
    rw [slice_of_length_le F f.cachedPos n (tracked.size ▸ eof ok)]

/-- A seek, whatever the server does. If it fails, the client stays where it was. -/
theorem Tracked.lseek (policy : Policy) (tracked : Tracked fuel c i f g F) {position : Int}
    {type : UInt8} (accepted : IsSeekType type) (offset : IsInt32 position) :
    ∃ result c' f', (FileOp.lseek position type).perform (transaction (net policy) fuel) fuel
        f.handleId.toNat c = some (⟨result, [], 0⟩, c') ∧
      Opened c' i f' ∧ f'.handleId = f.handleId ∧ (result ≠ 0 → f'.cachedPos = f.cachedPos) ∧
      (FailureRule f.handleId (.lseek position type) c ⟨result, [], 0⟩ c' →
        Tracked fuel c' i f' g F) := by
  have enough := tracked.enough
  have small := tracked.small
  rcases tracked.state with inStep | ⟨closed, dropped⟩
  · obtain ⟨result, newPosition, c', f', hseek, opened', hend⟩ := tnfsLseek_spec policy position type
      tracked.opened enough small tracked.window inStep.at_q accepted (fun _ => offset)
    have known : c.net.handles f.handleId ≠ none := by
      rw [inStep.at_q.handle]
      simp
    have caughtUp (meets : CaughtUp c f.handleId) : f.filePosition = f.dropCache.windowEnd :=
      (meets f tracked.opened.file).symm
    refine ⟨result, _, f', by simp only [FileOp.perform, hseek, Option.map_some], opened', ?_⟩
    cases hend with
    | inside inWindow hresult hc hf =>
        subst hc hf
        refine ⟨rfl, fun failed => absurd hresult failed, fun _ => ⟨opened', enough,
          tracked.enough', small, tracked.window.seek small inWindow, tracked.size,
          .inl ⟨?_, inStep.at_q⟩⟩⟩
        rw [FileHandleInfo.windowEnd, if_neg (Nat.ne_of_gt inWindow.1)]
        rw [inStep.meets, FileHandleInfo.windowEnd, if_neg (Nat.ne_of_gt inWindow.1)]
    | moved _ target inRange hresult hf keeps connected at_d =>
        rw [destination_of_target inRange (fun _ => tracked.size) accepted target] at hf
        subst hf
        exact ⟨rfl, fun failed => absurd hresult failed, fun _ => ⟨opened',
          keeps.maxRetries ▸ enough, tracked.enough', small, tracked.window.movedTo inRange F,
          tracked.size, .inl ⟨rfl, at_d⟩⟩⟩
    | invalid _ _ hresult hf keeps connected at_q quiet =>
        subst hf
        refine ⟨rfl, fun _ => rfl, fun rule => ⟨opened', keeps.maxRetries ▸ enough,
          tracked.enough', small, tracked.window.dropCache, tracked.size, .inl ⟨?_, at_q⟩⟩⟩
        rcases rule.2.2 hresult with closed | ⟨incident, happened, -⟩ | ⟨meets, -⟩
        · exact absurd closed known
        · have := congrArg List.length (quiet.symm.trans happened)
          simp at this
        · exact caughtUp meets
    | @failed incident _ hresult hf keeps connected occurs =>
        subst hf
        refine ⟨rfl, fun _ => rfl, fun rule => ⟨opened', keeps.maxRetries ▸ enough,
          tracked.enough', small, tracked.window.dropCache, tracked.size, ?_⟩⟩
        have leaves := occurs.leaves
        rw [Incident.Leaves] at leaves
        split_ifs at leaves with expired
        · exact .inr ⟨leaves.1 _, rfl⟩
        · rcases rule.2.2 hresult with closed | ⟨incident', happened, expired'⟩ | ⟨meets, unmoved⟩
          · exact absurd closed known
          · rw [occurs.incidents, List.cons.injEq] at happened
            exact absurd (happened.1 ▸ expired') expired
          · rw [unmoved incident occurs.incidents, occurs.before] at leaves
            exact .inl ⟨caughtUp meets, leaves⟩
  · obtain ⟨result, c', hseek, failed, keeps, connected, closed'⟩ :=
      tnfsLseek_closed policy tracked.opened enough closed dropped accepted position
    have opened' : Opened { c' with mInfo := c'.mInfo.setFile i f.dropCache } i f.dropCache :=
      tracked.opened.setFile keeps connected rfl
    exact ⟨result, _, f.dropCache, by simp only [FileOp.perform, hseek, Option.map_some], opened',
      rfl, fun _ => rfl, fun _ => ⟨opened', keeps.maxRetries ▸ enough, tracked.enough', small,
        tracked.window.dropCache, tracked.size, .inr ⟨closed', rfl⟩⟩⟩

/-- Every harmless step keeps track of the file. -/
theorem Tracked.step {op : FileOp} {answer : Answer} {c' : Client FileServer}
    (tracked : Tracked fuel c i f g F)
    (performed : op.perform (transaction (net policy) fuel) fuel f.handleId.toNat c =
      some (answer, c')) (rule : FailureRule f.handleId op c answer c') :
    ∃ f', Tracked fuel c' i f' g F ∧ f'.handleId = f.handleId := by
  cases op with
  | read n =>
      obtain ⟨result, data, c'', f', performed', -, delivered, -, next⟩ :=
        tracked.read policy rule.1 rule.2.1
      rw [performed, Option.some.injEq, Prod.mk.injEq] at performed'
      obtain ⟨rfl, rfl⟩ := performed'
      exact ⟨f', next rule, delivered.handleId⟩
  | lseek position type =>
      obtain ⟨result, c'', f', performed', -, handle, -, next⟩ :=
        tracked.lseek policy rule.1 rule.2.1
      rw [performed, Option.some.injEq, Prod.mk.injEq] at performed'
      obtain ⟨rfl, rfl⟩ := performed'
      exact ⟨f', next rule, handle⟩
  | write bytes => exact rule.elim

end

/-! ## Runs -/

/-- The client `c` opens a file with content `F` for reading, gets the handle `h`, and a
run of reads and seeks, in which failures are harmless, leads to `c'`. -/
structure FailureRun (policy : Policy) (fuel : Nat) (c : Client FileServer)
    (source F : List UInt8) (perms : UInt16) (h : UInt8) (c' : Client FileServer) : Prop where
  grantsStat : policy.Grants Cmd.stat
  grantsOpen : policy.Grants Cmd.open_
  can : CanOpen c source openmodeRead F
  known : Known c
  enough : c.mInfo.maxRetries + 1 < fuel
  enough' : 1051 < fuel
  reached : ∃ c₁, tnfsOpen (transaction (net policy) fuel) source openmodeRead perms c =
      some ((code Result.success, (h.toNat : Int)), c₁) ∧
    Machine.Reaches (FileOp.perform (transaction (net policy) fuel) fuel h.toNat) (FailureRule h)
      c₁ c'

theorem FailureRun.tracked {policy : Policy} {fuel : Nat} {c c' : Client FileServer}
    {source F : List UInt8} {perms : UInt16} {h : UInt8}
    (run : FailureRun policy fuel c source F perms h c') :
    ∃ i f, Tracked fuel c' i f ⟨joinPath c.mInfo.currentWorkingDirectory source, 0, false⟩ F ∧
      f.handleId = h := by
  obtain ⟨c₁, hopen, reached⟩ := run.reached
  have enough := run.enough
  obtain ⟨i, f, c₁', hopen', just⟩ := tnfsOpen_spec perms run.grantsStat run.grantsOpen
    run.can (by omega : 0 < fuel) (by decide)
  rw [hopen] at hopen'
  simp only [Option.some.injEq, Prod.mk.injEq, Int.natCast_inj, UInt8.toNat_inj, true_and]
    at hopen'
  obtain ⟨rfl, rfl⟩ := hopen'
  have synced := just.synced run.known enough run.enough' run.can.length_lt
  have start : Tracked fuel c₁ i f ⟨joinPath c.mInfo.currentWorkingDirectory source, 0, false⟩ F :=
    ⟨synced.opened, synced.enough, synced.enough', synced.small, synced.window, just.size,
      .inl just.inStep⟩
  refine reached.invariant (fun c' => ∃ i f', Tracked fuel c' i f'
    ⟨joinPath c.mInfo.currentWorkingDirectory source, 0, false⟩ F ∧ f'.handleId = f.handleId)
    ⟨i, f, start, rfl⟩ ?_
  rintro op c answer c' ⟨i, f', tracked, handle⟩ performed rule
  rw [← handle] at performed rule
  obtain ⟨f'', tracked', handle'⟩ := tracked.step performed rule
  exact ⟨i, f'', tracked', handle'.trans handle⟩

/-- In every state of such a run, with the client at `cached_pos`: a read delivers bytes of
the file from there and advances the client past them, all of them unless it reports an
error; and a failed seek leaves the client where it is. -/
theorem failures_do_not_shift_reads {policy : Policy} {fuel : Nat} {c c₂ : Client FileServer}
    {source F : List UInt8} {perms : UInt16} {h : UInt8}
    (run : FailureRun policy fuel c source F perms h c₂) :
    ∃ f, c₂.file h = some f ∧
      (∀ n, 0 < n → n ≤ 525 → ∃ answer c₃ f₃,
        (FileOp.read n).perform (transaction (net policy) fuel) fuel h.toNat c₂ =
          some (answer, c₃) ∧
        c₃.file h = some f₃ ∧ f₃.cachedPos = f.cachedPos + answer.data.length ∧
        answer.data = slice F f.cachedPos answer.data.length ∧
        (answer.result = 0 ∨ answer.result = code Result.endOfFile →
          answer.data = slice F f.cachedPos n)) ∧
      (∀ position type, IsSeekType type → IsInt32 position → ∃ answer c₃ f₃,
        (FileOp.lseek position type).perform (transaction (net policy) fuel) fuel h.toNat c₂ =
          some (answer, c₃) ∧
        c₃.file h = some f₃ ∧ (answer.result ≠ 0 → f₃.cachedPos = f.cachedPos)) := by
  obtain ⟨i, f, tracked, rfl⟩ := run.tracked
  refine ⟨f, tracked.opened.file, fun n hn hn' => ?_, fun position type accepted offset => ?_⟩
  · obtain ⟨result, data, c₃, f₃, performed, opened, delivered, all, -⟩ :=
      tracked.read policy hn hn'
    exact ⟨_, c₃, f₃, performed, delivered.handleId ▸ opened.file, delivered.position,
      delivered.bytes, all⟩
  · obtain ⟨result, c₃, f₃, performed, opened, handle, stays, -⟩ :=
      tracked.lseek policy accepted offset
    exact ⟨_, c₃, f₃, performed, handle ▸ opened.file, stays⟩

/-- A server that treats one READ of a file in its own way and grants everything else. -/
def oddRead (time : Nat) (choice : Choice) (n : Nat) : Policy := fun command t =>
  if command = Cmd.read ∧ t = time then choice else .grant n

theorem oddRead_grants (time : Nat) (choice : Choice) (n : Nat) {command : UInt8}
    (notRead : command ≠ Cmd.read) : (oddRead time choice n).Grants command :=
  fun _ => ⟨n, if_neg fun h => notRead h.1⟩

/-- The first READ is refused; the client is still at the start and reads from there. -/
theorem failures_do_not_shift_reads_of_first_read :
    ∃ (c₂ c₃ : Client FileServer) (f : FileHandleInfo) (answer : Answer),
      FailureRun (oddRead 2 (.refuse 5) 512) 1052 (freshClient fun _ => some [1, 2, 3]) [0x61]
        [1, 2, 3] 0 0 c₂ ∧
      c₂.net.incidents = [⟨Cmd.read, readPayload 0 512, .refuse 5, 0, 0⟩] ∧ c₂.file 0 = some f ∧
      (FileOp.read 2).perform (transaction (net (oddRead 2 (.refuse 5) 512)) 1052) 1052 0 c₂ =
        some (answer, c₃) ∧
      answer.data = slice [1, 2, 3] f.cachedPos answer.data.length := by
  have computed : ((tnfsOpen (transaction (net (oddRead 2 (.refuse 5) 512)) 1052) [0x61]
      openmodeRead 0 (freshClient fun _ => some [1, 2, 3])).bind fun (r, c₁) =>
    ((FileOp.read 1).perform (transaction (net (oddRead 2 (.refuse 5) 512)) 1052) 1052 0
      c₁).map fun (_, c₂) => (r, c₁.net.incidents, c₂.net.incidents)) =
      some ((0, 0), [], [⟨Cmd.read, readPayload 0 512, .refuse 5, 0, 0⟩]) := by
    decide +kernel
  simp only [Option.bind_eq_some_iff, Option.map_eq_some_iff, Prod.exists, Prod.mk.injEq]
    at computed
  obtain ⟨_, _, c₁, hopen, a₁, c₂, h₁, ⟨rfl, rfl⟩, quiet, happened⟩ := computed
  have run : FailureRun (oddRead 2 (.refuse 5) 512) 1052 (freshClient fun _ => some [1, 2, 3])
      [0x61] [1, 2, 3] 0 0 c₂ := by
    refine ⟨oddRead_grants _ _ _ (by decide), oddRead_grants _ _ _ (by decide),
      canOpen_three_bytes openmodeRead (by decide), known_freshClient _, by decide, by decide, c₁,
      hopen, Machine.Reaches.refl.next h₁ ⟨by decide, by decide, fun i hi => .inr ?_⟩⟩
    rw [happened, quiet, List.cons.injEq] at hi
    rw [← hi.1]
    exact ⟨rfl, rfl⟩
  obtain ⟨f, file, reads, -⟩ := failures_do_not_shift_reads run
  obtain ⟨answer, c₃, f₃, performed, -, -, bytes, -⟩ := reads 2 (by decide) (by decide)
  exact ⟨c₂, c₃, f, answer, run, happened, file, performed, bytes⟩

/-- Two failed reads of one byte, after which the client is still at the start of the file.
When the second READ of the filling is refused, the next read of two bytes finds the end
of the file; when the first READ is carried out and its reply lost, the next read
succeeds with the bytes from position 1 on. -/
theorem failed_read_shifts_next_read :
    (∃ (c₁ c₂ c₃ : Client FileServer) (f : FileHandleInfo),
      tnfsOpen (transaction (net (oddRead 3 (.refuse 5) 1)) 1052) [0x61] openmodeRead 0
        (freshClient fun _ => some [1, 2, 3]) = some ((0, 1), c₁) ∧
      (FileOp.read 1).perform (transaction (net (oddRead 3 (.refuse 5) 1)) 1052) 1052 1 c₁ =
        some (⟨5, [], 0⟩, c₂) ∧
      c₂.file 1 = some f ∧ f.cachedPos = 0 ∧
      (FileOp.read 2).perform (transaction (net (oddRead 3 (.refuse 5) 1)) 1052) 1052 1 c₂ =
        some (⟨code Result.endOfFile, [], 0⟩, c₃)) ∧
    ∃ (c₁ c₂ c₃ : Client FileServer) (f : FileHandleInfo),
      tnfsOpen (transaction (net (oddRead 2 (.loseReply 1) 512)) 1052) [0x61] openmodeRead 0
        (freshClient fun _ => some [1, 2, 3]) = some ((0, 0), c₁) ∧
      (FileOp.read 1).perform (transaction (net (oddRead 2 (.loseReply 1) 512)) 1052) 1052 0 c₁ =
        some (⟨-1, [], 0⟩, c₂) ∧
      c₂.file 0 = some f ∧ f.cachedPos = 0 ∧
      (FileOp.read 2).perform (transaction (net (oddRead 2 (.loseReply 1) 512)) 1052) 1052 0 c₂ =
        some (⟨0, [2, 3], 0⟩, c₃) := by
  constructor
  · have computed : ((tnfsOpen (transaction (net (oddRead 3 (.refuse 5) 1)) 1052) [0x61]
        openmodeRead 0 (freshClient fun _ => some [1, 2, 3])).bind fun (r, c₁) =>
      ((FileOp.read 1).perform (transaction (net (oddRead 3 (.refuse 5) 1)) 1052) 1052 1
        c₁).bind fun (a₁, c₂) =>
      ((FileOp.read 2).perform (transaction (net (oddRead 3 (.refuse 5) 1)) 1052) 1052 1
        c₂).map fun (a₂, _) => (r, [a₁, a₂], (c₂.file 1).map (·.cachedPos))) =
        some ((0, 1), [⟨5, [], 0⟩, ⟨0x21, [], 0⟩], some 0) := by
      decide +kernel
    simp only [Option.bind_eq_some_iff, Option.map_eq_some_iff, Prod.exists, Prod.mk.injEq,
      List.cons.injEq, and_true] at computed
    obtain ⟨_, _, c₁, hopen, a₁, c₂, h₁, a₂, c₃, h₂, ⟨rfl, rfl⟩, ⟨rfl, rfl⟩, f, file, position⟩ :=
      computed
    exact ⟨c₁, c₂, c₃, f, hopen, h₁, file, position, h₂⟩
  · have computed : ((tnfsOpen (transaction (net (oddRead 2 (.loseReply 1) 512)) 1052) [0x61]
        openmodeRead 0 (freshClient fun _ => some [1, 2, 3])).bind fun (r, c₁) =>
      ((FileOp.read 1).perform (transaction (net (oddRead 2 (.loseReply 1) 512)) 1052) 1052 0
        c₁).bind fun (a₁, c₂) =>
      ((FileOp.read 2).perform (transaction (net (oddRead 2 (.loseReply 1) 512)) 1052) 1052 0
        c₂).map fun (a₂, _) => (r, [a₁, a₂], (c₂.file 0).map (·.cachedPos))) =
        some ((0, 0), [⟨-1, [], 0⟩, ⟨0, [2, 3], 0⟩], some 0) := by
      decide +kernel
    simp only [Option.bind_eq_some_iff, Option.map_eq_some_iff, Prod.exists, Prod.mk.injEq,
      List.cons.injEq, and_true] at computed
    obtain ⟨_, _, c₁, hopen, a₁, c₂, h₁, a₂, c₃, h₂, ⟨rfl, rfl⟩, ⟨rfl, rfl⟩, f, file, position⟩ :=
      computed
    exact ⟨c₁, c₂, c₃, f, hopen, h₁, file, position, h₂⟩

end FujiNet.TNFS
