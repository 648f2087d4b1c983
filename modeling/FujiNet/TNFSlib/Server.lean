import FujiNet.TNFSlib.Exchange
import FujiNet.TNFSlib.File

/-!
# A TNFS server

The other party of the file operations: an executable server with files, open
handles and one session at a time. How it treats each request is left to a policy,
which sees the command and the number of requests handled before: it may grant the
request, refuse it, drop it, carry it out and lose the reply, or let the session
expire. Within a grant the policy chooses the length of a short READ and the handle
that OPEN gives out. Since the policy is arbitrary, a statement about every policy
is a statement about every choice such a server can make along a run.

Positions are unsigned 32-bit values; a request that would leave their range is
answered with an error. A request that was not answered stays unanswered when it is
sent again.
-/

namespace FujiNet.TNFS

/-- What the server does with a request. -/
inductive Choice where
  /-- Carry it out. The number is the length of a READ, or the handle of an OPEN. -/
  | grant (n : Nat)
  /-- Answer with an error. -/
  | refuse (result : UInt8)
  /-- The session has expired, and with it all handles. -/
  | expire
  /-- The request does not arrive. -/
  | lose
  /-- The request is carried out and the reply does not arrive. -/
  | loseReply (n : Nat)
  deriving DecidableEq, Repr

/-- The choice for a command, given the number of requests handled before. -/
abbrev Policy := UInt8 → Nat → Choice

/-- A file open at the server. -/
structure OpenFile where
  path : List UInt8
  position : Nat
  writable : Bool
  deriving DecidableEq, Repr

/-- A request that was not simply granted, with the position of its file before and
afterwards. -/
structure Incident where
  command : UInt8
  payload : List UInt8
  choice : Choice
  before : Nat
  after : Nat
  deriving DecidableEq, Repr

structure FileServer where
  session : Nat
  files : List UInt8 → Option (List UInt8)
  handles : UInt8 → Option OpenFile := fun _ => none
  clock : Nat := 0
  /-- The sequence number of the last request, if it was not answered. -/
  mute : Option UInt8 := none
  /-- What happened so far, latest first. -/
  incidents : List Incident := []

namespace FileServer

/-! ## Carrying out a request -/

def stat (s : FileServer) (path : List UInt8) : List UInt8 :=
  match s.files path with
  | none => [Result.fileNotFound]
  | some content =>
    Result.success :: List.replicate 6 0 ++ le32 content.length ++ List.replicate 12 0

/-- The handle given out by OPEN: the wanted one, or else the first free one. -/
def freeHandle (s : FileServer) (wanted : UInt8) : Option UInt8 :=
  (wanted :: (List.range 256).map UInt8.ofNat).find? fun h => (s.handles h).isNone

def openmodeCreate : UInt16 := 0x0100

def open_ (s : FileServer) (wanted : UInt8) (mode : UInt16) (path : List UInt8) :
    List UInt8 × FileServer :=
  match s.freeHandle wanted with
  | none => ([Result.tooManyFilesOpen], s)
  | some h =>
    let writes := mode &&& openmodeWrite ≠ 0
    let content :=
      match s.files path with
      | none => if writes ∧ mode &&& openmodeCreate ≠ 0 then some [] else none
      | some content => some (if writes ∧ mode &&& openmodeWriteTruncate ≠ 0 then [] else content)
    match content with
    | none => ([Result.fileNotFound], s)
    | some content =>
      ([Result.success, h], { s with
        files := Function.update s.files path (some content)
        handles := Function.update s.handles h (some ⟨path, 0, writes⟩) })

/-- Move the position of an open file. -/
def moveTo (s : FileServer) (h : UInt8) (f : OpenFile) (position : Nat) : FileServer :=
  { s with handles := Function.update s.handles h (some { f with position }) }

/-- READ gives at least one byte unless it is at the end, and never more than asked. -/
def read (s : FileServer) (n : Nat) (h : UInt8) (requested : Nat) : List UInt8 × FileServer :=
  match s.handles h with
  | none => ([Result.badFilenum], s)
  | some f =>
    let content := (s.files f.path).getD []
    if content.length ≤ f.position then ([Result.endOfFile], s)
    else
      let data := slice content f.position (min (max 1 n) (min requested maxReadwritePayload))
      (Result.success :: lobyte data.length :: hibyte data.length :: data,
        s.moveTo h f (f.position + data.length))

def write (s : FileServer) (h : UInt8) (bytes : List UInt8) : List UInt8 × FileServer :=
  match s.handles h with
  | none => ([Result.badFilenum], s)
  | some f =>
    if f.writable = false then ([Result.badFilenum], s)
    else if word ≤ f.position + bytes.length then ([Result.fileTooLarge], s)
    else
      let content := writeAt ((s.files f.path).getD []) f.position bytes
      ([Result.success, lobyte bytes.length, hibyte bytes.length],
        { s with files := Function.update s.files f.path (some content) }.moveTo h f
          (f.position + bytes.length))

def lseek (s : FileServer) (h type : UInt8) (offset : Nat) : List UInt8 × FileServer :=
  match s.handles h with
  | none => ([Result.badFilenum], s)
  | some f =>
    let destination : Int :=
      if type = seekSet then offset
      else if type = seekCur then f.position + i32 offset
      else ((s.files f.path).getD []).length + i32 offset
    if 0 ≤ destination ∧ destination < word then
      (Result.success :: le32 destination.toNat, s.moveTo h f destination.toNat)
    else ([Result.invalidArgument], s)

def close (s : FileServer) (h : UInt8) : List UInt8 × FileServer :=
  match s.handles h with
  | none => ([Result.badFilenum], s)
  | some _ => ([Result.success], { s with handles := Function.update s.handles h none })

/-- Carry out a request and reply. -/
def execute (s : FileServer) (n : Nat) (command : UInt8) (payload : List UInt8) :
    List UInt8 × FileServer :=
  if command = Cmd.stat then (s.stat (payload.takeWhile (· ≠ 0)), s)
  else if command = Cmd.open_ then
    s.open_ (UInt8.ofNat n) (UInt16.ofNat (u16 (payload.getD 0 0) (payload.getD 1 0)))
      ((payload.drop 4).takeWhile (· ≠ 0))
  else if command = Cmd.read then
    s.read n (payload.getD 0 0) (u16 (payload.getD 1 0) (payload.getD 2 0))
  else if command = Cmd.write then
    s.write (payload.getD 0 0)
      ((payload.drop 3).take (u16 (payload.getD 1 0) (payload.getD 2 0)))
  else if command = Cmd.lseek then
    s.lseek (payload.getD 0 0) (payload.getD 1 0)
      (u32 (payload.getD 2 0) (payload.getD 3 0) (payload.getD 4 0) (payload.getD 5 0))
  else if command = Cmd.close then s.close (payload.getD 0 0)
  else ([Result.functionUnimplemented], s)

/-! ## The policy -/

/-- An error code; those with a meaning of their own are replaced. -/
def refusal (result : UInt8) : UInt8 :=
  if result ∈ [Result.success, Result.tryAgain, Result.endOfFile, Result.invalidHandle] then 0x03
  else result

/-- The position of the file a request is about. -/
def positionOf (s : FileServer) (payload : List UInt8) : Nat :=
  ((s.handles (payload.getD 0 0)).map OpenFile.position).getD 0

/-- The next session, in which no handle is open. -/
def newSession (s : FileServer) : FileServer :=
  { s with session := s.session % 65535 + 1, handles := fun _ => none, mute := none }

/-- Go on to the next request. -/
def tick (s : FileServer) : FileServer := { s with clock := s.clock + 1, mute := none }

def note (s : FileServer) (incident : Incident) : FileServer :=
  { s with incidents := incident :: s.incidents }

/-- What becomes of a request of the current session. -/
inductive Fate where
  | answered (reply : List UInt8)
  | expired
  | silent
  deriving DecidableEq, Repr

def fate (policy : Policy) (command : UInt8) (payload : List UInt8) (s : FileServer) :
    Fate × FileServer :=
  let choice := policy command s.clock
  let position := s.positionOf payload
  match choice with
  | .grant n =>
    let (reply, s) := s.execute n command payload
    (.answered reply, s.tick)
  | .refuse result =>
    (.answered [refusal result], (s.note ⟨command, payload, choice, position, position⟩).tick)
  | .expire => (.expired, (s.note ⟨command, payload, choice, position, position⟩).tick.newSession)
  | .lose => (.silent, (s.note ⟨command, payload, choice, position, position⟩).tick)
  | .loseReply n =>
    let (_, s) := s.execute n command payload
    (.silent, (s.note ⟨command, payload, choice, position, s.positionOf payload⟩).tick)

/-- The reply to a datagram, if there is one. -/
def respond (policy : Policy) (d : List UInt8) (s : FileServer) :
    Option (List UInt8) × FileServer :=
  match d with
  | lo :: hi :: seq :: command :: payload =>
    if s.mute = some seq then (none, s)
    else if command = Cmd.mount then
      let s := s.newSession
      (some [lobyte s.session, hibyte s.session, seq, command, Result.success, 2, 1, 0, 0], s)
    else if u16 lo hi ≠ s.session then
      (some [lo, hi, seq, command, Result.invalidHandle], { s with mute := none })
    else
      match s.fate policy command payload with
      | (.answered reply, s) => (some (lo :: hi :: seq :: command :: reply), s)
      | (.expired, s) => (some [lo, hi, seq, command, Result.invalidHandle], s)
      | (.silent, s) => (none, { s with mute := some seq })
  | _ => (none, s)

/-- The server as the network of a client. -/
def net (policy : Policy) : Net FileServer where
  send d s :=
    let (reply, s) := s.respond policy d
    (some (reply.toList.map fun datagram => { datagram }), s)

/-! ## What replies look like -/

/-- A reply that ends a transaction: it fits the packet and neither asks to try again
nor reports an expired session. -/
structure Conclusive (reply : List UInt8) : Prop where
  fits : reply.length ≤ 528
  first : ∃ result, reply.head? = some result ∧ result ≠ Result.tryAgain ∧
    result ≠ Result.invalidHandle

theorem conclusive_of_head {result : UInt8} {rest : List UInt8} (fits : rest.length ≤ 527)
    (ok : result ≠ Result.tryAgain ∧ result ≠ Result.invalidHandle) :
    Conclusive (result :: rest) :=
  ⟨by simp only [List.length_cons]; omega, result, rfl, ok⟩

theorem conclusive_execute (s : FileServer) (n : Nat) (command : UInt8) (payload : List UInt8) :
    Conclusive (s.execute n command payload).1 := by
  simp only [execute]
  split_ifs
  · simp only [stat]
    split <;> exact conclusive_of_head (by simp) (by decide)
  · simp only [open_]
    split
    · exact conclusive_of_head (by simp) (by decide)
    · split <;> exact conclusive_of_head (by simp) (by decide)
  · simp only [read]
    split
    · exact conclusive_of_head (by simp) (by decide)
    · split
      · exact conclusive_of_head (by simp) (by decide)
      · refine conclusive_of_head ?_ (by decide)
        simp only [List.length_cons, length_slice, maxReadwritePayload, payloadSize]
        omega
  · simp only [write]
    split
    · exact conclusive_of_head (by simp) (by decide)
    · split_ifs <;> exact conclusive_of_head (by simp) (by decide)
  · simp only [lseek]
    split
    · exact conclusive_of_head (by simp) (by decide)
    · split_ifs <;> exact conclusive_of_head (by simp) (by decide)
  · simp only [close]
    split <;> exact conclusive_of_head (by simp) (by decide)
  · exact conclusive_of_head (by simp) (by decide)

theorem refusal_ne (result : UInt8) : refusal result ≠ Result.success ∧
    refusal result ≠ Result.tryAgain ∧ refusal result ≠ Result.endOfFile ∧
    refusal result ≠ Result.invalidHandle := by
  simp only [refusal]
  split_ifs with h
  · decide
  · simpa only [List.mem_cons, List.not_mem_nil, or_false, not_or] using h

theorem conclusive_of_fate {policy : Policy} {command : UInt8} {payload : List UInt8}
    {s s' : FileServer} {reply : List UInt8}
    (h : s.fate policy command payload = (.answered reply, s')) : Conclusive reply := by
  simp only [fate] at h
  split at h
  · rename_i n _
    obtain ⟨rfl, -⟩ : (s.execute n command payload).1 = reply ∧ _ := by simpa using h
    exact conclusive_execute s n command payload
  · rename_i result _
    obtain ⟨rfl, -⟩ : [refusal result] = reply ∧ _ := by simpa using h
    exact conclusive_of_head (by simp) ⟨(refusal_ne result).2.1, (refusal_ne result).2.2.2⟩
  all_goals simp at h

end FileServer

end FujiNet.TNFS
