import FujiNet.Control.Machine
import FujiNet.Data.Ring

/-!
# The receive buffer of the NetSIO port

The bytes that were received lie in a ring. Its two positions are the same when it is empty and when
it is full, and a flag tells which of the two it is.
-/

namespace FujiNet.NetSIO

/-- `sizeof(_rxbuf)`. -/
abbrev SIZEOF_RXBUF : Nat := 1024

/-- The members of `NetSioPort` that make up the ring. -/
structure RxBuffer where
  rxbuf : Vector UInt8 SIZEOF_RXBUF
  rxhead : Nat
  rxtail : Nat
  rxfull : Bool
  rxhead_lt : rxhead < SIZEOF_RXBUF
  rxtail_lt : rxtail < SIZEOF_RXBUF
  met : rxfull = true → rxhead = rxtail

namespace RxBuffer

/-- After the constructor, which does not fill the buffer. -/
def initial (rxbuf : Vector UInt8 SIZEOF_RXBUF) : RxBuffer :=
  ⟨rxbuf, 0, 0, false, by decide, by decide, nofun⟩

def rxbufferEmpty (s : RxBuffer) : Bool := s.rxhead = s.rxtail && !s.rxfull

theorem next_lt (i : Nat) : (i + 1) % SIZEOF_RXBUF < SIZEOF_RXBUF := Nat.mod_lt _ (by decide)

def rxbufferPut (b : UInt8) (s : RxBuffer) : Bool × RxBuffer :=
  let rxbuf := s.rxbuf.set s.rxhead b s.rxhead_lt
  let rxhead := (s.rxhead + 1) % SIZEOF_RXBUF
  if s.rxfull then (true, ⟨rxbuf, rxhead, rxhead, s.rxfull, next_lt _, next_lt _, fun _ => rfl⟩)
  else
    (false, ⟨rxbuf, rxhead, s.rxtail, decide (rxhead = s.rxtail), next_lt _, s.rxtail_lt,
      of_decide_eq_true⟩)

def rxbufferGet (s : RxBuffer) : Int × RxBuffer :=
  if s.rxbufferEmpty then (-1, s)
  else
    ((s.rxbuf.get ⟨s.rxtail, s.rxtail_lt⟩).toNat,
      ⟨s.rxbuf, s.rxhead, (s.rxtail + 1) % SIZEOF_RXBUF, false, s.rxhead_lt, next_lt _, nofun⟩)

def rxbufferAvailable (s : RxBuffer) : Int :=
  let avail : Int := s.rxhead - s.rxtail
  if avail < 0 ∨ avail = 0 ∧ s.rxfull then avail + SIZEOF_RXBUF else avail

def rxbufferFlush (s : RxBuffer) : RxBuffer :=
  ⟨s.rxbuf, s.rxhead, s.rxhead, false, s.rxhead_lt, s.rxhead_lt, nofun⟩

end RxBuffer

/-! ## The queue in the ring -/

inductive RxCall
  | put (b : UInt8)
  | get
  | available
  | flush

inductive RxAnswer
  | lost (lost : Bool)
  | byte (b : Int)
  | available (avail : Int)
  | done
deriving DecidableEq

def RxCall.onRing (call : RxCall) (s : RxBuffer) : RxAnswer × RxBuffer :=
  match call with
  | .put b => (.lost (s.rxbufferPut b).1, (s.rxbufferPut b).2)
  | .get => (.byte s.rxbufferGet.1, s.rxbufferGet.2)
  | .available => (.available s.rxbufferAvailable, s)
  | .flush => (.done, s.rxbufferFlush)

/-- The queue that the ring stands for. -/
abbrev RxQueue := BoundedQueue UInt8 SIZEOF_RXBUF

/-- The byte, or -1 when there is none. -/
def byteOrNone (b : Option UInt8) : Int := b.elim (-1) fun b => b.toNat

def RxCall.onQueue (call : RxCall) (q : RxQueue) : RxAnswer × RxQueue :=
  match call with
  | .put b => (.lost (q.put b).1, (q.put b).2)
  | .get => (.byte (byteOrNone q.get.1), q.get.2)
  | .available => (.available q.items.length, q)
  | .flush => (.done, .empty)

namespace RxBuffer

/-- The number of bytes in the ring. -/
def used (s : RxBuffer) : Nat :=
  if s.rxfull then SIZEOF_RXBUF else (s.rxhead + SIZEOF_RXBUF - s.rxtail) % SIZEOF_RXBUF

def contents (s : RxBuffer) : List UInt8 := segment s.rxbuf s.rxtail s.used

variable (s : RxBuffer)

theorem length_contents : s.contents.length = s.used := length_segment

theorem used_of_full {s : RxBuffer} (full : s.rxfull = true) : s.used = SIZEOF_RXBUF := if_pos full

theorem used_lt {s : RxBuffer} (room : s.rxfull = false) : s.used < SIZEOF_RXBUF := by
  rw [used, room, if_neg Bool.false_ne_true]
  exact Nat.mod_lt _ (by decide)

theorem rxhead_eq : s.rxhead = (s.rxtail + s.used) % SIZEOF_RXBUF := by
  have head := s.rxhead_lt
  have tail := s.rxtail_lt
  have met := s.met
  unfold used SIZEOF_RXBUF at *
  split_ifs with full
  · have same := met full
    omega
  · omega

/-- The ring is empty exactly when nothing is in it. -/
theorem rxbufferEmpty_iff : s.rxbufferEmpty = true ↔ s.used = 0 := by
  have head := s.rxhead_lt
  have tail := s.rxtail_lt
  rw [rxbufferEmpty, Bool.and_eq_true, decide_eq_true_eq, Bool.not_eq_true']
  unfold used SIZEOF_RXBUF at *
  cases full : s.rxfull with
  | true => simp
  | false =>
      rw [if_neg Bool.false_ne_true]
      simp only [and_true]
      omega

theorem rxbufferAvailable_eq : s.rxbufferAvailable = s.used := by
  have head := s.rxhead_lt
  have tail := s.rxtail_lt
  have met := s.met
  unfold rxbufferAvailable used SIZEOF_RXBUF at *
  cases full : s.rxfull with
  | true =>
      have same := met full
      rw [if_pos (.inr ⟨by omega, rfl⟩), if_pos rfl]
      omega
  | false =>
      rw [if_neg Bool.false_ne_true]
      simp only [Bool.false_eq_true, and_false, or_false]
      split_ifs <;> omega

/-- A byte more is in a ring that was not full. -/
theorem used_rxbufferPut {s : RxBuffer} (room : s.rxfull = false) (b : UInt8) :
    (s.rxbufferPut b).2.used = s.used + 1 := by
  have head := s.rxhead_lt
  have tail := s.rxtail_lt
  rw [rxbufferPut, room, if_neg Bool.false_ne_true]
  unfold used SIZEOF_RXBUF at *
  rw [room, if_neg Bool.false_ne_true]
  dsimp only
  split_ifs with full
  · have met := of_decide_eq_true full
    omega
  · have apart := of_decide_eq_false (Bool.eq_false_iff.mpr full)
    omega

/-- A byte less is in a ring that was not empty. -/
theorem used_rxbufferGet {s : RxBuffer} {used : Nat} (some : s.used = used + 1) :
    (s.rxbufferGet).2.used = used := by
  have head := s.rxhead_lt
  have tail := s.rxtail_lt
  have met := s.met
  have nonempty : s.rxbufferEmpty ≠ true := by
    rw [ne_eq, s.rxbufferEmpty_iff, some]
    exact Nat.succ_ne_zero used
  rw [rxbufferGet, if_neg nonempty]
  unfold RxBuffer.used SIZEOF_RXBUF at *
  rw [if_neg Bool.false_ne_true]
  dsimp only
  split_ifs at some with full
  · have same := met full
    omega
  · omega

/-- A byte that is put in joins the others; in a full ring it takes the place of the oldest. -/
theorem contents_rxbufferPut (b : UInt8) :
    (s.rxbufferPut b).1 = s.rxfull ∧ (s.rxbufferPut b).2.contents =
      if s.rxfull then (s.contents ++ [b]).tail else s.contents ++ [b] := by
  have head := s.rxhead_lt
  cases full : s.rxfull with
  | true =>
      have stored : segment (s.rxbuf.set s.rxhead b head) (s.rxhead + 1) (1023 + 1) =
          segment s.rxbuf (s.rxhead + 1) 1023 ++ [b] := by
        refine segment_set head ?_ (by decide)
        unfold SIZEOF_RXBUF at head ⊢
        omega
      have before : s.contents =
          ringItem s.rxbuf s.rxhead :: segment s.rxbuf (s.rxhead + 1) 1023 := by
        rw [contents, used_of_full full, ← s.met full]
        exact segment_eq_cons
      rw [rxbufferPut, full, if_pos rfl, if_pos rfl, before, List.cons_append, List.tail_cons,
        ← stored]
      exact ⟨rfl, segment_mod⟩
  | false =>
      have room := used_lt full
      have stored : segment (s.rxbuf.set s.rxhead b head) s.rxtail (s.used + 1) =
          segment s.rxbuf s.rxtail s.used ++ [b] := segment_set head s.rxhead_eq room
      rw [contents, used_rxbufferPut full, rxbufferPut, full, if_neg Bool.false_ne_true,
        if_neg Bool.false_ne_true]
      exact ⟨rfl, stored⟩

/-- The oldest byte is taken out. -/
theorem contents_rxbufferGet :
    s.rxbufferGet.1 = byteOrNone s.contents.head? ∧
      s.rxbufferGet.2.contents = s.contents.tail := by
  cases used : s.used with
  | zero =>
      have nothing : s.contents = [] := by
        rw [contents, used]
        rfl
      rw [rxbufferGet, if_pos (s.rxbufferEmpty_iff.mpr used), nothing]
      exact ⟨rfl, rfl⟩
  | succ used' =>
      have nonempty : s.rxbufferEmpty ≠ true := by
        rw [ne_eq, s.rxbufferEmpty_iff, used]
        exact Nat.succ_ne_zero used'
      have before : s.contents =
          ringItem s.rxbuf s.rxtail :: segment s.rxbuf (s.rxtail + 1) used' := by
        rw [contents, used]
        exact segment_eq_cons
      have oldest : ringItem s.rxbuf s.rxtail = s.rxbuf.get ⟨s.rxtail, s.rxtail_lt⟩ :=
        congrArg s.rxbuf.get (Fin.ext (Nat.mod_eq_of_lt s.rxtail_lt))
      rw [before, contents, used_rxbufferGet used, rxbufferGet, if_neg nonempty, oldest]
      exact ⟨rfl, segment_mod⟩

theorem contents_initial (rxbuf : Vector UInt8 SIZEOF_RXBUF) : (initial rxbuf).contents = [] := by
  have none : (initial rxbuf).used = 0 := by
    unfold used initial SIZEOF_RXBUF
    rw [if_neg Bool.false_ne_true]
    dsimp only
  rw [contents, none]
  rfl

theorem contents_rxbufferFlush : s.rxbufferFlush.contents = [] := by
  have none : s.rxbufferFlush.used = 0 := by
    unfold used rxbufferFlush SIZEOF_RXBUF
    rw [if_neg Bool.false_ne_true]
    dsimp only
    omega
  rw [contents, none]
  rfl

end RxBuffer

/-- Every call is answered as by the queue. -/
theorem RxCall.onRing_alike (call : RxCall) (q : RxQueue) (s : RxBuffer)
    (same : q.items = s.contents) : (call.onRing s).1 = (call.onQueue q).1 ∧
      (call.onQueue q).2.items = (call.onRing s).2.contents := by
  cases call with
  | put b =>
      obtain ⟨lost, stored⟩ := s.contents_rxbufferPut b
      have full : q.items.length = SIZEOF_RXBUF ↔ s.rxfull = true := by
        rw [same, s.length_contents]
        cases room : s.rxfull with
        | true => exact iff_of_true (RxBuffer.used_of_full room) rfl
        | false => exact iff_of_false (Nat.ne_of_lt (RxBuffer.used_lt room)) Bool.false_ne_true
      rw [onRing, onQueue, BoundedQueue.put]
      dsimp only
      rw [lost, stored, ← same]
      cases room : s.rxfull with
      | true =>
          rw [dif_pos (full.mpr room)]
          exact ⟨rfl, rfl⟩
      | false =>
          rw [dif_neg (mt full.mp (Bool.eq_false_iff.mp room))]
          exact ⟨rfl, rfl⟩
  | get =>
      obtain ⟨byte, left⟩ := s.contents_rxbufferGet
      rw [onRing, onQueue, BoundedQueue.get]
      dsimp only
      rw [byte, left, same]
      exact ⟨rfl, rfl⟩
  | available =>
      rw [onRing, onQueue, s.rxbufferAvailable_eq, same, s.length_contents]
      exact ⟨rfl, rfl⟩
  | flush => exact ⟨rfl, s.contents_rxbufferFlush.symm⟩

/-- Whatever the calls, the ring answers them as a queue does, and in the end its size and what can
be got from it are those of the queue. -/
theorem rxbuffer_refines_queue (rxbuf : Vector UInt8 SIZEOF_RXBUF) (calls : List RxCall) :
    let ring := Machine.runTotal RxCall.onRing calls (.initial rxbuf)
    let queue := Machine.runTotal RxCall.onQueue calls .empty
    ring.1 = queue.1 ∧ ring.2.rxbufferAvailable = queue.2.items.length ∧
      (ring.2.rxbufferGet.1 = -1 ↔ queue.2.items = []) := by
  intro ring queue
  have start : (BoundedQueue.empty : RxQueue).items = (RxBuffer.initial rxbuf).contents :=
    (RxBuffer.contents_initial rxbuf).symm
  obtain ⟨answers, same⟩ : ring.1 = queue.1 ∧ queue.2.items = ring.2.contents :=
    Machine.runTotal_of_alike RxCall.onRing_alike start
  refine ⟨answers, ?_, ?_⟩
  · rw [ring.2.rxbufferAvailable_eq, same, ring.2.length_contents]
  · rw [ring.2.contents_rxbufferGet.1, same]
    cases ring.2.contents with
    | nil => exact iff_of_true rfl rfl
    | cons b rest =>
        refine iff_of_false (fun none => ?_) (List.cons_ne_nil b rest)
        exact absurd none (by rw [List.head?_cons, byteOrNone, Option.elim_some]; omega)

end FujiNet.NetSIO
