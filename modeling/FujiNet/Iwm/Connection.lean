import FujiNet.Iwm.ReadChannel

/-!
# Handing requests to the consumer

The reading thread files packets in `responses_` and the consumer takes them out
with `Connection::wait_for_request`; both hold `responses_mutex_` while they touch
the map, so a run of the two is a sequence of stores, passes of the waiting loop
and changes of the connection flag, in any order.

`responses_` is ordered by the first byte of a packet, not by arrival. The
sequence of requests handed out is a prefix of the sequence that arrived as long
as each packet is stored with a first byte above those still pending.
-/

namespace FujiNet.Iwm

/-- The part of `Connection` that the reading thread and the consumer share. -/
structure Connection where
  isConnected : Bool
  responses : OrderedMap UInt8 (List UInt8)

/-- What one pass of the loop of `Connection::wait_for_request` does: return a
request, return the empty vector because the connection is gone, or go round again
because `wait_for` ran into its time limit. -/
inductive Wait where
  | request (data : List UInt8)
  | disconnected
  | again
  deriving DecidableEq, Repr

/-- One pass of the loop of `Connection::wait_for_request`. -/
def Connection.waitForRequest (c : Connection) : Wait × Connection :=
  if c.isConnected then
    match c.responses.entries with
    | [] => (.again, c)
    | e :: _ => (.request e.2, { c with responses := c.responses.eraseFirst })
  else (.disconnected, c)

/-- What can happen between the reading thread and the consumer. A packet to be
stored has a first byte, its sequence number. -/
inductive Event where
  | store (sequence : UInt8) (rest : List UInt8)
  | wait
  | setIsConnected (connected : Bool)
  deriving DecidableEq, Repr

/-- The connection together with the history of packets that arrived and of
requests handed out. -/
structure Channel where
  connection : Connection
  arrived : List (List UInt8)
  handedOut : List (List UInt8)

namespace Channel

def initial : Channel := ⟨⟨true, .empty⟩, [], []⟩

def step (s : Channel) : Event → Channel
  | .store sequence rest =>
    { s with
      connection.responses := ReadChannel.store s.connection.responses (sequence :: rest)
      arrived := s.arrived ++ [sequence :: rest] }
  | .wait =>
    match s.connection.waitForRequest with
    | (.request data, c) => { s with connection := c, handedOut := s.handedOut ++ [data] }
    | (_, c) => { s with connection := c }
  | .setIsConnected connected => { s with connection.isConnected := connected }

def run (s : Channel) : List Event → Channel
  | [] => s
  | e :: es => (s.step e).run es

/-- A packet comes in with a first byte above those of all pending packets. -/
def InOrder (s : Channel) : Event → Prop
  | .store sequence _ => ∀ e ∈ s.connection.responses.entries, e.1 < sequence
  | _ => True

/-- Every event of the run meets `InOrder` in the state where it happens. -/
def InOrderRun (s : Channel) : List Event → Prop
  | [] => True
  | e :: es => s.InOrder e ∧ (s.step e).InOrderRun es

/-- Nothing is lost, duplicated or overtaken: what arrived is what was handed out
followed by what is pending, in key order. -/
def Fifo (s : Channel) : Prop :=
  s.arrived = s.handedOut ++ s.connection.responses.entries.map Prod.snd

/-- A pass of the waiting loop takes the first pending packet or changes nothing. -/
theorem step_wait_cases (s : Channel) :
    s.step .wait = s ∨ ∃ e es, s.connection.responses.entries = e :: es ∧
      (s.step .wait).arrived = s.arrived ∧ (s.step .wait).handedOut = s.handedOut ++ [e.2] ∧
      (s.step .wait).connection.responses.entries = es := by
  by_cases connected : s.connection.isConnected
  · cases entries : s.connection.responses.entries with
    | nil => exact .inl (by simp [step, Connection.waitForRequest, connected, entries])
    | cons e es =>
        refine .inr ⟨e, es, rfl, ?_⟩
        simp [step, Connection.waitForRequest, connected, entries, OrderedMap.eraseFirst]
  · exact .inl (by simp [step, Connection.waitForRequest, connected])

theorem Fifo.step {s : Channel} (h : s.Fifo) {e : Event} (inOrder : s.InOrder e) :
    (s.step e).Fifo := by
  cases e with
  | store sequence rest =>
      simp only [Fifo, Channel.step, ReadChannel.store] at *
      rw [OrderedMap.entries_assign_of_forall_lt _ inOrder, h]
      simp
  | wait =>
      rcases s.step_wait_cases with same | ⟨e, es, entries, arrived, handedOut, rest⟩
      · rwa [same]
      · rw [Fifo] at h ⊢
        rw [arrived, handedOut, rest, h, entries]
        simp
  | setIsConnected connected => exact h

theorem Fifo.run {s : Channel} (h : s.Fifo) {es : List Event} (inOrder : s.InOrderRun es) :
    (s.run es).Fifo := by
  induction es generalizing s with
  | nil => exact h
  | cons e es ih => exact ih (h.step inOrder.1) inOrder.2

/-- Over every run in which each packet is stored with a first byte above those of
the packets pending at that moment, the requests handed out are a prefix of the
packets that arrived. -/
theorem handedOut_prefix_arrived (es : List Event) (inOrder : initial.InOrderRun es) :
    (initial.run es).handedOut <+: (initial.run es).arrived := by
  have empty : initial.Fifo := rfl
  have fifo := empty.run inOrder
  exact ⟨_, fifo.symm⟩

theorem handedOut_prefix_arrived_of_three :
    (initial.run [.store 7 [1], .store 9 [2], .wait, .wait, .store 0 [3], .wait]).handedOut <+:
      (initial.run [.store 7 [1], .store 9 [2], .wait, .wait, .store 0 [3], .wait]).arrived :=
  handedOut_prefix_arrived _ (by
    simp only [InOrderRun, InOrder, and_true]
    decide)

/-- Two packets pending across the wrap of the sequence number leave in the wrong
order. -/
theorem handedOut_overtakes :
    ¬ ∀ es : List Event, (initial.run es).handedOut <+: (initial.run es).arrived := by
  intro claim
  have overtaken : ¬ [[(0 : UInt8)]] <+: [[255], [0]] := by decide
  exact overtaken (claim [.store 255 [], .store 0 [], .wait])

end Channel

end FujiNet.Iwm
