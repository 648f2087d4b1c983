import FujiNet.Control.Machine
import FujiNet.Device.SioRead
import FujiNet.Fnjson.Value
import Mathlib.Data.List.TakeWhile

/-!
# Queries on a JSON channel

A query puts the text of its value behind whatever is left in `receiveBuffer`, up to the first NUL,
and sets `json_bytes_remaining`, of 16 bits, from the length of the text. What is reported and what
the following reads deliver is the value exactly when these three agree.
-/

namespace FujiNet.FNJSON

open Device (sentFrom length_sentFrom sentFrom_of_le sioReadChannelJson toNat_sioReadChannelJson)
open NetworkProtocol (NetworkStatus)

/-- The part of `sioNetwork` and its `FNJSON` that a JSON channel uses. -/
structure JsonChannel where
  json : Option Item
  queryParam : UInt8 := 0
  lineEnding : List UInt8 := []
  receiveBuffer : List UInt8 := []
  jsonBytesRemaining : UInt16 := 0

/-- A data frame of 256 bytes. -/
abbrev QueryFrame := {frame : List UInt8 // frame.length = 256}

/-- A C string up to its NUL. -/
def upToNul (text : List UInt8) : List UInt8 := text.takeWhile (· ≠ 0)

/-- `inp_string`: the frame as a C string without its line ends, behind the last colon. If there is
no NUL in the frame, the string goes on `behind` it. -/
def inpString (frame : QueryFrame) (behind : List UInt8) : List UInt8 :=
  let stripped := frame.val.map fun c => if c = 0x0A ∨ c = 0x0D ∨ c = 0x9B then 0 else c
  let inString := upToNul (stripped ++ behind)
  (inString.reverse.takeWhile (· ≠ 0x3A)).reverse

namespace JsonChannel

/-- The value of a query: the text of its item, and nothing if there is none. -/
def queried (c : JsonChannel) (queryString : List UInt8) (queryParam : UInt8) : Option (List UInt8) :=
  match resolveQuery c.json queryString with
  | none => some []
  | some item => getValue queryParam c.lineEnding item

/-- `sio_set_json_query`, after its checksum was found good; `none` if it does not return. -/
def sioSetJsonQuery (c : JsonChannel) (frame : QueryFrame) (behind : List UInt8) (aux2 : UInt8) :
    Option JsonChannel :=
  (c.queried (inpString frame behind) aux2).map fun value =>
    let jsonBytesRemaining := UInt16.ofNat value.length
    let tmp := value.take jsonBytesRemaining.toNat
    { c with
      queryParam := aux2
      jsonBytesRemaining
      receiveBuffer := c.receiveBuffer ++ upToNul tmp }

/-- `sio_set_json_parameters`, where it does not answer with an error. -/
def sioSetJsonParameters (c : JsonChannel) (aux1 aux2 : UInt8) : JsonChannel :=
  if aux1 = 0 then if aux2 > 2 then c else { c with queryParam := aux2 }
  else if aux1 = 1 then { c with lineEnding := [aux2] }
  else c

/-- `sio_status_channel_json`. -/
def sioStatusChannelJson (c : JsonChannel) : NetworkStatus where
  rxBytesWaiting := c.jsonBytesRemaining.toNat
  connected := if c.jsonBytesRemaining > 0 then 1 else 0
  error := if c.jsonBytesRemaining > 0 then 1 else 136

/-- The channel as the read command sees it. -/
def channel : Device.Channel JsonChannel where
  read := fun numBytes c =>
    (false, { c with jsonBytesRemaining := sioReadChannelJson numBytes c.jsonBytesRemaining })
  receiveBuffer := fun c => c.receiveBuffer
  setReceiveBuffer := fun receiveBuffer c => { c with receiveBuffer }

end JsonChannel

/-! ## Sessions -/

/-- A command of the computer. A query may come with a bad checksum. -/
inductive Command
  | query (frame : QueryFrame) (good : Bool) (behind : List UInt8) (aux2 : UInt8)
  | parameters (aux1 aux2 : UInt8)
  | read (numBytes : UInt16) (heap : Nat → UInt8)
  | status

/-- A channel, the value of the last query and what was delivered since. -/
structure Session where
  channel : Option JsonChannel
  value : List UInt8 := []
  delivered : List UInt8 := []

namespace Session

/-- One command, and what a status call answers. After a query that does not return there is no
channel any more. -/
def step (command : Command) (s : Session) : Option NetworkStatus × Session :=
  match s.channel with
  | none => (none, s)
  | some c =>
    match command with
    | .query frame good behind aux2 =>
      if good then
        (none, {
          channel := c.sioSetJsonQuery frame behind aux2
          value := (c.queried (inpString frame behind) aux2).getD [] })
      else (none, s)
    | .parameters aux1 aux2 => (none, { s with channel := some (c.sioSetJsonParameters aux1 aux2) })
    | .read numBytes heap =>
      let (reply, c) := JsonChannel.channel.sioRead heap numBytes.toNat c
      (none, { s with channel := some c, delivered := s.delivered ++ reply.data })
    | .status => (some c.sioStatusChannelJson, s)

/-- A channel on a document, before the first query, with the line ending that `sio_open` sets. -/
def start (json : Option Item) (receiveBuffer : List UInt8) : Session where
  channel := some { json, receiveBuffer, lineEnding := [0x9B] }

def after (commands : List Command) (s : Session) : Session := (Machine.runTotal step commands s).2

/-- What a status would report is what is left of the value, and no more than is in the buffer; what
was delivered since the query is the value from its start. -/
structure ExactOn (c : JsonChannel) (s : Session) : Prop where
  reported : c.sioStatusChannelJson.rxBytesWaiting = s.value.length - s.delivered.length
  placed : c.sioStatusChannelJson.rxBytesWaiting ≤ c.receiveBuffer.length
  delivered : s.delivered.take s.value.length <+: s.value

/-- All commands have returned, and the channel is exact. -/
def DeliversValue (s : Session) : Prop := ∃ c, s.channel = some c ∧ ExactOn c s

/-- A query has a value of less than 65536 bytes and without a NUL, and it comes when the buffer is
empty; or its value is empty. -/
def Regular (command : Command) (s : Session) : Prop :=
  ∀ c, s.channel = some c →
    match command with
    | .query frame good behind aux2 =>
      good = true → ∃ value, c.queried (inpString frame behind) aux2 = some value ∧
        (value = [] ∨ c.receiveBuffer = [] ∧ value.length < 65536 ∧ 0 ∉ value)
    | _ => True

/-! ## What a run keeps -/

/-- While something is left of the value, it is what is in the buffer. -/
structure Kept (s : Session) (c : JsonChannel) : Prop where
  remaining : c.jsonBytesRemaining.toNat = s.value.length - s.delivered.length
  left : s.delivered.length < s.value.length → s.delivered ++ c.receiveBuffer = s.value
  delivered : s.delivered.take s.value.length <+: s.value

theorem Kept.exactOn {s : Session} {c : JsonChannel} (h : Kept s c) : ExactOn c s where
  reported := h.remaining
  placed := by
    refine h.remaining.trans_le ?_
    by_cases more : s.delivered.length < s.value.length
    · have lengths := congrArg List.length (h.left more)
      rw [List.length_append] at lengths
      omega
    · omega
  delivered := h.delivered

/-- A value without NULs that is short enough is placed whole. -/
theorem placed_whole {value : List UInt8} (short : value.length < 65536) (free : 0 ∉ value) :
    (UInt16.ofNat value.length).toNat = value.length ∧
      upToNul (value.take (UInt16.ofNat value.length).toNat) = value := by
  have same : (UInt16.ofNat value.length).toNat = value.length := by
    rw [UInt16.toNat_ofNat']
    exact Nat.mod_eq_of_lt short
  refine ⟨same, ?_⟩
  rw [same, List.take_length, upToNul, List.takeWhile_eq_self_iff]
  intro c mem
  refine decide_eq_true ?_
  rintro rfl
  exact free mem

section Run

variable {s : Session} {c : JsonChannel}

theorem kept_query (channel : s.channel = some c) (h : Kept s c) (frame : QueryFrame) (good : Bool)
    (behind : List UInt8) (aux2 : UInt8) (regular : Regular (.query frame good behind aux2) s) :
    ∃ c', (step (.query frame good behind aux2) s).2.channel = some c' ∧
      Kept (step (.query frame good behind aux2) s).2 c' := by
  cases good with
  | false =>
    simp only [step, channel]
    exact ⟨c, channel, h⟩
  | true =>
    obtain ⟨value, queried, fits⟩ := regular c channel rfl
    simp only [step, channel, if_true, JsonChannel.sioSetJsonQuery, queried, Option.map_some,
      Option.getD_some]
    refine ⟨_, rfl, ?_⟩
    rcases fits with rfl | ⟨empty, short, free⟩
    · exact ⟨rfl, fun less => absurd less (Nat.lt_irrefl 0), List.prefix_refl _⟩
    · obtain ⟨same, whole⟩ := placed_whole short free
      refine ⟨same, fun _ => ?_, ?_⟩
      · simp only [whole, empty, List.nil_append]
      · rw [List.take_nil]
        exact List.nil_prefix

theorem kept_parameters (channel : s.channel = some c) (h : Kept s c) (aux1 aux2 : UInt8) :
    ∃ c', (step (.parameters aux1 aux2) s).2.channel = some c' ∧
      Kept (step (.parameters aux1 aux2) s).2 c' := by
  have same : (c.sioSetJsonParameters aux1 aux2).jsonBytesRemaining = c.jsonBytesRemaining ∧
      (c.sioSetJsonParameters aux1 aux2).receiveBuffer = c.receiveBuffer := by
    rw [JsonChannel.sioSetJsonParameters]
    split_ifs <;> exact ⟨rfl, rfl⟩
  simp only [step, channel]
  refine ⟨_, rfl, ?_, ?_, h.delivered⟩
  · rw [same.1]
    exact h.remaining
  · rw [same.2]
    exact h.left

/-- What a read delivers while something is left of the value is its next part, and what stands
behind the buffer only after all of it. -/
theorem delivered_read (h : Kept s c) (heap : Nat → UInt8) (n : Nat) :
    (s.delivered ++ sentFrom c.receiveBuffer heap n).take s.value.length <+: s.value := by
  by_cases more : s.delivered.length < s.value.length
  · have whole := h.left more
    by_cases enough : n ≤ c.receiveBuffer.length
    · refine (List.take_prefix _ _).trans ?_
      rw [sentFrom_of_le heap enough, ← whole]
      exact (List.prefix_append_right_inj _).mpr (List.take_prefix _ _)
    · have all : sentFrom c.receiveBuffer heap n =
          c.receiveBuffer ++ (Device.behind heap n).take (n - c.receiveBuffer.length) := by
        rw [sentFrom, List.take_of_length_le (by omega)]
      rw [all, ← List.append_assoc, whole, List.take_left]
  · rw [List.take_append_of_le_length (by omega)]
    exact h.delivered

theorem kept_read (channel : s.channel = some c) (h : Kept s c) (numBytes : UInt16)
    (heap : Nat → UInt8) :
    ∃ c', (step (.read numBytes heap) s).2.channel = some c' ∧
      Kept (step (.read numBytes heap) s).2 c' := by
  simp only [step, channel, Device.Channel.sioRead, JsonChannel.channel]
  refine ⟨_, rfl, ?_, ?_, delivered_read h heap numBytes.toNat⟩
  · dsimp only
    rw [toNat_sioReadChannelJson, h.remaining, List.length_append, length_sentFrom]
    omega
  · intro less
    dsimp only at less ⊢
    rw [List.length_append, length_sentFrom] at less
    have whole := h.left (by omega)
    have lengths := congrArg List.length whole
    rw [List.length_append] at lengths
    rw [sentFrom_of_le heap (by omega), List.append_assoc, List.take_append_drop, whole]

theorem kept_step (channel : s.channel = some c) (h : Kept s c) (command : Command)
    (regular : Regular command s) :
    ∃ c', (step command s).2.channel = some c' ∧ Kept (step command s).2 c' := by
  cases command with
  | query frame good behind aux2 => exact kept_query channel h frame good behind aux2 regular
  | parameters aux1 aux2 => exact kept_parameters channel h aux1 aux2
  | read numBytes heap => exact kept_read channel h numBytes heap
  | status =>
    simp only [step, channel]
    exact ⟨c, rfl, h⟩

theorem kept_after (commands : List Command) (channel : s.channel = some c) (h : Kept s c)
    (regular : Machine.Admissible step Regular commands s) :
    ∃ c', (after commands s).channel = some c' ∧ Kept (after commands s) c' := by
  induction commands generalizing s c with
  | nil => exact ⟨c, channel, h⟩
  | cons command commands ih =>
    obtain ⟨c', channel', h'⟩ := kept_step channel h command regular.1
    exact ih channel' h' regular.2

end Run

/-- In a run whose queries are all regular, every command returns, and what is reported and delivered
after a query is its value. -/
theorem value_delivered (json : Option Item) (receiveBuffer : List UInt8) (commands : List Command)
    (regular : Machine.Admissible step Regular commands (start json receiveBuffer)) :
    DeliversValue (after commands (start json receiveBuffer)) := by
  have fresh : Kept (start json receiveBuffer) { json, receiveBuffer, lineEnding := [0x9B] } :=
    ⟨rfl, fun less => absurd less (Nat.lt_irrefl 0), List.prefix_refl _⟩
  obtain ⟨c, channel, kept⟩ := kept_after commands rfl fresh regular
  exact ⟨c, channel, kept.exactOn⟩

theorem length_zeros : (List.replicate 256 (0 : UInt8)).length = 256 := List.length_replicate

/-- A frame that is empty, and so asks for the whole document. -/
def wholeDocument : QueryFrame := ⟨List.replicate 256 0, length_zeros⟩

theorem resolve_wholeDocument (json : Option Item) :
    resolveQuery json (inpString wholeDocument []) = json := by
  have empty : inpString wholeDocument [] = [] := by decide +kernel
  rw [empty, resolveQuery, if_pos rfl]

/-- A query, and two reads of its value. -/
theorem value_read_in_parts :
    DeliversValue (after [.query wholeDocument true [] 0, .read 1 (fun _ => 0),
      .read 3 (fun _ => 0)] (start (some (.bool true)) [])) := by
  refine value_delivered (some (.bool true)) [] _ ⟨?_, ?_, ?_, trivial⟩
  · rintro _ ⟨⟩ -
    refine ⟨bytes "TRUE" ++ [0x9B], ?_, .inr ⟨rfl, by decide +kernel, by decide +kernel⟩⟩
    rw [JsonChannel.queried, resolve_wholeDocument]
    decide +kernel
  · exact fun _ _ => trivial
  · exact fun _ _ => trivial

/-- The value TRUE is queried twice, after the first time one byte of it is read, and after the
second time what is left of the first, with its line end, is delivered. -/
theorem left_of_earlier_value :
    (after [.query wholeDocument true [] 0, .read 1 (fun _ => 0), .query wholeDocument true [] 0,
        .read 4 (fun _ => 0)] (start (some (.bool true)) [])).delivered = bytes "RUE" ++ [0x9B] ∧
      ¬ DeliversValue (after [.query wholeDocument true [] 0, .read 1 (fun _ => 0),
        .query wholeDocument true [] 0, .read 4 (fun _ => 0)] (start (some (.bool true)) [])) := by
  refine ⟨by decide +kernel, ?_⟩
  rintro ⟨c, -, exact⟩
  have delivered := exact.delivered
  revert delivered
  decide +kernel

end Session

end FujiNet.FNJSON
