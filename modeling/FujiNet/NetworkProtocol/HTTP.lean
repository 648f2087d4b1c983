import FujiNet.NetworkProtocol.TCP

/-!
# Collecting HTTP headers

The names of headers are written one by one, a transaction puts the values into a vector, and reads
take them from there. The number of names, the number of values and the number of headers that the
client reports are compared with each other without a check that they agree.

The channel is open, so there is a client. What the client does is given from outside: `value` is the
value that it has received for a name.

`HTTPExchange` is what the host and the server have said to each other: the names that were asked for,
and those whose values the server has reported. What a host may do next is said in its terms.
-/

namespace FujiNet.NetworkProtocol

def NETWORK_ERROR_WRITE_ONLY : UInt8 := 131
def NETWORK_ERROR_INVALID_COMMAND : UInt8 := 132
def NETWORK_ERROR_READ_ONLY : UInt8 := 135
def NETWORK_ERROR_GENERAL_TIMEOUT : UInt8 := 138
def NETWORK_ERROR_GENERAL : UInt8 := 144
def NETWORK_ERROR_NOT_IMPLEMENTED : UInt8 := 146
def NETWORK_ERROR_ACCESS_DENIED : UInt8 := 167
def NETWORK_ERROR_FILE_NOT_FOUND : UInt8 := 170
def NETWORK_ERROR_INVALID_USERNAME_OR_PASSWORD : UInt8 := 212

/-- The size of `collect_headers`. -/
def COLLECT_HEADERS_SIZE : Nat := 32

inductive HTTPOpenMode
  | get | post | put | delete
deriving DecidableEq

inductive HTTPChannelMode
  | data | collectHeaders | getHeaders | setHeaders | sendPostData
deriving DecidableEq

/-- `open_file_handle`: what is done with the file. `none` is an error. -/
def openFileHandle (aux1Open : UInt8) : Option HTTPOpenMode :=
  if aux1Open = 4 ∨ aux1Open = 12 then some .get
  else if aux1Open = 8 then some .put
  else if aux1Open = 5 ∨ aux1Open = 9 then some .delete
  else if aux1Open = 13 ∨ aux1Open = 14 then some .post
  else none

/-- A channel; `aux1Open` and `httpOpenMode` are set when it is opened. `collectHeaders` holds the names
in the part of the array that is in use. -/
structure NetworkProtocolHTTP where
  aux1Open : UInt8
  httpOpenMode : HTTPOpenMode
  httpChannelMode : HTTPChannelMode := .data
  resultCode : Int := 0
  collectHeaders : List (List UInt8) := []
  returnedHeaders : List (List UInt8) := []
  returnedHeaderCursor : Nat := 0
  error : UInt8 := NETWORK_ERROR_SUCCESS

/-- Undefined behaviour: an index outside of one of the arrays, an element that was never set, bytes
behind a header, and a name without an end. -/
inductive HTTPFault
  | collectHeaders
  | uninitialized
  | returnedHeaders
  | behindHeader
  | unterminated
deriving DecidableEq

/-- How a transaction of the client ends. -/
structure HTTPResponse where
  resultCode : Int
  headerCount : Nat

/-- `fserror_to_error`. -/
def httpError (resultCode : Int) : UInt8 :=
  if resultCode = 901 then NETWORK_ERROR_NOT_CONNECTED
  else if resultCode ∈ [200, 201, 202, 203, 204, 205, 206, 207, 208, 226] then NETWORK_ERROR_SUCCESS
  else if resultCode ∈ [401, 402, 403, 407] then NETWORK_ERROR_INVALID_USERNAME_OR_PASSWORD
  else if resultCode ∈ [404, 410] then NETWORK_ERROR_FILE_NOT_FOUND
  else if resultCode = 405 then NETWORK_ERROR_NOT_IMPLEMENTED
  else if resultCode = 408 then NETWORK_ERROR_GENERAL_TIMEOUT
  else if resultCode ∈ [423, 451] then NETWORK_ERROR_ACCESS_DENIED
  else NETWORK_ERROR_GENERAL

/-- What a header read gives for a value. -/
def headerLine (value : List UInt8) : List UInt8 := value ++ [0x9B]

namespace NetworkProtocolHTTP

/-- `special_set_channel_mode`. -/
def setChannelMode (aux2 : UInt8) (h : NetworkProtocolHTTP) : Bool × NetworkProtocolHTTP :=
  if aux2 = 0 then (false, { h with httpChannelMode := .data })
  else if aux2 = 1 then (false, { h with httpChannelMode := .collectHeaders })
  else if aux2 = 2 then (false, { h with httpChannelMode := .getHeaders, returnedHeaderCursor := 0 })
  else if aux2 = 3 then (false, { h with httpChannelMode := .setHeaders })
  else if aux2 = 4 then (false, { h with httpChannelMode := .sendPostData })
  else (true, { h with error := NETWORK_ERROR_INVALID_COMMAND })

/-- `special_inquiry`. -/
def specialInquiry (cmd : UInt8) (h : NetworkProtocolHTTP) : UInt8 :=
  if cmd = 0x4D then if h.aux1Open > 8 then 0x00 else 0xFF else 0xFF

/-- The command `M`: the device asks what it takes before it passes it on. -/
def specialM (aux2 : UInt8) (h : NetworkProtocolHTTP) : Bool × NetworkProtocolHTTP :=
  if h.specialInquiry 0x4D = 0x00 then h.setChannelMode aux2 else (true, h)

/-- `collect_headers[i]`. -/
def collected (h : NetworkProtocolHTTP) (i : Nat) : Except HTTPFault (List UInt8) :=
  match h.collectHeaders[i]? with
  | some name => .ok name
  | none => .error (if i < COLLECT_HEADERS_SIZE then .uninitialized else .collectHeaders)

variable (value : List UInt8 → List UInt8)

/-- The loop over the headers that the client reports: what it appends to `returned_headers`. -/
def returned (h : NetworkProtocolHTTP) : Nat → Except HTTPFault (List (List UInt8))
  | 0 => .ok []
  | n + 1 =>
    (h.returned n).bind fun lines => (h.collected n).map fun name => lines ++ [headerLine (value name)]

/-- Whether headers are collected in a transaction. -/
def collects (h : NetworkProtocolHTTP) : Prop :=
  h.aux1Open ≠ 4 ∧ h.aux1Open ≠ 8 ∧ 0 < h.collectHeaders.length

instance (h : NetworkProtocolHTTP) : Decidable h.collects := inferInstanceAs (Decidable (_ ∧ _))

def httpTransaction (response : HTTPResponse) (h : NetworkProtocolHTTP) :
    Except HTTPFault NetworkProtocolHTTP :=
  let resultCode := response.resultCode
  let error := httpError response.resultCode
  if h.collects then
    (h.returned value response.headerCount).map fun lines =>
      { h with resultCode, error, returnedHeaders := h.returnedHeaders ++ lines }
  else .ok { h with resultCode, error }

/-- `http_transaction` if there was none yet. -/
def firstTransaction (response : HTTPResponse) (h : NetworkProtocolHTTP) :
    Except HTTPFault NetworkProtocolHTTP :=
  if h.resultCode = 0 then h.httpTransaction value response else .ok h

/-- What a status call in the mode for header reads finds: the size of the next header. -/
def headerWaiting (h : NetworkProtocolHTTP) : Except HTTPFault Nat :=
  if h.returnedHeaderCursor < h.collectHeaders.length then
    match h.returnedHeaders[h.returnedHeaderCursor]? with
    | none => .error .returnedHeaders
    | some line => .ok (line.length % 65536)
  else .ok 0

/-- `status_file`, with `available` bytes of the body. -/
def statusFile (fromInterrupt : Bool) (response : HTTPResponse) (available : Nat)
    (h : NetworkProtocolHTTP) : Except HTTPFault (NetworkStatus × NetworkProtocolHTTP) :=
  match h.httpChannelMode with
  | .data =>
    (if fromInterrupt then .ok h else h.firstTransaction value response).map fun h =>
      ({ rxBytesWaiting := if available > 65535 then 65535 else available
         connected := if available > 0 then 1 else 0
         error := if available = 0 ∧ h.error = NETWORK_ERROR_SUCCESS then NETWORK_ERROR_END_OF_FILE
          else h.error }, h)
  | .setHeaders | .collectHeaders | .sendPostData => .ok (⟨0, 0, NETWORK_ERROR_SUCCESS⟩, h)
  | .getHeaders =>
    (h.firstTransaction value response).bind fun h => h.headerWaiting.map fun rxBytesWaiting =>
      ({ rxBytesWaiting
         connected := 0
         error :=
          if h.returnedHeaderCursor = h.collectHeaders.length ∧ h.error = NETWORK_ERROR_SUCCESS then
            NETWORK_ERROR_END_OF_FILE
          else h.error }, h)

/-- `read_file_handle_header`: whether there was an error, and the bytes that are copied. -/
def readFileHandleHeader (len : UInt16) (h : NetworkProtocolHTTP) :
    Except HTTPFault ((Bool × List UInt8) × NetworkProtocolHTTP) :=
  match h.returnedHeaders[h.returnedHeaderCursor]? with
  | none => .error .returnedHeaders
  | some line =>
    if line.length < len.toNat then .error .behindHeader
    else
      .ok ((decide (h.returnedHeaderCursor + 1 > h.returnedHeaders.length), line.take len.toNat),
        { h with returnedHeaderCursor := h.returnedHeaderCursor + 1 })

/-- `read_file_handle`, where the client has `body` for a read of data. -/
def readFileHandle (len : UInt16) (response : HTTPResponse) (body : List UInt8)
    (h : NetworkProtocolHTTP) : Except HTTPFault ((Bool × List UInt8) × NetworkProtocolHTTP) :=
  match h.httpChannelMode with
  | .data =>
    (h.firstTransaction value response).map fun h => ((decide (len.toNat ≠ body.length), body), h)
  | .collectHeaders | .setHeaders | .sendPostData =>
    .ok ((true, []), { h with error := NETWORK_ERROR_WRITE_ONLY })
  | .getHeaders => h.readFileHandleHeader len

/-- `write_file_handle_get_header`. The copy of the name is used as a string: its end is the first line
end in it. -/
def writeFileHandleGetHeader (buf : List UInt8) (h : NetworkProtocolHTTP) :
    Except HTTPFault (Bool × NetworkProtocolHTTP) :=
  if h.httpOpenMode = .get then
    let requestedHeader := buf.map fun b => if b = 0x9B ∨ b = 0x0D ∨ b = 0x0A then 0 else b
    if 0 ∉ requestedHeader then .error .unterminated
    else if COLLECT_HEADERS_SIZE ≤ h.collectHeaders.length then .error .collectHeaders
    else
      .ok (false, { h with
        collectHeaders := h.collectHeaders ++ [requestedHeader.takeWhile (· ≠ 0)] })
  else .ok (true, { h with error := NETWORK_ERROR_NOT_IMPLEMENTED })

/-- `write_file_handle`, as far as it goes for headers that are collected: what is sent to the server
is not followed. -/
def writeFileHandle (buf : List UInt8) (h : NetworkProtocolHTTP) :
    Except HTTPFault (Bool × NetworkProtocolHTTP) :=
  match h.httpChannelMode with
  | .data =>
    if h.httpOpenMode ≠ .put then .ok (true, { h with error := NETWORK_ERROR_INVALID_COMMAND })
    else .ok (false, h)
  | .collectHeaders => h.writeFileHandleGetHeader buf
  | .setHeaders => .ok (decide (0x3A ∉ buf.takeWhile (· ≠ 0x9B)), h)
  | .sendPostData =>
    if h.httpOpenMode ≠ .post then .ok (true, { h with error := NETWORK_ERROR_INVALID_COMMAND })
    else .ok (false, h)
  | .getHeaders => .ok (true, { h with error := NETWORK_ERROR_READ_ONLY })

end NetworkProtocolHTTP

/-! ## Runs -/

inductive HTTPCall
  | setChannelMode (aux2 : UInt8)
  | write (buf : List UInt8)
  | status (fromInterrupt : Bool) (response : HTTPResponse) (available : Nat)
  | read (len : UInt16) (response : HTTPResponse) (body : List UInt8)

/-- The name in a write: what is in front of the first line end or NUL. -/
def requestedName (buf : List UInt8) : List UInt8 :=
  buf.takeWhile fun b => decide (b ∉ [0x9B, 0x0D, 0x0A, 0])

/-- The mode that a host asks for. -/
def channelMode (aux2 : UInt8) : Option HTTPChannelMode :=
  if aux2 = 0 then some .data
  else if aux2 = 1 then some .collectHeaders
  else if aux2 = 2 then some .getHeaders
  else if aux2 = 3 then some .setHeaders
  else if aux2 = 4 then some .sendPostData
  else none

/-- What was said on a channel: the mode that the host asked for, the names that it wrote, the status of
the server's last reply, the names whose values the server reported, and the number of header reads since
the host asked for the mode for them. -/
structure HTTPExchange where
  aux1Open : UInt8
  mode : HTTPChannelMode := .data
  names : List (List UInt8) := []
  resultCode : Int := 0
  served : List (List UInt8) := []
  reads : Nat := 0

namespace HTTPExchange

/-- The server's reply, if it is still to come: it reports values of the first names. -/
def reply (response : HTTPResponse) (x : HTTPExchange) : HTTPExchange :=
  if x.resultCode = 0 then
    { x with
      resultCode := response.resultCode
      served := x.served ++ x.names.take response.headerCount }
  else x

/-- The host is served. -/
def next (call : HTTPCall) (x : HTTPExchange) : HTTPExchange :=
  match call with
  | .setChannelMode aux2 =>
    if x.aux1Open > 8 then
      { x with
        mode := (channelMode aux2).getD x.mode
        reads := if aux2 = 2 then 0 else x.reads }
    else x
  | .write buf =>
    if x.mode = .collectHeaders ∧ x.aux1Open = 12 then
      { x with names := x.names ++ [requestedName buf] }
    else x
  | .status fromInterrupt response _ =>
    if x.mode = .getHeaders ∨ x.mode = .data ∧ fromInterrupt = false then x.reply response else x
  | .read _ response _ =>
    if x.mode = .data then x.reply response
    else if x.mode = .getHeaders then { x with reads := x.reads + 1 }
    else x

/-- The server, when its reply comes, reports no more values than there are names, and it has not
reported any before. -/
def Fits (response : HTTPResponse) (x : HTTPExchange) : Prop :=
  x.resultCode = 0 →
    (x.names = [] ∨ response.headerCount ≤ x.names.length) ∧
      (x.served = [] ∨ response.headerCount = 0)

end HTTPExchange

/-- A channel and what was said on it. -/
structure HTTPSession where
  http : NetworkProtocolHTTP
  exchange : HTTPExchange

/-- A channel that was opened. -/
def HTTPSession.opened (aux1Open : UInt8) (httpOpenMode : HTTPOpenMode) : HTTPSession :=
  ⟨{ aux1Open, httpOpenMode }, { aux1Open }⟩

section Runs

variable (value : List UInt8 → List UInt8)

/-- The channel after a call. -/
def HTTPCall.perform (call : HTTPCall) (h : NetworkProtocolHTTP) :
    Except HTTPFault NetworkProtocolHTTP :=
  match call with
  | .setChannelMode aux2 => .ok (h.specialM aux2).2
  | .write buf => (h.writeFileHandle buf).map Prod.snd
  | .status fromInterrupt response available =>
    (h.statusFile value fromInterrupt response available).map Prod.snd
  | .read len response body => (h.readFileHandle value len response body).map Prod.snd

def HTTPCall.after (call : HTTPCall) (s : HTTPSession) : Except HTTPFault HTTPSession :=
  (call.perform value s.http).map fun http => ⟨http, s.exchange.next call⟩

/-- The call stays in bounds, and a header read gives the value of the next name. -/
def HTTPCall.InStep (call : HTTPCall) (s : HTTPSession) : Prop :=
  (∃ s', call.after value s = .ok s') ∧
    ∀ len response body, call = .read len response body → s.exchange.mode = .getHeaders →
      ∃ name, s.exchange.names[s.exchange.reads]? = some name ∧
        (s.http.readFileHandle value len response body).map (fun answer => answer.1.2) =
          .ok ((headerLine (value name)).take len.toNat)

/-- A name that is written has an end, and is one of the first 32; a status call in the mode for header
reads finds that the server reports a value for the name that is next, if there is one; a header read is
for a value that the server reported, and for no more than it and its line end. -/
def HTTPCall.Agrees (call : HTTPCall) (s : HTTPSession) : Prop :=
  let x := s.exchange
  match call with
  | .setChannelMode _ => True
  | .write buf =>
    x.mode = .collectHeaders → x.aux1Open = 12 →
      (∃ b ∈ buf, b ∈ ([0x9B, 0x0D, 0x0A, 0] : List UInt8)) ∧
        x.names.length < COLLECT_HEADERS_SIZE
  | .status fromInterrupt response _ =>
    (x.mode = .data → fromInterrupt = false → x.Fits response) ∧
      (x.mode = .getHeaders → x.Fits response ∧
        (x.reads < x.names.length → x.reads < (x.reply response).served.length))
  | .read len response _ =>
    (x.mode = .data → x.Fits response) ∧
      (x.mode = .getHeaders →
        ∃ name, x.served[x.reads]? = some name ∧ len.toNat ≤ (headerLine (value name)).length)

end Runs

section Collecting

variable {value : List UInt8 → List UInt8}

/-- What holds of a channel and of what was said on it. The values that the channel holds are those that
the server reported, and these are the values of the first names. -/
structure HTTPSession.Sound (value : List UInt8 → List UInt8) (s : HTTPSession) : Prop where
  opened : openFileHandle s.exchange.aux1Open = some s.http.httpOpenMode
  aux1Open : s.http.aux1Open = s.exchange.aux1Open
  mode : s.http.httpChannelMode = s.exchange.mode
  names : s.http.collectHeaders = s.exchange.names
  resultCode : s.http.resultCode = s.exchange.resultCode
  values : s.http.returnedHeaders = s.exchange.served.map fun name => headerLine (value name)
  cursor : s.http.returnedHeaderCursor = s.exchange.reads
  ready : s.exchange.mode ≠ .data → s.exchange.aux1Open > 8
  collecting : s.exchange.names ≠ [] → s.exchange.aux1Open = 12
  served : s.exchange.served <+: s.exchange.names

theorem HTTPSession.sound_opened {aux1Open : UInt8} {httpOpenMode : HTTPOpenMode}
    (opened : openFileHandle aux1Open = some httpOpenMode) :
    (HTTPSession.opened aux1Open httpOpenMode).Sound value :=
  ⟨opened, rfl, rfl, rfl, rfl, rfl, rfl, fun other => absurd rfl other,
    fun named => absurd rfl named, List.prefix_rfl⟩

namespace NetworkProtocolHTTP

variable {h : NetworkProtocolHTTP}

theorem returned_eq {n : Nat} (le : n ≤ h.collectHeaders.length) :
    h.returned value n = .ok ((h.collectHeaders.take n).map fun name => headerLine (value name)) := by
  induction n with
  | zero => rfl
  | succ n ih =>
      have name : h.collected n = .ok h.collectHeaders[n] := by
        rw [collected, List.getElem?_eq_getElem le]
      rw [returned, ih (Nat.le_of_succ_le le), name, List.take_succ_eq_append_getElem le, List.map_append]
      rfl

/-- Of the modes for which the device passes `M` on, one is for a GET. -/
theorem openFileHandle_get_iff {aux1Open : UInt8} (ready : aux1Open > 8) :
    openFileHandle aux1Open = some .get ↔ aux1Open = 12 := by
  constructor
  · intro opened
    by_contra other
    have small : aux1Open ≠ 4 := by
      rintro rfl
      revert ready
      decide
    rw [openFileHandle, if_neg (not_or.mpr ⟨small, other⟩)] at opened
    split_ifs at opened <;> cases opened
  · rintro rfl
    rfl

end NetworkProtocolHTTP

section Calls

variable {s : HTTPSession} (sound : s.Sound value)
include sound

/-- A reply that fits is taken into the vector of values. -/
theorem HTTPSession.Sound.reply {response : HTTPResponse} (fits : s.exchange.Fits response) :
    ∃ http, s.http.firstTransaction value response = .ok http ∧
      HTTPSession.Sound value ⟨http, s.exchange.reply response⟩ := by
  rw [NetworkProtocolHTTP.firstTransaction, HTTPExchange.reply, sound.resultCode]
  by_cases due : s.exchange.resultCode = 0
  · obtain ⟨few, first⟩ := fits due
    rw [if_pos due, if_pos due, NetworkProtocolHTTP.httpTransaction]
    by_cases unnamed : s.exchange.names = []
    · have idle : ¬ s.http.collects := by
        rintro ⟨-, -, named⟩
        rw [sound.names, unnamed] at named
        exact absurd named (Nat.lt_irrefl 0)
      have nothing : s.exchange.names.take response.headerCount = [] := by
        rw [unnamed, List.take_nil]
      rw [if_neg idle, nothing, List.append_nil]
      exact ⟨_, rfl, { sound with resultCode := rfl }⟩
    · have le : response.headerCount ≤ s.http.collectHeaders.length :=
        sound.names ▸ few.resolve_left unnamed
      have collects : s.http.collects := by
        refine ⟨?_, ?_, ?_⟩
        · rw [sound.aux1Open, sound.collecting unnamed]
          decide
        · rw [sound.aux1Open, sound.collecting unnamed]
          decide
        · rw [sound.names]
          exact List.length_pos_iff.mpr unnamed
      have served : s.exchange.served ++ s.exchange.names.take response.headerCount <+:
          s.exchange.names := by
        rcases first with none | nothing
        · rw [none, List.nil_append]
          exact List.take_prefix _ _
        · rw [nothing, List.take_zero, List.append_nil]
          exact sound.served
      rw [if_pos collects, NetworkProtocolHTTP.returned_eq le]
      refine ⟨_, rfl, { sound with resultCode := rfl, values := ?_, served := served }⟩
      dsimp only
      rw [sound.values, sound.names, ← List.map_append]
  · rw [if_neg due, if_neg due]
    exact ⟨_, rfl, sound⟩

theorem HTTPSession.Sound.setChannelMode (aux2 : UInt8) :
    HTTPSession.Sound value
      ⟨(s.http.specialM aux2).2, s.exchange.next (.setChannelMode aux2)⟩ := by
  rw [NetworkProtocolHTTP.specialM, NetworkProtocolHTTP.specialInquiry, if_pos rfl,
    HTTPExchange.next, sound.aux1Open]
  by_cases ready : s.exchange.aux1Open > 8
  · rw [if_pos ready, if_pos rfl, if_pos ready, NetworkProtocolHTTP.setChannelMode, channelMode]
    by_cases get : aux2 = 2
    · subst get
      exact { sound with mode := rfl, cursor := rfl, ready := fun _ => ready }
    · rw [if_neg get, if_neg get, if_neg get]
      have other (mode : HTTPChannelMode) : HTTPSession.Sound value
          ⟨{ s.http with httpChannelMode := mode }, { s.exchange with mode }⟩ :=
        { sound with mode := rfl, ready := fun _ => ready }
      split_ifs
      · exact other .data
      · exact other .collectHeaders
      · exact other .setHeaders
      · exact other .sendPostData
      · exact { sound with }
  · have refused : ¬ (0xFF : UInt8) = 0 := by decide
    rw [if_neg ready, if_neg refused, if_neg ready]
    exact sound

omit sound in
/-- The copy of a name ends where the name does. -/
theorem takeWhile_requestedHeader (buf : List UInt8) :
    (buf.map fun b => if b = 0x9B ∨ b = 0x0D ∨ b = 0x0A then 0 else b).takeWhile (· ≠ 0) =
      requestedName buf := by
  induction buf with
  | nil => rfl
  | cons b buf ih =>
      rw [requestedName, List.map_cons, List.takeWhile_cons, List.takeWhile_cons]
      by_cases last : b ∈ ([0x9B, 0x0D, 0x0A, 0] : List UInt8)
      · have nul : (if b = 0x9B ∨ b = 0x0D ∨ b = 0x0A then 0 else b) = 0 := by
          simp only [List.mem_cons, List.not_mem_nil, or_false] at last
          split_ifs with ends
          · rfl
          · tauto
        rw [nul, decide_eq_false (not_not.mpr rfl), decide_eq_false (not_not.mpr last)]
        rfl
      · have plain : b ≠ 0 ∧ ¬ (b = 0x9B ∨ b = 0x0D ∨ b = 0x0A) := by
          simp only [List.mem_cons, List.not_mem_nil, or_false] at last
          tauto
        rw [if_neg plain.2, decide_eq_true plain.1, decide_eq_true last]
        exact congrArg (b :: ·) ih

omit sound in
theorem zero_mem_requestedHeader {buf : List UInt8}
    (terminated : ∃ b ∈ buf, b ∈ ([0x9B, 0x0D, 0x0A, 0] : List UInt8)) :
    0 ∈ buf.map fun b => if b = 0x9B ∨ b = 0x0D ∨ b = 0x0A then 0 else b := by
  obtain ⟨b, mem, last⟩ := terminated
  refine List.mem_map.mpr ⟨b, mem, ?_⟩
  simp only [List.mem_cons, List.not_mem_nil, or_false] at last
  split_ifs with ends
  · rfl
  · tauto

omit sound in
/-- A write that is not one of a name leaves the headers as they are. -/
theorem writeFileHandle_other {h : NetworkProtocolHTTP} (buf : List UInt8)
    (other : ¬ (h.httpChannelMode = .collectHeaders ∧ h.httpOpenMode = .get)) :
    ∃ refused error, h.writeFileHandle buf = .ok (refused, { h with error }) := by
  rw [NetworkProtocolHTTP.writeFileHandle]
  cases mode : h.httpChannelMode with
  | data | sendPostData =>
      dsimp only
      split_ifs
      · exact ⟨_, _, rfl⟩
      · exact ⟨false, h.error, by rw [← mode]⟩
  | collectHeaders =>
      have closed : h.httpOpenMode ≠ .get := fun open' => other ⟨mode, open'⟩
      dsimp only
      rw [NetworkProtocolHTTP.writeFileHandleGetHeader, if_neg closed]
      exact ⟨_, _, by rw [← mode]⟩
  | getHeaders => exact ⟨_, _, rfl⟩
  | setHeaders =>
      dsimp only
      generalize decide (0x3A ∉ buf.takeWhile (· ≠ 0x9B)) = refused
      exact ⟨refused, h.error, by rw [← mode]⟩

/-- A name that is written is the last one; nothing else is changed. -/
theorem HTTPSession.Sound.write {buf : List UInt8} (agrees : (HTTPCall.write buf).Agrees value s) :
    ∃ s', (HTTPCall.write buf).after value s = .ok s' ∧ s'.Sound value := by
  rw [HTTPCall.after, HTTPCall.perform, HTTPExchange.next]
  by_cases name : s.exchange.mode = .collectHeaders ∧ s.exchange.aux1Open = 12
  · obtain ⟨terminated, room⟩ := agrees name.1 name.2
    have get : s.http.httpOpenMode = .get := by
      have opened := sound.opened
      rw [name.2] at opened
      exact (Option.some.inj opened).symm
    rw [if_pos name, NetworkProtocolHTTP.writeFileHandle, sound.mode, name.1]
    dsimp only
    rw [NetworkProtocolHTTP.writeFileHandleGetHeader, if_pos get]
    dsimp only
    rw [if_neg (not_not.mpr (zero_mem_requestedHeader terminated)), sound.names,
      if_neg (Nat.not_le.mpr room), takeWhile_requestedHeader]
    exact ⟨_, rfl, { sound with
      mode := sound.mode.trans name.1
      names := rfl
      ready := fun _ => by rw [name.2]; decide
      collecting := fun _ => name.2
      served := sound.served.trans (List.prefix_append _ _) }⟩
  · have other : ¬ (s.http.httpChannelMode = .collectHeaders ∧ s.http.httpOpenMode = .get) := by
      rintro ⟨collect, get⟩
      have collect := sound.mode.symm.trans collect
      have ready := sound.ready (by rw [collect]; decide)
      have opened := sound.opened
      rw [get] at opened
      exact name ⟨collect, (NetworkProtocolHTTP.openFileHandle_get_iff ready).mp opened⟩
    obtain ⟨refused, error, written⟩ := writeFileHandle_other buf other
    rw [if_neg name, written]
    exact ⟨_, rfl, { sound with }⟩

theorem HTTPSession.Sound.status {fromInterrupt : Bool} {response : HTTPResponse} {available : Nat}
    (agrees : (HTTPCall.status fromInterrupt response available).Agrees value s) :
    ∃ s', (HTTPCall.status fromInterrupt response available).after value s = .ok s' ∧
      s'.Sound value := by
  rw [HTTPCall.after, HTTPCall.perform, NetworkProtocolHTTP.statusFile, HTTPExchange.next, sound.mode]
  cases mode : s.exchange.mode with
  | data =>
      cases fromInterrupt with
      | true => exact ⟨_, rfl, sound⟩
      | false =>
          obtain ⟨http, done, sound'⟩ := sound.reply (agrees.1 mode rfl)
          dsimp only
          rw [if_neg Bool.false_ne_true, done]
          exact ⟨_, rfl, sound'⟩
  | getHeaders =>
      obtain ⟨fits, more⟩ := agrees.2 mode
      obtain ⟨http, done, sound'⟩ := sound.reply fits
      have waiting : ∃ size, http.headerWaiting = .ok size := by
        rw [NetworkProtocolHTTP.headerWaiting, sound'.cursor, sound'.names]
        split_ifs with unread
        · have kept : (s.exchange.reply response).reads = s.exchange.reads ∧
              (s.exchange.reply response).names = s.exchange.names := by
            rw [HTTPExchange.reply]
            split <;> exact ⟨rfl, rfl⟩
          dsimp only at unread ⊢
          rw [kept.1, kept.2] at unread
          have inside := more unread
          rw [sound'.values, List.getElem?_map, kept.1, List.getElem?_eq_getElem inside]
          exact ⟨_, rfl⟩
        · exact ⟨0, rfl⟩
      obtain ⟨size, waiting⟩ := waiting
      dsimp only
      rw [done, Except.bind, waiting]
      exact ⟨_, rfl, sound'⟩
  | collectHeaders | setHeaders | sendPostData => exact ⟨_, rfl, sound⟩

/-- A read of a header that the server reported gives it. -/
theorem HTTPSession.Sound.readHeader {name : List UInt8} {len : UInt16}
    (here : s.exchange.served[s.exchange.reads]? = some name)
    (le : len.toNat ≤ (headerLine (value name)).length) :
    ∃ failed, s.http.readFileHandleHeader len =
      .ok ((failed, (headerLine (value name)).take len.toNat),
        { s.http with returnedHeaderCursor := s.http.returnedHeaderCursor + 1 }) := by
  have held : s.http.returnedHeaders[s.http.returnedHeaderCursor]? = some (headerLine (value name)) := by
    rw [sound.values, sound.cursor, List.getElem?_map, here]
    rfl
  rw [NetworkProtocolHTTP.readFileHandleHeader, held]
  dsimp only
  rw [if_neg (Nat.not_lt.mpr le)]
  exact ⟨_, rfl⟩

theorem HTTPSession.Sound.read {len : UInt16} {response : HTTPResponse} {body : List UInt8}
    (agrees : (HTTPCall.read len response body).Agrees value s) :
    ∃ s', (HTTPCall.read len response body).after value s = .ok s' ∧ s'.Sound value := by
  rw [HTTPCall.after, HTTPCall.perform, NetworkProtocolHTTP.readFileHandle, HTTPExchange.next,
    sound.mode]
  cases mode : s.exchange.mode with
  | data =>
      obtain ⟨http, done, sound'⟩ := sound.reply (agrees.1 mode)
      dsimp only
      rw [done]
      exact ⟨_, rfl, sound'⟩
  | getHeaders =>
      obtain ⟨name, here, le⟩ := agrees.2 mode
      obtain ⟨failed, done⟩ := sound.readHeader here le
      dsimp only
      rw [done]
      exact ⟨_, rfl, { sound with
        mode := sound.mode.trans mode
        cursor := congrArg (· + 1) sound.cursor
        ready := fun other => sound.ready (mode ▸ other) }⟩
  | collectHeaders | setHeaders | sendPostData => exact ⟨_, rfl, { sound with mode := mode.symm }⟩

/-- A call that agrees is in step and keeps the session sound. -/
theorem HTTPCall.inStep (call : HTTPCall) (agrees : call.Agrees value s) :
    call.InStep value s ∧ ∃ s', call.after value s = .ok s' ∧ s'.Sound value := by
  have next : ∃ s', call.after value s = .ok s' ∧ s'.Sound value := by
    cases call with
    | setChannelMode aux2 => exact ⟨_, rfl, sound.setChannelMode aux2⟩
    | write buf => exact sound.write agrees
    | status fromInterrupt response available => exact sound.status agrees
    | read len response body => exact sound.read agrees
  obtain ⟨s', done, sound'⟩ := next
  refine ⟨⟨⟨s', done⟩, ?_⟩, s', done, sound'⟩
  rintro len response body rfl mode
  obtain ⟨name, here, le⟩ := agrees.2 mode
  obtain ⟨failed, read⟩ := sound.readHeader here le
  have named : s.exchange.names[s.exchange.reads]? = some name := by
    obtain ⟨inside, rfl⟩ := List.getElem?_eq_some_iff.mp here
    exact List.prefix_iff_getElem?.mp sound.served _ inside
  refine ⟨name, named, ?_⟩
  rw [NetworkProtocolHTTP.readFileHandle, sound.mode, mode]
  dsimp only
  rw [read]
  rfl

end Calls

end Collecting

/-- In every run of calls that agree, on a channel that was opened in any mode, all calls are in
step. -/
theorem headers_in_step (value : List UInt8 → List UInt8) {aux1Open : UInt8}
    {httpOpenMode : HTTPOpenMode} (opened : openFileHandle aux1Open = some httpOpenMode)
    (calls : List HTTPCall)
    (agree : Machine.Along (HTTPCall.after value) (HTTPCall.Agrees value) calls
      (HTTPSession.opened aux1Open httpOpenMode)) :
    Machine.Along (HTTPCall.after value) (HTTPCall.InStep value) calls
      (HTTPSession.opened aux1Open httpOpenMode) := by
  refine agree.imp_of (I := HTTPSession.Sound value) ?_ ?_ (HTTPSession.sound_opened opened)
  · intro call s s' sound agrees done
    obtain ⟨-, s'', done', sound'⟩ := call.inStep sound agrees
    exact Except.ok.inj (done'.symm.trans done) ▸ sound'
  · intro call s sound agrees
    exact (call.inStep sound agrees).1

def serverName : List UInt8 := [0x53, 0x65, 0x72, 0x76, 0x65, 0x72, 0x9B]

/-- One name and its value, on a channel for headers. -/
theorem headers_in_step_of_one :
    Machine.Along (HTTPCall.after fun _ => [0x4D, 0x47]) (HTTPCall.InStep fun _ => [0x4D, 0x47])
      [.setChannelMode 1, .write serverName, .setChannelMode 2, .status false ⟨200, 1⟩ 0,
        .read 3 ⟨200, 1⟩ []]
      (HTTPSession.opened 12 .get) := by
  refine headers_in_step _ rfl _ ⟨trivial, ?_⟩
  rintro _ ⟨⟩
  refine ⟨fun _ _ => ⟨⟨0x9B, by decide, by decide⟩, by decide⟩, ?_⟩
  rintro _ ⟨⟩
  refine ⟨trivial, ?_⟩
  rintro _ ⟨⟩
  refine ⟨⟨by rintro ⟨⟩, fun _ => ⟨fun _ => ⟨.inr (by decide), .inl rfl⟩, fun _ => by decide⟩⟩, ?_⟩
  rintro _ ⟨⟩
  exact ⟨⟨by rintro ⟨⟩, fun _ => ⟨_, rfl, by decide⟩⟩, fun _ _ => trivial⟩

/-- A name that is written twice has one value: after that was read, a status call looks for another
one. -/
theorem status_without_values :
    ¬ Machine.Along (HTTPCall.after fun _ => [0x4D, 0x47]) (HTTPCall.InStep fun _ => [0x4D, 0x47])
      [.setChannelMode 1, .write serverName, .write serverName, .setChannelMode 2,
        .status false ⟨200, 1⟩ 0, .read 3 ⟨200, 1⟩ [], .status false ⟨200, 1⟩ 0]
      (HTTPSession.opened 12 .get) := by
  intro along
  obtain ⟨⟨s, done⟩, -⟩ := ((((((along.2 _ rfl).2 _ rfl).2 _ rfl).2 _ rfl).2 _ rfl).2 _ rfl).1
  cases done

end FujiNet.NetworkProtocol
