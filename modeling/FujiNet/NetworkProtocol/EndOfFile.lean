import FujiNet.Device.SioRead

/-!
# The end of a file

A status call fetches the next bytes of a file into the buffer and takes them off `fileSize`,
and whether the file has ended is computed from `fileSize`. So the end is announced while the
last bytes are still in the buffer, if another status call comes before they are read. A listing
is announced by its length, of which a status has 16 bits.
-/

namespace FujiNet.NetworkProtocol.NetworkProtocolFS

open Device (fsChannel Reply sentFrom length_sentFrom sentFrom_of_le)

/-! ## What a status call or a read fetches -/

section Fetching

variable {fs : NetworkProtocolFS}

theorem translate_none (mode : fs.translationMode = TRANSLATION_MODE_NONE)
    (buffer : List UInt8) : fs.translate buffer = buffer := by
  rw [translate, mode, translateReceiveBuffer_eq, if_pos rfl]

/-- A read that finds bytes in the buffer translates them. -/
theorem read_file_again (openMode : fs.openMode = .file) (left : fs.receiveBuffer ≠ []) (len : Nat) :
    fs.read len = (false, { fs with
      receiveBuffer := fs.translate fs.receiveBuffer, error := NETWORK_ERROR_SUCCESS }) := by
  simp only [read, openMode, readFile, List.length_eq_zero_iff, if_neg left, baseRead]

/-- A read into the empty buffer fetches as many bytes as were asked for, or fails. -/
theorem read_file_fetched (openMode : fs.openMode = .file)
    (empty : fs.receiveBuffer = []) (len : Nat) :
    fs.read len = if len ≤ fs.unread.length then
        (false, { fs with
          receiveBuffer := fs.translate (fs.unread.take len)
          offset := fs.offset + len
          fileSize := fs.fileSize - len
          error := NETWORK_ERROR_SUCCESS })
      else (true, { fs with error := fs.readError }) := by
  have length : (slice fs.content fs.offset len).length = min len fs.unread.length := by
    rw [unread_file fs openMode, slice, List.length_take]
  simp only [read, openMode, readFile, empty, List.length_nil, if_true, readFileHandle, length]
  by_cases enough : len ≤ fs.unread.length
  · rw [if_pos (Nat.min_eq_left enough), if_pos enough]
    simp only [baseRead]
    rw [List.nil_append, unread_file fs openMode]
    rfl
  · rw [if_neg enough, if_neg (by omega)]

/-- How much a status call fetches into the empty buffer. -/
theorem waiting_file (openMode : fs.openMode = .file)
    (size : fs.fileSize = fs.unread.length) :
    fs.waiting.rxBytesWaiting ≤ fs.unread.length ∧ fs.waiting.rxBytesWaiting < 65536 ∧
      (fs.waiting.connected = 0 ∧ fs.waiting.error = NETWORK_ERROR_END_OF_FILE ↔ fs.unread = []) := by
  simp only [waiting, openMode, size]
  refine ⟨?_, ?_, ?_⟩
  · split_ifs <;> omega
  · split_ifs <;> omega
  · cases fs.unread with
    | nil => simp
    | cons c rest =>
      have more : (0 : Int) < ((c :: rest).length : Int) := by simp
      rw [if_pos more]
      simp

theorem connected_file (openMode : fs.openMode = .file) (size : fs.fileSize = fs.unread.length) :
    fs.waiting.connected = if fs.unread = [] then 0 else 1 := by
  simp only [waiting, openMode, size]
  cases fs.unread with
  | nil => simp
  | cons c rest => simp

/-- On a channel for reading, there is something to fetch until the end. -/
theorem waiting_pos (openMode : fs.openMode = .file) (size : fs.fileSize = fs.unread.length)
    (reads : fs.aux1Open ≠ 8) (more : fs.unread ≠ []) : 0 < fs.waiting.rxBytesWaiting := by
  have pos : 0 < fs.unread.length := List.length_pos_of_ne_nil more
  simp only [waiting, openMode, size, if_neg reads]
  split_ifs <;> omega

theorem unread_fetched (openMode : fs.openMode = .file) (len : Nat)
    (buffer : List UInt8) (size : Int) (error : UInt8) :
    ({ fs with receiveBuffer := buffer, offset := fs.offset + len, fileSize := size, error } :
      NetworkProtocolFS).unread = fs.unread.drop len := by
  rw [unread_file fs openMode, List.drop_drop]
  exact unread_file _ openMode

/-- A status call leaves a buffer that is not empty, and reports it. -/
theorem status_again (left : fs.receiveBuffer ≠ []) :
    fs.status = ({ fs.waiting with rxBytesWaiting := fs.receiveBuffer.length % 65536 }, fs) := by
  rw [status, baseStatus, if_neg fun reads => left (List.eq_nil_of_length_eq_zero reads.1)]

/-- Into the empty buffer a status call fetches some bytes, and reports how many they are when
they were translated. -/
theorem status_fetched (openMode : fs.openMode = .file)
    (size : fs.fileSize = fs.unread.length) (empty : fs.receiveBuffer = []) :
    ∃ error, fs.status =
      ({ fs.waiting with
          rxBytesWaiting :=
            (fs.translate (fs.unread.take fs.waiting.rxBytesWaiting)).length % 65536 },
        { fs with
          receiveBuffer := fs.translate (fs.unread.take fs.waiting.rxBytesWaiting)
          offset := fs.offset + fs.waiting.rxBytesWaiting
          fileSize := fs.fileSize - fs.waiting.rxBytesWaiting
          error }) := by
  obtain ⟨few, small, -⟩ := waiting_file openMode size
  by_cases more : fs.waiting.rxBytesWaiting > 0
  · have fetched := read_file_fetched openMode empty fs.waiting.rxBytesWaiting
    rw [if_pos few] at fetched
    refine ⟨NETWORK_ERROR_SUCCESS, ?_⟩
    rw [status, baseStatus, if_pos ⟨by rw [empty]; rfl, more⟩, fetched]
  · have none : fs.waiting.rxBytesWaiting = 0 := by omega
    refine ⟨fs.error, ?_⟩
    rw [status, baseStatus, if_neg fun reads => more reads.2, none]
    simp only [List.take_zero, translate, translateReceiveBuffer_nil, empty, Nat.add_zero,
      Int.natCast_zero, Int.sub_zero]
    rw [← empty]

theorem status_fetched_none (mode : fs.translationMode = TRANSLATION_MODE_NONE) (openMode : fs.openMode = .file)
    (size : fs.fileSize = fs.unread.length) (empty : fs.receiveBuffer = []) :
    ∃ error, fs.status = (fs.waiting, { fs with
      receiveBuffer := fs.unread.take fs.waiting.rxBytesWaiting
      offset := fs.offset + fs.waiting.rxBytesWaiting
      fileSize := fs.fileSize - fs.waiting.rxBytesWaiting
      error }) := by
  obtain ⟨few, small, -⟩ := waiting_file openMode size
  obtain ⟨error, fetched⟩ := status_fetched openMode size empty
  refine ⟨error, ?_⟩
  rw [fetched, translate_none mode, List.length_take, Nat.min_eq_left few, Nat.mod_eq_of_lt small]

theorem read_dir_fetched (mode : fs.translationMode = TRANSLATION_MODE_NONE)
    (openMode : fs.openMode = .dir) (empty : fs.receiveBuffer = []) (len : Nat) :
    fs.read len = (false, { fs with
      receiveBuffer := fs.unread.take len
      dirBuffer := fs.unread.drop len
      error := NETWORK_ERROR_SUCCESS }) := by
  simp only [read, openMode, readDir, empty, List.length_nil, if_true, baseRead, translate_none mode,
    unread_dir fs openMode]

theorem waiting_dir (openMode : fs.openMode = .dir) :
    fs.waiting.rxBytesWaiting = fs.unread.length % 65536 := by
  simp only [waiting, openMode, unread_dir fs openMode]

theorem unread_listed (openMode : fs.openMode = .dir)
    (buffer rest : List UInt8) (error : UInt8) :
    ({ fs with receiveBuffer := buffer, dirBuffer := rest, error } : NetworkProtocolFS).unread = rest :=
  unread_dir _ openMode

theorem status_listed (mode : fs.translationMode = TRANSLATION_MODE_NONE)
    (openMode : fs.openMode = .dir) (empty : fs.receiveBuffer = []) :
    ∃ error, fs.status = (fs.waiting, { fs with
      receiveBuffer := fs.unread.take fs.waiting.rxBytesWaiting
      dirBuffer := fs.unread.drop fs.waiting.rxBytesWaiting
      error }) := by
  have few : fs.waiting.rxBytesWaiting ≤ fs.unread.length := by
    rw [waiting_dir openMode]
    exact Nat.mod_le _ _
  have small : fs.waiting.rxBytesWaiting < 65536 := by
    rw [waiting_dir openMode]
    exact Nat.mod_lt _ (by decide)
  by_cases more : fs.waiting.rxBytesWaiting > 0
  · refine ⟨NETWORK_ERROR_SUCCESS, ?_⟩
    rw [status, baseStatus, if_pos ⟨by rw [empty]; rfl, more⟩, read_dir_fetched mode openMode empty]
    simp only [List.length_take, Nat.min_eq_left few, Nat.mod_eq_of_lt small]
  · have none : fs.waiting.rxBytesWaiting = 0 := by omega
    refine ⟨fs.error, ?_⟩
    rw [status, baseStatus, if_neg fun reads => more reads.2, none]
    refine Prod.ext ?_ ?_
    · rw [empty, List.length_nil, Nat.zero_mod, ← none]
    · simp only [List.take_zero, List.drop_zero]
      rw [← empty, unread_dir fs openMode]

end Fetching

/-! ## Sessions -/

/-- A status call, of the computer or of the interrupt poll, or a read of as many bytes as the
last one reported. -/
inductive Event
  | status
  | read (heap : Nat → UInt8)

/-- A channel, what the last status reported, and what the computer has got. -/
structure Session where
  channel : NetworkProtocolFS
  reported : Nat
  delivered : List UInt8

namespace Session

/-- One event, and what a status call answers. A read that ends in ERROR delivers nothing. -/
def step : Event → Session → Option NetworkStatus × Session
  | .status, s =>
    (some s.channel.status.1,
      { s with channel := s.channel.status.2, reported := s.channel.status.1.rxBytesWaiting })
  | .read heap, s =>
    let (reply, channel) := fsChannel.sioRead heap s.reported s.channel
    (none, { s with
      channel
      delivered := if reply.err then s.delivered else s.delivered ++ reply.data })

/-- A channel that was just opened. -/
def start (channel : NetworkProtocolFS) : Session := ⟨channel, 0, []⟩

def after (events : List Event) (channel : NetworkProtocolFS) : Session :=
  (Machine.runTotal step events (start channel)).2

/-- What is delivered is the front of the file, and a status call that announces its end does so
exactly when it was delivered. -/
def EndExact (file : List UInt8) (event : Event) (s : Session) : Prop :=
  (step event s).2.delivered <+: file ∧
    ∀ ns, (step event s).1 = some ns →
      (ns.connected = 0 ∧ ns.error = NETWORK_ERROR_END_OF_FILE ↔ (step event s).2.delivered = file)

/-- What is delivered is the front of the listing, and a status call that reports nothing comes
when all of it was delivered. -/
def ListingExact (listing : List UInt8) (event : Event) (s : Session) : Prop :=
  (step event s).2.delivered <+: listing ∧
    ∀ ns, (step event s).1 = some ns → ns.rxBytesWaiting = 0 → (step event s).2.delivered = listing

/-- No status call comes while the end of the file is in the buffer. -/
def ReadsEnd (event : Event) (s : Session) : Prop :=
  match event with
  | .status => s.channel.unread = [] → s.channel.receiveBuffer = []
  | .read _ => True

/-- While the buffer is empty, a status call does not find a multiple of 65536 bytes left, and a
read does not ask for more than is left. -/
def ReadsListing (event : Event) (s : Session) : Prop :=
  s.channel.receiveBuffer = [] →
    match event with
    | .status => 65536 ∣ s.channel.unread.length → s.channel.unread = []
    | .read _ => s.reported ≤ s.channel.unread.length

/-! ## Files -/

/-- What is known of a session on a file: `fileSize` counts what was not fetched, and the buffer
is empty or as long as the last status reported. -/
structure OnFile (file : List UInt8) (s : Session) : Prop where
  mode : s.channel.translationMode = TRANSLATION_MODE_NONE
  openMode : s.channel.openMode = .file
  size : s.channel.fileSize = s.channel.unread.length
  whole : s.delivered ++ s.channel.receiveBuffer ++ s.channel.unread = file
  buffer : s.channel.receiveBuffer = [] ∨ s.channel.receiveBuffer.length = s.reported
  small : s.reported < 65536

section File

variable {file : List UInt8} {s : Session}

theorem onFile_status (h : OnFile file s) : OnFile file (step .status s).2 := by
  by_cases empty : s.channel.receiveBuffer = []
  · obtain ⟨few, small, -⟩ := waiting_file h.openMode h.size
    obtain ⟨error, fetched⟩ := status_fetched_none h.mode h.openMode h.size empty
    have rest := unread_fetched h.openMode s.channel.waiting.rxBytesWaiting
      (s.channel.unread.take s.channel.waiting.rxBytesWaiting)
      (s.channel.fileSize - s.channel.waiting.rxBytesWaiting) error
    simp only [step, fetched]
    refine ⟨h.mode, h.openMode, ?_, ?_, .inr ?_, small⟩
    · rw [rest, List.length_drop, h.size]
      dsimp only
      omega
    · rw [rest, List.append_assoc, List.take_append_drop, ← h.whole, empty, List.append_nil]
    · exact (List.length_take ..).trans (Nat.min_eq_left few)
  · have reported : s.channel.receiveBuffer.length = s.reported := h.buffer.resolve_left empty
    have same : s.channel.receiveBuffer.length % 65536 = s.reported := by
      rw [reported, Nat.mod_eq_of_lt h.small]
    simp only [step, status_again empty, same]
    exact h

theorem onFile_read (h : OnFile file s) (heap : Nat → UInt8) :
    OnFile file (step (.read heap) s).2 ∧
      (step (.read heap) s).2.delivered <+: file := by
  by_cases empty : s.channel.receiveBuffer = []
  · have fetched := read_file_fetched h.openMode empty s.reported
    rw [translate_none h.mode] at fetched
    by_cases enough : s.reported ≤ s.channel.unread.length
    · rw [if_pos enough] at fetched
      have length : (s.channel.unread.take s.reported).length = s.reported :=
        (List.length_take ..).trans (Nat.min_eq_left enough)
      have rest := unread_fetched h.openMode s.reported [] (s.channel.fileSize - s.reported)
        NETWORK_ERROR_SUCCESS
      have whole : s.delivered ++ s.channel.unread.take s.reported ++
          s.channel.unread.drop s.reported = file := by
        rw [List.append_assoc, List.take_append_drop, ← h.whole, empty, List.append_nil]
      have sent := sentFrom_of_le heap length.ge
      simp only [step, Device.Channel.sioRead, fsChannel, fetched, sent, Bool.false_eq_true, if_false]
      rw [List.take_of_length_le length.le, List.drop_of_length_le length.le]
      refine ⟨⟨h.mode, h.openMode, ?_, ?_, .inl rfl, h.small⟩, _, whole⟩
      · rw [rest, List.length_drop, h.size]
        dsimp only
        omega
      · rw [rest, List.append_nil]
        exact whole
    · rw [if_neg enough] at fetched
      simp only [step, Device.Channel.sioRead, fsChannel, fetched, if_true, empty, List.drop_nil]
      refine ⟨⟨h.mode, h.openMode, h.size, ?_, .inl rfl, h.small⟩, ?_⟩
      · have whole := h.whole
        rw [empty] at whole
        exact whole
      · exact ⟨_, (List.append_assoc ..).symm.trans h.whole⟩
  · have reported : s.channel.receiveBuffer.length = s.reported := h.buffer.resolve_left empty
    have again := read_file_again h.openMode empty s.reported
    rw [translate_none h.mode] at again
    have sent := sentFrom_of_le heap reported.ge
    simp only [step, Device.Channel.sioRead, fsChannel, again, sent, Bool.false_eq_true, if_false]
    rw [List.take_of_length_le reported.le, List.drop_of_length_le reported.le]
    refine ⟨⟨h.mode, h.openMode, h.size, ?_, .inl rfl, h.small⟩, _, h.whole⟩
    rw [List.append_nil]
    exact h.whole

theorem delivered_eq_iff (h : OnFile file s) :
    s.delivered = file ↔ s.channel.receiveBuffer = [] ∧ s.channel.unread = [] := by
  have lengths := congrArg List.length h.whole
  rw [List.length_append, List.length_append] at lengths
  constructor
  · intro all
    rw [all] at lengths
    exact ⟨List.eq_nil_of_length_eq_zero (by omega), List.eq_nil_of_length_eq_zero (by omega)⟩
  · rintro ⟨buffer, unread⟩
    rw [← h.whole, buffer, unread, List.append_nil, List.append_nil]

/-- Every event keeps to the law exactly if it is not a status call in front of the last read. -/
theorem endExact_iff (h : OnFile file s) (event : Event) :
    EndExact file event s ↔ ReadsEnd event s := by
  cases event with
  | read heap =>
    exact iff_of_true ⟨(onFile_read h heap).2, fun _ none => nomatch none⟩ trivial
  | status =>
    have front : s.delivered <+: file := ⟨_, (List.append_assoc ..).symm.trans h.whole⟩
    obtain ⟨-, -, ended⟩ := waiting_file h.openMode h.size
    have answered : (s.channel.status.1.connected = 0 ∧
        s.channel.status.1.error = NETWORK_ERROR_END_OF_FILE) ↔ s.channel.unread = [] := by
      by_cases empty : s.channel.receiveBuffer = []
      · obtain ⟨error, fetched⟩ := status_fetched_none h.mode h.openMode h.size empty
        rw [fetched]
        exact ended
      · rw [status_again empty]
        exact ended
    constructor
    · rintro ⟨-, exact⟩ none
      exact ((delivered_eq_iff h).mp ((exact _ rfl).mp (answered.mpr none))).1
    · intro reads
      refine ⟨front, ?_⟩
      rintro _ ⟨⟩
      have reached : s.delivered = file ↔ s.channel.unread = [] :=
        (delivered_eq_iff h).trans ⟨And.right, fun none => ⟨reads none, none⟩⟩
      exact answered.trans reached.symm

theorem onFile_step (h : OnFile file s) (event : Event) : OnFile file (step event s).2 := by
  cases event with
  | status => exact onFile_status h
  | read heap => exact (onFile_read h heap).1

end File

/-! ## Listings -/

/-- What is known of a session on a listing. -/
structure OnListing (listing : List UInt8) (s : Session) : Prop where
  mode : s.channel.translationMode = TRANSLATION_MODE_NONE
  openMode : s.channel.openMode = .dir
  whole : s.delivered ++ s.channel.receiveBuffer ++ s.channel.unread = listing
  buffer : s.channel.receiveBuffer = [] ∨ s.channel.receiveBuffer.length = s.reported
  small : s.reported < 65536

section Listing

variable {listing : List UInt8} {s : Session}

theorem onListing_status (h : OnListing listing s) : OnListing listing (step .status s).2 := by
  by_cases empty : s.channel.receiveBuffer = []
  · obtain ⟨error, fetched⟩ := status_listed h.mode h.openMode empty
    have count := waiting_dir h.openMode
    have few : s.channel.waiting.rxBytesWaiting ≤ s.channel.unread.length :=
      count ▸ Nat.mod_le _ _
    have rest := unread_listed h.openMode
      (s.channel.unread.take s.channel.waiting.rxBytesWaiting)
      (s.channel.unread.drop s.channel.waiting.rxBytesWaiting) error
    simp only [step, fetched]
    refine ⟨h.mode, h.openMode, ?_, .inr ?_, ?_⟩
    · rw [rest, List.append_assoc, List.take_append_drop, ← h.whole, empty, List.append_nil]
    · exact (List.length_take ..).trans (Nat.min_eq_left few)
    · rw [count]
      exact Nat.mod_lt _ (by decide)
  · have reported : s.channel.receiveBuffer.length = s.reported := h.buffer.resolve_left empty
    have same : s.channel.receiveBuffer.length % 65536 = s.reported := by
      rw [reported, Nat.mod_eq_of_lt h.small]
    simp only [step, status_again empty, same]
    exact h

/-- A read delivers the next bytes exactly if it asks for no more than there are. -/
theorem listing_read (h : OnListing listing s) (heap : Nat → UInt8) :
    (ReadsListing (.read heap) s → OnListing listing (step (.read heap) s).2) ∧
      ((step (.read heap) s).2.delivered <+: listing ↔ ReadsListing (.read heap) s) := by
  by_cases empty : s.channel.receiveBuffer = []
  · have fetched := read_dir_fetched h.mode h.openMode empty s.reported
    have whole : s.delivered ++ s.channel.unread = listing := by
      rw [← h.whole, empty, List.append_nil]
    by_cases enough : s.reported ≤ s.channel.unread.length
    · have length : (s.channel.unread.take s.reported).length = s.reported :=
        (List.length_take ..).trans (Nat.min_eq_left enough)
      have rest := unread_listed h.openMode [] (s.channel.unread.drop s.reported)
        NETWORK_ERROR_SUCCESS
      have split : s.delivered ++ s.channel.unread.take s.reported ++
          s.channel.unread.drop s.reported = listing := by
        rw [List.append_assoc, List.take_append_drop, whole]
      have sent := sentFrom_of_le heap length.ge
      simp only [step, Device.Channel.sioRead, fsChannel, fetched, sent, Bool.false_eq_true, if_false]
      rw [List.take_of_length_le length.le, List.drop_of_length_le length.le]
      refine ⟨fun _ => ⟨h.mode, h.openMode, ?_, .inl rfl, h.small⟩,
        iff_of_true ⟨_, split⟩ fun _ => enough⟩
      rw [rest, List.append_nil]
      exact split
    · have short : ¬ ReadsListing (.read heap) s := fun reads => enough (reads empty)
      refine ⟨fun reads => absurd reads short, iff_of_false ?_ short⟩
      simp only [step, Device.Channel.sioRead, fsChannel, fetched, Bool.false_eq_true, if_false]
      intro front
      have lengths := front.length_le
      rw [List.length_append, length_sentFrom, ← whole, List.length_append] at lengths
      omega
  · have reported : s.channel.receiveBuffer.length = s.reported := h.buffer.resolve_left empty
    have again : s.channel.read s.reported =
        (false, { s.channel with error := NETWORK_ERROR_SUCCESS }) := by
      simp only [read, h.openMode, readDir, List.length_eq_zero_iff, if_neg empty, baseRead]
      rw [translate_none h.mode]
    have sent := sentFrom_of_le heap reported.ge
    have kept : ReadsListing (.read heap) s := fun none => absurd none empty
    simp only [step, Device.Channel.sioRead, fsChannel, again, sent, Bool.false_eq_true, if_false]
    rw [List.take_of_length_le reported.le, List.drop_of_length_le reported.le]
    refine ⟨fun _ => ⟨h.mode, h.openMode, ?_, .inl rfl, h.small⟩, iff_of_true ⟨_, h.whole⟩ kept⟩
    rw [List.append_nil]
    exact h.whole

theorem listingExact_iff (h : OnListing listing s) (event : Event) :
    ListingExact listing event s ↔ ReadsListing event s := by
  cases event with
  | read heap =>
    refine Iff.trans ?_ (listing_read h heap).2
    exact and_iff_left fun _ none => nomatch none
  | status =>
    have front : s.delivered <+: listing := ⟨_, (List.append_assoc ..).symm.trans h.whole⟩
    by_cases empty : s.channel.receiveBuffer = []
    · obtain ⟨error, fetched⟩ := status_listed h.mode h.openMode empty
      have count := waiting_dir h.openMode
      have all : s.delivered = listing ↔ s.channel.unread = [] := by
        rw [← h.whole, empty, List.append_nil]
        exact List.self_eq_append_right
      constructor
      · rintro ⟨-, exact⟩ - divides
        refine all.mp (exact _ rfl ?_)
        rw [fetched, count]
        exact Nat.mod_eq_zero_of_dvd divides
      · intro reads
        refine ⟨front, ?_⟩
        rintro _ ⟨⟩ none
        rw [fetched, count] at none
        exact all.mpr (reads empty (Nat.dvd_of_mod_eq_zero none))
    · refine iff_of_true ⟨front, ?_⟩ fun none => absurd none empty
      rintro _ ⟨⟩ none
      have reported : s.channel.receiveBuffer.length = s.reported := h.buffer.resolve_left empty
      rw [status_again empty] at none
      have zero : s.channel.receiveBuffer.length % 65536 = 0 := none
      rw [reported, Nat.mod_eq_of_lt h.small, ← reported] at zero
      exact absurd (List.eq_nil_of_length_eq_zero zero) empty

end Listing

end Session

/-! ## Whole runs -/

end FujiNet.NetworkProtocol.NetworkProtocolFS
