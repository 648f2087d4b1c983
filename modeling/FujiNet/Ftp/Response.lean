import FujiNet.Control.Loop
import Mathlib.Tactic.Common

/-!
# Replies on the control connection

`read_response_line` ends a line at its CR and takes the LF only if it is there already, so a
reply whose last LF comes late leaves it for the next call. And `parse_response` ends at every
line with three digits and a space, whether the digits are those of the first line or not.
-/

namespace FujiNet.Ftp

open Loop

def FTP_TIMEOUT : Nat := 5000

/-- A byte, and how often `available` finds nothing when it is the next one. -/
structure Arrival where
  byte : UInt8
  polls : Nat
deriving DecidableEq

/-- What is still to be read from the control connection. -/
abbrev Control := List Arrival

namespace Control

/-- Whether `available` finds something. -/
def available : Control → Bool × Control
  | [] => (false, [])
  | a :: rest =>
    if a.polls = 0 then (true, a :: rest) else (false, { a with polls := a.polls - 1 } :: rest)

def read : Control → Option (UInt8 × Control)
  | [] => none
  | a :: rest => some (a.byte, rest)

def peek (control : Control) : Option UInt8 := control.head?.map (·.byte)

def bytes (control : Control) : List UInt8 := control.map (·.byte)

end Control

def CR : UInt8 := 0x0D
def LF : UInt8 := 0x0A

def isTerminator (c : UInt8) : Bool := c = LF || c = CR

def isDigit (c : UInt8) : Bool := 0x30 ≤ c && c ≤ 0x39

/-- `tmout_counter` when it is set. -/
def TMOUT_COUNTER : Nat := 1 + FTP_TIMEOUT / 50

/-- The size of `respBuf`. -/
def RESP_BUF_SIZE : Nat := 384

structure LineState where
  line : List UInt8 := []
  tmoutCounter : Nat := TMOUT_COUNTER
  control : Control

/-- One pass of `read_response_line`; it ends with the line, or without one after a timeout. -/
def linePass (s : LineState) : Option (LineState ⊕ Option (List UInt8) × Control) :=
  match s.control.available with
  | (false, control) =>
    if s.tmoutCounter - 1 = 0 then some (.inr (none, control))
    else some (.inl { s with tmoutCounter := s.tmoutCounter - 1, control })
  | (true, control) =>
    match control.read with
    | none => some (.inr (some s.line, control))
    | some (c, control) =>
      if isTerminator c then
        match control.available with
        | (true, control) =>
          if control.peek.any isTerminator then some (.inl { s with control })
          else some (.inr (some s.line, control))
        | (false, control) => some (.inr (some s.line, control))
      else
        some (.inl
          { line := if s.line.length < RESP_BUF_SIZE then s.line ++ [c] else s.line, control })

def readResponseLine (fuel : Nat) (control : Control) : Option (Option (List UInt8) × Control) :=
  Loop.run linePass fuel { control }

/-- The number at the front of a line with at least four bytes, and the byte behind it. -/
def replyCode : List UInt8 → Option (Nat × UInt8)
  | a :: b :: c :: d :: _ =>
    if isDigit a && isDigit b && isDigit c then
      some (100 * (a.toNat - 0x30) + 10 * (b.toNat - 0x30) + (c.toNat - 0x30), d)
    else none
  | _ => none

structure ResponseState where
  multiLine : Bool := false
  control : Control

/-- What `parse_response` leaves. -/
structure Response where
  err : Bool
  statusCode : Nat
  controlResponse : List UInt8
  control : Control

def responsePass (fuel : Nat) (s : ResponseState) : Option (ResponseState ⊕ Response) :=
  (readResponseLine fuel s.control).map fun
    | (none, control) => .inr { err := true, statusCode := 421, controlResponse := [], control }
    | (some line, control) =>
      match replyCode line with
      | some (statusCode, 0x20) =>
        .inr { err := false, statusCode, controlResponse := line, control }
      | some (_, 0x2D) => .inl { multiLine := true, control }
      | _ =>
        if s.multiLine then .inl { s with control }
        else .inr { err := true, statusCode := 501, controlResponse := [], control }

def parseResponse (fuel : Nat) (control : Control) : Option Response :=
  Loop.run (responsePass fuel) fuel { control }

/-! ## Replies -/

/-- A reply of one line, or of more: the text of the first line and the lines between it and the
last one. -/
structure Reply where
  code : List UInt8
  head : Option (List UInt8 × List (List UInt8))
  text : List UInt8

namespace Reply

def lastLine (r : Reply) : List UInt8 := r.code ++ 0x20 :: r.text

def inner (r : Reply) : List (List UInt8) := (r.head.map (·.2)).getD []

def lines (r : Reply) : List (List UInt8) :=
  (r.head.elim [] fun (first, inner) => (r.code ++ 0x2D :: first) :: inner) ++ [r.lastLine]

/-- The rules for replies. The last line is the first one with the number and a space. -/
structure Valid (r : Reply) : Prop where
  length : r.code.length = 3
  digits : ∀ c ∈ r.code, isDigit c = true
  plain : ∀ line ∈ r.lines, ∀ c ∈ line, isTerminator c = false
  short : ∀ line ∈ r.lines, line.length ≤ RESP_BUF_SIZE
  first : ∀ line ∈ r.inner, ¬ r.code ++ [0x20] <+: line

def statusCode (r : Reply) : Nat :=
  (r.code.map fun c => c.toNat - 0x30).foldl (fun n d => 10 * n + d) 0

end Reply

/-- Lines with their ends. -/
def sent (lines : List (List UInt8)) : List UInt8 := lines.flatMap (· ++ [CR, LF])

/-- No byte comes later than the timeout allows: when a line end was read there is one look more. -/
def OnTime : Bool → Control → Prop
  | _, [] => True
  | behind, a :: rest =>
    a.polls < TMOUT_COUNTER + (if behind then 1 else 0) ∧ OnTime (isTerminator a.byte) rest

instance : ∀ (late : Bool) (control : Control), Decidable (OnTime late control)
  | _, [] => inferInstanceAs (Decidable True)
  | _, a :: rest =>
    haveI : Decidable (OnTime (isTerminator a.byte) rest) := instDecidableOnTime _ rest
    inferInstanceAs (Decidable (_ ∧ _))

/-- With enough fuel, `parse_response` succeeds with the number of the reply and leaves what comes
later. -/
def Takes (r : Reply) (later : List Reply) (control : Control) : Prop :=
  ∃ response enough, (∀ fuel ≥ enough, parseResponse fuel control = some response) ∧
    response.err = false ∧ response.statusCode = r.statusCode ∧
    response.control.bytes = later.flatMap fun r => sent r.lines

/-- No line before the last one has three digits and a space, and the last LF is there as soon as
its CR was read. -/
def Framed (r : Reply) (control : Control) : Prop :=
  (∀ line ∈ r.inner, ∀ code, replyCode line ≠ some (code, 0x20)) ∧
    (control[(sent r.lines).length - 1]?).map (·.polls) = some 0

/-! ## One line -/

/-- What is left after a line end: the line ends that are there already are taken as well. -/
def finish : Control → Control
  | [] => []
  | a :: rest =>
    if a.polls = 0 then (if isTerminator a.byte then finish rest else a :: rest)
    else { a with polls := a.polls - 1 } :: rest

section Line

variable {line : List UInt8} {tmoutCounter : Nat} {control rest : Control} {a : Arrival}
  {result : Option (List UInt8) × Control}

/-- The next byte is waited for. -/
theorem settles_wait (lt : a.polls < tmoutCounter)
    (settles : Settles (fun _ => linePass)
      ⟨line, tmoutCounter - a.polls, { a with polls := 0 } :: rest⟩ result) :
    Settles (fun _ => linePass) ⟨line, tmoutCounter, a :: rest⟩ result := by
  obtain ⟨byte, polls⟩ := a
  induction polls generalizing tmoutCounter with
  | zero => exact settles
  | succ polls ih =>
      refine .next ⟨0, fun _ _ => ?_⟩ (ih (Nat.lt_sub_of_add_lt lt) ?_)
      · rw [linePass]
        dsimp only [Control.available]
        rw [if_neg (Nat.succ_ne_zero polls)]
        dsimp only
        rw [if_neg (by dsimp only at lt; omega)]
        rfl
      · rwa [show tmoutCounter - 1 - polls = tmoutCounter - (polls + 1) by omega]

/-- The bytes of a line are stored. -/
theorem settles_store {stored : Control} (onTime : ∀ a ∈ stored, a.polls < TMOUT_COUNTER)
    (plain : ∀ c ∈ stored.bytes, isTerminator c = false)
    (short : line.length + stored.length ≤ RESP_BUF_SIZE)
    (settles : Settles (fun _ => linePass) ⟨line ++ stored.bytes, TMOUT_COUNTER, rest⟩ result) :
    Settles (fun _ => linePass) ⟨line, TMOUT_COUNTER, stored ++ rest⟩ result := by
  induction stored generalizing line with
  | nil => simpa [Control.bytes] using settles
  | cons a stored ih =>
      rw [List.length_cons] at short
      have ordinary : isTerminator a.byte = false := plain a.byte List.mem_cons_self
      have settles' : Settles (fun _ => linePass)
          ⟨line ++ [a.byte], TMOUT_COUNTER, stored ++ rest⟩ result := by
        apply ih
        · exact fun a mem => onTime a (List.mem_cons_of_mem _ mem)
        · exact fun c mem => plain c (List.mem_cons_of_mem _ mem)
        · rw [List.length_append, List.length_singleton]
          omega
        · rw [List.append_assoc]
          exact settles
      refine settles_wait (onTime a List.mem_cons_self) (.next ⟨0, fun _ _ => ?_⟩ settles')
      rw [linePass]
      dsimp only [Control.available, Control.read, List.cons_append]
      rw [if_pos rfl]
      dsimp only
      rw [ordinary, if_neg Bool.false_ne_true, if_pos (by omega)]
      rfl

/-- A line end that is there ends the line. -/
theorem settles_finish (there : a.polls = 0) (terminator : isTerminator a.byte = true) :
    Settles (fun _ => linePass) ⟨line, tmoutCounter, a :: rest⟩ (some line, finish rest) := by
  induction rest generalizing a with
  | nil =>
      refine .exit ⟨0, fun _ _ => ?_⟩
      rw [linePass]
      dsimp only [Control.available, Control.read]
      rw [if_pos there]
      dsimp only
      rw [if_pos terminator]
      rfl
  | cons b rest ih =>
      have pass : linePass ⟨line, tmoutCounter, a :: b :: rest⟩ =
          if b.polls = 0 then
            if isTerminator b.byte then some (.inl ⟨line, tmoutCounter, b :: rest⟩)
            else some (.inr (some line, b :: rest))
          else some (.inr (some line, { b with polls := b.polls - 1 } :: rest)) := by
        rw [linePass]
        dsimp only [Control.available, Control.read]
        rw [if_pos there]
        dsimp only
        rw [if_pos terminator]
        split_ifs <;> simp_all [Control.peek]
      rw [finish]
      split_ifs at pass ⊢ with now more
      · exact .next ⟨0, fun _ _ => pass⟩ (ih now more)
      · exact .exit ⟨0, fun _ _ => pass⟩
      · exact .exit ⟨0, fun _ _ => pass⟩

/-- With enough fuel, `read_response_line` returns this. -/
def Reads (control : Control) (result : Option (List UInt8) × Control) : Prop :=
  ∃ enough, ∀ fuel ≥ enough, readResponseLine fuel control = some result

/-- A line is read up to its end. -/
theorem reads_line {stored : Control} (onTime : ∀ a ∈ stored, a.polls < TMOUT_COUNTER)
    (plain : ∀ c ∈ stored.bytes, isTerminator c = false) (short : stored.length ≤ RESP_BUF_SIZE)
    (lt : a.polls < TMOUT_COUNTER) (terminator : isTerminator a.byte = true) :
    Reads (stored ++ a :: rest) (some stored.bytes, finish rest) := by
  have settles : Settles (fun _ => linePass) { control := stored ++ a :: rest }
      (some stored.bytes, finish rest) := by
    refine settles_store onTime plain (by simpa using short) (settles_wait lt ?_)
    exact settles_finish rfl terminator
  obtain ⟨enough, settles⟩ := settles
  exact ⟨enough, fun fuel le => settles fuel le fuel le⟩

end Line

/-! ## A reply -/

section Reply

variable {bytes last : List UInt8} {lines : List (List UInt8)} {control rest : Control}

/-- A line is on time when its bytes and its end are. -/
theorem OnTime.line {stored : Control} {a : Arrival} (onTime : OnTime false (stored ++ a :: rest))
    (plain : ∀ c ∈ stored.bytes, isTerminator c = false) :
    (∀ a ∈ stored, a.polls < TMOUT_COUNTER) ∧ a.polls < TMOUT_COUNTER ∧
      OnTime (isTerminator a.byte) rest := by
  induction stored with
  | nil => exact ⟨nofun, onTime⟩
  | cons b stored ih =>
      have ordinary : isTerminator b.byte = false := plain b.byte List.mem_cons_self
      obtain ⟨lt, onTime⟩ := onTime
      rw [ordinary] at onTime
      obtain ⟨all, final⟩ := ih onTime fun c mem => plain c (List.mem_cons_of_mem _ mem)
      exact ⟨List.forall_mem_cons.mpr ⟨lt, all⟩, final⟩

/-- What is left of a reply up to its last CR: line ends, lines that are not empty, and the last
line. -/
inductive Body (last : List UInt8) : List (List UInt8) → List UInt8 → Prop
  | last : Body last [] (last ++ [CR])
  | skip {lines : List (List UInt8)} {bytes : List UInt8} {c : UInt8}
      (terminator : isTerminator c = true) (rest : Body last lines bytes) :
      Body last lines (c :: bytes)
  | line {lines : List (List UInt8)} {bytes line : List UInt8} {c : UInt8} (nonempty : line ≠ [])
      (plain : ∀ c ∈ line, isTerminator c = false) (short : line.length ≤ RESP_BUF_SIZE)
      (terminator : isTerminator c = true) (rest : Body last lines bytes) :
      Body last (line :: lines) (line ++ c :: bytes)

/-- The lines of a reply, its empty ones left out. -/
theorem body_of_lines (plain : ∀ line ∈ lines, ∀ c ∈ line, isTerminator c = false)
    (short : ∀ line ∈ lines, line.length ≤ RESP_BUF_SIZE) :
    Body last (lines.filter (· ≠ [])) (sent lines ++ (last ++ [CR])) := by
  induction lines with
  | nil => exact .last
  | cons line lines ih =>
      rw [List.forall_mem_cons] at plain short
      have rest : Body last (lines.filter (· ≠ [])) (LF :: (sent lines ++ (last ++ [CR]))) :=
        .skip rfl (ih plain.2 short.2)
      have bytes : sent (line :: lines) ++ (last ++ [CR]) =
          line ++ CR :: LF :: (sent lines ++ (last ++ [CR])) := by
        simp [sent]
      rw [bytes]
      by_cases empty : line = []
      · rw [List.filter_cons_of_neg (by simp [empty]), empty]
        exact .skip rfl rest
      · rw [List.filter_cons_of_pos (by simpa using empty)]
        exact .line empty plain.1 short.1 rfl rest

/-- What stays in front keeps its bytes. -/
theorem finish_keep {a : Arrival} (stays : a.polls = 0 → isTerminator a.byte = false) :
    finish (a :: rest) = { a with polls := a.polls - 1 } :: rest := by
  obtain ⟨byte, polls⟩ := a
  rw [finish]
  split_ifs with now terminator
  · exact absurd terminator (by simp [stays now])
  · dsimp only at now ⊢
    rw [now]
  · rfl

theorem body_of_kept {a : Arrival} {front : Control} (onTime : OnTime true (a :: front))
    (body : Body last lines (Control.bytes (a :: front)))
    (stays : a.polls = 0 → isTerminator a.byte = false) :
    ∃ front', finish (a :: front ++ rest) = front' ++ rest ∧ front'.length ≤ (a :: front).length ∧
      Body last lines front'.bytes ∧ OnTime false front' := by
  refine ⟨{ a with polls := a.polls - 1 } :: front, finish_keep stays, Nat.le_refl _, body, ?_,
    onTime.2⟩
  have lt : a.polls < TMOUT_COUNTER + 1 := onTime.1
  have pos : 0 < TMOUT_COUNTER := by decide
  rw [if_neg Bool.false_ne_true, Nat.add_zero]
  dsimp only
  omega

/-- A line that is not empty starts with a byte of its own. -/
theorem starts_ordinary {line tail : List UInt8} {a : Arrival} {front : Control}
    (nonempty : line ≠ []) (plain : ∀ c ∈ line, isTerminator c = false)
    (same : Control.bytes (a :: front) = line ++ tail) : isTerminator a.byte = false := by
  obtain ⟨c, line, rfl⟩ := List.exists_cons_of_ne_nil nonempty
  have head : a.byte = c := (List.cons.inj same).1
  exact head ▸ plain c List.mem_cons_self

/-- Behind a line end the same lines are left, and the next byte is not late. -/
theorem finish_body (nonempty : last ≠ []) (plain : ∀ c ∈ last, isTerminator c = false)
    (body : Body last lines bytes) {front : Control} (same : front.bytes = bytes)
    (onTime : OnTime true front) : ∃ front', finish (front ++ rest) = front' ++ rest ∧
      front'.length ≤ front.length ∧ Body last lines front'.bytes ∧ OnTime false front' := by
  induction body generalizing front with
  | last =>
      cases front with
      | nil => simp [Control.bytes] at same
      | cons a front =>
          exact body_of_kept onTime (same ▸ .last) fun _ => starts_ordinary nonempty plain same
  | line full plain' short terminator body =>
      cases front with
      | nil => simp [Control.bytes] at same
      | cons a front =>
          exact body_of_kept onTime (same ▸ .line full plain' short terminator body) fun _ =>
            starts_ordinary full plain' same
  | @skip lines bytes c terminator body ih =>
      cases front with
      | nil => simp [Control.bytes] at same
      | cons a front =>
          have head : a.byte = c := (List.cons.inj same).1
          by_cases now : a.polls = 0
          · have behind : OnTime true front := by
              have onTime := onTime.2
              rwa [head, terminator] at onTime
            obtain ⟨front', finished, le, body', onTime'⟩ := ih (List.cons.inj same).2 behind
            refine ⟨front', ?_, Nat.le_succ_of_le le, body', onTime'⟩
            rw [List.cons_append, finish, if_pos now, head, if_pos terminator, finished]
          · exact body_of_kept onTime (same ▸ .skip terminator body) fun zero => absurd zero now

variable (rest) in
/-- A line and its end, in front of what is left. -/
theorem reads_body (nonempty : last ≠ []) (plain : ∀ c ∈ last, isTerminator c = false) {c : UInt8}
    {line : List UInt8} (plain' : ∀ c ∈ line, isTerminator c = false)
    (short : line.length ≤ RESP_BUF_SIZE) (terminator : isTerminator c = true)
    (body : Body last lines bytes) {front : Control} (same : front.bytes = line ++ c :: bytes)
    (onTime : OnTime false front) : ∃ front', Reads (front ++ rest) (some line, front' ++ rest) ∧
      front'.length < front.length ∧ Body last lines front'.bytes ∧ OnTime false front' := by
  obtain ⟨stored, tail, rfl, rfl, ends⟩ := List.map_eq_append_iff.mp same
  obtain ⟨a, front, rfl, rfl, rfl⟩ := List.map_eq_cons_iff.mp ends
  obtain ⟨all, lt, behind⟩ := onTime.line plain'
  rw [terminator] at behind
  obtain ⟨front', finished, le, body', onTime'⟩ := finish_body nonempty plain body rfl behind
  refine ⟨front', ?_, ?_, body', onTime'⟩
  · have reads : Reads (stored ++ a :: (front ++ rest))
        (some (Control.bytes stored), finish (front ++ rest)) :=
      reads_line all plain' (by simpa using short) lt terminator
    rwa [finished, ← List.cons_append, ← List.append_assoc] at reads
  · rw [List.length_append, List.length_cons]
    omega

variable (rest) in
/-- One line of what is left. -/
theorem body_step (nonempty : last ≠ []) (plain : ∀ c ∈ last, isTerminator c = false)
    {front : Control} (body : Body last lines front.bytes) (onTime : OnTime false front) :
    lines = [] ∧ front.bytes = last ++ [CR] ∨
      ∃ line lines' front', (lines = line :: lines' ∨ line = [] ∧ lines = lines') ∧
        Reads (front ++ rest) (some line, front' ++ rest) ∧ front'.length < front.length ∧
        Body last lines' front'.bytes ∧ OnTime false front' := by
  generalize same : front.bytes = bytes at body
  cases body with
  | last => exact .inl ⟨rfl, rfl⟩
  | skip terminator body =>
      have noLine : ∀ c ∈ ([] : List UInt8), isTerminator c = false := by simp
      obtain ⟨front', reads, step⟩ :=
        reads_body rest nonempty plain noLine (Nat.zero_le _) terminator body same onTime
      exact .inr ⟨[], lines, front', .inr ⟨rfl, rfl⟩, reads, step⟩
  | @line lines bytes line c full plain' short terminator body =>
      obtain ⟨front', reads, step⟩ :=
        reads_body rest nonempty plain plain' short terminator body same onTime
      exact .inr ⟨line, lines, front', .inl rfl, reads, step⟩

/-- A pass with the line that was read. -/
theorem responsePass_of_reads {multiLine : Bool} {line : List UInt8}
    (reads : Reads control (some line, rest)) {next : ResponseState ⊕ Response}
    (decides : (match replyCode line with
      | some (statusCode, 0x20) =>
        .inr { err := false, statusCode, controlResponse := line, control := rest }
      | some (_, 0x2D) => .inl { multiLine := true, control := rest }
      | _ =>
        if multiLine then .inl { multiLine, control := rest }
        else .inr { err := true, statusCode := 501, controlResponse := [], control := rest }) =
          next) :
    ∃ enough, ∀ fuel ≥ enough, responsePass fuel ⟨multiLine, control⟩ = some next := by
  obtain ⟨enough, reads⟩ := reads
  refine ⟨enough, fun fuel le => ?_⟩
  rw [responsePass, reads fuel le, ← decides]
  rfl

/-- The last line of a reply ends it, with its last LF if that is there. -/
theorem settles_last {multiLine : Bool} {statusCode : Nat}
    (code : replyCode last = some (statusCode, 0x20)) (plain : ∀ c ∈ last, isTerminator c = false)
    (short : last.length ≤ RESP_BUF_SIZE) {front : Control} (same : front.bytes = last ++ [CR])
    (onTime : OnTime false front) : Settles responsePass ⟨multiLine, front ++ rest⟩
      { err := false, statusCode, controlResponse := last, control := finish rest } := by
  obtain ⟨stored, tail, rfl, rfl, ends⟩ := List.map_eq_append_iff.mp same
  obtain ⟨a, tail, rfl, head, nothing⟩ := List.map_eq_cons_iff.mp ends
  obtain rfl := List.map_eq_nil_iff.mp nothing
  obtain ⟨all, lt, -⟩ := onTime.line plain
  have reads : Reads (stored ++ a :: rest) (some (Control.bytes stored), finish rest) :=
    reads_line all plain (by simpa using short) lt (congrArg isTerminator head)
  have rejoin : stored ++ [a] ++ rest = stored ++ a :: rest := by simp
  rw [rejoin]
  apply Settles.exit
  apply responsePass_of_reads reads
  unfold Control.bytes
  rw [code]
  rfl

/-- A line that does not end the reply is passed over. -/
theorem settles_pass {line : List UInt8} (reads : Reads control (some line, rest))
    {response : Response} (goesOn : ∀ code, replyCode line ≠ some (code, 0x20))
    (settles : Settles responsePass ⟨true, rest⟩ response) :
    Settles responsePass ⟨true, control⟩ response := by
  refine .next (responsePass_of_reads reads ?_) settles
  split
  · exact absurd ‹_› (goesOn _)
  · rfl
  · rfl

/-- When no line before the last one ends the reply, the last one does. -/
theorem settles_body {statusCode : Nat} (code : replyCode last = some (statusCode, 0x20))
    (plain : ∀ c ∈ last, isTerminator c = false) (short : last.length ≤ RESP_BUF_SIZE)
    {front : Control} (body : Body last lines front.bytes) (onTime : OnTime false front)
    (goesOn : ∀ line ∈ lines, ∀ code, replyCode line ≠ some (code, 0x20)) :
    Settles responsePass ⟨true, front ++ rest⟩
      { err := false, statusCode, controlResponse := last, control := finish rest } := by
  have nonempty : last ≠ [] := by
    rintro rfl
    exact nomatch code
  -- on the bytes that are left
  induction size : front.length using Nat.strongRecOn generalizing front lines with
  | ind size ih =>
      obtain ⟨rfl, same⟩ | ⟨line, lines', front', next, reads, lt, body', onTime'⟩ :=
        body_step rest nonempty plain body onTime
      · exact settles_last code plain short same onTime
      · obtain rfl | ⟨rfl, rfl⟩ := next
        · rw [List.forall_mem_cons] at goesOn
          exact settles_pass reads goesOn.1 (ih _ (size ▸ lt) body' onTime' goesOn.2 rfl)
        · exact settles_pass reads nofun (ih _ (size ▸ lt) body' onTime' goesOn rfl)

/-- When a line before the last one ends the reply, the last one is left. -/
theorem settles_early (nonempty : last ≠ []) (plain : ∀ c ∈ last, isTerminator c = false)
    {front : Control} (body : Body last lines front.bytes) (onTime : OnTime false front)
    (ends : ∃ line ∈ lines, ∃ code, replyCode line = some (code, 0x20)) :
    ∃ response left, Settles responsePass ⟨true, front ++ rest⟩ response ∧
      response.control = left ++ rest := by
  induction size : front.length using Nat.strongRecOn generalizing front lines with
  | ind size ih =>
      obtain ⟨rfl, same⟩ | ⟨line, lines', front', next, reads, lt, body', onTime'⟩ :=
        body_step rest nonempty plain body onTime
      · obtain ⟨line, mem, -⟩ := ends
        exact absurd mem List.not_mem_nil
      · by_cases now : ∃ code, replyCode line = some (code, 0x20)
        · obtain ⟨code, now⟩ := now
          refine ⟨⟨false, code, line, front' ++ rest⟩, front',
            .exit (responsePass_of_reads reads ?_), rfl⟩
          rw [now]
          rfl
        · obtain rfl | ⟨rfl, rfl⟩ := next
          · simp only [List.mem_cons, exists_eq_or_imp] at ends
            obtain ⟨response, left, settles, same⟩ :=
              ih _ (size ▸ lt) body' onTime' (ends.resolve_left now) rfl
            exact ⟨response, left, settles_pass reads (not_exists.mp now) settles, same⟩
          · obtain ⟨response, left, settles, same⟩ := ih _ (size ▸ lt) body' onTime' ends rfl
            exact ⟨response, left, settles_pass reads nofun settles, same⟩

/-- The number of a line that starts with the three digits of the reply. -/
theorem replyCode_of_code {r : Reply} (valid : r.Valid) (d : UInt8) (text : List UInt8) :
    replyCode (r.code ++ d :: text) = some (r.statusCode, d) := by
  have digits := valid.digits
  have length := valid.length
  rw [Reply.statusCode]
  match r.code, length, digits with
  | [x, y, z], _, digits =>
      simp only [List.mem_cons, List.not_mem_nil, or_false, forall_eq_or_imp, forall_eq] at digits
      obtain ⟨one, two, three⟩ := digits
      dsimp only [replyCode, List.cons_append, List.nil_append, List.map, List.foldl]
      rw [one, two, three, Bool.and_self, Bool.and_self, if_pos rfl]
      congr 2
      omega

theorem lastLine_ne_nil (r : Reply) : r.lastLine ≠ [] := by simp [Reply.lastLine]

variable (rest) in
/-- The lines of a reply up to the last one: nothing, or the first line and those behind it. -/
theorem settles_reply {r : Reply} (valid : r.Valid) {front : Control}
    (same : front.bytes ++ [LF] = sent r.lines) (onTime : OnTime false front) :
    ((∀ line ∈ r.inner, ∀ code, replyCode line ≠ some (code, 0x20)) →
      Settles responsePass { control := front ++ rest }
        { err := false, statusCode := r.statusCode, controlResponse := r.lastLine,
          control := finish rest }) ∧
    ((∃ line ∈ r.inner, ∃ code, replyCode line = some (code, 0x20)) →
      ∃ response left, Settles responsePass { control := front ++ rest } response ∧
        response.control = left ++ rest) := by
  have plain := valid.plain
  have short := valid.short
  have code : replyCode r.lastLine = some (r.statusCode, 0x20) :=
    replyCode_of_code valid 0x20 r.text
  have nonempty := lastLine_ne_nil r
  rw [Reply.lines] at same plain short
  rw [Reply.inner]
  cases head : r.head with
  | none =>
      rw [head] at same plain short
      have same' : front.bytes = r.lastLine ++ [CR] := by
        apply (List.append_left_inj [LF]).mp
        simpa [sent] using same
      have mem : r.lastLine ∈ ([] : List (List UInt8)) ++ [r.lastLine] := List.mem_singleton_self _
      exact ⟨fun _ => settles_last code (plain _ mem) (short _ mem) same' onTime, nofun⟩
  | some head' =>
      obtain ⟨first, inner⟩ := head'
      rw [head] at same plain short
      dsimp only [Option.elim_some, Option.map_some, Option.getD_some, List.cons_append]
        at same plain short ⊢
      obtain ⟨plainFirst, plain⟩ := List.forall_mem_cons.mp plain
      obtain ⟨plainInner, plain⟩ := List.forall_mem_append.mp plain
      obtain ⟨shortFirst, short⟩ := List.forall_mem_cons.mp short
      obtain ⟨shortInner, short⟩ := List.forall_mem_append.mp short
      rw [List.forall_mem_singleton] at plain short
      have same' : front.bytes =
          (r.code ++ 0x2D :: first) ++ CR :: LF :: (sent inner ++ (r.lastLine ++ [CR])) := by
        apply (List.append_left_inj [LF]).mp
        simpa [sent] using same
      obtain ⟨front', reads, -, body, onTime'⟩ := reads_body rest nonempty plain plainFirst
        shortFirst rfl (.skip rfl (body_of_lines plainInner shortInner)) same' onTime
      have enters : ∃ enough, ∀ fuel ≥ enough, responsePass fuel { control := front ++ rest } =
          some (.inl ⟨true, front' ++ rest⟩) := by
        apply responsePass_of_reads reads
        rw [replyCode_of_code valid]
        rfl
      constructor
      · intro goesOn
        refine .next enters (settles_body code plain short body onTime' ?_)
        exact fun line mem => goesOn line (List.mem_filter.mp mem).1
      · rintro ⟨line, mem, number, ends⟩
        have kept : line ∈ inner.filter (· ≠ []) :=
          List.mem_filter.mpr ⟨mem, decide_eq_true fun empty => nomatch empty ▸ ends⟩
        obtain ⟨response, left, settles, rest⟩ :=
          settles_early nonempty plain body onTime' ⟨line, kept, number, ends⟩
        exact ⟨response, left, .next enters settles, rest⟩

/-- Without the timeout only the last LF matters: when it is late, it stays. -/
theorem finish_last {a : Arrival} (lf : a.byte = LF)
    (ordinary : ∀ c ∈ rest.bytes.head?, isTerminator c = false) :
    (finish (a :: rest)).bytes = if a.polls = 0 then rest.bytes else LF :: rest.bytes := by
  rw [finish]
  split_ifs with now terminator
  · cases rest with
    | nil => rfl
    | cons b rest =>
        rw [finish_keep fun _ => ordinary b.byte rfl]
        rfl
  · exact absurd rfl (lf ▸ terminator)
  · rw [← lf]
    rfl

/-- A reply starts with a digit. -/
theorem sent_head {r : Reply} (valid : r.Valid) (rest : List UInt8) :
    ∀ c ∈ (sent r.lines ++ rest).head?, isTerminator c = false := by
  obtain ⟨c, code, eq⟩ := List.exists_cons_of_length_eq_add_one valid.length
  have starts : (sent r.lines ++ rest).head? = some c := by
    rw [Reply.lines, Reply.lastLine, eq]
    cases r.head <;> rfl
  have ordinary : ∀ c : UInt8, isDigit c = true → isTerminator c = false := by
    intro c digit
    simp only [isDigit, Bool.and_eq_true, decide_eq_true_eq, UInt8.le_iff_toNat_le] at digit
    simp only [isTerminator, LF, CR, Bool.or_eq_false_iff, decide_eq_false_iff_not,
      ← UInt8.toNat_inj]
    obtain ⟨low, -⟩ := digit
    rw [show UInt8.toNat 0x30 = 48 from rfl] at low
    rw [show UInt8.toNat 0x0A = 10 from rfl, show UInt8.toNat 0x0D = 13 from rfl]
    omega
  rw [starts]
  rintro _ ⟨⟩
  exact ordinary c (valid.digits c (eq ▸ List.mem_cons_self))

theorem OnTime.of_append {late : Bool} {front : Control} (onTime : OnTime late (front ++ rest)) :
    OnTime late front := by
  induction front generalizing late with
  | nil => trivial
  | cons a front ih => exact ⟨onTime.1, ih onTime.2⟩

/-- The bytes of the reply up to its last LF, that LF, and the later replies. -/
theorem split_reply {r : Reply} {later : List UInt8}
    (bytes : control.bytes = sent r.lines ++ later) :
    ∃ (front : Control) (lf : Arrival) (behind : Control), control = front ++ lf :: behind ∧
      front.bytes ++ [LF] = sent r.lines ∧ lf.byte = LF ∧ behind.bytes = later := by
  obtain ⟨front, eq⟩ : ∃ front, sent r.lines = front ++ [LF] :=
    ⟨sent (r.lines.dropLast) ++ (r.lastLine ++ [CR]), by simp [sent, Reply.lines]⟩
  rw [eq, List.append_assoc] at bytes
  obtain ⟨front, tail, rfl, rfl, same⟩ := List.map_eq_append_iff.mp bytes
  obtain ⟨lf, behind, rfl, isLf, same⟩ := List.map_eq_cons_iff.mp same
  exact ⟨front, lf, behind, rfl, eq.symm, isLf, same⟩

theorem parseResponse_of_settles {response : Response}
    (settles : Settles responsePass { control } response) :
    ∃ enough, ∀ fuel ≥ enough, parseResponse fuel control = some response := by
  obtain ⟨enough, settles⟩ := settles
  exact ⟨enough, fun fuel le => settles fuel le fuel le⟩

/-- `parse_response` has one result, and that leaves the later replies. -/
theorem Takes.left {r : Reply} {later : List Reply} {response : Response}
    (takes : Takes r later control) (settles : Settles responsePass { control } response) :
    response.control.bytes = later.flatMap fun r => sent r.lines := by
  obtain ⟨response', enough, takes, -, -, same⟩ := takes
  obtain ⟨n, settles⟩ := parseResponse_of_settles settles
  have one := settles (max n enough) (Nat.le_max_left _ _)
  have other := takes (max n enough) (Nat.le_max_right _ _)
  have eq : response = response' := Option.some.inj (one.symm.trans other)
  rw [eq]
  exact same

end Reply

/-- Whatever the times at which its bytes come, `parse_response` takes exactly the reply if and only
if no line before the last one has three digits and a space, and the last LF is not later than its
CR. -/
theorem parse_response_takes_iff (r : Reply) (later : List Reply) (control : Control)
    (valid : r.Valid) (laterValid : ∀ r ∈ later, r.Valid)
    (bytes : control.bytes = sent r.lines ++ later.flatMap fun r => sent r.lines)
    (onTime : OnTime false (control.take (sent r.lines).length)) :
    Takes r later control ↔ Framed r control := by
  obtain ⟨front, lf, behind, rfl, same, isLf, rest⟩ := split_reply bytes
  have length : (sent r.lines).length = front.length + 1 := by
    rw [← same, List.length_append, Control.bytes, List.length_map, List.length_singleton]
  have before : OnTime false front := by
    rw [length, List.take_length_add_append] at onTime
    exact onTime.of_append
  have ordinary : ∀ c ∈ behind.bytes.head?, isTerminator c = false := by
    rw [rest]
    cases later with
    | nil => exact nofun
    | cons r later => exact sent_head (laterValid r List.mem_cons_self) _
  have there :
      ((front ++ lf :: behind)[(sent r.lines).length - 1]?).map (·.polls) = some lf.polls := by
    rw [length, Nat.add_sub_cancel, List.getElem?_append_right (Nat.le_refl _), Nat.sub_self]
    rfl
  have left := finish_last isLf ordinary
  obtain ⟨goesOn, early⟩ := settles_reply (lf :: behind) valid same before
  rw [Framed, there, Option.some.injEq]
  constructor
  · intro takes
    by_cases ends : ∃ line ∈ r.inner, ∃ code, replyCode line = some (code, 0x20)
    · -- a line before the last one ended the reply
      obtain ⟨response, kept, settles, eq⟩ := early ends
      have shorter := congrArg List.length (takes.left settles)
      rw [eq, ← rest, Control.bytes, Control.bytes, List.length_map, List.length_map,
        List.length_append, List.length_cons] at shorter
      omega
    · have quiet : ∀ line ∈ r.inner, ∀ code, replyCode line ≠ some (code, 0x20) :=
        fun line mem code eq => ends ⟨line, mem, code, eq⟩
      refine ⟨quiet, ?_⟩
      by_contra late
      have same' := takes.left (goesOn quiet)
      rw [left, if_neg late, rest] at same'
      exact absurd same' (List.cons_ne_self _ _)
  · rintro ⟨quiet, now⟩
    obtain ⟨enough, settles⟩ := parseResponse_of_settles (goesOn quiet)
    refine ⟨_, enough, settles, rfl, rfl, ?_⟩
    dsimp only
    rw [left, if_pos now, rest]

/-- `220 ok`. -/
def greeting : Reply := { code := [0x32, 0x32, 0x30], head := none, text := [0x6F, 0x6B] }

/-- `331 pw`. -/
def askPassword : Reply := { code := [0x33, 0x33, 0x31], head := none, text := [0x70, 0x77] }

theorem greeting_valid : greeting.Valid where
  length := rfl
  digits := by decide +kernel
  plain := by decide +kernel
  short := by decide +kernel
  first := nofun

theorem askPassword_valid : askPassword.Valid where
  length := rfl
  digits := by decide +kernel
  plain := by decide +kernel
  short := by decide +kernel
  first := nofun

/-- Bytes that are all there. -/
def atOnce (bytes : List UInt8) : Control := bytes.map (⟨·, 0⟩)

theorem takes_iff_at_once :
    Takes greeting [askPassword] (atOnce (sent greeting.lines ++ sent askPassword.lines)) ↔
      Framed greeting (atOnce (sent greeting.lines ++ sent askPassword.lines)) :=
  parse_response_takes_iff greeting [askPassword] _ greeting_valid
    (List.forall_mem_singleton.mpr askPassword_valid) (by decide) (by decide)

/-- The LF of the first reply comes one look later than its CR: it is still there for the next
call. -/
theorem late_line_feed_stays :
    let control := atOnce (greeting.lastLine ++ [CR]) ++ ⟨LF, 1⟩ :: atOnce (sent askPassword.lines)
    greeting.Valid ∧ askPassword.Valid ∧
      control.bytes = sent greeting.lines ++ sent askPassword.lines ∧ OnTime false control ∧
      ¬ Takes greeting [askPassword] control := by
  refine ⟨greeting_valid, askPassword_valid, by decide, by decide, fun takes => ?_⟩
  have same : (atOnce (greeting.lastLine ++ [CR])).bytes ++ [LF] = sent greeting.lines := by decide
  have settles := (settles_reply (⟨LF, 1⟩ :: atOnce (sent askPassword.lines)) greeting_valid same
    (by decide)).1 nofun
  exact absurd (takes.left settles) (by decide)

end FujiNet.Ftp
