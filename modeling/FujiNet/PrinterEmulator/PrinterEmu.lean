import Mathlib.Data.List.Basic

/-!
# Printer emulators and their output file

`printer_emu` keeps one output file for all emulators. The file is made for the first record of a job,
opened again for each record, and closed for good when the computer has its output. Two flags have to
agree about it, and in a build without `DEBUG` the file is made but the job never starts.

A stream operation on a file that could not be opened ends the program.
-/

namespace FujiNet.PrinterEmulator

/-- `paper_t`. -/
inductive Paper
  | raw | trim | ascii | pdf | svg | png | html | htmlAtascii
deriving DecidableEq, Repr

/-- What `process` is called for: the bytes in `buffer`, and the auxiliary bytes of the command. -/
structure Record where
  bytes : List UInt8
  aux1 : UInt8 := 0
  aux2 : UInt8 := 0
deriving DecidableEq, Repr

/-- An emulator and the content of the file that it writes to. -/
structure Sheet (σ : Type*) where
  printer : σ
  content : List UInt8
deriving DecidableEq, Repr

/-- Write at the end. -/
def Sheet.put {σ : Type*} (text : List UInt8) (s : Sheet σ) : Sheet σ :=
  { s with content := s.content ++ text }

/-- What a derived class adds to `printer_emu`: `post_new_file`, `process_buffer` and
`pre_close_file`. -/
structure Emulator (σ : Type*) where
  postNewFile : Sheet σ → Sheet σ
  processBuffer : Record → Sheet σ → Bool × Sheet σ
  preCloseFile : Sheet σ → Sheet σ

namespace Emulator

variable {σ : Type*} (e : Emulator σ)

/-- The sheet of a job that a printer starts, after its records. -/
def printed (start : σ) (records : List Record) : Sheet σ :=
  records.foldl (fun s r => (e.processBuffer r s).2) (e.postNewFile ⟨start, []⟩)

/-- The same when the job is over. -/
def finished (start : σ) (records : List Record) : Sheet σ :=
  e.preCloseFile (e.printed start records)

theorem printed_concat (start : σ) (records : List Record) (r : Record) :
    e.printed start (records ++ [r]) = (e.processBuffer r (e.printed start records)).2 := by
  rw [printed, List.foldl_append]
  rfl

end Emulator

/-- `printer_emu`: `_output_started`, and whether `_file` is a file. -/
structure PrinterEmu (σ : Type*) where
  sheet : Sheet σ
  outputStarted : Bool := false
  file : Bool := false
deriving DecidableEq, Repr

/-- A stream operation on `nullptr`. -/
inductive Fault
  | nullFile
deriving DecidableEq, Repr

/-- The calls, with the outcome of each attempt to open the file: `created` for one that makes it,
`reopened` for one that opens it to write at its end. -/
inductive Call
  | process (record : Record) (created reopened : Bool)
  | closeOutput (reopened : Bool)
deriving DecidableEq, Repr

namespace PrinterEmu

variable {σ : Type*} (e : Emulator σ) (debug : Bool)

/-- `restart_output`. The second half is compiled with `DEBUG` only. -/
def restartOutput (created : Bool) (p : PrinterEmu σ) : PrinterEmu σ :=
  let content := if created then [] else p.sheet.content
  let p := { p with outputStarted := false, file := created, sheet.content := content }
  if debug = true ∧ created = true then
    { sheet := e.postNewFile p.sheet, outputStarted := true, file := false }
  else p

/-- `process`, once the output has started. -/
def processStarted (record : Record) (reopened : Bool) (p : PrinterEmu σ) :
    Except Fault (Bool × PrinterEmu σ) :=
  if reopened = false then .error .nullFile
  else
    let (result, sheet) := e.processBuffer record p.sheet
    .ok (result, { p with sheet := sheet, file := false })

/-- `process`. -/
def process (record : Record) (created reopened : Bool) (p : PrinterEmu σ) :
    Except Fault (Bool × PrinterEmu σ) :=
  if p.outputStarted then p.processStarted e record reopened
  else
    let p := p.restartOutput e debug created
    if p.outputStarted then p.processStarted e record reopened else .ok (false, p)

/-- `closeOutput`. -/
def closeOutput (reopened : Bool) (p : PrinterEmu σ) : Except Fault (PrinterEmu σ) :=
  if p.outputStarted = false then .ok p
  else if p.file = false ∧ reopened = false then .error .nullFile
  else .ok { sheet := e.preCloseFile p.sheet, outputStarted := false, file := false }

/-- A call, and what it returns; `closeOutput` returns nothing. -/
def call : Call → PrinterEmu σ → Except Fault (Option Bool × PrinterEmu σ)
  | .process record created reopened, p =>
    (p.process e debug record created reopened).map fun (result, p) => (some result, p)
  | .closeOutput reopened, p => (p.closeOutput e reopened).map fun p => (none, p)

end PrinterEmu

/-! ## Jobs

What was printed follows from the records and from which attempts to open the file succeeded.
-/

/-- The emulator when the job began and the records since then, or no job. -/
structure Progress (σ : Type*) where
  start : σ
  records : Option (List Record) := none

namespace Progress

variable {σ : Type*} (e : Emulator σ)

/-- A job begins with the file and ends when it is closed; a record belongs to it if the file was
open for the record. -/
def next : Call → Progress σ → Progress σ
  | .process record created reopened, ⟨start, none⟩ =>
    if created then ⟨start, some (if reopened then [record] else [])⟩ else ⟨start, none⟩
  | .process record _ reopened, ⟨start, some records⟩ =>
    ⟨start, some (if reopened then records ++ [record] else records)⟩
  | .closeOutput _, ⟨start, some records⟩ => ⟨(e.finished start records).printer, none⟩
  | .closeOutput _, ⟨start, none⟩ => ⟨start, none⟩

/-- The record of the call goes into the job. -/
def Takes (c : Call) (j : Progress σ) : Prop :=
  ∃ record created reopened, c = .process record created reopened ∧
    (j.next e c).records = some (j.records.getD [] ++ [record])

/-- The file can be opened again whenever there is one, and a new one is only made in a build with
`DEBUG`. -/
def Permits (debug : Bool) : Call → Progress σ → Prop
  | .process _ created reopened, ⟨_, none⟩ => created = true → debug = true ∧ reopened = true
  | .process _ _ reopened, ⟨_, some _⟩ => reopened = true
  | .closeOutput reopened, ⟨_, some _⟩ => reopened = true
  | .closeOutput _, ⟨_, none⟩ => True

end Progress

section Lifecycle

variable {σ : Type*} (e : Emulator σ) (debug : Bool)

/-- `P` holds of each call and of the job that it meets. -/
def AlongJobs (P : Call → Progress σ → Prop) : List Call → Progress σ → Prop
  | [], _ => True
  | c :: cs, j => P c j ∧ AlongJobs P cs (j.next e c)

/-- No call uses a file that is not open; one that returns true has put its record into the job; and
a file that is closed is the finished sheet of its job. -/
def Faithful : List Call → Progress σ → PrinterEmu σ → Prop
  | [], _, _ => True
  | c :: cs, j, p => ∃ answer p', p.call e debug c = .ok (answer, p') ∧
      (answer = some true → j.Takes e c) ∧
      (∀ reopened records, c = .closeOutput reopened → j.records = some records →
        p'.sheet.content = (e.finished j.start records).content) ∧
      Faithful cs (j.next e c) p'

/-- The flags of the printer and its sheet tell the job. -/
def Agrees : Progress σ → PrinterEmu σ → Prop
  | ⟨start, none⟩, p => p.outputStarted = false ∧ p.sheet.printer = start
  | ⟨start, some records⟩, p =>
    p.outputStarted = true ∧ p.file = false ∧ p.sheet = e.printed start records

variable {e debug} {j : Progress σ} {p : PrinterEmu σ} {c : Call}

/-- A new file starts a job, in a build with `DEBUG`. -/
theorem agrees_restartOutput (agrees : Agrees e ⟨j.start, none⟩ p) :
    Agrees e ⟨j.start, some []⟩ (p.restartOutput e true true) := by
  obtain ⟨-, printer⟩ := agrees
  refine ⟨rfl, rfl, ?_⟩
  rw [Emulator.printed, List.foldl_nil, ← printer]
  rfl

/-- A record that finds the file open is printed. -/
theorem agrees_processStarted {start : σ} {records : List Record} (record : Record)
    (agrees : Agrees e ⟨start, some records⟩ p) :
    ∃ result p', p.processStarted e record true = .ok (result, p') ∧
      Agrees e ⟨start, some (records ++ [record])⟩ p' := by
  obtain ⟨started, -, sheet⟩ := agrees
  refine ⟨_, _, rfl, started, rfl, ?_⟩
  rw [e.printed_concat, ← sheet]

theorem call_process_of_job {start : σ} {records : List Record} (record : Record) (created : Bool)
    (agrees : Agrees e ⟨start, some records⟩ p) :
    ∃ result p', p.call e debug (.process record created true) = .ok (some result, p') ∧
      Agrees e ⟨start, some (records ++ [record])⟩ p' := by
  obtain ⟨result, p', ran, agrees'⟩ := agrees_processStarted record agrees
  refine ⟨result, p', ?_, agrees'⟩
  rw [PrinterEmu.call, PrinterEmu.process, if_pos agrees.1, ran]
  rfl

theorem call_process_of_none {start : σ} (record : Record) (agrees : Agrees e ⟨start, none⟩ p) :
    ∃ result p', p.call e true (.process record true true) = .ok (some result, p') ∧
      Agrees e ⟨start, some [record]⟩ p' := by
  have new : Agrees e ⟨start, some []⟩ (p.restartOutput e true true) :=
    agrees_restartOutput (j := ⟨start, none⟩) agrees
  obtain ⟨result, p', ran, agrees'⟩ := agrees_processStarted record new
  refine ⟨result, p', ?_, agrees'⟩
  rw [PrinterEmu.call, PrinterEmu.process, if_neg (by rw [agrees.1]; decide)]
  dsimp only
  rw [if_pos new.1, ran]
  rfl

/-- Without a file there is no job, and nothing is printed. -/
theorem call_process_of_fails {start : σ} (record : Record) (reopened : Bool)
    (agrees : Agrees e ⟨start, none⟩ p) :
    ∃ p', p.call e debug (.process record false reopened) = .ok (some false, p') ∧
      Agrees e ⟨start, none⟩ p' := by
  have failed : p.restartOutput e debug false = { p with outputStarted := false, file := false } := by
    rw [PrinterEmu.restartOutput]
    exact if_neg fun both => nomatch both.2
  refine ⟨{ p with outputStarted := false, file := false }, ?_, rfl, agrees.2⟩
  rw [PrinterEmu.call, PrinterEmu.process, if_neg (by rw [agrees.1]; decide), failed]
  rfl

theorem call_closeOutput_of_job {start : σ} {records : List Record}
    (agrees : Agrees e ⟨start, some records⟩ p) :
    ∃ p', p.call e debug (.closeOutput true) = .ok (none, p') ∧
      p'.sheet.content = (e.finished start records).content ∧
      Agrees e ⟨(e.finished start records).printer, none⟩ p' := by
  obtain ⟨started, -, sheet⟩ := agrees
  have closed : e.preCloseFile p.sheet = e.finished start records := by
    rw [sheet]
    rfl
  refine ⟨{ sheet := e.finished start records }, ?_, rfl, rfl, rfl⟩
  rw [PrinterEmu.call, PrinterEmu.closeOutput, if_neg (by rw [started]; decide),
    if_neg (fun both => nomatch both.2), closed]
  rfl

/-- A permitted call does what the job asks for. -/
theorem call_of_permits (agrees : Agrees e j p) (permits : j.Permits debug c) :
    ∃ answer p', p.call e debug c = .ok (answer, p') ∧ Agrees e (j.next e c) p' ∧
      (answer = some true → j.Takes e c) ∧
      ∀ reopened records, c = .closeOutput reopened → j.records = some records →
        p'.sheet.content = (e.finished j.start records).content := by
  obtain ⟨start, records⟩ := j
  cases c with
  | process record created reopened =>
    have other : ∀ {p' : PrinterEmu σ} (reopened' records'),
        Call.process record created reopened = .closeOutput reopened' → records = some records' →
          p'.sheet.content = (e.finished start records').content := fun _ _ same => nomatch same
    cases records with
    | some records =>
      obtain rfl : reopened = true := permits
      obtain ⟨result, p', ran, agrees'⟩ := call_process_of_job record created agrees
      exact ⟨_, p', ran, agrees', fun _ => ⟨record, created, true, rfl, rfl⟩, other⟩
    | none =>
      cases created with
      | true =>
        obtain ⟨rfl, rfl⟩ := permits rfl
        obtain ⟨result, p', ran, agrees'⟩ := call_process_of_none record agrees
        exact ⟨_, p', ran, agrees', fun _ => ⟨record, true, true, rfl, rfl⟩, other⟩
      | false =>
        obtain ⟨p', ran, agrees'⟩ := call_process_of_fails record reopened agrees
        exact ⟨_, p', ran, agrees', (fun refused => nomatch refused), other⟩
  | closeOutput reopened =>
    cases records with
    | some records =>
      obtain rfl : reopened = true := permits
      obtain ⟨p', ran, content, agrees'⟩ := call_closeOutput_of_job agrees
      refine ⟨_, p', ran, agrees', (fun nothing => nomatch nothing), ?_⟩
      rintro _ _ - ⟨⟩
      exact content
    | none =>
      refine ⟨none, p, ?_, agrees, (fun nothing => nomatch nothing), fun _ _ _ no => nomatch no⟩
      rw [PrinterEmu.call, PrinterEmu.closeOutput, if_pos agrees.1]
      rfl

/-- In a build with `DEBUG`, a call that is not permitted uses a file that could not be opened. -/
theorem call_of_not_permits (agrees : Agrees e j p) (permits : ¬ j.Permits true c) :
    p.call e true c = .error .nullFile := by
  obtain ⟨start, records⟩ := j
  cases c with
  | process record created reopened =>
    cases records with
    | some records =>
      obtain rfl : reopened = false := Bool.eq_false_iff.mpr permits
      rw [PrinterEmu.call, PrinterEmu.process, if_pos agrees.1]
      rfl
    | none =>
      obtain ⟨rfl, refused⟩ := Classical.not_imp.mp permits
      obtain rfl : reopened = false := Bool.eq_false_iff.mpr fun opened => refused ⟨rfl, opened⟩
      rw [PrinterEmu.call, PrinterEmu.process, if_neg (by rw [agrees.1]; decide)]
      rfl
  | closeOutput reopened =>
    cases records with
    | some records =>
      obtain rfl : reopened = false := Bool.eq_false_iff.mpr permits
      rw [PrinterEmu.call, PrinterEmu.closeOutput, if_neg (by rw [agrees.1]; decide),
        if_pos ⟨agrees.2.1, rfl⟩]
      rfl
    | none => exact absurd trivial permits

theorem faithful_of_permits {calls : List Call} (agrees : Agrees e j p)
    (permits : AlongJobs e (Progress.Permits debug) calls j) : Faithful e debug calls j p := by
  induction calls generalizing j p with
  | nil => trivial
  | cons c cs ih =>
    obtain ⟨answer, p', ran, agrees', takes, closes⟩ := call_of_permits agrees permits.1
    exact ⟨answer, p', ran, takes, closes, ih agrees' permits.2⟩

theorem permits_of_faithful {calls : List Call} (agrees : Agrees e j p)
    (faithful : Faithful e true calls j p) : AlongJobs e (Progress.Permits true) calls j := by
  induction calls generalizing j p with
  | nil => trivial
  | cons c cs ih =>
    obtain ⟨answer, p', ran, -, -, rest⟩ := faithful
    have permits : j.Permits true c := by
      by_contra refused
      rw [call_of_not_permits agrees refused] at ran
      exact nomatch ran
    obtain ⟨answer', p'', ran', agrees', -⟩ := call_of_permits agrees permits
    obtain ⟨rfl, rfl⟩ := Prod.mk.inj (Except.ok.inj (ran.symm.trans ran'))
    exact ⟨permits, ih agrees' rest⟩

end Lifecycle

/-- Print jobs are printed faithfully if the output file can be opened again whenever there is one,
and a new one is only made in a build with `DEBUG`; in such a build only then. -/
theorem printing_faithful {σ : Type*} (e : Emulator σ) (debug : Bool) (start : σ)
    (content : List UInt8) (calls : List Call) :
    (AlongJobs e (Progress.Permits debug) calls ⟨start, none⟩ →
      Faithful e debug calls ⟨start, none⟩ { sheet := ⟨start, content⟩ }) ∧
    (debug = true → Faithful e debug calls ⟨start, none⟩ { sheet := ⟨start, content⟩ } →
      AlongJobs e (Progress.Permits debug) calls ⟨start, none⟩) := by
  have agrees : Agrees e ⟨start, none⟩ { sheet := ⟨start, content⟩ } := ⟨rfl, rfl⟩
  refine ⟨faithful_of_permits agrees, ?_⟩
  rintro rfl
  exact permits_of_faithful agrees

/-! ## The file printer -/

def ATASCII_EOL : UInt8 := 0x9B

/-- The text with one character for each byte. -/
def ascii (s : String) : List UInt8 := s.toList.map fun c => UInt8.ofNat c.toNat

def ASCII_CRLF : List UInt8 := ascii "\r\n"

/-- The last two papers of `filePrinter::process_buffer`: what is written up to the end of the
record, one character after the other. -/
def trimmedRecord : List UInt8 → List UInt8
  | [] => []
  | c :: rest => if c = ATASCII_EOL then [c] else c :: trimmedRecord rest

def asciiRecord : List UInt8 → List UInt8
  | [] => []
  | c :: rest =>
    if c = ATASCII_EOL then ASCII_CRLF
    else
      let plain := c &&& 0x7F
      (if 32 ≤ plain ∧ plain ≤ 122 ∧ plain ≠ 96 then [plain] else []) ++ asciiRecord rest

/-- `filePrinter`, with its paper. -/
def filePrinter : Emulator Paper where
  postNewFile := id
  processBuffer r s :=
    let text := match s.printer with
      | .raw => r.bytes
      | .trim => trimmedRecord r.bytes
      | _ => asciiRecord r.bytes
    (true, s.put text)
  preCloseFile := id

/-- One record, and the file closed, in a build with `DEBUG`. -/
theorem record_printed :
    Faithful filePrinter true [.process { bytes := [0x41] } true true, .closeOutput true]
      ⟨.raw, none⟩ { sheet := ⟨.raw, []⟩ } := by
  refine (printing_faithful filePrinter true .raw [] _).1 ?_
  simp [AlongJobs, Progress.Permits, Progress.next]

/-- One record, and the file closed: without `DEBUG` nothing is in it; and a file that is made but
cannot be opened for the record is used all the same. -/
theorem record_not_printed :
    ¬ Faithful filePrinter false
      [.process { bytes := [0x41] } true true, .closeOutput true] ⟨.raw, none⟩
        { sheet := ⟨.raw, []⟩ } ∧
    ¬ Faithful filePrinter true [.process { bytes := [0x41] } true false] ⟨.raw, none⟩
      { sheet := ⟨.raw, []⟩ } := by
  constructor
  · rintro ⟨_, _, first, -, -, _, p, last, -, closes, -⟩
    have content := closes true [{ bytes := [0x41] }] rfl rfl
    obtain ⟨-, rfl⟩ := Prod.mk.inj (Except.ok.inj first)
    obtain ⟨-, rfl⟩ := Prod.mk.inj (Except.ok.inj last)
    exact absurd content (by decide)
  · rintro ⟨_, _, ran, -⟩
    exact nomatch ran

end FujiNet.PrinterEmulator
