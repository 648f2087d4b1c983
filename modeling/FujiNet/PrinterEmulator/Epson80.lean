import Mathlib.Data.List.Basic

/-!
# Commands of the Epson 80

`pdf_handle_char` takes one byte at a time. After an ESC the next byte is the command, and
one counter and three fields hold what has come of its parameters; `reset_cmd` is to end
every command. What a byte makes the printer do is a list of `Action`s, which is left to the
PDF; here they are only named.

`process_buffer` hands over a record up to its first end of line, which it translates to a
carriage return as an 850 interface does. (On the Apple II text loses its highest bit before;
that is left out.)
-/

namespace FujiNet.PrinterEmulator.Epson80

/-! ## Bits of the font mask -/

def fntUnderline : Nat := 0x001
def fntItalic : Nat := 0x002
def fntExpanded : Nat := 0x004
def fntCompressed : Nat := 0x008
def fntEmphasized : Nat := 0x010
def fntDoublestrike : Nat := 0x020
def fntSuperscript : Nat := 0x040
def fntSubscript : Nat := 0x080
def fntSOwide : Nat := 0x100
def fntElite : Nat := 0x200

/-- What a byte makes the printer do. -/
inductive Action
  | setMode (mask : Nat) | clearMode (mask : Nat)
  /-- the height of lines in points, and in 216ths of an inch -/
  | lineHeight (points : Nat) | lineHeight216 (n : UInt8)
  /-- an immediate line feed of so many 216ths, also backwards -/
  | lineFeed216 (n : UInt8) (reverse : Bool)
  | printWidth (columns : UInt8)
  /-- `at_reset` and the default font -/
  | reset
  | notImplemented | escNotImplemented
  /-- the graphics font of the command, a column of its dots, the text font again -/
  | graphicsFont (cmd : UInt8) | graphics (cmd c : UInt8) | textFont
  | backspace | lineFeed | endPage
  | print (c : UInt8)
deriving DecidableEq

/-- What the `switch` does about a command. -/
inductive Escape
  /-- its branch does not call `reset_cmd` -/
  | unended
  | reset
  | immediate (actions : List Action)
  /-- one parameter; a command that is not implemented says so at each of its bytes -/
  | one (actions : UInt8 → List Action) (implemented : Bool)
  | formLength | tabs | graphics

/-- The branches of the `switch`, by the command. -/
def escape (cmd : UInt8) : Escape :=
  match cmd with
  | 0x23 => .unended -- '#'
  | 0x2D => .one (fun n => if n ≠ 0 then [.setMode fntUnderline]
      else [.clearMode fntUnderline]) true -- '-'
  | 0x30 => .immediate [.lineHeight 9] -- '0'
  | 0x31 => .immediate [.lineHeight 7]
  | 0x32 => .immediate [.lineHeight 12]
  | 0x33 => .one (fun n => [.lineHeight216 n]) true
  | 0x34 => .immediate [.setMode fntItalic]
  | 0x35 => .immediate [.clearMode fntItalic]
  | 0x38 | 0x39 | 0x3C | 0x3D | 0x3E => .immediate [.escNotImplemented] -- '8', '9', '<', '=', '>'
  | 0x40 => .reset -- '@'
  | 0x41 => .one (fun n => [.lineHeight n.toNat]) true -- 'A'
  | 0x43 => .formLength
  | 0x44 => .tabs
  | 0x45 => .immediate [.setMode fntEmphasized]
  | 0x46 => .immediate [.clearMode fntEmphasized]
  | 0x47 => .immediate [.setMode fntDoublestrike]
  | 0x48 => .immediate [.clearMode (fntDoublestrike ||| fntSuperscript ||| fntSubscript)]
  | 0x4A => .one (fun n => [.lineFeed216 n false]) true -- 'J'
  | 0x6A => .one (fun n => [.lineFeed216 n true]) true -- 'j'
  | 0x4B | 0x4C | 0x59 | 0x5A => .graphics -- 'K', 'L', 'Y', 'Z'
  | 0x4D => .immediate [.setMode fntElite]
  | 0x4E => .one (fun _ => []) false -- 'N'
  | 0x4F => .unended -- 'O'
  | 0x50 => .immediate [.clearMode fntElite]
  | 0x51 => .one (fun n => [.printWidth n]) true -- 'Q'
  | 0x53 => .one (fun n => if n ≠ 0 then [.setMode fntSubscript]
      else [.setMode fntSuperscript]) true -- 'S'
  | 0x54 => .immediate [.clearMode (fntSuperscript ||| fntSubscript)]
  | 0x55 => .one (fun _ => []) false -- 'U'
  | 0x57 => .one (fun n => if n ≠ 0 then [.setMode fntExpanded]
      else [.clearMode fntExpanded, .clearMode fntSOwide]) true -- 'W'
  | 0x6C => .one (fun _ => []) false -- 'l'
  | _ => .immediate []

/-- `escMode`, `epson_cmd` and `textMode`. -/
structure Scan where
  escMode : Bool := false
  cmd : UInt8 := 0
  N1 : UInt8 := 0
  N2 : UInt8 := 0
  N : Nat := 0
  ctr : Nat := 0
  textMode : Bool := true
deriving DecidableEq

/-- `reset_cmd` -/
def resetCmd (s : Scan) : Scan := { s with escMode := false, cmd := 0, ctr := 0, N1 := 0, N2 := 0 }

/-- The counter and the fields, as they are before the `switch`. -/
def count (c : UInt8) (s : Scan) : Scan :=
  let s :=
    if s.cmd = 0 then { s with ctr := 0, cmd := c } else { s with ctr := (s.ctr + 1) % 65536 }
  if s.ctr = 1 then { s with N1 := c }
  else if s.ctr = 2 then { s with N2 := c }
  else if s.ctr = 3 then { s with N := s.N1.toNat + 256 * (s.N2.toNat % 8) }
  else s

/-- The `switch` on the command. -/
def execute (c : UInt8) (s : Scan) : List Action × Scan :=
  match escape s.cmd with
  | .unended => ([.escNotImplemented], s)
  | .reset => ([.reset], resetCmd { s with textMode := true })
  | .immediate actions => (actions, resetCmd s)
  | .one actions implemented =>
    let note := if implemented then [] else [.escNotImplemented]
    if s.ctr > 0 then (note ++ actions s.N1, resetCmd s) else (note, s)
  | .formLength =>
    ([.escNotImplemented],
      if s.ctr = 1 ∧ s.N1 > 0 then resetCmd s else if s.ctr = 2 then resetCmd s else s)
  | .tabs =>
    ([.escNotImplemented], if c.toNat % 128 = 0 ∨ s.ctr > 28 then resetCmd s else s)
  | .graphics =>
    let s := if s.ctr = 0 then { s with textMode := false } else s
    let font : List Action := if s.ctr = 2 then [.graphicsFont s.cmd] else []
    if s.ctr > 2 then
      if s.ctr = s.N + 2 then
        (font ++ [.graphics s.cmd c, .textFont], resetCmd { s with textMode := true })
      else (font ++ [.graphics s.cmd c], s)
    else (font, s)

/-- A byte outside commands. -/
def control (c : UInt8) (s : Scan) : List Action × Scan :=
  match c with
  | 7 => ([], s)
  | 8 => ([.backspace], s)
  | 9 => ([.notImplemented], s)
  | 10 => ([.lineFeed], s)
  | 11 => ([.notImplemented], s)
  | 12 => ([.endPage], s)
  | 13 => ([], s)
  | 14 => ([.setMode fntSOwide], s)
  | 15 => ([.setMode fntCompressed], s)
  | 18 => ([.clearMode fntCompressed], s)
  | 20 => ([.clearMode fntSOwide], s)
  | 27 => ([], { s with escMode := true })
  | c => (if c > 31 then [.print c] else [], s)

/-- `pdf_handle_char` -/
def pdfHandleChar (c : UInt8) (s : Scan) : List Action × Scan :=
  if s.escMode then execute c (count c s) else control c s

/-- `ATASCII_EOL` -/
def atasciiEol : UInt8 := 155

/-- With `translate850` the end of line of the Atari becomes a carriage return. -/
def translate850 (c : UInt8) : UInt8 := if c = atasciiEol then 13 else c

/-- The bytes of a record, as far as `process_buffer` gets: the lines that it begins and ends on
the way leave the commands alone. -/
def processBuffer : List UInt8 → Scan → List Action × Scan
  | [], s => ([], s)
  | c :: rest, s =>
    let (actions, s) := pdfHandleChar (translate850 c) s
    if c = atasciiEol then (actions, s)
    else
      let (more, s) := processBuffer rest s
      (actions ++ more, s)

/-- Records, one after another. -/
def print (records : List (List UInt8)) (s : Scan) : Scan :=
  records.foldl (fun s record => (processBuffer record s).2) s

end FujiNet.PrinterEmulator.Epson80
