import Mathlib.Data.List.Basic
import FujiNet.Control.Loop
import FujiNet.Data.Text

/-!
# The plotter

`svgPlotter` draws what an Atari 1020 would. In graphics mode a record is a line of commands:
letters with numbers behind them. `graphics_command` reads the letters from `buffer` and the
numbers from `S`, a copy of the record in which it means to repeat a command by writing its
letter over a ':'.

The arithmetic of `double` is left open. The file is kept as the elements that are printed to it,
with the number of the pen in place of the name of its colour.
-/

namespace FujiNet.PrinterEmulator.SvgPlotter

/-- What the plotter does with numbers of type `double`. -/
class Double (δ : Type*) extends Add δ, Sub δ, Mul δ, Div δ, LT δ, IntCast δ, OfScientific δ where
  decidableLT : DecidableLT δ

instance instDecidableLTDouble {δ : Type*} [Double δ] : DecidableLT δ := Double.decidableLT

/-- Elements of the file. -/
inductive Svg (δ : Type*)
  | line (color : Int) (dash x1 x2 y1 y2 : δ)
  /-- the opening tag of a text, with its rotation in graphics mode -/
  | text (x y fontSize : δ) (weight : Nat) (color : Int) (rotate : Option Int)
  | char (c : UInt8)
  | endText

variable {δ : Type*} [Double δ]

variable (δ) in
structure Plotter where
  BOLflag : Bool := true
  svgX : δ := 0.0
  svgY : δ := 0.0
  svgYMin : δ := ((-100 : Int) : δ)
  svgYMax : δ := 100.0
  svgXHome : δ := 0.0
  svgYHome : δ := 0.0
  svgTextYOffset : δ := 0.0
  printWidth : δ := 480.0
  charWidth : δ := 12.0
  lineHeight : δ := 20.8
  fontSize : δ := 20.8
  svgRotate : Int := 0
  svgColorIdx : Int := 0
  svgLineType : Int := 0
  escMode : Bool := false
  escResidual : Bool := false
  textMode : Bool := true
  svgHomeFlag : Bool := true
  file : List (Svg δ) := []

/-! ## Drawing -/

def svgUpdateBounds (p : Plotter δ) : Plotter δ :=
  let p := if p.svgY < p.svgYMin then { p with svgYMin := p.svgY } else p
  if p.svgYMax < p.svgY then { p with svgYMax := p.svgY } else p

def svgComputeWeight (fsize : δ) : Nat :=
  if fsize < 20.0 then 700 else if fsize < 30.0 then 500 else if fsize < 90.0 then 400 else 300

def svgNewLine (p : Plotter δ) : Plotter δ :=
  let p := if p.svgHomeFlag then
      { p with svgTextYOffset := 0.0 - p.lineHeight, svgHomeFlag := false } else p
  let p := svgUpdateBounds { p with svgY := p.svgY + p.lineHeight }
  { p with
    file := p.file ++ [.text p.svgX (p.svgY + p.svgTextYOffset) p.fontSize
      (svgComputeWeight p.fontSize) p.svgColorIdx none]
    BOLflag := false }

def svgEndLine (p : Plotter δ) : Plotter δ :=
  { p with file := p.file ++ [.endText], svgX := 0.0, BOLflag := true }

def svgPlotLine (x1 x2 y1 y2 : δ) (p : Plotter δ) : Plotter δ :=
  { p with file := p.file ++ [.line p.svgColorIdx (p.svgLineType : δ) x1 x2 y1 y2] }

def svgAbsPlotLine (a b : Int) (p : Plotter δ) : Plotter δ :=
  let x2 :=
    if ((-1000 : Int) : δ) < (a : δ) ∧ (a : δ) < 1000.0 then p.svgXHome + (a : δ) else p.svgX
  let y2 :=
    if ((-1000 : Int) : δ) < (b : δ) ∧ (b : δ) < 1000.0 then p.svgYHome + (b : δ) else p.svgY
  svgPlotLine p.svgX x2 p.svgY y2 (svgUpdateBounds { p with svgX := x2, svgY := y2 })

def svgRelPlotLine (a b : Int) (p : Plotter δ) : Plotter δ :=
  let x2 := p.svgX + (a : δ)
  let y2 := p.svgY + (b : δ)
  svgPlotLine p.svgX x2 p.svgY y2 (svgUpdateBounds { p with svgX := x2, svgY := y2 })

def svgSetTextSize (s : Int) (p : Plotter δ) : Plotter δ :=
  let charWidth : δ := 6.0 + 6.0 * ((s % 64 : Int) : δ)
  let fontSize := 10.4 * charWidth / 6.0
  { p with charWidth := charWidth, fontSize := fontSize, lineHeight := fontSize }

def svgHandleChar (c : UInt8) (p : Plotter δ) : Plotter δ :=
  if p.escMode then
    if c = 7 then { p with textMode := false, escMode := false }
    else
      let p :=
        if c = 14 then svgSetTextSize 1 p
        else if c = 16 then svgSetTextSize 3 p
        else if c = 19 then svgSetTextSize 0 p
        else p
      { p with escMode := false, escResidual := true }
  else if c = 27 then { p with escMode := true }
  else if 31 < c ∧ c < 127 then
    let p : Plotter δ := { p with file := p.file ++ [.char c] }
    if p.svgRotate = 90 then svgUpdateBounds { p with svgY := p.svgY + p.charWidth }
    else if p.svgRotate = 180 then { p with svgX := p.svgX - p.charWidth }
    else if p.svgRotate = 270 then svgUpdateBounds { p with svgY := p.svgY - p.charWidth }
    else { p with svgX := p.svgX + p.charWidth }
  else p

def svgPutText (s : List UInt8) (p : Plotter δ) : Plotter δ :=
  let tag : Svg δ := .text p.svgX p.svgY p.fontSize (svgComputeWeight p.fontSize) p.svgColorIdx
    (some p.svgRotate)
  let p := s.foldl (fun p c => svgHandleChar c p) { p with file := p.file ++ [tag] }
  { p with file := p.file ++ [.endText] }

/-! ## Commands -/

/-- `svg_get_arg` -/
def svgGetArg (s : List UInt8) : Int := Text.atoi (s.map fun c => Char.ofNat c.toNat)

/-- `svg_get_2_args`: the first comma of all that follows. The second number has its sign
changed. -/
def svgGet2Args (s : List UInt8) : Int × Int :=
  let n := s.findIdx (· = 0x2C)
  let second := if n < s.length then s.drop (n + 1) else s
  (svgGetArg (s.take n), (-svgGetArg second).bmod 4294967296)

/-- `S.substr(pos)`, with `none` for `std::out_of_range`. -/
def substr (s : List UInt8) (pos : Nat) : Option (List UInt8) :=
  if pos ≤ s.length then some (s.drop pos) else none

/-- `S.find_first_of(":*", pos)` -/
def findSeparator (s : List UInt8) (pos : Nat) : Option Nat :=
  ((s.drop pos).findIdx? fun c => c = 0x3A ∨ c = 0x2A).map (pos + ·)

/-- What becomes of a command. -/
inductive Done (δ : Type*) [Double δ]
  | next (p : Plotter δ)
  /-- it is not a command, or the last -/
  | leave (p : Plotter δ)
  | throw

/-- A command with arguments. -/
def withArgs (rest : Option (List UInt8)) (f : List UInt8 → Plotter δ) : Done δ :=
  match rest with
  | none => .throw
  | some s => .next (f s)

/-- The `switch`; `rest` is `S.substr(cmd_pos + 1)`. -/
def command (c : UInt8) (rest : Option (List UInt8)) (p : Plotter δ) : Done δ :=
  match c with
  | 0x41 => .leave { p with textMode := true, svgX := 0.0 } -- 'A'
  | 0x43 => withArgs rest fun s => { p with svgColorIdx := svgGetArg s } -- 'C'
  | 0x44 => withArgs rest fun s => svgAbsPlotLine (svgGet2Args s).1 (svgGet2Args s).2 p -- 'D'
  | 0x48 => .next (svgUpdateBounds { p with svgX := p.svgXHome, svgY := p.svgYHome }) -- 'H'
  | 0x49 => .next { p with svgXHome := p.svgX, svgYHome := p.svgY, svgHomeFlag := true } -- 'I'
  | 0x4A => withArgs rest fun s => svgRelPlotLine (svgGet2Args s).1 (svgGet2Args s).2 p -- 'J'
  | 0x4C => withArgs rest fun s => { p with svgLineType := svgGetArg s % 16 } -- 'L'
  | 0x4D => -- 'M'
    withArgs rest fun s =>
      let (a, b) := svgGet2Args s
      let p := if -1000 < a ∧ a < 1000 then { p with svgX := p.svgXHome + (a : δ) } else p
      let p := if -1000 < b ∧ b < 1000 then { p with svgY := p.svgYHome + (b : δ) } else p
      svgUpdateBounds p
  | 0x50 => withArgs rest fun s => svgPutText s p -- 'P'
  | 0x51 => withArgs rest fun s =>
      { p with svgRotate := (svgGetArg s * 90).bmod 4294967296 } -- 'Q'
  | 0x52 => -- 'R'
    withArgs rest fun s =>
      let (a, b) := svgGet2Args s
      svgUpdateBounds { p with svgX := p.svgX + (a : δ), svgY := p.svgY + (b : δ) }
  | 0x53 => withArgs rest fun s => svgSetTextSize (svgGetArg s) p -- 'S'
  | 0x58 => withArgs rest fun _ => p -- 'X': the arguments are read, and no axis is plotted
  | _ => .leave p

variable (δ) in
/-- The locals of `graphics_command`, the positions of `buffer` it has read and the pens it has
selected. -/
structure Scan where
  s : List UInt8
  cmdPos : Nat
  plotter : Plotter δ
  read : List Nat
  selected : List Int

variable (δ) in
/-- How `graphics_command` is left. -/
structure Outcome where
  plotter : Plotter δ
  thrown : Bool
  read : List Nat
  selected : List Int

def Scan.leave (scan : Scan δ) (p : Plotter δ) (thrown : Bool) : Outcome δ :=
  ⟨p, thrown, scan.read, scan.selected⟩

/-- One pass of the loop. -/
def pass (buffer : List UInt8) (scan : Scan δ) : Option (Scan δ ⊕ Outcome δ) :=
  let c := buffer.getD scan.cmdPos 0
  let scan : Scan δ := { scan with read := scan.read ++ [scan.cmdPos] }
  match command c (substr scan.s (scan.cmdPos + 1)) scan.plotter with
  | .throw => some (.inr (scan.leave scan.plotter true))
  | .leave p => some (.inr (scan.leave p false))
  | .next p =>
    let scan : Scan δ := { scan with
      plotter := p
      selected := if c = 0x43 then scan.selected ++ [p.svgColorIdx] else scan.selected }
    match findSeparator scan.s (scan.cmdPos + 1) with
    | none => some (.inr (scan.leave p false))
    | some newPos =>
      if scan.s.getD newPos 0 = 0x3A then
        let s := scan.s.set newPos (scan.s.getD scan.cmdPos 0)
        some (.inl { scan with s := s, cmdPos := newPos })
      else some (.inl { scan with cmdPos := newPos + 1 })

/-- `graphics_command(n)` -/
def graphicsCommand (buffer : List UInt8) (n : Nat) (p : Plotter δ) : Option (Outcome δ) :=
  Loop.run (pass buffer) (n + 2) ⟨buffer.take n, 0, p, [], []⟩

/-! ## Records -/

/-- `ATASCII_EOL` -/
def atasciiEol : UInt8 := 155

/-- `new_n`: up to and with the first end of line, or `n` bytes, but at least one. -/
def recordLength (buffer : List UInt8) (n : UInt8) : Nat :=
  min (buffer.findIdx (· = atasciiEol) + 1) (max n.toNat 1)

/-- The loop of `process_buffer` over a record in text mode. -/
def processText : List UInt8 → Plotter δ → Plotter δ
  | [], p => p
  | c :: rest, p =>
    if p.escResidual ∧ c = atasciiEol then { p with escResidual := false }
    else
      let p := { p with escResidual := false }
      if c = atasciiEol then
        if p.BOLflag then svgUpdateBounds { p with svgX := 0.0, svgY := p.svgY + p.lineHeight }
        else svgEndLine p
      else if p.BOLflag ∧ ¬p.escMode ∧ c = 32 then
        processText rest { p with svgX := p.svgX + p.charWidth }
      else
        let p :=
          if ¬p.BOLflag then
            if p.printWidth - p.charWidth < p.svgX then svgNewLine (svgEndLine p) else p
          else if ¬p.escMode ∧ c ≠ 27 then svgNewLine p
          else p
        let p := svgHandleChar c p
        if p.textMode then processText rest p else p

def processBuffer (buffer : List UInt8) (n : UInt8) (p : Plotter δ) : Option (Outcome δ) :=
  let newN := recordLength buffer n
  let p := if buffer.getD 0 0 = 27 then { p with textMode := true, svgX := 0.0 } else p
  if p.textMode then some ⟨processText (buffer.take newN) p, false, List.range newN, []⟩
  else graphicsCommand buffer newN p

end FujiNet.PrinterEmulator.SvgPlotter
