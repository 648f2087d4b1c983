import Mathlib.Data.Rat.Init
import FujiNet.PrinterEmulator.SvgPlotter

/-!
# Lines of commands for the plotter

`executed` are the commands of a record that `graphics_command` gets to, and `finish` says where
it stops. It never repeats a command: the letter is written to `S`, but the next pass reads the
':' that still is in `buffer`. Behind a '*' that ends the record it reads a byte of an earlier
one. `expand` writes repetitions out.
-/

namespace FujiNet.PrinterEmulator.SvgPlotter

variable {δ : Type*} [Double δ]

/-! ## The commands of a record -/

/-- The letters of commands, without 'A'. -/
def isCommand (c : UInt8) : Bool :=
  c ∈ [0x43, 0x44, 0x48, 0x49, 0x4A, 0x4C, 0x4D, 0x50, 0x51, 0x52, 0x53, 0x58]

/-- 'D' and 'J' -/
def drawsLine (c : UInt8) : Bool := c = 0x44 ∨ c = 0x4A

/-- Where `graphics_command` stops. -/
inductive Finish
  /-- at a byte of the record, or since no separator is left -/
  | inside
  /-- behind the record, where a '*' sends it -/
  | behind
  /-- at the ':' behind a command -/
  | repeated (c : UInt8)
deriving DecidableEq

/-- From a byte that should be a command (`none`), or from the arguments of one. -/
def finish : Option UInt8 → List UInt8 → Finish
  | none, [] => .behind
  | none, c :: rest => if isCommand c then finish (some c) rest else .inside
  | some _, [] => .inside
  | some c, b :: rest =>
    if b = 0x3A then .repeated c else if b = 0x2A then finish none rest else finish (some c) rest

/-- The commands on the way there, with what follows them. -/
def executed : Option UInt8 → List UInt8 → List (UInt8 × List UInt8)
  | none, [] => []
  | none, c :: rest => if isCommand c then (c, rest) :: executed (some c) rest else []
  | some _, [] => []
  | some c, b :: rest =>
    if b = 0x3A then [] else if b = 0x2A then executed none rest else executed (some c) rest

/-- The pens they select. -/
def pens (commands : List (UInt8 × List UInt8)) : List Int :=
  (commands.filter (·.1 = 0x43)).map (svgGetArg ·.2)

/-- The number of lines they draw. -/
def draws (commands : List (UInt8 × List UInt8)) : Nat := commands.countP (drawsLine ·.1)

/-- A record with its repetitions written out: 'c args:args' becomes 'c args*c args'. -/
def expand : Option UInt8 → List UInt8 → List UInt8
  | none, [] => []
  | none, c :: rest => if isCommand c then c :: expand (some c) rest else c :: rest
  | some _, [] => []
  | some c, b :: rest =>
    if b = 0x3A then 0x2A :: c :: expand (some c) rest
    else if b = 0x2A then b :: expand none rest
    else b :: expand (some c) rest

/-- Bytes that belong to the arguments of one command. -/
def Free (args : List UInt8) : Prop := ∀ b ∈ args, b ≠ 0x3A ∧ b ≠ 0x2A

theorem expand_eq_self {m : Option UInt8} {record : List UInt8}
    (never : ∀ c, finish m record ≠ .repeated c) : expand m record = record := by
  fun_induction finish m record with
  | case1 => rfl
  | case2 c rest isCommand ih => rw [expand, if_pos isCommand, ih never]
  | case3 c rest other => rw [expand, if_neg other]
  | case4 => rfl
  | case5 c rest => exact (never c rfl).elim
  | case6 c rest colon ih => rw [expand, if_neg colon, if_pos rfl, ih never]
  | case7 c b rest colon star ih => rw [expand, if_neg colon, if_neg star, ih never]

/-- The line that is not drawn again. -/
theorem draws_lt_expand {m : Option UInt8} {record : List UInt8} {c : UInt8}
    (repeated : finish m record = .repeated c) (line : drawsLine c = true) :
    draws (executed m record) < draws (executed m (expand m record)) := by
  fun_induction executed m record with
  | case1 => cases repeated
  | case2 c' rest isCommand ih =>
      rw [finish, if_pos isCommand] at repeated
      have more := ih repeated
      rw [expand, if_pos isCommand, executed, if_pos isCommand]
      simp only [draws, List.countP_cons] at more ⊢
      omega
  | case3 c' rest other =>
      rw [finish, if_neg other] at repeated
      cases repeated
  | case4 => cases repeated
  | case5 c' rest =>
      obtain rfl : c' = c := by simpa [finish] using repeated
      have letter : isCommand c' = true := by
        rcases of_decide_eq_true line with rfl | rfl <;> rfl
      rw [expand, if_pos rfl, executed, if_neg (by decide), if_pos rfl, executed, if_pos letter]
      simp only [draws, List.countP_cons, line, List.countP_nil, if_true]
      omega
  | case6 c' rest colon ih =>
      rw [finish, if_neg colon, if_pos rfl] at repeated
      rw [expand, if_neg colon, if_pos rfl, executed, if_neg colon, if_pos rfl]
      exact ih repeated
  | case7 c' b rest colon star ih =>
      rw [finish, if_neg colon, if_neg star] at repeated
      rw [expand, if_neg colon, if_neg star, executed, if_neg colon, if_neg star]
      exact ih repeated

/-! ## Separators -/

theorem finish_append {args : List UInt8} (free : Free args) (c : UInt8) (rest : List UInt8) :
    finish (some c) (args ++ rest) = finish (some c) rest ∧
      executed (some c) (args ++ rest) = executed (some c) rest := by
  induction args with
  | nil => exact ⟨rfl, rfl⟩
  | cons b args ih =>
      obtain ⟨colon, star⟩ := free b List.mem_cons_self
      have rest := ih fun b mem => free b (List.mem_cons_of_mem _ mem)
      simpa only [List.cons_append, finish, executed, if_neg colon, if_neg star] using rest

theorem free_of_findSeparator {s : List UInt8} {pos : Nat} (h : findSeparator s pos = none) :
    Free (s.drop pos) := by
  intro b mem
  have := List.findIdx?_eq_none_iff.mp (Option.map_eq_none_iff.mp h) b mem
  simpa using this

theorem split_of_findSeparator {s : List UInt8} {pos j : Nat} (h : findSeparator s pos = some j) :
    ∃ args b, Free args ∧ s.drop pos = args ++ b :: s.drop (j + 1) ∧ pos ≤ j ∧ j < s.length ∧
      s[j]? = some b ∧ (b = 0x3A ∨ b = 0x2A) := by
  obtain ⟨i, found, rfl⟩ := Option.map_eq_some_iff.mp h
  obtain ⟨lt, separator, before⟩ := List.findIdx?_eq_some_iff_getElem.mp found
  have at_i : s[pos + i]? = some (s.drop pos)[i] := by
    rw [← List.getElem?_drop, List.getElem?_eq_getElem lt]
  have inside : pos + i < s.length := by
    rw [List.length_drop] at lt
    omega
  refine ⟨(s.drop pos).take i, (s.drop pos)[i], fun b mem => ?_, ?_, by omega, inside, at_i,
    of_decide_eq_true separator⟩
  · obtain ⟨k, klt, rfl⟩ := List.mem_iff_getElem.mp mem
    rw [List.length_take] at klt
    have := before k (by omega)
    simpa [List.getElem_take] using this
  · calc s.drop pos = (s.drop pos).take i ++ (s.drop pos).drop i := (List.take_append_drop _ _).symm
      _ = _ := by rw [List.drop_eq_getElem_cons lt, List.drop_drop, Nat.add_assoc]

/-! ## What a command does -/

/-- The lines of the file. -/
def Plotter.lines (p : Plotter δ) : List (Svg δ) :=
  p.file.filter fun | .line .. => true | _ => false

@[simp]
theorem file_svgUpdateBounds (p : Plotter δ) : (svgUpdateBounds p).file = p.file := by
  simp only [svgUpdateBounds]
  split_ifs <;> rfl

theorem lines_svgHandleChar (c : UInt8) (p : Plotter δ) : (svgHandleChar c p).lines = p.lines := by
  simp only [svgHandleChar, Plotter.lines]
  split_ifs <;> simp [svgSetTextSize]

theorem lines_svgPutText (s : List UInt8) (p : Plotter δ) : (svgPutText s p).lines = p.lines := by
  have chars (p : Plotter δ) : (s.foldl (fun p c => svgHandleChar c p) p).lines = p.lines := by
    induction s generalizing p with
    | nil => rfl
    | cons c s ih => rw [List.foldl_cons, ih, lines_svgHandleChar]
  simp only [svgPutText]
  rw [Plotter.lines, List.filter_append, ← Plotter.lines, chars]
  simp [Plotter.lines]

theorem lines_svgUpdateBounds (p : Plotter δ) : (svgUpdateBounds p).lines = p.lines := by
  rw [Plotter.lines, file_svgUpdateBounds, Plotter.lines]

/-- A line more. -/
theorem length_lines_svgPlotLine (x1 x2 y1 y2 : δ) (p : Plotter δ) :
    (svgPlotLine x1 x2 y1 y2 p).lines.length = p.lines.length + 1 := by
  simp [Plotter.lines, svgPlotLine]

theorem length_lines_svgAbsPlotLine (a b : Int) (p : Plotter δ) :
    (svgAbsPlotLine a b p).lines.length = p.lines.length + 1 := by
  simp only [svgAbsPlotLine]
  rw [length_lines_svgPlotLine, lines_svgUpdateBounds]
  rfl

theorem length_lines_svgRelPlotLine (a b : Int) (p : Plotter δ) :
    (svgRelPlotLine a b p).lines.length = p.lines.length + 1 := by
  simp only [svgRelPlotLine]
  rw [length_lines_svgPlotLine, lines_svgUpdateBounds]
  rfl

/-- Commands go on, and lines come from 'D' and 'J' alone. -/
theorem command_of_isCommand {c : UInt8} (letter : isCommand c = true) (rest : List UInt8)
    (p : Plotter δ) : ∃ p', command c (some rest) p = .next p' ∧
      p'.lines.length = p.lines.length + (if drawsLine c then 1 else 0) ∧
      (c = 0x43 → p'.svgColorIdx = svgGetArg rest) := by
  simp only [isCommand, List.mem_cons, List.not_mem_nil, or_false, decide_eq_true_eq] at letter
  rcases letter with rfl | rfl | rfl | rfl | rfl | rfl | rfl | rfl | rfl | rfl | rfl | rfl
  · exact ⟨_, rfl, rfl, fun _ => rfl⟩
  · refine ⟨_, rfl, ?_, fun e => absurd e (by decide)⟩
    exact length_lines_svgAbsPlotLine ..
  · refine ⟨_, rfl, ?_, fun e => absurd e (by decide)⟩
    rw [lines_svgUpdateBounds]
    rfl
  · exact ⟨_, rfl, rfl, fun e => absurd e (by decide)⟩
  · refine ⟨_, rfl, ?_, fun e => absurd e (by decide)⟩
    exact length_lines_svgRelPlotLine ..
  · exact ⟨_, rfl, rfl, fun e => absurd e (by decide)⟩
  · refine ⟨_, rfl, ?_, fun e => absurd e (by decide)⟩
    rw [lines_svgUpdateBounds]
    refine congrArg List.length (?_ : _ = p.lines)
    simp only [Plotter.lines]
    split_ifs <;> rfl
  · exact ⟨_, rfl, congrArg List.length (lines_svgPutText rest p), fun e => absurd e (by decide)⟩
  · exact ⟨_, rfl, rfl, fun e => absurd e (by decide)⟩
  · refine ⟨_, rfl, ?_, fun e => absurd e (by decide)⟩
    rw [lines_svgUpdateBounds]
    rfl
  · exact ⟨_, rfl, rfl, fun e => absurd e (by decide)⟩
  · exact ⟨_, rfl, rfl, fun e => absurd e (by decide)⟩

/-- Any other byte ends the loop. -/
theorem command_of_not_isCommand {c : UInt8} (other : isCommand c = false)
    (rest : Option (List UInt8)) (p : Plotter δ) :
    ∃ p', command c rest p = .leave p' ∧ p'.lines = p.lines := by
  unfold command
  split
  · exact ⟨_, rfl, rfl⟩
  iterate 12 cases other
  exact ⟨_, rfl, rfl⟩

/-- Behind the record there are no arguments. -/
theorem command_none (c : UInt8) (p : Plotter δ) :
    command c none p = .throw ∨ ∃ p', p'.lines = p.lines ∧
      (command c none p = .leave p' ∨ command c none p = .next p') := by
  by_cases letter : isCommand c = true
  case neg =>
    obtain ⟨p', left, lines⟩ := command_of_not_isCommand (Bool.eq_false_iff.mpr letter) none p
    exact .inr ⟨p', lines, .inl left⟩
  simp only [isCommand, List.mem_cons, List.not_mem_nil, or_false, decide_eq_true_eq] at letter
  rcases letter with rfl | rfl | rfl | rfl | rfl | rfl | rfl | rfl | rfl | rfl | rfl | rfl
  case inr.inr.inl =>
    refine .inr ⟨_, ?_, .inr rfl⟩
    exact lines_svgUpdateBounds _
  case inr.inr.inr.inl =>
    refine .inr ⟨_, ?_, .inr rfl⟩
    rfl
  all_goals exact .inl rfl

/-! ## The loop -/

variable {record behind : List UInt8} {scan : Scan δ} {o : Outcome δ}

theorem getD_record {i : Nat} {b : UInt8} (h : record[i]? = some b) :
    (record ++ behind).getD i 0 = b := by
  have lt := (List.getElem?_eq_some_iff.mp h).1
  rw [List.getD_eq_getElem?_getD, List.getElem?_append_left lt, h, Option.getD_some]

theorem pass_of_leave {c : UInt8} {p : Plotter δ} (here : (record ++ behind).getD scan.cmdPos 0 = c)
    (left : command c (substr scan.s (scan.cmdPos + 1)) scan.plotter = .leave p) :
    pass (record ++ behind) scan =
      some (.inr ⟨p, false, scan.read ++ [scan.cmdPos], scan.selected⟩) := by
  simp only [pass, here, left, Scan.leave]

/-- A command that is behind its record: the byte is read, and that is all. -/
theorem pass_behind (behind : List UInt8) (same : scan.s.length = record.length) (pos : scan.cmdPos = record.length) :
    ∃ o : Outcome δ, pass (record ++ behind) scan = some (.inr o) ∧
      o.read = scan.read ++ [record.length] ∧ o.plotter.lines = scan.plotter.lines := by
  have beyond : substr scan.s (record.length + 1) = none := by
    rw [substr, if_neg (by omega)]
  have last : findSeparator scan.s (record.length + 1) = none := by
    rw [findSeparator, List.drop_eq_nil_of_le (by omega)]
    rfl
  simp only [pass, pos, beyond, last]
  rcases command_none ((record ++ behind).getD record.length 0) scan.plotter with
    thrown | ⟨p, lines, left | next⟩
  · rw [thrown]
    exact ⟨_, rfl, rfl, rfl⟩
  · rw [left]
    exact ⟨_, rfl, rfl, lines⟩
  · rw [next]
    exact ⟨_, rfl, rfl, lines⟩

/-- What the run from the head of the loop comes to, by the commands ahead. -/
structure Ends (record : List UInt8) (scan : Scan δ) (stop : Finish)
    (commands : List (UInt8 × List UInt8)) (o : Outcome δ) : Prop where
  before : ∀ i ∈ scan.read, i ∈ o.read
  behind : stop = .behind → record.length ∈ o.read
  inside : stop ≠ .behind →
    o.thrown = false ∧ (∀ i ∈ o.read, i ∈ scan.read ∨ i < record.length) ∧
      o.selected = scan.selected ++ pens commands
  lines : o.plotter.lines.length = scan.plotter.lines.length + draws commands

/-- Without a command, nothing but the byte is read. -/
theorem Ends.leave {stop : Finish} {p : Plotter δ} (stopped : stop ≠ .behind)
    (lt : scan.cmdPos < record.length) (lines : p.lines = scan.plotter.lines) :
    Ends record scan stop [] ⟨p, false, scan.read ++ [scan.cmdPos], scan.selected⟩ where
  before i mem := List.mem_append_left _ mem
  behind e := absurd e stopped
  inside _ := by
    refine ⟨rfl, fun i mem => ?_, (List.append_nil _).symm⟩
    rcases List.mem_append.mp mem with mem | mem
    · exact .inl mem
    · exact .inr (List.mem_singleton.mp mem ▸ lt)
  lines := congrArg List.length lines

/-- The state behind a command, except for where it goes on. -/
def Scan.done (scan : Scan δ) (c : UInt8) (p : Plotter δ) : Scan δ :=
  { scan with
    plotter := p
    read := scan.read ++ [scan.cmdPos]
    selected := if c = 0x43 then scan.selected ++ [p.svgColorIdx] else scan.selected }

/-- One command, and the rest. -/
theorem Ends.command {stop : Finish} {c : UInt8} {rest : List UInt8}
    {commands : List (UInt8 × List UInt8)} {p : Plotter δ} (scan' : Scan δ)
    (lt : scan.cmdPos < record.length)
    (lines : p.lines.length = scan.plotter.lines.length + (if drawsLine c then 1 else 0))
    (pen : c = 0x43 → p.svgColorIdx = svgGetArg rest)
    (plotter : scan'.plotter = (scan.done c p).plotter) (read : scan'.read = (scan.done c p).read)
    (selected : scan'.selected = (scan.done c p).selected)
    (ends : Ends record scan' stop commands o) :
    Ends record scan stop ((c, rest) :: commands) o where
  before i mem := ends.before i (read ▸ List.mem_append_left _ mem)
  behind := ends.behind
  inside stopped := by
    obtain ⟨thrown, reads, chosen⟩ := ends.inside stopped
    refine ⟨thrown, fun i mem => ?_, ?_⟩
    · rcases reads i mem with mem | mem
      · rw [read] at mem
        rcases List.mem_append.mp mem with mem | mem
        · exact .inl mem
        · exact .inr (List.mem_singleton.mp mem ▸ lt)
      · exact .inr mem
    · rw [chosen, selected]
      by_cases isPen : c = 0x43
      · simp [Scan.done, pens, isPen, pen isPen]
      · simp [Scan.done, pens, isPen]
  lines := by
    have total := ends.lines
    rw [plotter] at total
    simp only [Scan.done, lines, draws, List.countP_cons] at total ⊢
    omega

/-- The loop ends, with what the commands ahead say. -/
theorem run_pass (same : scan.s = record) (le : scan.cmdPos ≤ record.length) {fuel : Nat}
    (enough : record.length - scan.cmdPos + 2 ≤ fuel) :
    ∃ o, Loop.run (pass (record ++ behind)) fuel scan = some o ∧
      Ends record scan (finish none (record.drop scan.cmdPos))
        (executed none (record.drop scan.cmdPos)) o := by
  induction fuel generalizing scan with
  | zero => omega
  | succ fuel ih =>
      rcases Nat.lt_or_eq_of_le le with lt | pos
      case inr =>
        obtain ⟨o, leaves, read, lines⟩ := pass_behind behind (congrArg List.length same) pos
        refine ⟨o, Loop.run_succ_inr leaves, ?_⟩
        rw [List.drop_eq_nil_of_le pos.ge, finish, executed]
        exact {
          before i mem := read ▸ List.mem_append_left _ mem
          behind _ := read ▸ List.mem_append_right _ List.mem_cons_self
          inside e := absurd rfl e
          lines := congrArg List.length lines }
      obtain ⟨c, at_pos⟩ : ∃ c, record[scan.cmdPos]? = some c :=
        ⟨_, List.getElem?_eq_getElem lt⟩
      have here : (record ++ behind).getD scan.cmdPos 0 = c := getD_record at_pos
      have ahead : record.drop scan.cmdPos = c :: record.drop (scan.cmdPos + 1) := by
        rw [List.drop_eq_getElem_cons lt, (List.getElem?_eq_some_iff.mp at_pos).2]
      rw [ahead]
      by_cases letter : isCommand c = true
      case neg =>
        obtain ⟨p, left, lines⟩ := command_of_not_isCommand (Bool.eq_false_iff.mpr letter)
          (substr scan.s (scan.cmdPos + 1)) scan.plotter
        refine ⟨_, Loop.run_succ_inr (pass_of_leave here left), ?_⟩
        rw [finish, if_neg letter, executed, if_neg letter]
        exact .leave (by decide) lt lines
      rw [finish, if_pos letter, executed, if_pos letter]
      have args : substr scan.s (scan.cmdPos + 1) = some (record.drop (scan.cmdPos + 1)) := by
        rw [substr, same, if_pos (Nat.succ_le_of_lt lt)]
      obtain ⟨p, next, lines, pen⟩ :=
        command_of_isCommand letter (record.drop (scan.cmdPos + 1)) scan.plotter
      rw [← args] at next
      cases separator : findSeparator scan.s (scan.cmdPos + 1) with
      | none =>
          have last : pass (record ++ behind) scan =
              some (.inr ((scan.done c p).leave p false)) := by
            simp only [pass, here, next, separator]
            rfl
          rw [same] at separator
          obtain ⟨stops, nothing⟩ := finish_append (free_of_findSeparator separator) c []
          rw [List.append_nil] at stops nothing
          refine ⟨_, Loop.run_succ_inr last, ?_⟩
          rw [stops, nothing]
          have ends : Ends record (scan.done c p) .inside [] ((scan.done c p).leave p false) := {
            before _ mem := mem
            behind e := by cases e
            inside _ := ⟨rfl, fun _ mem => .inl mem, (List.append_nil _).symm⟩
            lines := rfl }
          exact .command _ lt lines pen rfl rfl rfl ends
      | some j =>
          have found := separator
          rw [same] at separator
          obtain ⟨args, b, free, rest, lt_j, inside, at_j, sep⟩ := split_of_findSeparator separator
          obtain ⟨stops, later⟩ := finish_append free c (b :: record.drop (j + 1))
          rw [rest, stops, later]
          have b_at : scan.s.getD j 0 = b := by
            rw [same, List.getD_eq_getElem?_getD, at_j, Option.getD_some]
          rcases sep with rfl | rfl
          · -- the letter is written to `S`; `buffer` still has the ':'
            let scan' : Scan δ := { scan.done c p with
              s := scan.s.set j (scan.s.getD scan.cmdPos 0), cmdPos := j }
            have again : pass (record ++ behind) scan = some (.inl scan') := by
              simp only [pass, here, next, found, b_at]
              rfl
            obtain ⟨fuel, rfl⟩ : ∃ k, fuel = k + 1 := ⟨fuel - 1, by omega⟩
            have noLetter : isCommand 0x3A = false := rfl
            obtain ⟨p', left, lines'⟩ := command_of_not_isCommand noLetter
              (substr scan'.s (scan'.cmdPos + 1)) scan'.plotter
            have colon : (record ++ behind).getD scan'.cmdPos 0 = 0x3A := getD_record at_j
            refine ⟨_, (Loop.run_succ_inl again).trans
              (Loop.run_succ_inr (pass_of_leave colon left)), ?_⟩
            rw [← rest]
            have ends : Ends record scan' (.repeated c) [] _ := .leave nofun inside lines'
            exact .command scan' lt lines pen rfl rfl rfl ends
          · let scan' : Scan δ := { scan.done c p with cmdPos := j + 1 }
            have again : pass (record ++ behind) scan = some (.inl scan') := by
              simp only [pass, here, next, found, b_at]
              rfl
            have fewer : record.length - scan'.cmdPos + 2 ≤ fuel := by
              simp only [scan']
              omega
            obtain ⟨o, runs, ends⟩ := @ih scan' same inside fewer
            refine ⟨o, (Loop.run_succ_inl again).trans runs, ?_⟩
            rw [← rest]
            exact .command scan' lt lines pen rfl rfl rfl ends

/-! ## Records -/

/-- It has stayed inside the record, without an exception, and the pens it has selected exist. -/
def Outcome.Safe (o : Outcome δ) (n : Nat) : Prop :=
  o.thrown = false ∧ (∀ i ∈ o.read, i < n) ∧ ∀ pen ∈ o.selected, 0 ≤ pen ∧ pen < 4

/-- The same position of the pen, the same bounds and the same lines. -/
def Outcome.SameEffect (o o' : Outcome δ) : Prop :=
  o.plotter.svgX = o'.plotter.svgX ∧ o.plotter.svgY = o'.plotter.svgY ∧
    o.plotter.svgYMin = o'.plotter.svgYMin ∧ o.plotter.svgYMax = o'.plotter.svgYMax ∧
    o.plotter.lines = o'.plotter.lines

theorem graphicsCommand_ends (record behind : List UInt8) (p : Plotter δ) :
    ∃ o, graphicsCommand (record ++ behind) record.length p = some o ∧
      Ends record ⟨record, 0, p, [], []⟩ (finish none record) (executed none record) o := by
  rw [graphicsCommand, List.take_left]
  let start : Scan δ := ⟨record, 0, p, [], []⟩
  have same : start.s = record := rfl
  exact run_pass same (Nat.zero_le _) (Nat.le_refl _)

theorem Ends.safe_iff {p : Plotter δ}
    (ends : Ends record ⟨record, 0, p, [], []⟩ (finish none record) (executed none record) o) :
    o.Safe record.length ↔ finish none record ≠ .behind ∧
      ∀ pen ∈ pens (executed none record), 0 ≤ pen ∧ pen < 4 := by
  constructor
  · rintro ⟨-, reads, chosen⟩
    have stopped : finish none record ≠ .behind := fun e =>
      Nat.lt_irrefl _ (reads _ (ends.behind e))
    have selected := (ends.inside stopped).2.2
    rw [List.nil_append] at selected
    exact ⟨stopped, selected ▸ chosen⟩
  · rintro ⟨stopped, exist⟩
    obtain ⟨thrown, reads, selected⟩ := ends.inside stopped
    rw [List.nil_append] at selected
    refine ⟨thrown, fun i mem => ?_, selected ▸ exist⟩
    simpa using reads i mem

instance : Double ℚ where
  decidableLT := inferInstance

end FujiNet.PrinterEmulator.SvgPlotter
