import Mathlib.Data.List.Infix
import Mathlib.Data.List.TakeWhile

/-!
# Lines of a text

A line ends with CR, with LF or with both. What follows the last of them is not a
line: `splitLines` leaves it out, and so a text that is cut off keeps exactly those
lines whose end is still there. `joinLines` ends every line with CR and LF.
-/

namespace FujiNet.Lines

/-- The lines of a text in which `line` was read already; `afterCR` tells that a CR
was just read, whose LF is yet to come. -/
def splitLinesFrom (afterCR : Bool) (line : List Char) : List Char → List (List Char)
  | [] => []
  | c :: rest =>
    if c = '\n' then
      if afterCR then splitLinesFrom false line rest else line :: splitLinesFrom false [] rest
    else if c = '\r' then line :: splitLinesFrom true [] rest
    else splitLinesFrom false (line ++ [c]) rest

def splitLines (text : List Char) : List (List Char) := splitLinesFrom false [] text

def joinLines (lines : List (List Char)) : List Char := lines.flatMap (· ++ ['\r', '\n'])

/-- A line without a line end in it. -/
def Clean (line : List Char) : Prop := '\r' ∉ line ∧ '\n' ∉ line

@[simp] theorem joinLines_nil : joinLines [] = [] := rfl

@[simp] theorem joinLines_cons (line : List Char) (lines : List (List Char)) :
    joinLines (line :: lines) = line ++ '\r' :: '\n' :: joinLines lines := by
  simp [joinLines]

@[simp] theorem joinLines_append (lines lines' : List (List Char)) :
    joinLines (lines ++ lines') = joinLines lines ++ joinLines lines' :=
  List.flatMap_append

/-- Joined lines end with the end of a line. -/
theorem joinLines_eq_append {lines : List (List Char)} (h : lines ≠ []) :
    ∃ front, joinLines lines = front ++ ['\r', '\n'] := by
  refine ⟨joinLines lines.dropLast ++ lines.getLast h, ?_⟩
  conv_lhs => rw [← List.dropLast_append_getLast h]
  simp

theorem notMem_joinLines {c : Char} (cr : c ≠ '\r') (lf : c ≠ '\n') {lines : List (List Char)}
    (h : ∀ line ∈ lines, c ∉ line) : c ∉ joinLines lines := by
  induction lines with
  | nil => simp
  | cons line lines ih =>
      rw [List.forall_mem_cons] at h
      simp only [joinLines_cons, List.mem_append, List.mem_cons, not_or]
      exact ⟨h.1, cr, lf, ih h.2⟩

theorem splitLinesFrom_append {body : List Char} (clean : Clean body) (line rest : List Char) :
    splitLinesFrom false line (body ++ rest) = splitLinesFrom false (line ++ body) rest := by
  induction body generalizing line with
  | nil => simp
  | cons c body ih =>
      simp only [Clean, List.mem_cons, not_or] at clean
      obtain ⟨⟨cr, freeCR⟩, lf, freeLF⟩ := clean
      rw [List.cons_append, splitLinesFrom, if_neg (Ne.symm lf), if_neg (Ne.symm cr),
        ih ⟨freeCR, freeLF⟩]
      simp

theorem splitLinesFrom_crlf (line rest : List Char) :
    splitLinesFrom false line ('\r' :: '\n' :: rest) = line :: splitLines rest :=
  rfl

/-- Joined lines are found again, and what follows them is split on its own. -/
theorem splitLines_joinLines_append {lines : List (List Char)} (clean : ∀ l ∈ lines, Clean l)
    (rest : List Char) : splitLines (joinLines lines ++ rest) = lines ++ splitLines rest := by
  induction lines with
  | nil => rfl
  | cons line lines ih =>
      rw [List.forall_mem_cons] at clean
      rw [joinLines_cons, List.append_assoc, splitLines, splitLinesFrom_append clean.1]
      simp only [List.nil_append, List.cons_append]
      rw [splitLinesFrom_crlf, ih clean.2]

theorem splitLines_joinLines {lines : List (List Char)} (clean : ∀ l ∈ lines, Clean l) :
    splitLines (joinLines lines) = lines := by
  have whole := splitLines_joinLines_append clean []
  simpa [splitLines, splitLinesFrom] using whole

/-- Text that ends with a line end can be split before what follows it. -/
theorem splitLines_append_crlf (text rest : List Char) :
    splitLines (text ++ '\r' :: '\n' :: rest) =
      splitLines (text ++ ['\r', '\n']) ++ splitLines rest := by
  suffices general : ∀ afterCR line, splitLinesFrom afterCR line (text ++ '\r' :: '\n' :: rest) =
      splitLinesFrom afterCR line (text ++ ['\r', '\n']) ++ splitLines rest from general false []
  induction text with
  | nil =>
      intro afterCR line
      cases afterCR <;> rfl
  | cons c text ih =>
      intro afterCR line
      simp only [List.cons_append, splitLinesFrom]
      split
      · split
        · exact ih false line
        · rw [ih false [], List.cons_append]
      · split
        · rw [ih true [], List.cons_append]
        · exact ih false (line ++ [c])

/-- Joined lines are split on their own, also where line ends stand in them. -/
theorem splitLines_joinLines_append_eq (lines : List (List Char)) (rest : List Char) :
    splitLines (joinLines lines ++ rest) = splitLines (joinLines lines) ++ splitLines rest := by
  cases lines with
  | nil => rfl
  | cons line lines =>
      obtain ⟨front, joined⟩ := joinLines_eq_append (List.cons_ne_nil line lines)
      rw [joined, List.append_assoc]
      exact splitLines_append_crlf front rest

theorem length_le_length_joinLines {line : List Char} {lines : List (List Char)}
    (h : line ∈ lines) : line.length ≤ (joinLines lines).length := by
  induction lines with
  | nil => cases h
  | cons first lines ih =>
      rw [joinLines_cons, List.length_append, List.length_cons, List.length_cons]
      rcases List.mem_cons.mp h with rfl | h
      · omega
      · have := ih h
        omega

/-- A shorter text has fewer lines, and these in the same order. -/
theorem splitLines_isPrefix {text text' : List Char} (h : text <+: text') :
    splitLines text <+: splitLines text' := by
  obtain ⟨rest, rfl⟩ := h
  suffices general : ∀ afterCR line,
      splitLinesFrom afterCR line text <+: splitLinesFrom afterCR line (text ++ rest) from
    general false []
  induction text with
  | nil => exact fun _ _ => List.nil_prefix
  | cons c text ih =>
      intro afterCR line
      simp only [List.cons_append, splitLinesFrom]
      split
      · split
        · exact ih false line
        · exact List.cons_prefix_cons.mpr ⟨rfl, ih false []⟩
      · split
        · exact List.cons_prefix_cons.mpr ⟨rfl, ih true []⟩
        · exact ih false (line ++ [c])

/-- The final LF of a text is not missed. -/
theorem splitLines_append_cr (text : List Char) :
    splitLines (text ++ ['\r']) = splitLines (text ++ ['\r', '\n']) := by
  suffices general : ∀ afterCR line, splitLinesFrom afterCR line (text ++ ['\r']) =
      splitLinesFrom afterCR line (text ++ ['\r', '\n']) from general false []
  induction text with
  | nil =>
      intro afterCR line
      cases afterCR <;> rfl
  | cons c text ih =>
      intro afterCR line
      simp only [List.cons_append, splitLinesFrom, ih]

/-- The final line end of a text makes one more line. -/
theorem length_splitLines_append_crlf (text : List Char) :
    (splitLines (text ++ ['\r', '\n'])).length = (splitLines text).length + 1 := by
  suffices general : ∀ afterCR line, (splitLinesFrom afterCR line (text ++ ['\r', '\n'])).length =
      (splitLinesFrom afterCR line text).length + 1 from general false []
  induction text with
  | nil =>
      intro afterCR line
      cases afterCR <;> rfl
  | cons c text ih =>
      intro afterCR line
      simp only [List.cons_append, splitLinesFrom]
      split
      · split
        · exact ih false line
        · rw [List.length_cons, List.length_cons, ih]
      · split
        · rw [List.length_cons, List.length_cons, ih]
        · exact ih false (line ++ [c])

/-- How much of a text that ends with CR and LF has all of its lines. -/
theorem splitLines_eq_of_prefix_iff {text front : List Char}
    (h : front <+: text ++ ['\r', '\n']) :
    splitLines front = splitLines (text ++ ['\r', '\n']) ↔ text.length < front.length := by
  constructor
  · intro same
    by_contra short
    have inside : front <+: text :=
      List.prefix_of_prefix_length_le h (List.prefix_append text _) (by omega)
    have fewer := (splitLines_isPrefix inside).length_le
    rw [same, length_splitLines_append_crlf] at fewer
    omega
  · intro long
    obtain ⟨rest, hrest⟩ := h
    have len := congrArg List.length hrest
    simp only [List.length_append, List.length_cons, List.length_nil] at len
    have start : front = (text ++ ['\r', '\n']).take front.length := by
      rw [← hrest, List.take_left]
    rcases Nat.lt_or_ge front.length (text.length + 2) with cut | whole
    · have one : front.length = text.length + 1 := by omega
      have kept : (text ++ ['\r', '\n']).take (text.length + 1) = text ++ ['\r'] := by
        rw [List.take_append, List.take_of_length_le (by omega)]
        simp
      rw [start, one, kept, splitLines_append_cr]
    · rw [start, List.take_of_length_le (by simpa using whole)]

end FujiNet.Lines
