import FujiNet.Config.Load

/-!
# The sections of a file

Where sections begin and end depends on the text alone. `sections` lists them with
their lines, and `loadLines` is a fold over that list: the reader of a section sees
the lines up to the next one that starts with a bracket.
-/

namespace FujiNet.FnConfig

open Lines

/-- Blank characters aside, the line starts with a bracket. -/
def opens (line : Str) : Bool :=
  (line.dropWhile fun c => c = ' ' || c = '\t').head? = some '['

/-- The sections that begin in `lines`, after those of `open_`, the section that is being
read. -/
def group (open_ : Option (Section × List Str)) : List Str → List (Section × List Str)
  | [] => open_.toList
  | line :: lines =>
    if open_.isSome && !opens line then
      group (open_.map fun (sec, body) => (sec, body ++ [line])) lines
    else open_.toList ++ group ((findSectionInLine line).map (·, [])) lines

/-- The sections of a text, each with its lines. -/
def sections (text : Str) : List (Section × List Str) := group none (splitLines text)

/-- What the reader of a section does with its lines. -/
def readSection (c : FnConfig) (s : Section × List Str) : Option FnConfig :=
  s.2.foldlM s.1.onLine (s.1.reset c)

theorem group_some (sec : Section) (body lines : List Str) :
    group (some (sec, body)) lines =
      (sec, body ++ lines.takeWhile (!opens ·)) :: group none (lines.dropWhile (!opens ·)) := by
  induction lines generalizing body with
  | nil => simp [group]
  | cons line lines ih =>
      by_cases h : opens line = true
      · simp [group, h]
      · simp [group, h, ih]

/-- A title starts a section, whatever stands in front of it. -/
theorem group_append {title : Str} (h : opens title = true) (open_ : Option (Section × List Str))
    (front lines : List Str) :
    group open_ (front ++ title :: lines) = group open_ front ++ group none (title :: lines) := by
  induction front generalizing open_ with
  | nil => simp [group, h]
  | cons line front ih =>
      rw [List.cons_append, group, group]
      split
      · exact ih _
      · rw [ih, List.append_assoc]

/-! ## One line -/

/-- The first line of a stream in which `line` was read already, and the rest. -/
def nextLine (line : Str) : Str → Option (Str × Str)
  | [] => none
  | c :: rest =>
    if c = '\r' then some (line, if rest.head? = some '\n' then rest.tail else rest)
    else if c = '\n' then some (line, rest)
    else nextLine (line ++ [c]) rest

theorem splitLinesFrom_eq (line ss : Str) :
    splitLinesFrom false line ss =
      (nextLine line ss).elim [] fun found => found.1 :: splitLines found.2 := by
  induction ss generalizing line with
  | nil => rfl
  | cons c rest ih =>
      by_cases cr : c = '\r'
      · subst cr
        simp only [nextLine, if_true, Option.elim_some]
        cases rest with
        | nil => rfl
        | cons d rest =>
            by_cases lf : d = '\n'
            · subst lf
              rfl
            · simp [splitLinesFrom, splitLines, lf]
      · by_cases lf : c = '\n'
        · simp [splitLinesFrom, nextLine, splitLines, lf]
        · simp [splitLinesFrom, nextLine, cr, lf, ih]

theorem length_of_nextLine {line ss l rest : Str} (h : nextLine line ss = some (l, rest)) :
    rest.length < ss.length := by
  induction ss generalizing line with
  | nil => cases h
  | cons c ss ih =>
      simp only [nextLine] at h
      split at h
      · cases h
        split
        · rw [List.length_tail, List.length_cons]
          omega
        · exact Nat.lt_succ_self _
      · split at h
        · cases h
          exact Nat.lt_succ_self _
        · exact Nat.lt_succ_of_lt (ih h)

/-- Without a character to stop at. -/
theorem readLineFrom_none (start : Str) (seen : Bool) (line ss : Str) :
    readLineFrom none start seen line ss =
      (nextLine line ss).elim (none, []) fun found => (some found.1, found.2) := by
  induction ss generalizing seen line with
  | nil => rfl
  | cons c rest ih =>
      simp only [readLineFrom, nextLine, reduceCtorEq, and_false, if_false]
      split
      · rfl
      · split
        · rfl
        · exact ih _ _

/-- After something else was read, a bracket is like any character. -/
theorem readLineFrom_seen (start line ss : Str) :
    readLineFrom (some '[') start true line ss =
      (nextLine line ss).elim (none, []) fun found => (some found.1, found.2) := by
  induction ss generalizing line with
  | nil => rfl
  | cons c rest ih =>
      simp only [readLineFrom, nextLine, Bool.true_eq_false, false_and, if_false, if_true]
      split
      · rfl
      · split
        · rfl
        · exact ih _

theorem prefix_of_nextLine {line ss l rest : Str} (h : nextLine line ss = some (l, rest)) :
    line <+: l := by
  induction ss generalizing line with
  | nil => cases h
  | cons c ss ih =>
      simp only [nextLine] at h
      split at h
      · cases h
        exact List.prefix_rfl
      · split at h
        · cases h
          exact List.prefix_rfl
        · exact (List.prefix_append line [c]).trans (ih h)

/-- Whether a line starts with a bracket shows in its first character that is not blank. -/
theorem opens_of_isPrefix {blank line : Str} {c : Char}
    (blanks : ∀ d ∈ blank, (d = ' ' || d = '\t') = true) (other : (c = ' ' || c = '\t') = false)
    (h : blank ++ [c] <+: line) : opens line = decide (c = '[') := by
  obtain ⟨rest, rfl⟩ := h
  rw [opens, List.append_assoc, List.dropWhile_append_of_pos blanks, List.singleton_append,
    List.dropWhile_cons_of_neg (by rw [other]; exact Bool.false_ne_true)]
  simp

/-- In a section: a line that starts with a bracket is left in the stream. Where the data ends
inside a line, nothing follows that is a line. -/
theorem readLineFrom_abort {blank : Str} (blanks : ∀ d ∈ blank, (d = ' ' || d = '\t') = true)
    (start ss : Str) :
    match nextLine blank ss with
    | some (l, rest) => readLineFrom (some '[') start false blank ss =
        if opens l then (none, start) else (some l, rest)
    | none => readLineFrom (some '[') start false blank ss = (none, []) ∨
        readLineFrom (some '[') start false blank ss = (none, start) := by
  induction ss generalizing blank with
  | nil => exact .inl rfl
  | cons c rest ih =>
      have closed : opens blank = false := by
        have gone : blank.dropWhile (fun c => c = ' ' || c = '\t') = [] :=
          List.dropWhile_eq_nil_iff.mpr blanks
        simp [opens, gone]
      by_cases cr : c = '\r'
      · simp [nextLine, readLineFrom, cr, closed]
      · by_cases lf : c = '\n'
        · simp [nextLine, readLineFrom, lf, closed]
        · simp only [nextLine, readLineFrom, if_neg cr, if_neg lf]
          by_cases bracket : c = '['
          · subst bracket
            simp only [true_and, if_true]
            cases h : nextLine (blank ++ ['[']) rest with
            | none => simp
            | some found =>
                simp [opens_of_isPrefix blanks (by decide) (prefix_of_nextLine h)]
          · simp only [Option.some.injEq, Ne.symm bracket, and_false, if_false,
              Bool.false_eq_true]
            by_cases space : (c = ' ' || c = '\t') = true
            · have unseen : (decide (c ≠ ' ') && decide (c ≠ '\t')) = false := by
                simp only [Bool.or_eq_true, decide_eq_true_eq] at space
                rcases space with rfl | rfl <;> rfl
              rw [unseen]
              refine ih fun d mem => ?_
              rcases List.mem_append.mp mem with mem | mem
              · exact blanks d mem
              · rw [List.mem_singleton.mp mem]
                exact space
            · have seen : (decide (c ≠ ' ') && decide (c ≠ '\t')) = true := by
                simpa [not_or] using space
              rw [seen, readLineFrom_seen]
              cases h : nextLine (blank ++ [c]) rest with
              | none => exact .inl rfl
              | some found =>
                  have closed' : opens found.1 = false := by
                    rw [opens_of_isPrefix blanks (by simpa using space) (prefix_of_nextLine h)]
                    simp [bracket]
                  simp [closed']

/-! ## One section -/

/-- The loop of a section reader goes over the lines up to the next one that opens a
section. -/
theorem readLines_eq (sec : Section) {passes : Nat} (c : FnConfig) {ss : Str}
    (enough : ss.length < passes) :
    ∃ ss', ss'.length ≤ ss.length ∧ splitLines ss' = (splitLines ss).dropWhile (!opens ·) ∧
      sec.readLines passes c ss =
        (((splitLines ss).takeWhile (!opens ·)).foldlM sec.onLine c).map (·, ss') := by
  induction passes generalizing c ss with
  | zero => omega
  | succ passes ih =>
      have first := @readLineFrom_abort [] (by simp) ss ss
      have lines := splitLinesFrom_eq [] ss
      cases h : nextLine [] ss with
      | none =>
          simp only [h] at first
          rw [h] at lines
          have empty : splitLines ss = [] := lines
          rcases first with first | first
          · refine ⟨[], Nat.zero_le _, ?_, ?_⟩
            · rw [empty]
              rfl
            · simp [Section.readLines, readLine, first, empty]
          · refine ⟨ss, Nat.le_refl _, ?_, ?_⟩
            · rw [empty]
              rfl
            · simp [Section.readLines, readLine, first, empty]
      | some found =>
          obtain ⟨l, rest⟩ := found
          simp only [h] at first
          rw [h] at lines
          have cons : splitLines ss = l :: splitLines rest := lines
          have shorter := length_of_nextLine h
          by_cases op : opens l = true
          · refine ⟨ss, Nat.le_refl _, ?_, ?_⟩
            · simp [cons, op]
            · simp [Section.readLines, readLine, first, cons, op]
          · rw [if_neg op] at first
            have kept : (splitLines ss).takeWhile (!opens ·) =
                l :: (splitLines rest).takeWhile (!opens ·) := by
              rw [cons, List.takeWhile_cons_of_pos (by simpa using op)]
            have dropped : (splitLines ss).dropWhile (!opens ·) =
                (splitLines rest).dropWhile (!opens ·) := by
              rw [cons, List.dropWhile_cons_of_pos (by simpa using op)]
            rw [kept, dropped]
            simp only [Section.readLines, readLine, first, List.foldlM_cons]
            cases applied : sec.onLine c l with
            | none =>
                obtain ⟨ss', short, tail, -⟩ := ih c (show rest.length < passes by omega)
                exact ⟨ss', by omega, tail, rfl⟩
            | some c' =>
                obtain ⟨ss', short, tail, hread⟩ := ih c' (show rest.length < passes by omega)
                exact ⟨ss', by omega, tail, hread⟩

/-! ## The whole file -/

theorem loadLines_eq {passes : Nat} (c : FnConfig) {ss : Str} (enough : ss.length < passes) :
    loadLines passes c ss = (sections ss).foldlM readSection c := by
  induction passes generalizing c ss with
  | zero => omega
  | succ passes ih =>
      have lines := splitLinesFrom_eq [] ss
      simp only [loadLines, readLine, readLineFrom_none]
      cases h : nextLine [] ss with
      | none =>
          rw [h] at lines
          have empty : splitLines ss = [] := lines
          rw [sections, empty]
          rfl
      | some found =>
          obtain ⟨l, rest⟩ := found
          rw [h] at lines
          have cons : splitLines ss = l :: splitLines rest := lines
          have shorter := length_of_nextLine h
          rw [sections, cons]
          simp only [Option.elim_some, group, Option.isSome_none, Bool.false_and,
            Bool.false_eq_true, if_false, Option.toList_none, List.nil_append]
          cases found : findSectionInLine l with
          | none => exact ih c (by omega)
          | some sec =>
              obtain ⟨ss', short, tail, hread⟩ :=
                readLines_eq sec (sec.reset c) (Nat.lt_succ_self rest.length)
              rw [Option.map_some, group_some, ← tail, List.nil_append, List.foldlM_cons]
              simp only [Section.read, hread]
              cases applied : ((splitLines rest).takeWhile (!opens ·)).foldlM sec.onLine
                  (sec.reset c) with
              | none => simp [readSection, applied]
              | some c' =>
                  simp only [readSection, applied, Option.map_some, Option.bind_some]
                  exact ih c' (by omega)

/-- `load` is a fold over the sections of what the buffer holds. -/
theorem load_some (file : Str) (c : FnConfig) :
    load (some file) c =
      ((sections (inibuffer file)).foldlM readSection c).map ({ · with dirty := false }) := by
  rw [load, loadLines_eq c (Nat.lt_succ_self _)]

end FujiNet.FnConfig
