import FujiNet.Ftp.Response
import FujiNet.Utils.Strings

/-!
# Reading an FTP directory

`open_directory` collects the listing in `dirBuffer`, and each `read_directory` takes a line from
it. The last byte of a line is dropped, whether it is a CR or not, and the end is reported together
with a line if the stream is at its end behind it.
-/

namespace FujiNet.Ftp

open Utils

/-- A `stringstream` that is read: what is left of the text, and its flags. -/
structure StringStream where
  text : List UInt8 := []
  eofbit : Bool := false
  failbit : Bool := false

namespace StringStream

/-- `<<`, before anything is read. -/
def write (bytes : List UInt8) (s : StringStream) : StringStream :=
  { s with text := s.text ++ bytes }

/-- `getline(s, line)` for a `line` that is empty. -/
def getline (s : StringStream) : List UInt8 × StringStream :=
  if s.eofbit || s.failbit then ([], { s with failbit := true })
  else
    match find [LF] s.text with
    | some (line, text) => (line, { s with text })
    | none => (s.text, { text := [], eofbit := true, failbit := s.text.isEmpty })

end StringStream

/-- The size of `buf` in `open_directory`. -/
def DIR_BUF_SIZE : Nat := 256

/-- The loop over what is available on the data connection. -/
def retrieve (available : List UInt8) (dirBuffer : StringStream) : StringStream :=
  if available.isEmpty then dirBuffer
  else retrieve (available.drop DIR_BUF_SIZE) (dirBuffer.write (available.take DIR_BUF_SIZE))
termination_by available.length
decreasing_by
  rename_i more
  have pos : 0 < available.length := List.length_pos_iff.mpr fun empty => more (empty ▸ rfl)
  rw [List.length_drop, DIR_BUF_SIZE]
  omega

/-- `dirBuffer` after `open_directory`: `passes` is what each pass finds available until the
connection is closed. -/
def openDirectory (passes : List (List UInt8)) : StringStream :=
  passes.foldl (fun dirBuffer available => retrieve available dirBuffer) {}

/-- What `ftpparse` finds in a line; `name` is the text from there to the end of the line. -/
structure Ftpparse where
  name : Option (List UInt8)
  size : Int
  flagtrycwd : Int

structure FtpEntry where
  name : List UInt8
  filesize : Int
  isDir : Bool

/-- The entry that is reported for a line. -/
def Ftpparse.entry (parse : Ftpparse) : FtpEntry where
  name := parse.name.getD (ascii "???")
  filesize := parse.size
  isDir := parse.flagtrycwd = 1

/-- What `read_directory` does: the line that it hands to `ftpparse`, the entry, and its result. -/
structure ReadAnswer where
  handed : Option (List UInt8)
  entry : Option FtpEntry
  err : Bool

/-- The line is reported as an entry. -/
def ReadAnswer.listed (ftpparse : List UInt8 → Ftpparse) (line : List UInt8) : ReadAnswer :=
  ⟨some line, some (ftpparse line).entry, false⟩

/-- There is no entry any more. -/
def ReadAnswer.ended : ReadAnswer := ⟨none, none, true⟩

section Reading

variable (ftpparse : List UInt8 → Ftpparse)

def readDirectory (dirBuffer : StringStream) : ReadAnswer × StringStream :=
  let (line, dirBuffer) := dirBuffer.getline
  if line.isEmpty then (.ended, dirBuffer)
  else
    let line := line.take (line.length - 1)
    (⟨some line, some (ftpparse line).entry, dirBuffer.eofbit⟩, dirBuffer)

/-- The answers to calls in a row. -/
def readDirectories : Nat → StringStream → List ReadAnswer
  | 0, _ => []
  | n + 1, dirBuffer =>
    (readDirectory ftpparse dirBuffer).1 :: readDirectories n (readDirectory ftpparse dirBuffer).2

end Reading

/-! ## Listings -/

/-- The lines of a text that are ended by an LF, and what is behind the last LF. -/
def splitLines : List UInt8 → List (List UInt8) × List UInt8
  | [] => ([], [])
  | c :: text =>
    match splitLines text with
    | (lines, rest) =>
      if c = LF then ([] :: lines, rest)
      else
        match lines with
        | [] => ([], c :: rest)
        | line :: lines => ((c :: line) :: lines, rest)

/-- A line without the CR in front of its LF. -/
def stripCR (line : List UInt8) : List UInt8 :=
  if line.getLast? = some CR then line.dropLast else line

/-- The lines of a listing without their ends, up to the first empty one. -/
def listing (text : List UInt8) : List (List UInt8) :=
  ((splitLines text).1.map stripCR ++ [(splitLines text).2]).takeWhile (· ≠ [])

/-- The lines of the text are handed over and reported one after the other, and then the end is. -/
def Lists (ftpparse : List UInt8 → Ftpparse) (text : List UInt8) (dirBuffer : StringStream) :
    Prop :=
  readDirectories ftpparse ((listing text).length + 1) dirBuffer =
    (listing text).map (ReadAnswer.listed ftpparse) ++ [ReadAnswer.ended]

/-- Every line is ended by CR and LF, up to the end of the text or to an LF alone. -/
def Terminated (text : List UInt8) : Prop :=
  ∃ lines rest, text = sent lines ++ rest ∧ (∀ line ∈ lines, line ≠ [] ∧ LF ∉ line) ∧
    (rest = [] ∨ rest.head? = some LF)

section Listing

variable {ftpparse : List UInt8 → Ftpparse} {line text rest : List UInt8}

theorem text_retrieve (available : List UInt8) (dirBuffer : StringStream) :
    retrieve available dirBuffer = dirBuffer.write available := by
  induction available, dirBuffer using retrieve.induct with
  | case1 available dirBuffer empty =>
      rw [retrieve, if_pos empty, List.isEmpty_iff.mp empty, StringStream.write, List.append_nil]
  | case2 available dirBuffer more ih =>
      rw [retrieve, if_neg more, ih, StringStream.write, StringStream.write, StringStream.write]
      dsimp only
      rw [List.append_assoc, List.take_append_drop]

/-- However it comes, the listing is in the buffer. -/
theorem openDirectory_eq (passes : List (List UInt8)) :
    openDirectory passes = { text := passes.flatten } := by
  have from' (front : List UInt8) : passes.foldl
      (fun dirBuffer available => retrieve available dirBuffer) { text := front } =
      { text := front ++ passes.flatten } := by
    induction passes generalizing front with
    | nil => rw [List.flatten_nil, List.append_nil]; rfl
    | cons available passes ih =>
        rw [List.foldl_cons, text_retrieve, List.flatten_cons, ← List.append_assoc]
        exact ih _
  exact from' []

theorem splitLines_of_notMem (absent : LF ∉ text) : splitLines text = ([], text) := by
  induction text with
  | nil => rfl
  | cons c text ih =>
      obtain ⟨here, later⟩ := not_or.mp (List.mem_cons.not.mp absent)
      rw [splitLines, ih later]
      dsimp only
      rw [if_neg (Ne.symm here)]

theorem splitLines_append (absent : LF ∉ line) (text : List UInt8) :
    splitLines (line ++ LF :: text) = (line :: (splitLines text).1, (splitLines text).2) := by
  induction line with
  | nil =>
      rw [List.nil_append, splitLines]
      dsimp only
      rw [if_pos rfl]
  | cons c line ih =>
      obtain ⟨here, later⟩ := not_or.mp (List.mem_cons.not.mp absent)
      rw [List.cons_append, splitLines, ih later]
      dsimp only
      rw [if_neg (Ne.symm here)]

/-- Every text is a row of lines that are ended by an LF, and a rest. -/
theorem splitLines_induction {motive : List UInt8 → Prop}
    (rest : ∀ text, LF ∉ text → motive text)
    (line : ∀ line text, LF ∉ line → motive text → motive (line ++ LF :: text))
    (text : List UInt8) : motive text := by
  induction size : text.length using Nat.strongRecOn generalizing text with
  | ind size ih =>
      cases found : find [LF] text with
      | none => exact rest text (find_eq_none_iff.mp found)
      | some cut =>
          obtain ⟨rfl, absent⟩ := find_eq_some_iff.mp found
          refine line cut.1 cut.2 absent (ih _ ?_ cut.2 rfl)
          rw [List.length_append, List.length_cons] at size
          omega

theorem listing_of_notMem (absent : LF ∉ text) :
    listing text = if text = [] then [] else [text] := by
  rw [listing, splitLines_of_notMem absent]
  split_ifs with empty
  · rw [empty]
    rfl
  · exact List.takeWhile_cons_of_pos (decide_eq_true empty)

theorem listing_append (absent : LF ∉ line) (text : List UInt8) :
    listing (line ++ LF :: text) =
      if stripCR line = [] then [] else stripCR line :: listing text := by
  rw [listing, splitLines_append absent, List.map_cons, List.cons_append]
  split_ifs with empty
  · exact List.takeWhile_cons_of_neg (by rwa [decide_eq_true_eq, not_not])
  · exact List.takeWhile_cons_of_pos (decide_eq_true empty)

variable (ftpparse) in
/-- A line that is ended by an LF leaves the buffer behind it. -/
theorem readDirectory_append (absent : LF ∉ line) (text : List UInt8) :
    readDirectory ftpparse { text := line ++ LF :: text } =
      (if line = [] then ReadAnswer.ended
        else ReadAnswer.listed ftpparse (line.take (line.length - 1)), { text }) := by
  have got : StringStream.getline { text := line ++ LF :: text } = (line, { text }) := by
    simp only [StringStream.getline, Bool.or_self, Bool.false_eq_true, if_false, find_append absent]
  rw [readDirectory, got]
  dsimp only
  cases line with
  | nil => rfl
  | cons c line => rfl

variable (ftpparse) in
/-- What is not ended by an LF is the last that is read. -/
theorem readDirectory_of_notMem (absent : LF ∉ text) :
    (readDirectory ftpparse { text }).1 =
      if text = [] then ReadAnswer.ended
      else ⟨some (text.take (text.length - 1)),
        some (ftpparse (text.take (text.length - 1))).entry, true⟩ := by
  have got : StringStream.getline { text } =
      (text, { text := [], eofbit := true, failbit := text.isEmpty }) := by
    simp only [StringStream.getline, Bool.or_self, Bool.false_eq_true, if_false,
      find_eq_none_iff.mpr absent]
  rw [readDirectory, got]
  dsimp only
  cases text with
  | nil => rfl
  | cons c text => rfl

theorem stripCR_concat (line : List UInt8) : stripCR (line ++ [CR]) = line := by
  rw [stripCR, List.getLast?_concat, if_pos rfl, List.dropLast_concat]

/-- The last byte is dropped as it should be from a line with a CR, and only from such a line. -/
theorem take_eq_stripCR_iff (nonempty : line ≠ []) :
    line.take (line.length - 1) = stripCR line ↔ ∃ front, line = front ++ [CR] := by
  obtain rfl | ⟨front, c, rfl⟩ := line.eq_nil_or_concat
  · exact absurd rfl nonempty
  · rw [List.concat_eq_append, List.length_append, List.length_singleton, Nat.add_sub_cancel,
      List.take_left, stripCR, List.getLast?_concat]
    split_ifs with cr
    · obtain rfl := Option.some.inj cr
      rw [List.dropLast_concat]
      exact iff_of_true rfl ⟨front, rfl⟩
    · refine iff_of_false (fun same => ?_) ?_
      · have length := congrArg List.length same
        rw [List.length_append] at length
        exact absurd length (Nat.ne_of_lt (Nat.lt_succ_self _))
      · rintro ⟨front', same⟩
        exact cr (congrArg some (List.singleton_inj.mp (List.append_inj' same rfl).2))

theorem terminated_of_notMem (absent : LF ∉ text) : Terminated text ↔ text = [] := by
  constructor
  · rintro ⟨lines, rest, rfl, -, stop⟩
    cases lines with
    | nil =>
        refine stop.resolve_right fun first => absent ?_
        exact List.mem_of_mem_head? first
    | cons line lines =>
        exact absurd (show LF ∈ sent (line :: lines) ++ rest by simp [sent]) absent
  · rintro rfl
    exact ⟨[], [], rfl, List.forall_mem_nil _, .inl rfl⟩

/-- A listing goes on behind a line with CR and LF, and stops at an LF. -/
theorem terminated_append (absent : LF ∉ line) (text : List UInt8) :
    Terminated (line ++ LF :: text) ↔
      line = [] ∨ ∃ front, front ≠ [] ∧ line = front ++ [CR] ∧ Terminated text := by
  constructor
  · rintro ⟨lines, rest, same, kept, stop⟩
    cases lines with
    | nil =>
        change line ++ LF :: text = rest at same
        subst same
        cases line with
        | nil => exact .inl rfl
        | cons c line =>
            obtain first : some c = some LF := stop.resolve_left (List.cons_ne_nil _ _)
            exact absurd (Option.some.inj first ▸ List.mem_cons_self) absent
    | cons front lines =>
        obtain ⟨⟨nonempty, clean⟩, kept⟩ := List.forall_mem_cons.mp kept
        have same' : line ++ LF :: text = (front ++ [CR]) ++ LF :: (sent lines ++ rest) := by
          simpa [sent] using same
        have absent' : LF ∉ front ++ [CR] := by
          rw [List.mem_append, not_or]
          exact ⟨clean, by decide⟩
        obtain ⟨rfl, rfl⟩ : line = front ++ [CR] ∧ text = sent lines ++ rest := by
          have cut : find [LF] (line ++ LF :: text) = some (line, text) := find_append absent
          rw [same', find_append absent'] at cut
          obtain ⟨front', behind⟩ := Prod.mk.inj (Option.some.inj cut)
          exact ⟨front'.symm, behind.symm⟩
        exact .inr ⟨front, nonempty, rfl, lines, rest, rfl, kept, stop⟩
  · rintro (rfl | ⟨front, nonempty, rfl, lines, rest, rfl, kept, stop⟩)
    · exact ⟨[], LF :: text, rfl, List.forall_mem_nil _, .inr rfl⟩
    · refine ⟨front :: lines, rest, by simp [sent], List.forall_mem_cons.mpr ⟨?_, kept⟩, stop⟩
      exact ⟨nonempty, fun mem => absent (List.mem_append_left _ mem)⟩

end Listing

/-- For a listing, however it arrives, each call of `read_directory` hands the next line over and
reports it, and the end is reported behind the last one, if and only if every line has both CR and
LF. -/
theorem lists_openDirectory_iff (ftpparse : List UInt8 → Ftpparse) (passes : List (List UInt8)) :
    Lists ftpparse passes.flatten (openDirectory passes) ↔ Terminated passes.flatten := by
  rw [openDirectory_eq]
  induction passes.flatten using splitLines_induction with
  | rest text absent =>
      rw [terminated_of_notMem absent, Lists, listing_of_notMem absent]
      have first := readDirectory_of_notMem ftpparse absent
      split_ifs at first ⊢ with empty
      · refine iff_of_true ?_ empty
        rw [List.length_nil, readDirectories, first]
        rfl
      · refine iff_of_false (fun lists => ?_) empty
        rw [List.length_singleton, readDirectories, first] at lists
        exact nomatch congrArg ReadAnswer.err (List.cons.inj lists).1
  | line line text absent ih =>
      rw [terminated_append absent, ← ih, Lists, listing_append absent]
      have first := readDirectory_append ftpparse absent text
      by_cases nothing : line = []
      · rw [if_pos nothing] at first
        have empty : stripCR line = [] := by
          rw [nothing]
          rfl
        refine iff_of_true ?_ (.inl nothing)
        rw [if_pos empty, List.length_nil, readDirectories, first]
        rfl
      · rw [if_neg nothing] at first
        rw [or_iff_right nothing]
        have taken := take_eq_stripCR_iff nothing
        split_ifs with empty
        · -- the line is a CR alone
          refine iff_of_false (fun lists => ?_) ?_
          · rw [List.length_nil, readDirectories, first] at lists
            exact nomatch congrArg ReadAnswer.handed (List.cons.inj lists).1
          · rintro ⟨front, nonempty, rfl, -⟩
            exact nonempty ((stripCR_concat front).symm.trans empty)
        · rw [List.length_cons, readDirectories, first, List.map_cons, List.cons_append,
            List.cons.injEq]
          constructor
          · rintro ⟨same, lists⟩
            obtain ⟨front, rfl⟩ := taken.mp (Option.some.inj (congrArg ReadAnswer.handed same))
            exact ⟨front, fun none => empty ((stripCR_concat front).trans none), rfl, lists⟩
          · rintro ⟨front, -, cr, lists⟩
            rw [taken.mpr ⟨front, cr⟩]
            exact ⟨rfl, lists⟩

/-- A listing with a line that is ended by an LF only: its last byte is lost. -/
theorem not_lists_unix :
    ¬ Lists (fun line => ⟨some line, 0, 0⟩) (ascii "ab" ++ [LF])
      (openDirectory [ascii "ab" ++ [LF]]) := by
  intro lists
  rw [openDirectory_eq] at lists
  have handed : some (ascii "a") = some (ascii "ab") :=
    congrArg ReadAnswer.handed (List.cons.inj lists).1
  cases handed

end FujiNet.Ftp
