import FujiNet.Data.Resolve
import FujiNet.PCLink.Names

/-!
# Paths of PCLink commands

A path from a parameter block is folded (`path_copy`), translated to the separators and
the case of the host (`path2unix`) and put behind the root directory of the device and
its current directory (`create_user_path`). `validate_user_path` changes into the
directory and accepts it if the text of the root is at the front of the text of the
directory reached. That test does not see where a name ends: a sibling of the root whose
name goes on where the name of the root stops passes it.
-/

namespace FujiNet.PCLink

open Utils Posix

/-- `ispathsep`. -/
def ispathsep (c : UInt8) : Bool := c == 0x3E || c == 0x5C

/-- The loop of `path_copy`. A run of separators is copied as its first one; `inRun` says
that the character in front belonged to such a run. -/
def pathCopyFrom : Bool → List UInt8 → List UInt8
  | _, [] => []
  | inRun, a :: src =>
    if ispathsep a then if inRun then pathCopyFrom true src else a :: pathCopyFrom true src
    else a :: pathCopyFrom false src

/-- `path_copy`. -/
def pathCopy (src : List UInt8) : List UInt8 := pathCopyFrom false src

/-- What `path2unix` writes for one character. -/
def unixChar (upperDir : Bool) (c : UInt8) : List UInt8 :=
  let a := hostCase upperDir c
  if ispathsep a then [slash] else if a = 0x3C then [dot, dot] else [a]

/-- A slash behind a text that does not end with one. -/
def withSlash (s : List UInt8) : List UInt8 :=
  if s ≠ [] ∧ s.getLast? ≠ some slash then s ++ [slash] else s

/-- `path2unix`. -/
def path2unix (upperDir : Bool) (path : List UInt8) : List UInt8 :=
  withSlash ((path.take 64).flatMap (unixChar upperDir))

/-- `create_user_path` on a device with the given root and current directory. -/
def createUserPath (upperDir : Bool) (dirname cwd path : List UInt8) : List UInt8 :=
  let upath := path2unix upperDir (pathCopy path)
  let newpath :=
    if upath.head? ≠ some slash then
      let cwdo := if cwd.head? = some slash then 1 else 0
      withSlash (withSlash dirname ++ cwd.drop cwdo)
    else dirname
  let newpath := newpath ++ upath
  if newpath.getLast? = some slash then newpath.dropLast else newpath

/-- `validate_user_path`; `wd` is the working directory of the process. -/
def validateUserPath (tree : Tree) (wd : List (List UInt8)) (defwd newpath : List UInt8) : Bool :=
  match tree.chdir wd newpath with
  | none => false
  | some newwd =>
    match find defwd (cwdText newwd) with
    | none => false
    | some (before, _) => before.isEmpty

/-! ## Where a path leads -/

theorem names_withSlash_append (s rest : List UInt8) :
    names (withSlash s ++ rest) = names s ++ names rest := by
  rw [withSlash]
  split_ifs with open'
  · rw [List.append_assoc, List.singleton_append, names_append_slash]
  · rcases List.eq_nil_or_concat s with rfl | ⟨front, last, rfl⟩
    · rfl
    · obtain rfl : last = slash := by simpa using open'
      rw [List.concat_eq_append, List.append_assoc, List.singleton_append, names_append_slash,
        names_append_last]

theorem names_drop_slash (cwd : List UInt8) :
    names (cwd.drop (if cwd.head? = some slash then 1 else 0)) = names cwd := by
  split_ifs with rooted
  · obtain ⟨rest, rfl⟩ := List.head?_eq_some_iff.mp rooted
    rw [List.drop_succ_cons, List.drop_zero, names_slash]
  · rw [List.drop_zero]

theorem names_dropLast_slash (s : List UInt8) :
    names (if s.getLast? = some slash then s.dropLast else s) = names s := by
  split_ifs with closed
  · obtain ⟨front, rfl⟩ := List.getLast?_eq_some_iff.mp closed
    rw [List.dropLast_concat, names_append_last]
  · rfl

/-- The names on the way: those of the root, those of the current directory unless the
path begins with a separator, and those of the path. -/
theorem names_createUserPath (upperDir : Bool) (dirname cwd path : List UInt8) :
    names (createUserPath upperDir dirname cwd path) =
      names dirname ++
        (if (path2unix upperDir (pathCopy path)).head? ≠ some slash then names cwd else []) ++
        names (path2unix upperDir (pathCopy path)) := by
  rw [createUserPath, names_dropLast_slash]
  by_cases relative : (path2unix upperDir (pathCopy path)).head? ≠ some slash
  · rw [if_pos relative, if_pos relative, names_withSlash_append, names_withSlash_append,
      names_drop_slash]
  · obtain ⟨rest, upath⟩ := List.head?_eq_some_iff.mp (not_not.mp relative)
    rw [if_neg relative, if_neg relative, upath, names_append_slash, names_slash,
      List.append_nil]

/-! ## What can be typed -/

/-- A character that separates names once the path is translated. -/
def separator (c : UInt8) : Bool := ispathsep c || c == slash

theorem unixChar_of_separator (upperDir : Bool) {c : UInt8} (h : separator c = true) :
    unixChar upperDir c = [slash] := by
  simp only [separator, ispathsep, Bool.or_eq_true, beq_iff_eq] at h
  rcases h with (rfl | rfl) | rfl <;> cases upperDir <;> rfl

theorem slash_notMem_unixChar (upperDir : Bool) {c : UInt8} (h : separator c = false) :
    slash ∉ unixChar upperDir c := by
  have plain : ispathsep (hostCase upperDir c) = false ∧ hostCase upperDir c ≠ slash := by
    cases upperDir <;>
      simp only [separator, ispathsep, hostCase, toupper, tolower, slash, Bool.or_eq_false_iff,
        beq_eq_false_iff_ne, if_true, Bool.false_eq_true, if_false] at h ⊢ <;> grind
  rw [unixChar, if_neg (by simp [plain.1])]
  split_ifs
  · decide
  · simpa using plain.2.symm

/-- A name that can be typed behind a separator and a step up: at most 62 of the 64
characters of a path, none of them a separator. -/
def Typeable (upperDir : Bool) (n : List UInt8) : Prop :=
  ∃ t : List UInt8, t.length ≤ 62 ∧ 0 ∉ t ∧ (∀ c ∈ t, separator c = false) ∧
    t.flatMap (unixChar upperDir) = n

section Pieces

variable {sep : UInt8 → Bool}

theorem splitOnP_append_plain {w : List UInt8} (h : ∀ c ∈ w, sep c = false) (rest : List UInt8) :
    (w ++ rest).splitOnP sep = (rest.splitOnP sep).modifyHead (w ++ ·) := by
  induction w with
  | nil =>
      rw [List.nil_append]
      cases rest.splitOnP sep <;> rfl
  | cons c w ih =>
      obtain ⟨here, later⟩ := List.forall_mem_cons.mp h
      rw [List.cons_append, List.splitOnP_cons_eq_if_modifyHead, if_neg (by simp [here]),
        ih later]
      cases rest.splitOnP sep <;> rfl

/-- Splitting a translated text is translating the pieces of the text. -/
theorem splitOnP_flatMap (upperDir : Bool) (u : List UInt8) :
    (u.flatMap (unixChar upperDir)).splitOnP (· == slash) =
      (u.splitOnP separator).map (·.flatMap (unixChar upperDir)) := by
  induction u with
  | nil => rfl
  | cons c u ih =>
      rw [List.flatMap_cons, List.splitOnP_cons_eq_if_modifyHead]
      by_cases sep : separator c = true
      · rw [if_pos sep, unixChar_of_separator upperDir sep, List.singleton_append,
          List.splitOnP_cons_eq_if_modifyHead, if_pos (by simp), ih]
        rfl
      · have plain := slash_notMem_unixChar upperDir (by simpa using sep)
        rw [if_neg sep, splitOnP_append_plain, ih]
        · cases u.splitOnP separator with
          | nil => rfl
          | cons h t => rfl
        · intro b mem
          simpa using fun same : b = slash => plain (same ▸ mem)

/-- Two different pieces and a separator fit in the text. -/
theorem length_two_pieces {u a b : List UInt8} (first : a ∈ u.splitOnP sep)
    (second : b ∈ u.splitOnP sep) (ne : a ≠ b) : a.length + b.length + 1 ≤ u.length := by
  have whole := sum_length_splitOnP sep u
  obtain ⟨front, back, pieces⟩ := List.append_of_mem first
  have beside : b ∈ front ++ back := by
    rw [pieces] at second
    simpa [ne.symm] using second
  have most : b.length + 1 ≤ ((front ++ back).map fun t => t.length + 1).sum :=
    List.le_sum_of_mem (List.mem_map_of_mem (f := fun t => t.length + 1) beside)
  rw [pieces] at whole
  simp only [List.map_append, List.map_cons, List.sum_append, List.sum_cons] at whole most
  omega

end Pieces

theorem mem_pathCopyFrom {inRun : Bool} {src : List UInt8} {c : UInt8}
    (mem : c ∈ pathCopyFrom inRun src) : c ∈ src := by
  induction src generalizing inRun with
  | nil => simp [pathCopyFrom] at mem
  | cons a src ih =>
      rw [pathCopyFrom] at mem
      split_ifs at mem
      · exact List.mem_cons_of_mem _ (ih mem)
      · rcases List.mem_cons.mp mem with rfl | later
        · exact List.mem_cons_self
        · exact List.mem_cons_of_mem _ (ih later)
      · rcases List.mem_cons.mp mem with rfl | later
        · exact List.mem_cons_self
        · exact List.mem_cons_of_mem _ (ih later)

theorem names_path2unix (upperDir : Bool) (path : List UInt8) :
    names (path2unix upperDir path) =
      (((path.take 64).splitOnP separator).map (·.flatMap (unixChar upperDir))).filter (· ≠ []) := by
  have whole := names_withSlash_append ((path.take 64).flatMap (unixChar upperDir)) []
  rw [List.append_nil, names_nil, List.append_nil] at whole
  rw [path2unix, whole, names, splitOnP_flatMap]

/-- A name in a path that also steps up can be typed. -/
theorem typeable_of_mem_names {upperDir : Bool} {path n : List UInt8} (nul : 0 ∉ path)
    (up : dotdot ∈ names (path2unix upperDir (pathCopy path)))
    (mem : n ∈ names (path2unix upperDir (pathCopy path))) (ne : n ≠ dotdot) :
    Typeable upperDir n := by
  rw [names_path2unix] at up mem
  obtain ⟨a, piece, isUp⟩ := List.mem_map.mp (List.mem_of_mem_filter up)
  obtain ⟨t, piece', rfl⟩ := List.mem_map.mp (List.mem_of_mem_filter mem)
  have apart : a ≠ t := by
    rintro rfl
    exact ne isUp
  have some : 0 < a.length := by
    refine List.length_pos_iff.mpr ?_
    rintro rfl
    exact absurd (show [] = dotdot from isUp) (by decide)
  have fits := length_two_pieces piece piece' apart
  have short : ((pathCopy path).take 64).length ≤ 64 := by
    rw [List.length_take]
    omega
  refine ⟨t, by omega, ?_, fun c inPiece => (mem_piece piece' inPiece).2, rfl⟩
  intro inPiece
  exact nul (mem_pathCopyFrom (List.mem_of_mem_take (mem_piece piece' inPiece).1))

/-! ## Where an accepted path leads -/

theorem find_eq_front_iff {pattern s : List UInt8} :
    (∃ after, find pattern s = some ([], after)) ↔ pattern <+: s := by
  cases s with
  | nil =>
      rw [find, List.prefix_nil, ← List.isEmpty_iff]
      split_ifs with empty <;> simp [empty]
  | cons c s =>
      rw [find, ← List.isPrefixOf_iff_prefix]
      split_ifs with front
      · simp [front]
      · simp [front]

/-- The test accepts where the text of the root is at the front of the text of the
directory reached. -/
theorem validateUserPath_iff {tree : Tree} {wd : List (List UInt8)} {defwd newpath : List UInt8} :
    validateUserPath tree wd defwd newpath = true ↔
      ∃ reached, tree.chdir wd newpath = some reached ∧ defwd <+: cwdText reached := by
  rw [validateUserPath]
  cases went : tree.chdir wd newpath with
  | none => simp
  | some reached =>
      simp only [Option.some.injEq, exists_eq_left', ← find_eq_front_iff]
      cases found : find defwd (cwdText reached) with
      | none => simp
      | some pair =>
          obtain ⟨before, after⟩ := pair
          simp

section Confinement

variable {upperDir : Bool} {tree : Tree} {parent : List (List UInt8)} {base : List UInt8}

theorem cwdText_root : cwdText (parent ++ [base]) = text (parent ++ [base]) := by
  rw [cwdText, if_neg (by simp)]

theorem withSlash_cons (a c : UInt8) (rest : List UInt8) :
    ∃ tail, withSlash (a :: c :: rest) = a :: c :: tail := by
  rw [withSlash]
  split_ifs
  · exact ⟨rest ++ [slash], rfl⟩
  · exact ⟨rest, rfl⟩

/-- The path is absolute, as the root of the device is. -/
theorem head_createUserPath (upperDir : Bool) (root : List (List UInt8)) (below : root ≠ [])
    (named : ∀ n ∈ root, Name n) (cwd path : List UInt8) :
    (createUserPath upperDir (text root) cwd path).head? = some slash := by
  obtain ⟨n, root, rfl⟩ := List.exists_cons_of_ne_nil below
  obtain ⟨c, n, rfl⟩ := List.exists_cons_of_ne_nil (named n List.mem_cons_self).ne_nil
  have closed : ∀ tail : List UInt8, (if (slash :: c :: tail).getLast? = some slash then
      (slash :: c :: tail).dropLast else slash :: c :: tail).head? = some slash := by
    intro tail
    split_ifs
    · rw [List.dropLast_cons_cons]
      rfl
    · rfl
  have front : text ((c :: n) :: root) = slash :: c :: (n ++ text root) := rfl
  rw [createUserPath, front]
  obtain ⟨tail, ends⟩ := withSlash_cons slash c (n ++ text root)
  obtain ⟨tail', ends'⟩ := withSlash_cons slash c
    (tail ++ cwd.drop (if cwd.head? = some slash then 1 else 0))
  by_cases relative : (path2unix upperDir (pathCopy path)).head? ≠ some slash
  · simp only [if_pos relative, ends, List.cons_append, ends']
    exact closed _
  · simp only [if_neg relative, List.cons_append]
    exact closed _

/-- The way that an accepted path takes from the root of the tree. -/
theorem chdir_createUserPath (wd : List (List UInt8)) (named : ∀ n ∈ parent ++ [base], Name n)
    (cwd path : List UInt8) :
    tree.chdir wd (createUserPath upperDir (text (parent ++ [base])) cwd path) =
      tree.walk [] (names (createUserPath upperDir (text (parent ++ [base])) cwd path)) := by
  have rooted := head_createUserPath upperDir (parent ++ [base]) (by simp) named cwd path
  rw [Tree.chdir, if_neg (by intro nil; simp [nil] at rooted), if_pos rooted]

/-- The root of the device and a directory beside it that the test takes for one below:
its name goes on where the name of the root stops, and it can be typed. -/
def SiblingInReach (upperDir : Bool) (tree : Tree) (parent : List (List UInt8))
    (base : List UInt8) : Prop :=
  ∃ s, tree.isDir (parent ++ [s]) = true ∧ base <+: s ∧ s ≠ base ∧ Typeable upperDir s

/-- Every path that is accepted, from every current directory in the device, leads to the
root of the device or below it. -/
def Confined (upperDir : Bool) (tree : Tree) (parent : List (List UInt8))
    (base : List UInt8) : Prop :=
  ∀ wd cwd path reached, (∀ n ∈ cwd, Name n) → path.length ≤ 64 → 0 ∉ path →
    validateUserPath tree wd (cwdText (parent ++ [base]))
      (createUserPath upperDir (cwdText (parent ++ [base])) (text cwd) path) = true →
    tree.chdir wd (createUserPath upperDir (cwdText (parent ++ [base])) (text cwd) path) =
      some reached →
    parent ++ [base] <+: reached

/-- A directory that is accepted and not below the root is a sibling of the root or below
one, and the path names the sibling and steps up. -/
theorem sibling_of_accepted {start ns reached : List (List UInt8)}
    (below : parent ++ [base] <+: start) (named : ∀ n ∈ parent ++ [base], Name n)
    (plain : ∀ n ∈ reached, slash ∉ n) (walked : tree.walk start ns = some reached)
    (accepted : text (parent ++ [base]) <+: cwdText reached) :
    parent ++ [base] <+: reached ∨
      ∃ s more, reached = parent ++ s :: more ∧ base <+: s ∧ s ≠ base ∧ s ∈ ns ∧ dotdot ∈ ns := by
  have front : text (parent ++ [base]) <+: text reached := by
    rw [cwdText] at accepted
    split_ifs at accepted with top
    · have short := accepted.length_le
      have some : 0 < base.length := List.length_pos_iff.mpr (named base (by simp)).ne_nil
      simp [text] at short
      omega
    · exact accepted
  obtain ⟨s, more, rfl, begins⟩ := text_prefix (fun n mem => (named n mem).no_slash) plain front
  by_cases same : s = base
  · refine .inl ⟨more, ?_⟩
    rw [same, List.append_assoc]
    rfl
  · obtain ⟨k, down, split, given, up⟩ := Tree.walk_cases walked
    obtain ⟨rest, rfl⟩ := below
    have here : (parent ++ s :: more)[parent.length]? = some s := by simp
    have high : k ≤ parent.length := by
      by_contra deep
      refine same ?_
      rw [split, List.getElem?_append_left (by simp; omega), List.getElem?_take,
        if_pos (by omega)] at here
      simpa [eq_comm] using here
    refine .inr ⟨s, more, rfl, begins, same, given s ?_, ?_⟩
    · rw [split, List.getElem?_append_right (by simp; omega)] at here
      exact List.mem_of_getElem? here
    · by_contra none
      have := up none
      simp only [List.length_append, List.length_singleton] at this
      omega

/-- From the current directory, or from the root if it begins with a separator, a path
goes its own names. -/
theorem walk_of_chdir (dir : tree.isDir (parent ++ [base]) = true) {wd cwd : List (List UInt8)}
    {path : List UInt8} {reached : List (List UInt8)} (named : ∀ n ∈ cwd, Name n)
    (went : tree.chdir wd
      (createUserPath upperDir (text (parent ++ [base])) (text cwd) path) = some reached) :
    ∃ start, parent ++ [base] <+: start ∧
      tree.walk start (names (path2unix upperDir (pathCopy path))) = some reached := by
  have rootNames := tree.name _ dir
  have down : tree.walk [] (parent ++ [base]) = some (parent ++ [base]) := Tree.walk_down dir
  rw [chdir_createUserPath wd rootNames, names_createUserPath, names_text rootNames,
    names_text named, Tree.walk_append, Tree.walk_append, down, Option.bind_some] at went
  obtain ⟨start, entered, walked⟩ := Option.bind_eq_some_iff.mp went
  refine ⟨start, ?_, walked⟩
  split_ifs at entered with relative
  · rw [Tree.walk_names named entered]
    exact List.prefix_append _ _
  · obtain rfl : parent ++ [base] = start := by simpa [Tree.walk] using entered
    exact List.prefix_refl _

/-- A path that is accepted leads below the root unless a sibling is in reach. -/
theorem confined_of_no_sibling (dir : tree.isDir (parent ++ [base]) = true)
    (none : ¬ SiblingInReach upperDir tree parent base) : Confined upperDir tree parent base := by
  intro wd cwd path reached named short nul accepted went
  rw [cwdText_root] at accepted went
  obtain ⟨reached', went', front⟩ := validateUserPath_iff.mp accepted
  obtain rfl : reached = reached' := Option.some.inj (went.symm.trans went')
  obtain ⟨start, below, walked⟩ := walk_of_chdir dir named went
  have reachedDir : tree.isDir reached = true := by
    rw [chdir_createUserPath wd (tree.name _ dir)] at went
    exact Tree.isDir_walk tree.root went
  refine (sibling_of_accepted below (tree.name _ dir)
    (fun n mem => (tree.name _ reachedDir n mem).no_slash) walked front).resolve_right ?_
  rintro ⟨s, more, rfl, begins, ne, inPath, up⟩
  refine none ⟨s, ?_, begins, ne, ?_⟩
  · refine Tree.isDir_of_append (t := more) ?_
    rwa [List.append_assoc, List.singleton_append]
  · refine typeable_of_mem_names nul up inPath ?_
    exact (tree.name _ reachedDir s (by simp)).ne_dotdot

/-! ## A sibling that is taken for the device -/

theorem pathCopy_plain {t : List UInt8} (plain : ∀ c ∈ t, separator c = false) :
    pathCopyFrom false t = t ∧ pathCopyFrom true t = t := by
  induction t with
  | nil => exact ⟨rfl, rfl⟩
  | cons c t ih =>
      obtain ⟨here, later⟩ := List.forall_mem_cons.mp plain
      have sep : ispathsep c = false := (Bool.or_eq_false_iff.mp here).1
      simp [pathCopyFrom, sep, (ih later).1]

/-- The path `<\` and a name: one step up and down into the sibling. -/
def siblingPath (t : List UInt8) : List UInt8 := 0x3C :: 0x5C :: t

theorem path2unix_siblingPath (upperDir : Bool) {t : List UInt8} (short : t.length ≤ 62)
    (plain : ∀ c ∈ t, separator c = false) (named : t.flatMap (unixChar upperDir) ≠ []) :
    (path2unix upperDir (pathCopy (siblingPath t))).head? = some dot ∧
      names (path2unix upperDir (pathCopy (siblingPath t))) =
        [dotdot, t.flatMap (unixChar upperDir)] := by
  have copied : pathCopy (siblingPath t) = siblingPath t := by
    have rest := (pathCopy_plain plain).2
    simp [pathCopy, siblingPath, pathCopyFrom, ispathsep, rest]
  have whole : (siblingPath t).take 64 = siblingPath t :=
    List.take_of_length_le (by simp [siblingPath]; omega)
  have pieces : (siblingPath t).splitOnP separator = [[0x3C], t] := by
    have behind : t.splitOnP separator = [t] := List.splitOnP_eq_singleton plain
    have cut : ([0x3C] ++ 0x5C :: t).splitOnP separator =
        [0x3C].splitOnP separator ++ t.splitOnP separator := List.splitOnP_append_cons _ _ rfl
    rw [behind] at cut
    exact cut
  have up : [(0x3C : UInt8)].flatMap (unixChar upperDir) = dotdot := by
    cases upperDir <;> rfl
  constructor
  · have front : (siblingPath t).flatMap (unixChar upperDir) =
        dot :: dot :: (slash :: t.flatMap (unixChar upperDir)) := by
      cases upperDir <;> rfl
    obtain ⟨tail, ends⟩ := withSlash_cons dot dot (slash :: t.flatMap (unixChar upperDir))
    rw [copied, path2unix, whole, front, ends]
    rfl
  · rw [copied, names_path2unix, whole, pieces, List.map_cons, List.map_cons, List.map_nil, up]
    simp [named, dotdot]

/-- A sibling in reach is accepted. -/
theorem not_confined_of_sibling (dir : tree.isDir (parent ++ [base]) = true)
    (sibling : SiblingInReach upperDir tree parent base) :
    ¬ Confined upperDir tree parent base := by
  obtain ⟨s, isDir, begins, ne, t, short, nul, plain, rfl⟩ := sibling
  have name : Name (t.flatMap (unixChar upperDir)) := tree.name _ isDir _ (by simp)
  obtain ⟨head, way⟩ := path2unix_siblingPath upperDir short plain name.ne_nil
  have rootNames := tree.name _ dir
  have down : tree.walk [] (parent ++ [base]) = some (parent ++ [base]) := Tree.walk_down dir
  have went : tree.chdir [] (createUserPath upperDir (text (parent ++ [base])) (text [])
      (siblingPath t)) = some (parent ++ [t.flatMap (unixChar upperDir)]) := by
    have relative : (path2unix upperDir (pathCopy (siblingPath t))).head? ≠ some slash := by
      rw [head]
      decide
    rw [chdir_createUserPath [] rootNames, names_createUserPath, names_text rootNames,
      if_pos relative, way, names_text (p := []) (by simp), List.append_nil, Tree.walk_append, down,
      Option.bind_some, Tree.walk, Tree.enter, if_neg (by decide), if_pos rfl, List.dropLast_concat,
      Option.bind_some, Tree.walk, Tree.enter_name name, if_pos isDir]
    rfl
  intro confined
  obtain ⟨more, same⟩ := confined [] [] (siblingPath t) _ (by simp) (by simp [siblingPath]; omega)
    (by simpa [siblingPath] using nul)
    (by
      rw [cwdText_root]
      refine validateUserPath_iff.mpr ⟨_, went, ?_⟩
      obtain ⟨rest, goes⟩ := begins
      refine ⟨rest, ?_⟩
      rw [cwdText_root, text, text, List.flatMap_append, List.flatMap_append, ← goes]
      simp)
    (by rw [cwdText_root]; exact went)
  rw [List.append_assoc, List.append_cancel_left_eq, List.singleton_append, List.cons.injEq] at same
  exact ne same.1.symm

/-- Every accepted path stays in the device exactly when no sibling of its root is in
reach. -/
theorem confined_iff (dir : tree.isDir (parent ++ [base]) = true) :
    Confined upperDir tree parent base ↔ ¬ SiblingInReach upperDir tree parent base := by
  constructor
  · intro confined sibling
    exact not_confined_of_sibling dir sibling confined
  · exact confined_of_no_sibling dir

end Confinement

/-- A device at `/srv/pcl` and a directory `/srv/pclx` beside it. -/
def pclTree : Tree := Tree.ofList
  [[ascii "srv"], [ascii "srv", ascii "pcl"], [ascii "srv", ascii "pclx"]] (by decide) (by decide)

/-- A device at `/srv/pclx` in the same tree: no name goes on behind `pclx`. -/
theorem confined_pclx : Confined false pclTree [ascii "srv"] (ascii "pclx") := by
  refine (confined_iff (by decide)).mpr ?_
  rintro ⟨s, isDir, begins, ne, -⟩
  have three : s = ascii "pcl" ∨ s = ascii "pclx" := by
    simpa [pclTree, Tree.ofList] using isDir
  rcases three with rfl | rfl
  · exact absurd begins (by decide)
  · exact ne rfl

/-- `<\pclx` is accepted on the device at `/srv/pcl` and leads out of it. -/
theorem sibling_accepted :
    validateUserPath pclTree [] (ascii "/srv/pcl")
      (createUserPath false (ascii "/srv/pcl") [] (ascii "<\\pclx")) = true ∧
    pclTree.chdir [] (createUserPath false (ascii "/srv/pcl") [] (ascii "<\\pclx")) =
      some [ascii "srv", ascii "pclx"] ∧
    ¬ [ascii "srv", ascii "pcl"] <+: [ascii "srv", ascii "pclx"] := by
  decide

end FujiNet.PCLink
