import Mathlib.Data.List.Basic
import Mathlib.Data.List.Infix
import Mathlib.Data.UInt

/-!
# Directory trees without symbolic links

A directory is the list of the names on the way from the root, a tree says which
directories can be entered. A path text is cut at its slashes, empty pieces do not
count, and walking takes one name after the other. Without symbolic links `..` takes
the last name off, so where a walk ends is a question about lists of names.

Nothing in this file mentions a particular program.
-/

namespace FujiNet.Posix

def slash : UInt8 := 0x2F
def dot : UInt8 := 0x2E

/-- The name of the parent directory. -/
def dotdot : List UInt8 := [dot, dot]

/-- A name that a directory can have. -/
structure Name (n : List UInt8) : Prop where
  ne_nil : n ≠ []
  no_slash : slash ∉ n
  no_nul : 0 ∉ n
  ne_dot : n ≠ [dot]
  ne_dotdot : n ≠ dotdot

instance decidableName (n : List UInt8) : Decidable (Name n) :=
  decidable_of_iff (n ≠ [] ∧ slash ∉ n ∧ 0 ∉ n ∧ n ≠ [dot] ∧ n ≠ dotdot)
    ⟨fun ⟨h₁, h₂, h₃, h₄, h₅⟩ => ⟨h₁, h₂, h₃, h₄, h₅⟩, fun ⟨h₁, h₂, h₃, h₄, h₅⟩ => ⟨h₁, h₂, h₃, h₄, h₅⟩⟩

/-- The names between the slashes of a path. -/
def names (path : List UInt8) : List (List UInt8) :=
  (path.splitOnP (· == slash)).filter (· ≠ [])

/-- The text of a path behind the directory it starts from. -/
def text (p : List (List UInt8)) : List UInt8 := p.flatMap (slash :: ·)

/-- What `getcwd` reports in the directory `p`. -/
def cwdText (p : List (List UInt8)) : List UInt8 := if p = [] then [slash] else text p

/-- The directories that can be entered. -/
structure Tree where
  isDir : List (List UInt8) → Bool
  root : isDir [] = true
  parent : ∀ p n, isDir (p ++ [n]) = true → isDir p = true
  name : ∀ p, isDir p = true → ∀ n ∈ p, Name n

namespace Tree

/-- The tree with the given directories besides the root. -/
def ofList (dirs : List (List (List UInt8)))
    (closed : ∀ p ∈ dirs, p.dropLast ∈ dirs ∨ p.dropLast = [])
    (named : ∀ p ∈ dirs, ∀ n ∈ p, Name n) : Tree where
  isDir p := p = [] || dirs.contains p
  root := rfl
  parent p n h := by
    have mem : p ++ [n] ∈ dirs := by simpa using h
    simpa [or_comm] using closed _ mem
  name p h := by
    rcases Bool.or_eq_true _ _ |>.mp h with nil | mem
    · rw [of_decide_eq_true nil]
      exact fun n mem => absurd mem List.not_mem_nil
    · exact named p (by simpa using mem)

variable (tree : Tree)

/-- One component of a path. -/
def enter (p : List (List UInt8)) (n : List UInt8) : Option (List (List UInt8)) :=
  if n = [dot] then some p
  else if n = dotdot then some p.dropLast
  else if tree.isDir (p ++ [n]) then some (p ++ [n])
  else none

/-- The components one after the other. -/
def walk : List (List UInt8) → List (List UInt8) → Option (List (List UInt8))
  | p, [] => some p
  | p, n :: ns => (tree.enter p n).bind (walk · ns)

/-- `chdir` from the directory `wd`. -/
def chdir (wd : List (List UInt8)) (path : List UInt8) : Option (List (List UInt8)) :=
  if path = [] then none else tree.walk (if path.head? = some slash then [] else wd) (names path)

end Tree

/-! ## Names of a path -/

theorem names_append_slash (a b : List UInt8) : names (a ++ slash :: b) = names a ++ names b := by
  rw [names, List.splitOnP_append_cons _ _ (by simp), List.filter_append]
  rfl

@[simp] theorem names_nil : names [] = [] := rfl

@[simp] theorem names_slash (b : List UInt8) : names (slash :: b) = names b :=
  names_append_slash [] b

@[simp] theorem names_append_last (a : List UInt8) : names (a ++ [slash]) = names a := by
  rw [names_append_slash, names_nil, List.append_nil]

theorem names_of_no_slash {n : List UInt8} (some : n ≠ []) (h : slash ∉ n) : names n = [n] := by
  have pieces : n.splitOnP (· == slash) = [n] := by
    refine List.splitOnP_eq_singleton fun c mem => ?_
    simpa using fun same : c = slash => h (same ▸ mem)
  rw [names, pieces, List.filter_cons_of_pos (by simpa using some), List.filter_nil]

theorem names_text {p : List (List UInt8)} (h : ∀ n ∈ p, Name n) : names (text p) = p := by
  induction p with
  | nil => rfl
  | cons n p ih =>
      obtain ⟨name, rest⟩ := List.forall_mem_cons.mp h
      have here : names n = [n] := names_of_no_slash name.ne_nil name.no_slash
      rw [text, List.flatMap_cons, List.cons_append, names_slash]
      cases p with
      | nil => simpa using here
      | cons n' p =>
          have split : n ++ text (n' :: p) = n ++ slash :: (n' ++ text p) := rfl
          have tail : names (n' ++ text p) = n' :: p := (names_slash _).symm.trans (ih rest)
          change names (n ++ text (n' :: p)) = n :: n' :: p
          rw [split, names_append_slash, here, tail]
          rfl

/-- A path text is empty or begins with a slash. -/
theorem text_cases (p : List (List UInt8)) : text p = [] ∨ ∃ rest, text p = slash :: rest := by
  cases p with
  | nil => exact .inl rfl
  | cons n p => exact .inr ⟨n ++ text p, rfl⟩

/-- A text without slashes at the front of a name and more is at the front of the name. -/
theorem prefix_name {base n rest : List UInt8} (plain : slash ∉ base)
    (stop : rest = [] ∨ ∃ more, rest = slash :: more) (h : base <+: n ++ rest) : base <+: n := by
  rcases List.prefix_or_prefix_of_prefix h (List.prefix_append n rest) with le | ⟨x, rfl⟩
  · exact le
  · have front : x <+: rest := by simpa using h
    cases x with
    | nil => simp
    | cons c x =>
        rcases stop with rfl | ⟨more, rfl⟩
        · exact absurd front (by simp)
        · obtain ⟨rfl, -⟩ := List.cons_prefix_cons.mp front
          exact absurd (by simp) plain

/-- Where both texts end a name, the names are the same. -/
theorem name_eq_of_prefix {m n X Y : List UInt8} (plain : slash ∉ m) (plain' : slash ∉ n)
    (stop : Y = [] ∨ ∃ more, Y = slash :: more) (h : m ++ slash :: X <+: n ++ Y) :
    m = n ∧ slash :: X <+: Y := by
  induction m generalizing n with
  | nil =>
      cases n with
      | nil => exact ⟨rfl, h⟩
      | cons c n =>
          obtain ⟨same, -⟩ := List.cons_prefix_cons.mp h
          exact absurd (by simp [same]) plain'
  | cons a m ih =>
      cases n with
      | nil =>
          rcases stop with rfl | ⟨more, rfl⟩
          · exact absurd h (by simp)
          · obtain ⟨same, -⟩ := List.cons_prefix_cons.mp h
            exact absurd (by simp [same]) plain
      | cons c n =>
          obtain ⟨rfl, tail⟩ := List.cons_prefix_cons.mp h
          obtain ⟨rfl, rest⟩ := ih (fun mem => plain (List.mem_cons_of_mem _ mem))
            (fun mem => plain' (List.mem_cons_of_mem _ mem)) tail
          exact ⟨rfl, rest⟩

/-- A directory whose text another text begins with: the names before the last one are
the same, and the last one begins the other's name at that place. -/
theorem text_prefix {parent r : List (List UInt8)} {base : List UInt8}
    (plain : ∀ n ∈ parent ++ [base], slash ∉ n) (plain' : ∀ n ∈ r, slash ∉ n)
    (h : text (parent ++ [base]) <+: text r) :
    ∃ s more, r = parent ++ s :: more ∧ base <+: s := by
  induction parent generalizing r with
  | nil =>
      cases r with
      | nil => exact absurd h (by simp [text])
      | cons n r =>
          have front : base <+: n ++ text r := by
            simpa [text] using h
          exact ⟨n, r, rfl, prefix_name (plain base (by simp)) (text_cases r) front⟩
  | cons m parent ih =>
      cases r with
      | nil => exact absurd h (by simp [text])
      | cons n r =>
          obtain ⟨X, hX⟩ : ∃ X, text (parent ++ [base]) = slash :: X :=
            (text_cases (parent ++ [base])).resolve_left (by simp [text])
          have front : m ++ slash :: X <+: n ++ text r := by
            rw [← hX]
            exact (List.cons_prefix_cons.mp h).2
          obtain ⟨rfl, rest⟩ := name_eq_of_prefix (plain m (by simp)) (plain' n (by simp))
            (text_cases r) front
          obtain ⟨s, more, rfl, begins⟩ := ih (fun n mem => plain n (List.mem_cons_of_mem _ mem))
            (fun n mem => plain' n (List.mem_cons_of_mem _ mem)) (hX ▸ rest)
          exact ⟨s, more, rfl, begins⟩

namespace Tree

variable {tree : Tree} {p q r : List (List UInt8)}

theorem walk_append (p a b : List (List UInt8)) :
    tree.walk p (a ++ b) = (tree.walk p a).bind (tree.walk · b) := by
  induction a generalizing p with
  | nil => rfl
  | cons n a ih =>
      rw [List.cons_append, walk, walk, Option.bind_assoc]
      exact Option.bind_congr fun q _ => ih q

theorem enter_name {n : List UInt8} (name : Name n) :
    tree.enter p n = if tree.isDir (p ++ [n]) then some (p ++ [n]) else none := by
  rw [enter, if_neg name.ne_dot, if_neg name.ne_dotdot]

/-- Names lead straight down. -/
theorem walk_names {ns : List (List UInt8)} (h : ∀ n ∈ ns, Name n) (walked : tree.walk p ns = some r) :
    r = p ++ ns := by
  induction ns generalizing p with
  | nil => simpa [walk] using walked.symm
  | cons n ns ih =>
      obtain ⟨name, rest⟩ := List.forall_mem_cons.mp h
      rw [walk, enter_name name] at walked
      split_ifs at walked with dir
      · rw [ih rest (by simpa using walked), List.append_assoc]
        rfl
      · simp at walked

theorem isDir_of_append {t : List (List UInt8)} (h : tree.isDir (p ++ t) = true) :
    tree.isDir p = true := by
  induction t using List.reverseRecOn with
  | nil => rwa [List.append_nil] at h
  | append_singleton t n ih => exact ih (tree.parent _ n (by rwa [List.append_assoc]))

theorem walk_down {ns : List (List UInt8)} (h : tree.isDir (p ++ ns) = true) :
    tree.walk p ns = some (p ++ ns) := by
  induction ns generalizing p with
  | nil => rw [List.append_nil, walk]
  | cons n ns ih =>
      have dir : tree.isDir ((p ++ [n]) ++ ns) = true := by rwa [List.append_assoc]
      have name : Name n := tree.name _ h n (by simp)
      rw [walk, enter_name name, if_pos (isDir_of_append dir), Option.bind_some, ih dir,
        List.append_assoc]
      rfl

/-- A walk ends below a directory on the way up from its start, with names it was given;
without a step up it ends below its start. -/
theorem walk_cases {start ns : List (List UInt8)} (walked : tree.walk start ns = some r) :
    ∃ k down, r = start.take k ++ down ∧ (∀ n ∈ down, n ∈ ns) ∧
      (dotdot ∉ ns → start.length ≤ k) := by
  induction ns generalizing start with
  | nil =>
      obtain rfl : start = r := by simpa [walk] using walked
      exact ⟨start.length, [], by simp, by simp, fun _ => Nat.le_refl _⟩
  | cons n ns ih =>
      obtain ⟨next, entered, walked⟩ := Option.bind_eq_some_iff.mp walked
      obtain ⟨k, down, rfl, given, up⟩ := ih walked
      have given' : ∀ m ∈ down, m ∈ n :: ns := fun m mem => List.mem_cons_of_mem _ (given m mem)
      rw [enter] at entered
      split_ifs at entered with isDot isUp isDir
      · obtain rfl : start = next := by simpa using entered
        exact ⟨k, down, rfl, given', fun h => up fun mem => h (List.mem_cons_of_mem _ mem)⟩
      · obtain rfl : start.dropLast = next := by simpa using entered
        refine ⟨min k (start.length - 1), down, ?_, given', ?_⟩
        · rw [List.dropLast_eq_take, List.take_take]
        · exact fun h => absurd (isUp ▸ List.mem_cons_self) h
      · obtain rfl : start ++ [n] = next := by simpa using entered
        by_cases below : k ≤ start.length
        · refine ⟨k, down, by rw [List.take_append_of_le_length below], given', fun h => ?_⟩
          have := up fun mem => h (List.mem_cons_of_mem _ mem)
          rw [List.length_append, List.length_singleton] at this
          omega
        · refine ⟨start.length, n :: down, ?_, ?_, fun _ => Nat.le_refl _⟩
          · rw [List.take_of_length_le (by simp; omega), List.take_length, List.append_assoc]
            rfl
          · intro m mem
            rcases List.mem_cons.mp mem with rfl | later
            · exact List.mem_cons_self
            · exact given' m later

theorem isDir_enter {n : List UInt8} (dir : tree.isDir p = true) (entered : tree.enter p n = some q) :
    tree.isDir q = true := by
  rw [enter] at entered
  split_ifs at entered with isDot isUp isDir
  · exact (Option.some.inj entered) ▸ dir
  · rw [← Option.some.inj entered]
    rcases List.eq_nil_or_concat p with rfl | ⟨parent, n, rfl⟩
    · exact dir
    · rw [List.concat_eq_append] at dir ⊢
      rw [List.dropLast_concat]
      exact tree.parent _ n dir
  · exact (Option.some.inj entered) ▸ isDir

/-- Where a walk ends can be entered. -/
theorem isDir_walk {start ns : List (List UInt8)} (dir : tree.isDir start = true)
    (walked : tree.walk start ns = some r) : tree.isDir r = true := by
  induction ns generalizing start with
  | nil => exact Option.some.inj walked ▸ dir
  | cons n ns ih =>
      obtain ⟨next, entered, walked⟩ := Option.bind_eq_some_iff.mp walked
      exact ih (isDir_enter dir entered) walked

end Tree

end FujiNet.Posix
