import FujiNet.Utils.CanonicalPath

/-!
# Directory and file name of a network path

`NetworkProtocolFS::update_dir_filename` cuts a path behind its last slash, resolves the dots of the
directory and turns the names for everything into one. The directory goes through a function for
URLs, which keeps the first component of a plain path as if it were the end of a host.
-/

namespace FujiNet.NetworkProtocol

open Posix Utils

/-- The names that stand for everything. -/
def wildcards : List (List UInt8) := [ascii "*.*", ascii "-", ascii "**", ascii "*"]

/-- `NetworkProtocolFS::update_dir_filename`: the new `dir` and `filename`. -/
def updateDirFilename (path : List UInt8) : List UInt8 × List UInt8 :=
  let (front, filename) :=
    match findLast slash path with
    | some (before, after) => (before ++ [slash], after)
    | none => ([], path)
  (utilGetCanonicalPath front, if filename ∈ wildcards then ascii "*" else filename)

/-- The absolute path of a name behind the components of a directory. -/
def absolutePath (components : List (List UInt8)) (name : List UInt8) : List UInt8 :=
  slash :: dirText components ++ name

/-- The canonical absolute directory of the components. -/
def canonicalDir (components : List (List UInt8)) : List UInt8 :=
  slash :: dirText (resolve [] (components.filter (· ≠ [])))

/-- The first component is a name that the rest does not climb above, and no component ends like the
name of a protocol in front of an empty one. -/
def Rooted : List (List UInt8) → Prop
  | [] => False
  | c :: rest => (c ≠ [] ∧ c ≠ [dot] ∧ c ≠ dotdot) ∧ Stays (rest.filter (· ≠ [])) ∧
    ∀ a b, slash :: dirText (c :: rest) ≠ a ++ ascii "://" ++ b

section Paths

variable {components : List (List UInt8)} {name : List UInt8}

theorem dirText_eq_concat (ne_nil : components ≠ []) :
    ∃ front, dirText components = front ++ [slash] := by
  obtain ⟨front, last, rfl⟩ := List.eq_nil_or_concat components |>.resolve_left ne_nil
  exact ⟨dirText front ++ last, by simp⟩

/-- A path is cut behind its directory. -/
theorem updateDirFilename_absolutePath (plain : slash ∉ name) :
    updateDirFilename (absolutePath components name) =
      (utilGetCanonicalPath (slash :: dirText components),
        if name ∈ wildcards then ascii "*" else name) := by
  obtain ⟨front, ends⟩ : ∃ front, slash :: dirText components = front ++ [slash] := by
    by_cases nothing : components = []
    · exact ⟨[], by rw [nothing]; rfl⟩
    · obtain ⟨front, ends⟩ := dirText_eq_concat nothing
      exact ⟨slash :: front, by rw [ends]; rfl⟩
  rw [updateDirFilename, absolutePath, ends, List.append_assoc, List.singleton_append,
    findLast_append plain]

theorem names_dirText_of_plain (plain : ∀ c ∈ components, slash ∉ c) :
    names (dirText components) = components.filter (· ≠ []) := by
  induction components with
  | nil => rfl
  | cons c rest ih =>
      obtain ⟨no_slash, later⟩ := List.forall_mem_cons.mp plain
      rw [dirText_cons, names_append_slash, ih later]
      by_cases empty : c = []
      · rw [empty]
        rfl
      · rw [names_of_no_slash empty no_slash, List.filter_cons_of_pos (by simpa using empty)]
        rfl

theorem resolve_plain (plain : ∀ c ∈ components, slash ∉ c) :
    ∀ n ∈ resolve [] (components.filter (· ≠ [])), n ≠ [] ∧ slash ∉ n := by
  intro n mem
  rcases mem_resolve mem with absent | ⟨given, -⟩
  · exact absurd absent List.not_mem_nil
  · obtain ⟨here, ne_nil⟩ := List.mem_filter.mp given
    exact ⟨of_decide_eq_true ne_nil, plain n here⟩

theorem resolve_ne_dots (ns : List (List UInt8)) :
    ∀ n ∈ resolve [] ns, n ≠ dotdot ∧ n ≠ [dot] := by
  intro n mem
  rcases mem_resolve mem with absent | ⟨-, no_dots⟩
  · exact absurd absent List.not_mem_nil
  · exact no_dots

/-- In an absolute directory no two slashes stand next to each other. -/
theorem canonicalDir_ne (plain : ∀ c ∈ components, slash ∉ c) (a b : List UInt8) :
    canonicalDir components ≠ a ++ slash :: slash :: b := by
  obtain ⟨front, inside⟩ := dirText_ne (resolve_plain plain)
  intro same
  cases a with
  | nil => exact front _ (List.cons.inj same).2
  | cons c a => exact inside a b (List.cons.inj same).2

end Paths

/-! ## The first component -/

section First

variable {path c : List UInt8} {rest : List (List UInt8)}

/-- Without a host, what is kept ends with the first slash from the third byte on. -/
theorem protoHostLen_of_no_host (no_host : ∀ a b, path ≠ a ++ ascii "://" ++ b) :
    protoHostLen path = behindSlash path 2 := by
  have absent : findFrom (ascii "://") path 0 = none := by
    rw [findFrom, Option.map_eq_none_iff, List.drop_zero, Option.eq_none_iff_forall_ne_some]
    exact fun found here => no_host _ _ (eq_append_of_find here)
  rw [protoHostLen, absent]

/-- The first component is kept as it is, and the rest is resolved behind it. -/
theorem utilGetCanonicalPath_absolute (nonempty : c ≠ []) (plain : ∀ d ∈ c :: rest, slash ∉ d)
    (no_host : ∀ a b, slash :: dirText (c :: rest) ≠ a ++ ascii "://" ++ b) :
    utilGetCanonicalPath (slash :: dirText (c :: rest)) =
      slash :: dirText (c :: resolve [] (rest.filter (· ≠ []))) := by
  obtain ⟨no_slash, later⟩ := List.forall_mem_cons.mp plain
  obtain ⟨b, m, rfl⟩ := List.exists_cons_of_ne_nil nonempty
  have split : slash :: dirText ((b :: m) :: rest) =
      [slash, b] ++ (m ++ slash :: dirText rest) := by simp
  have len : protoHostLen (slash :: dirText ((b :: m) :: rest)) =
      (slash :: b :: m ++ [slash]).length := by
    rw [protoHostLen_of_no_host no_host, split,
      behindSlash_eq (show [slash, b].length = 2 from rfl)
        (List.not_mem_of_not_mem_cons no_slash)]
    simp only [List.length_append, List.length_cons, List.length_nil]
    omega
  have front : slash :: dirText ((b :: m) :: rest) =
      (slash :: b :: m ++ [slash]) ++ dirText rest := by simp
  rw [utilGetCanonicalPath_eq, dirs, len, front, List.take_left, List.drop_left,
    names_dirText_of_plain later, dirText_cons]
  simp

/-- What is kept with a host, or with an empty first component, makes no absolute directory. -/
theorem utilGetCanonicalPath_ne_canonicalDir {components : List (List UInt8)} {pos : Nat}
    {a b : List UInt8} (plain : ∀ d ∈ components, slash ∉ d)
    (len : protoHostLen path = behindSlash path pos)
    (slashes : path.take pos = a ++ slash :: slash :: b) :
    utilGetCanonicalPath path ≠ canonicalDir components := by
  rw [utilGetCanonicalPath_eq, len]
  rcases take_behindSlash path pos with zero | ⟨middle, kept, -⟩
  · rw [zero, List.take_zero, List.nil_append]
    exact (dirText_ne (dirs_plain path)).1 _
  · rw [kept, slashes]
    intro same
    refine canonicalDir_ne plain a (b ++ middle ++ [slash] ++ dirText (dirs path)) ?_
    rw [← same]
    simp

end First

/-- The first host in an absolute path has two slashes in what is kept. -/
theorem exists_host {a b : List UInt8} (host : slash :: path = a ++ ascii "://" ++ b) :
    ∃ pos front, protoHostLen (slash :: path) = behindSlash (slash :: path) pos ∧
      (slash :: path).take pos = front ++ slash :: slash :: [] := by
  have pattern : ascii "://" = [colon, slash, slash] := by decide +kernel
  obtain ⟨⟨a, b⟩, found⟩ : ∃ split, find (ascii "://") (slash :: path) = some split := by
    rw [← Option.isSome_iff_exists, host]
    exact isSome_find _ _ _
  have whole := eq_append_of_find found
  cases a with
  | nil =>
      rw [pattern] at whole
      exact absurd (List.cons.inj whole).1 (by decide)
  | cons c a =>
      refine ⟨a.length + 1 + 3, c :: a ++ [colon], ?_, ?_⟩
      · rw [protoHostLen, findFrom, List.drop_zero, found, Option.map_some, Nat.zero_add,
          List.length_cons]
      · rw [whole, List.take_left' (by rw [List.length_append, List.length_cons, pattern]; rfl),
          pattern]
        simp

/-- A first component that is no dot is behind the root. -/
theorem resolve_cons (ne_dot : c ≠ [dot]) (ne_dotdot : c ≠ dotdot) (ns : List (List UInt8)) :
    resolve [] (c :: ns) = resolve [c] ns := by
  rw [resolve, List.foldl_cons, resolveName, if_neg ne_dotdot, if_neg ne_dot]
  rfl

/-- Exactly the rooted paths have the directory that is meant. -/
theorem utilGetCanonicalPath_absolute_iff {components : List (List UInt8)}
    (plain : ∀ c ∈ components, slash ∉ c) :
    utilGetCanonicalPath (slash :: dirText components) = canonicalDir components ↔
      Rooted components := by
  cases components with
  | nil => exact iff_of_false (by decide +kernel) id
  | cons c rest =>
      by_cases host : ∃ a b, slash :: dirText (c :: rest) = a ++ ascii "://" ++ b
      · obtain ⟨a, b, here⟩ := host
        obtain ⟨pos, front, len, slashes⟩ := exists_host here
        exact iff_of_false (utilGetCanonicalPath_ne_canonicalDir plain len slashes)
          fun rooted => rooted.2.2 a b here
      · have no_host : ∀ a b, slash :: dirText (c :: rest) ≠ a ++ ascii "://" ++ b :=
          fun a b here => host ⟨a, b, here⟩
        by_cases empty : c = []
        · subst empty
          exact iff_of_false (utilGetCanonicalPath_ne_canonicalDir plain
            (protoHostLen_of_no_host no_host) (a := []) (b := []) rfl) fun rooted => rooted.1.1 rfl
        · have kept : (c :: rest).filter (· ≠ []) = c :: rest.filter (· ≠ []) :=
            List.filter_cons_of_pos (by simpa using empty)
          have below := resolve_singleton c (rest.filter (· ≠ []))
          rw [utilGetCanonicalPath_absolute empty plain no_host]
          constructor
          · intro same
            have all : c :: resolve [] (rest.filter (· ≠ [])) =
                resolve [] (c :: rest.filter (· ≠ [])) := by
              have texts := congrArg names (List.cons.inj same).2
              rw [names_dirText (resolve_plain plain), kept, names_dirText] at texts
              · exact texts
              · obtain ⟨no_slash, later⟩ := List.forall_mem_cons.mp plain
                exact List.forall_mem_cons.mpr ⟨⟨empty, no_slash⟩, resolve_plain later⟩
            obtain ⟨ne_dotdot, ne_dot⟩ := resolve_ne_dots _ c (all ▸ List.mem_cons_self)
            rw [resolve_cons ne_dot ne_dotdot] at all
            rcases below with ⟨stays, -⟩ | ⟨-, climbed⟩
            · exact ⟨⟨empty, ne_dot, ne_dotdot⟩, stays, no_host⟩
            · exact absurd (all.trans climbed) (List.cons_ne_self _ _)
          · rintro ⟨⟨-, ne_dot, ne_dotdot⟩, stays, -⟩
            rcases below with ⟨-, under⟩ | ⟨climbs, -⟩
            · rw [canonicalDir, kept, resolve_cons ne_dot ne_dotdot, under]
            · exact absurd stays climbs

/-- The directory of a rooted path is canonical, and its name is kept unless it stands for
everything. What is canonical stays as it is, a plain path as well as a URL. -/
theorem updateDirFilename_spec (components : List (List UInt8)) (name : List UInt8)
    (plain : ∀ c ∈ components, slash ∉ c) (plain' : slash ∉ name) :
    (Rooted components →
        (updateDirFilename (absolutePath components name)).1 = canonicalDir components) ∧
      (updateDirFilename (absolutePath components name)).2 =
        (if name ∈ wildcards then ascii "*" else name) ∧
      ∀ path, utilGetCanonicalPath (utilGetCanonicalPath path) = utilGetCanonicalPath path := by
  rw [updateDirFilename_absolutePath plain']
  exact ⟨(utilGetCanonicalPath_absolute_iff plain).mpr, rfl,
    utilGetCanonicalPath_utilGetCanonicalPath⟩

theorem updateDirFilename_spec_dots :
    (updateDirFilename (ascii "/a/./b//../c/x")).1 = ascii "/a/c/" ∧
      (updateDirFilename (ascii "/a/./b//../c/x")).2 = ascii "x" := by
  have stays : Stays [ascii ".", ascii "b", ascii "..", ascii "c"] := by
    change Stays (((([] ++ [ascii "."]) ++ [ascii "b"]) ++ [ascii ".."]) ++ [ascii "c"])
    simp only [stays_concat_iff]
    exact ⟨⟨⟨⟨stays_nil, by decide +kernel⟩, by decide +kernel⟩, by decide +kernel⟩,
      by decide +kernel⟩
  have rooted : Rooted [ascii "a", ascii ".", ascii "b", [], ascii "..", ascii "c"] :=
    ⟨by decide +kernel, stays, ne_of_find_eq_none (by decide +kernel)⟩
  obtain ⟨dir, filename, -⟩ := updateDirFilename_spec
    [ascii "a", ascii ".", ascii "b", [], ascii "..", ascii "c"] (ascii "x") (by decide +kernel)
    (by decide +kernel)
  exact ⟨dir rooted, filename⟩

/-- Dots in the place of the first component stay, and a name that stands for everything goes. -/
theorem not_updateDirFilename_canonical :
    (updateDirFilename (absolutePath [ascii "..", ascii "a"] (ascii "x"))).1 ≠
        canonicalDir [ascii "..", ascii "a"] ∧
      (updateDirFilename (absolutePath [ascii "a"] (ascii "-"))).2 ≠ ascii "-" := by
  decide +kernel

end FujiNet.NetworkProtocol
