import FujiNet.Data.Resolve
import FujiNet.Utils.Strings

/-!
# Canonical paths

`util_get_canonical_path` leaves the protocol and the host of a URL as they are and resolves the
dots behind them. What it leaves is counted with `npos`: a text without a protocol keeps what is in
front of its first slash from the third byte on, and a URL without a slash behind the host is taken
for a path.
-/

namespace FujiNet.Utils

open Posix

def colon : UInt8 := 0x3A

/-- `str.find(pattern, pos)`. -/
def findFrom (pattern str : List UInt8) (pos : Nat) : Option Nat :=
  (find pattern (str.drop pos)).map fun found => pos + found.1.length

/-- `str.find("/", pos) + 1`, which is zero for `npos`. -/
def behindSlash (str : List UInt8) (pos : Nat) : Nat :=
  match findFrom [slash] str pos with
  | none => 0
  | some pos => pos + 1

/-- `proto_host_len`. For `npos` the search for the slash starts at 2. -/
def protoHostLen (path : List UInt8) : Nat :=
  match findFrom (ascii "://") path 0 with
  | none => behindSlash path 2
  | some 0 => 0
  | some (pos + 1) => behindSlash path (pos + 1 + 3)

/-- What the loop does with one name; the empty one comes from slashes that follow each other. -/
def pushDir (st : List (List UInt8)) (dir : List UInt8) : List (List UInt8) :=
  if dir = dotdot then st.dropLast
  else if dir = [dot] then st
  else if dir.length ≠ 0 then st ++ [dir] else st

/-- `util_get_canonical_path`, for a path whose length fits an `int`. -/
def utilGetCanonicalPath (path : List UInt8) : List UInt8 :=
  let res := path.take (protoHostLen path)
  let st := ((path.drop (protoHostLen path)).splitOnP (· == slash)).foldl pushDir []
  let res := res ++ [slash].intercalate st
  if res ≠ [] ∧ res.getLast? ≠ some slash then res ++ [slash] else res

section Positions

variable {str front behind : List UInt8}

theorem find_of_notMem {c : UInt8} {pattern : List UInt8} (absent : c ∉ front) :
    find (c :: pattern) (front ++ c :: pattern ++ behind) = some (front, behind) := by
  induction front with
  | nil => simp [find, List.isPrefixOf]
  | cons b front ih =>
      obtain ⟨here, later⟩ := not_or.mp (List.mem_cons.not.mp absent)
      rw [List.cons_append, List.cons_append, find, ih later, if_neg]
      · rfl
      · simp [List.isPrefixOf, here]

theorem eq_append_of_find {pattern : List UInt8} (found : find pattern str = some (front, behind)) :
    str = front ++ pattern ++ behind := by
  induction str generalizing front with
  | nil =>
      rw [find] at found
      split_ifs at found with empty
      obtain ⟨rfl, rfl⟩ := Prod.mk.inj (Option.some.inj found)
      simp [List.isEmpty_iff.mp empty]
  | cons c rest ih =>
      rw [find] at found
      split_ifs at found with here
      · obtain ⟨rfl, rfl⟩ := Prod.mk.inj (Option.some.inj found)
        rw [List.nil_append]
        exact (List.prefix_iff_eq_append.mp (List.isPrefixOf_iff_prefix.mp here)).symm
      · obtain ⟨⟨front', behind'⟩, later, same⟩ := Option.map_eq_some_iff.mp found
        obtain ⟨rfl, rfl⟩ := Prod.mk.inj same
        rw [ih later]
        rfl

theorem isSome_find (pattern a b : List UInt8) : (find pattern (a ++ pattern ++ b)).isSome := by
  induction a with
  | nil =>
      cases pattern with
      | nil => cases b <;> simp [find, List.isPrefixOf]
      | cons c pattern => simp [find, List.isPrefixOf]
  | cons c a ih =>
      rw [List.cons_append, List.cons_append, find]
      split_ifs
      · rfl
      · rw [Option.isSome_map]
        exact ih

theorem ne_of_find_eq_none {pattern : List UInt8} (absent : find pattern str = none)
    (a b : List UInt8) : str ≠ a ++ pattern ++ b := by
  rintro rfl
  have found := isSome_find pattern a b
  rw [absent] at found
  exact Bool.false_ne_true found

/-- The first occurrence does not depend on what is behind it. -/
theorem find_append_of_find {pattern : List UInt8} (found : find pattern str = some (front, behind))
    (behind' : List UInt8) :
    find pattern (front ++ pattern ++ behind') = some (front, behind') := by
  induction str generalizing front with
  | nil =>
      have nil := eq_append_of_find found
      simp only [List.nil_eq, List.append_eq_nil_iff] at nil
      obtain ⟨⟨rfl, rfl⟩, rfl⟩ := nil
      cases behind' <;> simp [find, List.isPrefixOf]
  | cons c rest ih =>
      have whole := eq_append_of_find found
      rw [find] at found
      split_ifs at found with here
      · obtain ⟨rfl, -⟩ := Prod.mk.inj (Option.some.inj found)
        have match' : pattern.isPrefixOf (pattern ++ behind') = true :=
          List.isPrefixOf_iff_prefix.mpr (List.prefix_append _ _)
        rw [List.nil_append]
        cases both : pattern ++ behind' with
        | nil =>
            obtain ⟨rfl, rfl⟩ := List.append_eq_nil_iff.mp both
            rfl
        | cons b tail =>
            rw [both] at match'
            rw [find, if_pos match', ← both, List.drop_left]
      · obtain ⟨⟨front', rest'⟩, later, same⟩ := Option.map_eq_some_iff.mp found
        obtain ⟨rfl, rfl⟩ := Prod.mk.inj same
        rw [List.cons_append, List.cons_append, find, ih later, if_neg]
        · rfl
        · intro before
          -- The pattern would have been found here before.
          have short : pattern.length ≤ (c :: front' ++ pattern).length := by
            rw [List.length_append]
            exact Nat.le_add_left _ _
          have inside := List.prefix_of_prefix_length_le (List.isPrefixOf_iff_prefix.mp before)
            (List.prefix_append (c :: front' ++ pattern) behind') short
          refine here (List.isPrefixOf_iff_prefix.mpr ?_)
          rw [whole]
          exact inside.trans (List.prefix_append _ _)

/-- From a position on, the first slash. -/
theorem findFrom_slash {middle : List UInt8} {pos : Nat} (start : front.length = pos)
    (absent : slash ∉ middle) :
    findFrom [slash] (front ++ (middle ++ slash :: behind)) pos = some (pos + middle.length) := by
  rw [findFrom, List.drop_left' start, find_append absent]
  rfl

theorem findFrom_slash_none {pos : Nat} (absent : slash ∉ str.drop pos) :
    findFrom [slash] str pos = none := by
  rw [findFrom, find_eq_none_iff.mpr absent]
  rfl

/-- A slash that was found is there, and none stands in front of it. -/
theorem findFrom_slash_eq_some {pos at' : Nat} (found : findFrom [slash] str pos = some at') :
    pos ≤ at' ∧ ∃ middle, str.drop pos = middle ++ slash :: str.drop (at' + 1) ∧
      middle.length = at' - pos ∧ slash ∉ middle := by
  obtain ⟨⟨middle, rest⟩, split, rfl⟩ := Option.map_eq_some_iff.mp found
  obtain ⟨whole, absent⟩ := find_eq_some_iff.mp split
  refine ⟨Nat.le_add_right _ _, middle, ?_, by simp, absent⟩
  have tail : str.drop (pos + middle.length + 1) = rest := by
    rw [Nat.add_assoc, ← List.drop_drop, whole, ← List.drop_drop, List.drop_left' rfl]
    rfl
  rw [whole, tail]

theorem behindSlash_eq {middle : List UInt8} {pos : Nat} (start : front.length = pos)
    (absent : slash ∉ middle) :
    behindSlash (front ++ (middle ++ slash :: behind)) pos = pos + middle.length + 1 := by
  rw [behindSlash, findFrom_slash start absent]

/-- What is kept in front is nothing, or it ends with the slash that was found. -/
theorem take_behindSlash (str : List UInt8) (pos : Nat) : behindSlash str pos = 0 ∨
    ∃ middle, str.take (behindSlash str pos) = str.take pos ++ middle ++ [slash] ∧
      slash ∉ middle := by
  rw [behindSlash]
  cases found : findFrom [slash] str pos with
  | none => exact .inl rfl
  | some at' =>
      obtain ⟨le, middle, split, length, absent⟩ := findFrom_slash_eq_some found
      refine .inr ⟨middle, ?_, absent⟩
      have width : at' + 1 = pos + (middle.length + 1) := by omega
      change str.take (at' + 1) = _
      rw [width, List.take_add, split, List.append_assoc, List.take_length_add_append]
      rfl

end Positions

/-! ## The canonical form -/

theorem foldl_pushDir (st pieces : List (List UInt8)) :
    pieces.foldl pushDir st = resolve st (pieces.filter (· ≠ [])) := by
  induction pieces generalizing st with
  | nil => rfl
  | cons dir pieces ih =>
      rw [List.foldl_cons, ih]
      by_cases empty : dir = []
      · subst empty
        rfl
      · have same : pushDir st dir = resolveName st dir := by
          simp [pushDir, resolveName, empty]
        rw [List.filter_cons_of_pos (by simpa using empty), same]
        rfl

theorem intercalate_concat (st : List (List UInt8)) (dir : List UInt8) :
    [slash].intercalate (st ++ [dir]) = dirText st ++ dir := by
  induction st with
  | nil => simp
  | cons n st ih =>
      rw [List.cons_append, dirText_cons, List.intercalate_cons_of_ne_nil (by simp), ih]
      simp

/-- What is left of the text is empty or ends with a slash. -/
theorem take_protoHostLen (path : List UInt8) : path.take (protoHostLen path) = [] ∨
    (path.take (protoHostLen path)).getLast? = some slash := by
  have ends : ∀ pos, path.take (behindSlash path pos) = [] ∨
      (path.take (behindSlash path pos)).getLast? = some slash := by
    intro pos
    rcases take_behindSlash path pos with zero | ⟨middle, whole, -⟩
    · exact .inl (by rw [zero, List.take_zero])
    · exact .inr (by rw [whole, List.getLast?_concat])
  rw [protoHostLen]
  split
  · exact ends _
  · exact .inl (List.take_zero)
  · exact ends _

/-- The names that are left behind protocol and host. -/
def dirs (path : List UInt8) : List (List UInt8) :=
  resolve [] (names (path.drop (protoHostLen path)))

theorem dirs_plain (path : List UInt8) : ∀ n ∈ dirs path, n ≠ [] ∧ slash ∉ n := by
  intro n mem
  rcases mem_resolve mem with none | ⟨given, -⟩
  · exact absurd none List.not_mem_nil
  · exact names_plain given

/-- The canonical form: each name with a slash behind it. -/
theorem utilGetCanonicalPath_eq (path : List UInt8) :
    utilGetCanonicalPath path = path.take (protoHostLen path) ++ dirText (dirs path) := by
  have plain := dirs_plain path
  have kept := take_protoHostLen path
  rw [utilGetCanonicalPath, foldl_pushDir]
  change (let res := _ ++ [slash].intercalate (dirs path)
    if res ≠ [] ∧ res.getLast? ≠ some slash then res ++ [slash] else res) = _
  generalize dirs path = st at plain ⊢
  generalize path.take (protoHostLen path) = front at kept ⊢
  rcases List.eq_nil_or_concat st with rfl | ⟨st, dir, rfl⟩
  · rw [List.intercalate_nil, dirText_nil, List.append_nil]
    rcases kept with rfl | ends
    · rfl
    · exact if_neg fun open' => open'.2 ends
  · rw [List.concat_eq_append] at plain ⊢
    obtain ⟨ne_nil, no_slash⟩ := plain dir (by simp)
    have last : (front ++ (dirText st ++ dir)).getLast? ≠ some slash := by
      rw [← List.append_assoc, List.getLast?_append_of_ne_nil _ ne_nil]
      exact fun ends => no_slash (List.mem_of_getLast? ends)
    dsimp only
    rw [intercalate_concat, if_pos ⟨by simp [ne_nil], last⟩]
    simp

/-- The canonical form is empty or ends with a slash. -/
theorem getLast?_utilGetCanonicalPath (path : List UInt8) : utilGetCanonicalPath path = [] ∨
    (utilGetCanonicalPath path).getLast? = some slash := by
  rw [utilGetCanonicalPath_eq]
  rcases getLast?_dirText (dirs path) with none | ends
  · rw [none, List.append_nil]
    exact take_protoHostLen path
  · refine .inr ?_
    rw [List.getLast?_append, ends]
    rfl

/-! ## Idempotence -/

section Idempotence

variable {path front rest : List UInt8}

/-- A text without two slashes next to each other, and with no slash at its front. -/
def Joined (rest : List UInt8) : Prop :=
  (∀ b, rest ≠ slash :: b) ∧ ∀ a b, rest ≠ a ++ slash :: slash :: b

/-- Behind a slash no host begins in a joined text. -/
theorem find_host_append (absent : find (ascii "://") (front ++ [slash]) = none)
    (joined : Joined rest) : find (ascii "://") (front ++ slash :: rest) = none := by
  obtain ⟨start, inside⟩ := joined
  have host : ascii "://" = [colon, slash] ++ [slash] := by decide +kernel
  rw [Option.eq_none_iff_forall_ne_some]
  rintro ⟨a, b⟩ found
  have split := eq_append_of_find found
  rw [host, List.append_cons front, ← List.append_assoc a, List.append_assoc (a ++ [colon, slash])]
    at split
  rcases List.append_eq_append_iff.mp split with ⟨m, whole, behind⟩ | ⟨m, whole, behind⟩
  · -- its last slash is behind the front
    rcases List.eq_nil_or_concat m with rfl | ⟨m, c, rfl⟩
    · exact start _ behind
    · rw [List.concat_eq_append, ← List.append_assoc] at whole
      have last : a ++ [colon, slash] = (a ++ [colon]) ++ [slash] := by simp
      rw [last] at whole
      obtain ⟨-, same⟩ := List.append_inj' whole rfl
      obtain ⟨rfl, -⟩ := List.cons.inj same
      exact inside m b (by rw [behind]; simp)
  · cases m with
    | nil => exact start _ behind.symm
    | cons c m =>
        obtain ⟨rfl, -⟩ := List.cons.inj behind
        refine ne_of_find_eq_none absent a m ?_
        rw [whole, host]
        simp

/-- What is kept up to a slash is kept again, whatever is resolved behind it. -/
theorem behindSlash_take_append {pos : Nat} (kept : path.take (behindSlash path pos) ≠ [])
    (rest : List UInt8) :
    behindSlash (path.take (behindSlash path pos) ++ rest) pos =
      (path.take (behindSlash path pos)).length := by
  rcases take_behindSlash path pos with zero | ⟨middle, whole, no_slash⟩
  · rw [zero, List.take_zero] at kept
    exact absurd rfl kept
  · have width : (path.take pos).length = pos := by
      rw [behindSlash] at kept whole
      cases found : findFrom [slash] path pos with
      | none =>
          rw [found] at kept
          exact absurd List.take_zero kept
      | some at' =>
          obtain ⟨-, middle', split, -, -⟩ := findFrom_slash_eq_some found
          have length := congrArg List.length split
          simp only [List.length_drop, List.length_append, List.length_cons] at length
          rw [List.length_take]
          omega
    have split : path.take pos ++ middle ++ [slash] ++ rest =
        path.take pos ++ (middle ++ slash :: rest) := by simp
    rw [whole, split, behindSlash_eq width no_slash]
    simp only [List.length_append, List.length_singleton, width]

/-- The same for protocol and host, when nothing behind them looks like a host. -/
theorem protoHostLen_take_append (kept : path.take (protoHostLen path) ≠ [])
    (joined : Joined rest) :
    protoHostLen (path.take (protoHostLen path) ++ rest) =
      (path.take (protoHostLen path)).length := by
  have atZero (str : List UInt8) : findFrom (ascii "://") str 0 =
      (find (ascii "://") str).map fun found => found.1.length := by
    simp only [findFrom, List.drop_zero, Nat.zero_add]
  cases found : find (ascii "://") path with
  | none =>
      have len : protoHostLen path = behindSlash path 2 := by
        rw [protoHostLen, atZero, found]
        rfl
      rw [len] at kept ⊢
      have whole := (take_behindSlash path 2).resolve_left fun zero =>
        kept (by rw [zero, List.take_zero])
      obtain ⟨middle, front, -⟩ := whole
      have absent : find (ascii "://") (path.take 2 ++ middle ++ [slash]) = none := by
        rw [← front, Option.eq_none_iff_forall_ne_some]
        rintro ⟨a, b⟩ inside
        refine ne_of_find_eq_none found a (b ++ path.drop (behindSlash path 2)) ?_
        rw [← List.append_assoc, ← eq_append_of_find inside, List.take_append_drop]
      have still : find (ascii "://") (path.take (behindSlash path 2) ++ rest) = none := by
        rw [front, List.append_assoc, List.singleton_append]
        exact find_host_append absent joined
      rw [← behindSlash_take_append kept rest, protoHostLen, atZero, still]
      rfl
  | some split =>
      obtain ⟨a, b⟩ := split
      have whole := eq_append_of_find found
      cases length : a.length with
      | zero =>
          have len : protoHostLen path = 0 := by
            rw [protoHostLen, atZero, found, Option.map_some, length]
          rw [len, List.take_zero] at kept
          exact absurd rfl kept
      | succ n =>
          have len : protoHostLen path = behindSlash path (n + 1 + 3) := by
            rw [protoHostLen, atZero, found, Option.map_some, length]
          rw [len] at kept ⊢
          obtain ⟨middle, front, -⟩ := (take_behindSlash path (n + 1 + 3)).resolve_left
            fun zero => kept (by rw [zero, List.take_zero])
          have host : path.take (n + 1 + 3) = a ++ ascii "://" := by
            rw [whole, List.take_left' (by rw [List.length_append, length]; rfl)]
          have still : find (ascii "://") (path.take (behindSlash path (n + 1 + 3)) ++ rest) =
              some (a, middle ++ [slash] ++ rest) := by
            have again := find_append_of_find found (middle ++ [slash] ++ rest)
            rw [front, host]
            simpa only [List.append_assoc] using again
          rw [← behindSlash_take_append kept rest, protoHostLen, atZero, still, Option.map_some,
            length]

theorem dirs_ne_dots (path : List UInt8) : ∀ n ∈ dirs path, n ≠ dotdot ∧ n ≠ [dot] := by
  intro n mem
  rcases mem_resolve mem with absent | ⟨-, plain⟩
  · exact absurd absent List.not_mem_nil
  · exact plain

/-- Names without dots are their own canonical form, wherever the host is taken to end. -/
theorem utilGetCanonicalPath_dirText {st : List (List UInt8)}
    (plain : ∀ n ∈ st, n ≠ [] ∧ slash ∉ n)
    (no_dots : ∀ n ∈ st, n ≠ dotdot ∧ n ≠ [dot]) :
    utilGetCanonicalPath (dirText st) = dirText st := by
  have whole := List.take_append_drop (protoHostLen (dirText st)) (dirText st)
  rw [utilGetCanonicalPath_eq, dirs]
  rcases take_protoHostLen (dirText st) with nothing | ends
  · rw [nothing, List.nil_append] at whole ⊢
    rw [whole, names_dirText plain, resolve_of_ne_dots no_dots, List.nil_append]
  · obtain ⟨a, front⟩ := List.getLast?_eq_some_iff.mp ends
    rw [front, List.append_assoc, List.singleton_append] at whole
    obtain ⟨q, r, rfl, kept, behind⟩ := eq_dirText_of_append plain whole.symm
    rw [front, behind, names_dirText fun n mem => plain n (List.mem_append_right q mem),
      resolve_of_ne_dots fun n mem => no_dots n (List.mem_append_right q mem), List.nil_append,
      dirText_append, kept]

/-- A canonical form is its own canonical form. -/
theorem utilGetCanonicalPath_utilGetCanonicalPath (path : List UInt8) :
    utilGetCanonicalPath (utilGetCanonicalPath path) = utilGetCanonicalPath path := by
  have plain := dirs_plain path
  have no_dots := dirs_ne_dots path
  rw [utilGetCanonicalPath_eq path]
  generalize dirs path = st at plain no_dots ⊢
  by_cases kept : path.take (protoHostLen path) = []
  · rw [kept, List.nil_append, utilGetCanonicalPath_dirText plain no_dots]
  · rw [utilGetCanonicalPath_eq, dirs, protoHostLen_take_append kept (dirText_ne plain),
      List.take_left, List.drop_left, names_dirText plain, resolve_of_ne_dots no_dots,
      List.nil_append]

end Idempotence

/-- The bytes of the canonical form: what is kept, and each name with its slash. -/
def canonicalLength (path : List UInt8) : Nat :=
  min (protoHostLen path) path.length + ((dirs path).map fun n => n.length + 1).sum

theorem length_utilGetCanonicalPath (path : List UInt8) :
    (utilGetCanonicalPath path).length = canonicalLength path := by
  rw [utilGetCanonicalPath_eq, List.length_append, List.length_take, length_dirText,
    canonicalLength]

theorem length_dirs_le (path : List UInt8) :
    (dirText (dirs path)).length ≤ (dirText (names (path.drop (protoHostLen path)))).length :=
  Nat.le_trans length_dirText_resolve (by simp)

/-- The canonical form adds at most the slash at the end. -/
theorem length_utilGetCanonicalPath_le (path : List UInt8) :
    (utilGetCanonicalPath path).length ≤ path.length + 1 := by
  have names := length_dirText_names (path.drop (protoHostLen path))
  have dirs := length_dirs_le path
  rw [utilGetCanonicalPath_eq, List.length_append, List.length_take]
  rw [List.length_drop] at names
  omega

/-- If there is a slash at the end, nothing is added. -/
theorem length_utilGetCanonicalPath_le_of_slash {path : List UInt8}
    (ends : path.getLast? = some slash) : (utilGetCanonicalPath path).length ≤ path.length := by
  have still : path.drop (protoHostLen path) = [] ∨
      (path.drop (protoHostLen path)).getLast? = some slash := by
    rw [List.getLast?_drop, ends]
    split_ifs with all
    · exact .inl (List.drop_eq_nil_of_le all)
    · exact .inr rfl
  have names := length_dirText_names_of_slash still
  have dirs := length_dirs_le path
  rw [utilGetCanonicalPath_eq, List.length_append, List.length_take]
  rw [List.length_drop] at names
  omega

/-! ## URLs -/

section Url

variable {scheme host : List UInt8} (rest : List UInt8)

theorem protoHostLen_url (named : scheme ≠ []) (plain : colon ∉ scheme) (plain' : slash ∉ host) :
    protoHostLen (scheme ++ ascii "://" ++ (host ++ slash :: rest)) =
      (scheme ++ ascii "://").length + host.length + 1 := by
  have found : findFrom (ascii "://") (scheme ++ ascii "://" ++ (host ++ slash :: rest)) 0 =
      some scheme.length := by
    rw [findFrom, List.drop_zero, show ascii "://" = colon :: [slash, slash] by decide +kernel,
      find_of_notMem plain]
    simp
  obtain ⟨n, length⟩ := Nat.exists_eq_succ_of_ne_zero (List.length_pos_iff.mpr named).ne'
  rw [protoHostLen, found, length]
  dsimp only
  have width : (scheme ++ ascii "://").length = n + 1 + 3 := by
    rw [List.length_append, length]
    rfl
  rw [behindSlash_eq width plain', width]

/-- Protocol and host stay as they are. -/
theorem utilGetCanonicalPath_url (named : scheme ≠ []) (plain : colon ∉ scheme)
    (plain' : slash ∉ host) :
    utilGetCanonicalPath (scheme ++ ascii "://" ++ (host ++ slash :: rest)) =
      scheme ++ ascii "://" ++ (host ++ slash :: dirText (resolve [] (names rest))) := by
  have split : scheme ++ ascii "://" ++ (host ++ slash :: rest) =
      (scheme ++ ascii "://" ++ (host ++ [slash])) ++ rest := by simp
  have width : (scheme ++ ascii "://" ++ (host ++ [slash])).length =
      (scheme ++ ascii "://").length + host.length + 1 := by
    simp only [List.length_append, List.length_singleton, Nat.add_assoc]
  rw [utilGetCanonicalPath_eq, dirs, protoHostLen_url rest named plain plain', split, ← width,
    List.take_left', List.drop_left']
  · simp
  · rfl
  · rfl

/-- Without a host in it, a text does not become a URL. -/
theorem utilGetCanonicalPath_ne_url {text : List UInt8}
    (no_host : ∀ a b, text ≠ a ++ ascii "://" ++ b)
    (named : scheme ≠ []) : utilGetCanonicalPath text ≠ scheme ++ ascii "://" ++ rest := by
  have absent : findFrom (ascii "://") text 0 = none := by
    rw [findFrom, Option.map_eq_none_iff, List.drop_zero, Option.eq_none_iff_forall_ne_some]
    exact fun found some => no_host _ _ (eq_append_of_find some)
  have url : scheme ++ ascii "://" ++ rest = (scheme ++ [colon]) ++ slash :: slash :: rest := by
    rw [show ascii "://" = [colon, slash, slash] by decide +kernel]
    simp
  obtain ⟨front, inside⟩ := dirText_ne (dirs_plain text)
  rw [utilGetCanonicalPath_eq, protoHostLen, absent, url]
  intro same
  rcases take_behindSlash text 2 with zero | ⟨middle, kept, no_slash⟩
  · rw [zero, List.take_zero, List.nil_append] at same
    exact inside _ _ same
  · rw [kept, List.append_assoc, List.singleton_append] at same
    rcases List.append_eq_append_iff.mp same with ⟨more, split, behind⟩ | ⟨more, split, behind⟩
    · cases more with
      | nil => exact front _ (List.cons.inj behind).2
      | cons c more => exact inside more _ (List.cons.inj behind).2
    · cases more with
      | nil => exact front _ (List.cons.inj behind).2.symm
      | cons c more =>
          -- The slash behind the scheme would have been found as the first one.
          obtain ⟨rfl, -⟩ := List.cons.inj behind
          have two : 2 ≤ (scheme ++ [colon]).length := by
            have := List.length_pos_iff.mpr named
            rw [List.length_append, List.length_singleton]
            omega
          have mem : slash ∈ (text.take 2 ++ middle).drop 2 := by
            rw [split, List.drop_append_of_le_length two]
            simp
          rw [List.drop_append, List.drop_eq_nil_of_le (by simp), List.nil_append] at mem
          exact no_slash (List.mem_of_mem_drop mem)

end Url

end FujiNet.Utils
