import FujiNet.Utils.ConcatPaths

/-!
# The prefix of a host slot

`set_prefix` joins an argument to the prefix of a host, and `filehandler_open` joins the prefix to a
path and stores the name that it opens in the caller's buffer. Both leave it to `util_concat_paths`
to find out that a join does not fit.
-/

namespace FujiNet.Fuji

open Utils

def MAX_HOST_PREFIX_LEN : Nat := 256
def MAX_PATHLEN : Nat := 1024

/-- The text in `_prefix`. -/
abbrev HostPrefix := { text : List UInt8 // text.length < MAX_HOST_PREFIX_LEN }

/-- `set_prefix`: the text that `_prefix` holds then. -/
def setPrefix (current : HostPrefix) (arg : Option (List UInt8)) : List UInt8 :=
  if arg.getD [] = [] then []
  else if (arg.getD []).head?.any fun c => isSlash c then
    (strlcpy (arg.getD []) MAX_HOST_PREFIX_LEN).1.getD []
  else
    (utilConcatPaths (some current.val) (some current.val) arg MAX_HOST_PREFIX_LEN).2.getD []

/-- The update that is meant: all of the argument, all of the join, or nothing. -/
def prefixMeant (current : HostPrefix) (arg : Option (List UInt8)) : List UInt8 :=
  if arg.getD [] = [] then []
  else if (arg.getD []).head?.any fun c => isSlash c then arg.getD []
  else
    let path := (joined (some current.val) arg).getD []
    if path.length < MAX_HOST_PREFIX_LEN then path else current.val

/-- The argument or the join fits, or there is no room behind the current prefix and the join does
not fit. -/
def UpdateFits (current : HostPrefix) (arg : Option (List UInt8)) : Prop :=
  if arg.getD [] = [] then True
  else if (arg.getD []).head?.any fun c => isSlash c then (arg.getD []).length < MAX_HOST_PREFIX_LEN
  else if current.val = [] then (arg.getD []).length < MAX_HOST_PREFIX_LEN
  else if current.val.length + 3 < MAX_HOST_PREFIX_LEN then
    ((joined (some current.val) arg).getD []).length < MAX_HOST_PREFIX_LEN
  else MAX_HOST_PREFIX_LEN ≤ ((joined (some current.val) arg).getD []).length

/-- `filehandler_open` with a buffer of `fullpathlen` bytes, in which the path may be. It returns null,
or it asks the file system for the name that is then in the buffer. -/
def filehandlerOpen (mounted : Bool) (pfx path : List UInt8) (fullpathlen : Nat) :
    Option (Option (List UInt8)) :=
  if mounted = false then none
  else
    let realpathlen := if fullpathlen > 0 then fullpathlen else MAX_PATHLEN
    let realpath := utilConcatPaths none (some pfx) (some path) realpathlen
    if realpath.1 = false then none
    else
      let copied := strlcpy (realpath.2.getD []) fullpathlen
      if copied.2 ≠ (realpath.2.getD []).length then none else some copied.1

/-- What is opened has the name of the join; it is stored, and leads to the same file when it is opened
again. -/
def OpensExactly (mounted : Bool) (pfx path : List UInt8) (fullpathlen : Nat) : Prop :=
  ∀ name, filehandlerOpen mounted pfx path fullpathlen = some name →
    ∃ full, joined (some pfx) (some path) = some full ∧ name = some full ∧
      filehandlerOpen mounted pfx full fullpathlen = some (some full)

/-- If there is room behind the prefix, then the join fits, and the prefix does nothing to it; or the
join fills the buffer, and is what the buffer has room for when it gets the prefix again. -/
def OpenFits (mounted : Bool) (pfx path : List UInt8) (fullpathlen : Nat) : Prop :=
  mounted = true →
    (pfx = [] ∨ pfx.length + 3 < if fullpathlen > 0 then fullpathlen else MAX_PATHLEN) →
      let full := (joined (some pfx) (some path)).getD []
      full.length < fullpathlen ∧
        ((pfx = [] ∨ ∃ c, isSlash c ∧ pfx = [c]) ∨
          full.length + 1 = fullpathlen ∧ full <+: withSeparator pfx ++ skipSlash full)

section Prefix

variable {current : HostPrefix} {arg : Option (List UInt8)}

theorem strlcpy_getD (src : List UInt8) {size : Nat} (pos : 0 < size) :
    (strlcpy src size).1.getD [] = src.take (size - 1) := by
  rw [strlcpy]
  dsimp only
  rw [if_neg (Nat.ne_of_gt pos)]
  rfl

theorem strlcpy_getD_eq_iff {src : List UInt8} {size : Nat} (pos : 0 < size) :
    (strlcpy src size).1.getD [] = src ↔ src.length < size := by
  rw [strlcpy_getD src pos, List.take_eq_self_iff]
  omega

theorem length_skipSlash (child : List UInt8) : child.length ≤ (skipSlash child).length + 1 := by
  cases child with
  | nil => exact Nat.zero_le _
  | cons c rest =>
      rw [skipSlash]
      split_ifs <;> simp

/-- An argument without a slash in front makes the join longer than the prefix. -/
theorem length_lt_joined {parent child : List UInt8} (some' : child ≠ [])
    (relative : ¬ (child.head?.any fun c => isSlash c)) (named : parent ≠ []) :
    ∃ path, joined (some parent) (some child) = some path ∧ parent.length < path.length := by
  obtain ⟨c, rest, rfl⟩ := List.exists_cons_of_ne_nil some'
  have plain : ¬ isSlash c := by simpa using relative
  refine ⟨withSeparator parent ++ c :: rest, ?_, ?_⟩
  · rw [joined]
    simp [named, skipSlash, plain]
  · have := (length_withSeparator parent).1
    rw [List.length_append, List.length_cons]
    omega

/-- The update is all or nothing exactly if it fits. -/
theorem setPrefix_iff (current : HostPrefix) (arg : Option (List UInt8)) :
    setPrefix current arg = prefixMeant current arg ↔ UpdateFits current arg := by
  rw [setPrefix, prefixMeant, UpdateFits]
  by_cases clear : arg.getD [] = []
  · rw [if_pos clear, if_pos clear, if_pos clear]
    exact iff_of_true rfl trivial
  rw [if_neg clear, if_neg clear, if_neg clear]
  by_cases absolute : ((arg.getD []).head?.any fun c => isSlash c) = true
  · rw [if_pos absolute, if_pos absolute, if_pos absolute]
    exact strlcpy_getD_eq_iff (by decide)
  rw [if_neg absolute, if_neg absolute, if_neg absolute]
  obtain ⟨child, rfl⟩ : ∃ child, arg = some child := by
    cases arg with
    | none => exact absurd rfl clear
    | some child => exact ⟨child, rfl⟩
  rw [Option.getD_some] at clear absolute ⊢
  rcases utilConcatPaths_cases (some current.val) (some current.val) (some child)
    MAX_HOST_PREFIX_LEN with ⟨-, absent, -⟩ | ⟨path, join, same⟩
  · exact nomatch absent
  have short := current.property
  rw [join, Option.getD_some]
  rw [Option.getD_some] at same
  dsimp only
  by_cases room : current.val = [] ∨ current.val.length + 3 < MAX_HOST_PREFIX_LEN
  · have condition : (if current.val = [] then child.length < MAX_HOST_PREFIX_LEN
        else if current.val.length + 3 < MAX_HOST_PREFIX_LEN then path.length < MAX_HOST_PREFIX_LEN
        else MAX_HOST_PREFIX_LEN ≤ path.length) ↔ path.length < MAX_HOST_PREFIX_LEN := by
      split_ifs with top behind
      · rw [joined, Option.getD_some, if_pos top] at join
        rw [Option.some.inj join]
      · exact Iff.rfl
      · exact absurd room (not_or.mpr ⟨top, behind⟩)
    rw [condition]
    rw [if_pos room] at same
    rw [same]
    split_ifs with fits
    · exact iff_of_true ((strlcpy_getD_eq_iff (by decide)).mpr fits) fits
    · refine iff_of_false (fun cut => ?_) fits
      have length := congrArg List.length cut
      rw [strlcpy_getD path (by decide), List.length_take] at length
      have longer : MAX_HOST_PREFIX_LEN ≤ path.length := Nat.not_lt.mp fits
      simp only [MAX_HOST_PREFIX_LEN] at room longer length
      rcases room with top | behind
      · rw [top, List.length_nil] at length
        omega
      · omega
  · obtain ⟨named, full⟩ := not_or.mp room
    rw [if_neg room] at same
    rw [same, if_neg named, if_neg full]
    have kept : (strlcpy current.val MAX_HOST_PREFIX_LEN).1.getD [] = current.val :=
      (strlcpy_getD_eq_iff (by decide)).mpr short
    rw [kept]
    split_ifs with fits
    · obtain ⟨path', join', longer⟩ := length_lt_joined clear absolute named
      obtain rfl : path = path' := Option.some.inj (join.symm.trans join')
      refine iff_of_false (fun same => ?_) (Nat.not_le.mpr fits)
      exact absurd (congrArg List.length same) (Nat.ne_of_lt longer)
    · exact iff_of_true rfl (Nat.not_lt.mp fits)

/-- The update of a prefix is all or nothing, and a join of any two texts tells whether it is complete,
exactly as far as they fit. -/
theorem prefix_update_iff (current : HostPrefix) (arg dest parent child : Option (List UInt8))
    (destSize : Nat) :
    (setPrefix current arg = prefixMeant current arg ↔ UpdateFits current arg) ∧
      (TellsComplete dest parent child destSize ↔ ConcatFits parent child destSize) :=
  ⟨setPrefix_iff current arg, tellsComplete_iff dest parent child destSize⟩

/-- A slash and 255 bytes: the prefix becomes all of the join but its last byte, and the join is said
to be complete. -/
theorem prefix_cut :
    setPrefix ⟨[0x2F], by decide⟩ (some (List.replicate 255 0x61)) ≠
        prefixMeant ⟨[0x2F], by decide⟩ (some (List.replicate 255 0x61)) ∧
      ¬ TellsComplete none (some [0x2F]) (some (List.replicate 255 0x61)) MAX_HOST_PREFIX_LEN := by
  refine ⟨by decide +kernel, fun tells => ?_⟩
  obtain ⟨path, join, held⟩ := tells.mp (by decide +kernel)
  rw [← join] at held
  exact absurd held (by decide +kernel)

theorem exists_joined (parent child : List UInt8) :
    ∃ path, joined (some parent) (some child) = some path := by
  rw [joined]
  split_ifs <;> exact ⟨_, rfl⟩

/-- A prefix with a name, joined to a name that begins with it. -/
theorem joined_named {pfx path full again : List UInt8} (top : pfx ≠ [])
    (join : joined (some pfx) (some path) = some full)
    (join' : joined (some pfx) (some full) = some again) :
    again = withSeparator pfx ++ skipSlash full := by
  have longer : full ≠ [] := by
    have le := length_le_joined join
    have pos := List.length_pos_iff.mpr top
    exact List.length_pos_iff.mp (Nat.lt_of_lt_of_le pos le)
  rw [joined, Option.getD_some, if_neg top, Option.getD_some, if_neg longer] at join'
  exact (Option.some.inj join').symm

/-- What the buffer has room for is the name itself, or begins with it and is cut behind it. -/
theorem take_again_iff {full again : List UInt8} {size : Nat} (fits : full.length < size) :
    again.take (size - 1) = full ↔ again = full ∨ full.length + 1 = size ∧ full <+: again := by
  constructor
  · intro cut
    have length := congrArg List.length cut
    rw [List.length_take] at length
    by_cases whole : again.length ≤ size - 1
    · rw [List.take_of_length_le whole] at cut
      exact .inl cut
    · exact .inr ⟨by omega, cut ▸ List.take_prefix _ _⟩
  · rintro (rfl | ⟨length, pfx⟩)
    · exact List.take_of_length_le (by omega)
    · rw [show size - 1 = full.length by omega]
      exact (List.prefix_iff_eq_take.mp pfx).symm

/-- A prefix of one slash does nothing to a join with it; every other prefix makes it longer. -/
theorem joined_again_iff {pfx path full : List UInt8} (join : joined (some pfx) (some path) = some full) :
    joined (some pfx) (some full) = some full ↔ pfx = [] ∨ ∃ c, isSlash c ∧ pfx = [c] := by
  by_cases top : pfx = []
  · refine iff_of_true ?_ (.inl top)
    rw [joined, Option.getD_some, if_pos top]
  rw [or_iff_right top]
  obtain ⟨again, join'⟩ := exists_joined pfx full
  rw [join', joined_named top join join', Option.some.injEq]
  constructor
  · intro same
    have length := congrArg List.length same
    have skipped := length_skipSlash full
    have grown := (length_withSeparator pfx).1
    rw [List.length_append] at length
    obtain ⟨c, rest, rfl⟩ := List.exists_cons_of_ne_nil top
    have single : rest = [] := by
      rw [List.length_cons] at grown
      exact List.length_eq_zero_iff.mp (by omega)
    subst single
    refine ⟨c, ?_, rfl⟩
    by_contra plain
    have two : (withSeparator [c]).length = 2 := by simp [withSeparator, plain]
    omega
  · rintro ⟨c, separator, rfl⟩
    have front : withSeparator [c] = [c] := by simp [withSeparator, separator]
    have begins : ∃ rest, full = c :: rest := by
      rw [joined] at join
      split_ifs at join with none alone
      · exact absurd none top
      · exact ⟨[], (Option.some.inj join).symm⟩
      · refine ⟨skipSlash path, (Option.some.inj join).symm.trans ?_⟩
        rw [Option.getD_some, front]
        rfl
    obtain ⟨rest, rfl⟩ := begins
    rw [front, skipSlash, if_pos separator]
    rfl

/-- When the file system is asked, and for which name. -/
theorem filehandlerOpen_eq {pfx path full : List UInt8} {fullpathlen : Nat}
    (join : joined (some pfx) (some path) = some full) :
    filehandlerOpen true pfx path fullpathlen =
      if pfx = [] ∨ pfx.length + 3 < if fullpathlen > 0 then fullpathlen else MAX_PATHLEN then
        some (if fullpathlen = 0 then none else some (full.take (fullpathlen - 1)))
      else none := by
  have size : 0 < if fullpathlen > 0 then fullpathlen else MAX_PATHLEN := by
    split_ifs with pos
    · exact pos
    · decide
  rw [filehandlerOpen, if_neg (by simp)]
  dsimp only
  rcases utilConcatPaths_cases none (some pfx) (some path)
    (if fullpathlen > 0 then fullpathlen else MAX_PATHLEN) with ⟨-, absent, -⟩ | ⟨path', join', same⟩
  · exact nomatch absent
  obtain rfl : full = path' := Option.some.inj (join.symm.trans join')
  rw [Option.getD_some] at same
  generalize whole : (if fullpathlen > 0 then fullpathlen else MAX_PATHLEN) = realpathlen at *
  by_cases room : pfx = [] ∨ pfx.length + 3 < realpathlen
  · rw [if_pos room] at same ⊢
    rw [same, if_neg Bool.noConfusion, if_neg (by simp [strlcpy]), strlcpy_getD full size, strlcpy]
    dsimp only
    split_ifs with none
    · rfl
    · rw [if_pos (Nat.pos_of_ne_zero none)] at whole
      rw [whole, List.take_take, Nat.min_self]
  · rw [if_neg room] at same ⊢
    rw [same, if_pos rfl]

/-- The join is opened, now and again, exactly if it fits and the prefix does nothing to it. -/
theorem opensExactly_iff (mounted : Bool) (pfx path : List UInt8) (fullpathlen : Nat) :
    OpensExactly mounted pfx path fullpathlen ↔ OpenFits mounted pfx path fullpathlen := by
  cases mounted with
  | false =>
      refine iff_of_true (fun name opened => ?_) (by rintro ⟨⟩)
      cases opened
  | true =>
      obtain ⟨full, join⟩ := exists_joined pfx path
      rw [OpensExactly, OpenFits, join, Option.getD_some, forall_prop_of_true rfl,
        filehandlerOpen_eq join]
      by_cases room : pfx = [] ∨ pfx.length + 3 < if fullpathlen > 0 then fullpathlen else MAX_PATHLEN
      · rw [if_pos room, forall_prop_of_true room, ← joined_again_iff join]
        simp only [Option.some.injEq, forall_eq', exists_eq_left']
        have name : (if fullpathlen = 0 then none else some (full.take (fullpathlen - 1))) = some full ↔
            full.length < fullpathlen := strlcpy_eq_some_iff full fullpathlen
        rw [name]
        refine and_congr_right fun fits => ?_
        obtain ⟨again, join'⟩ := exists_joined pfx full
        rw [filehandlerOpen_eq join', if_pos room, if_neg (by omega), join', Option.some.injEq,
          Option.some.injEq, Option.some.injEq]
        by_cases top : pfx = []
        · have same : again = full := by
            rw [joined, Option.getD_some, if_pos top] at join'
            exact (Option.some.inj join').symm
          rw [same, List.take_of_length_le (by omega)]
          exact iff_of_true rfl (.inl rfl)
        · rw [← joined_named top join join']
          exact take_again_iff fits
      · rw [if_neg room]
        exact iff_of_true (by rintro _ ⟨⟩) fun room' => absurd room' room

/-- The prefix `/games` and the file `a.atr`: the stored name gets the prefix a second time. -/
theorem prefix_applied_twice :
    ¬ OpensExactly true [0x2F, 0x67, 0x61, 0x6D, 0x65, 0x73] [0x61, 0x2E, 0x61, 0x74, 0x72] 256 := by
  intro opens
  obtain ⟨full, -, stored, again⟩ := opens
    (some [0x2F, 0x67, 0x61, 0x6D, 0x65, 0x73, 0x2F, 0x61, 0x2E, 0x61, 0x74, 0x72]) (by decide +kernel)
  rw [← Option.some.inj stored] at again
  exact absurd again (by decide +kernel)

end Prefix

end FujiNet.Fuji
