import Mathlib.Data.List.TakeWhile
import FujiNet.Control.Machine
import FujiNet.Utils.CanonicalPath

/-!
# The prefix of the N: device

`sio_set_prefix` takes a frame with a way to go and `sio_get_prefix` answers with what the prefix has
become. What C++ leaves undefined on the way is an error here.
-/

namespace FujiNet.Device

open Posix Utils

/-- What is undefined: a text that does not end in its frame, the last byte of an empty string, the
last element of an empty list, a length that does not fit an `int`, a byte outside a frame. -/
inductive Undefined
  | unterminated | emptyPrefix | noLocation | length | outside
deriving DecidableEq, Repr

/-- The frames of both commands have 256 bytes. -/
abbrev PrefixFrame := { bytes : List UInt8 // bytes.length = 256 }

/-- `util_devicespec_fix_9b`. -/
def utilDevicespecFix9b (buf : List UInt8) : List UInt8 := buf.map fun c => if c = 0x9B then 0 else c

/-- The text in a frame, behind the unit if there is one. -/
def prefixSpec (frame : PrefixFrame) : Except Undefined (List UInt8) :=
  let spec := utilDevicespecFix9b frame.val
  if 0 ∈ spec then
    let str := spec.takeWhile (· ≠ 0)
    match find [colon] str with
    | some (_, behind) => .ok behind
    | none => .ok str
  else .error .unterminated

/-- The positions of the slashes. -/
def pathLocations : Nat → List UInt8 → List Nat
  | _, [] => []
  | i, c :: rest => if c = slash then i :: pathLocations (i + 1) rest else pathLocations (i + 1) rest

/-- A length that the positions, which are of type `int`, can have. -/
def FitsInt (path : List UInt8) : Prop := path.length < 2 ^ 31

instance (path : List UInt8) : Decidable (FitsInt path) := inferInstanceAs (Decidable (_ < _))

/-- The parent directory. -/
def devance (path : List UInt8) : Except Undefined (List UInt8) :=
  if FitsInt path then
    match path.getLast? with
    | none => .error .emptyPrefix
    | some last =>
      let locations :=
        if last = slash then (pathLocations 0 path).dropLast else pathLocations 0 path
      match locations.getLast? with
      | none => .error .noLocation
      | some back => .ok (path.take (back + 1))
  else .error .length

/-- `++pos`; `npos` wraps around. -/
def nextPos : Option Nat → Nat
  | none => 0
  | some pos => pos + 1

/-- Back to the hostname. -/
def toHostname (path : List UInt8) : List UInt8 :=
  let pos := findFrom [slash] path 0
  let path := if pos = none then [] else path
  let pos := findFrom [slash] path (nextPos pos)
  let path := if pos = none then [] else path
  let pos := findFrom [slash] path (nextPos pos)
  let path := if pos = none then path ++ [slash] else path
  match findFrom [slash] path (nextPos pos) with
  | none => path
  | some pos => path.take pos

/-- The branches of `sio_set_prefix`. -/
def changed (spec path : List UInt8) : Except Undefined (List UInt8) :=
  if spec = [] then .ok []
  else if spec = ascii ".." ∨ spec = ascii "<" then devance path
  else if spec = ascii "/" ∨ spec = ascii ">" then .ok (toHostname path)
  else if spec.head? = some slash then .ok spec
  else if colon ∈ spec then .ok spec
  else .ok (path ++ spec)

/-- `util_get_canonical_path`, with its `int len_prefix`. -/
def canonical (path : List UInt8) : Except Undefined (List UInt8) :=
  if FitsInt path then .ok (utilGetCanonicalPath path) else .error .length

/-- `sio_set_prefix`: the prefix afterwards. -/
def sioSetPrefix (frame : PrefixFrame) (path : List UInt8) : Except Undefined (List UInt8) := do
  let spec ← prefixSpec frame
  let path ← changed spec path
  canonical path

/-- `sio_get_prefix`: the frame that is sent. -/
def sioGetPrefix (path : List UInt8) : Except Undefined (List UInt8) :=
  if path.length ≤ 256 then
    let prefixSpec := path ++ List.replicate (256 - path.length) 0
    if path.length < 256 then .ok (prefixSpec.set path.length 0x9B) else .error .outside
  else .error .outside

/-- A text with the end of its line, as the computer sends it. -/
def lineFrame (text : List UInt8) (short : text.length < 256) : PrefixFrame :=
  ⟨text ++ 0x9B :: List.replicate (255 - text.length) 0, by
    rw [List.length_append, List.length_cons, List.length_replicate]
    omega⟩

/-! ## The positions of slashes -/

section Positions

variable {front n path : List UInt8}

theorem pathLocations_append (i : Nat) (front path : List UInt8) :
    pathLocations i (front ++ path) = pathLocations i front ++ pathLocations (i + front.length) path := by
  induction front generalizing i with
  | nil => rfl
  | cons c front ih =>
      have next : i + 1 + front.length = i + (front.length + 1) := by omega
      rw [List.cons_append, pathLocations, pathLocations, ih, List.length_cons, next]
      split_ifs <;> rfl

theorem pathLocations_of_notMem {i : Nat} (absent : slash ∉ n) : pathLocations i n = [] := by
  induction n generalizing i with
  | nil => rfl
  | cons c n ih =>
      obtain ⟨here, later⟩ := not_or.mp (List.mem_cons.not.mp absent)
      rw [pathLocations, if_neg (Ne.symm here), ih later]

theorem length_pathLocations (i : Nat) (path : List UInt8) :
    (pathLocations i path).length = path.count slash := by
  induction path generalizing i with
  | nil => rfl
  | cons c path ih =>
      rw [pathLocations, List.count_cons]
      split_ifs with here <;> simp_all

theorem getElem?_of_mem_pathLocations {i loc : Nat} (mem : loc ∈ pathLocations i path) :
    i ≤ loc ∧ path[loc - i]? = some slash := by
  induction path generalizing i with
  | nil => exact absurd mem List.not_mem_nil
  | cons c path ih =>
      have later : loc ∈ pathLocations (i + 1) path →
          i ≤ loc ∧ (c :: path)[loc - i]? = some slash := by
        intro mem
        obtain ⟨le, found⟩ := ih mem
        refine ⟨by omega, ?_⟩
        rw [show loc - i = loc - (i + 1) + 1 by omega, List.getElem?_cons_succ]
        exact found
      rw [pathLocations] at mem
      split_ifs at mem with here
      · rcases List.mem_cons.mp mem with rfl | mem
        · exact ⟨Nat.le_refl _, by simp [here]⟩
        · exact later mem
      · exact later mem

/-- The last name is taken off. -/
theorem devance_name (plain : slash ∉ n) (fits : FitsInt (front ++ slash :: (n ++ [slash]))) :
    devance (front ++ slash :: (n ++ [slash])) = .ok (front ++ [slash]) := by
  have last : (front ++ slash :: (n ++ [slash])).getLast? = some slash := by
    rw [← List.cons_append, ← List.append_assoc, List.getLast?_concat]
  have locations : (pathLocations 0 (front ++ slash :: (n ++ [slash]))).dropLast =
      pathLocations 0 front ++ [front.length] := by
    rw [pathLocations_append, pathLocations, if_pos rfl, pathLocations_append,
      pathLocations_of_notMem plain, Nat.zero_add, List.nil_append]
    simp [pathLocations]
  rw [devance, if_pos fits, last]
  dsimp only
  rw [if_pos rfl, locations, List.getLast?_concat]
  dsimp only
  rw [List.append_cons, List.take_left' (by simp)]

/-- There is a parent if a slash is left without the last one; it ends with a slash. -/
theorem devance_spec (ends : path = [] ∨ path.getLast? = some slash) (fits : FitsInt path) :
    if 2 ≤ path.count slash then
      ∃ parent, devance path = .ok parent ∧ parent.length ≤ path.length ∧
        parent.getLast? = some slash
    else ∃ e, devance path = .error e := by
  rw [devance, if_pos fits]
  rcases ends with rfl | ends
  · exact ⟨.emptyPrefix, rfl⟩
  rw [ends]
  dsimp only
  rw [if_pos rfl, ← length_pathLocations 0 path]
  have width : (pathLocations 0 path).dropLast.length = (pathLocations 0 path).length - 1 :=
    List.length_dropLast
  cases found : (pathLocations 0 path).dropLast.getLast? with
  | none =>
      rw [List.getLast?_eq_none_iff.mp found, List.length_nil] at width
      rw [if_neg (by omega)]
      exact ⟨.noLocation, rfl⟩
  | some back =>
      have mem := List.mem_of_getLast? found
      obtain ⟨-, here⟩ := getElem?_of_mem_pathLocations (List.mem_of_mem_dropLast mem)
      have pos := List.length_pos_of_mem mem
      rw [if_pos (by omega)]
      refine ⟨_, rfl, by simp, ?_⟩
      rw [List.getLast?_take, if_neg (by omega), Nat.add_sub_cancel]
      rw [Nat.sub_zero] at here
      rw [here]
      rfl

theorem findFrom_nil (pos : Nat) : findFrom [slash] [] pos = none := by
  rw [findFrom, List.drop_nil]
  rfl

theorem findFrom_lt {pos at' : Nat} (found : findFrom [slash] path pos = some at') :
    at' < path.length := by
  obtain ⟨le, middle, split, length, -⟩ := findFrom_slash_eq_some found
  have whole := congrArg List.length split
  rw [List.length_drop, List.length_append, List.length_cons] at whole
  omega

theorem takeWhile_slash (plain : slash ∉ n) :
    (n ++ slash :: path).takeWhile (· ≠ slash) = n := by
  rw [List.takeWhile_append_of_pos, List.takeWhile_cons_of_neg (by simp), List.append_nil]
  intro c mem
  exact decide_eq_true fun same => plain (same ▸ mem)

/-- Behind three slashes what is up to the next one is kept. -/
theorem toHostname_three {a b c rest : List UInt8} (no_a : slash ∉ a) (no_b : slash ∉ b)
    (no_c : slash ∉ c) : toHostname (a ++ slash :: (b ++ slash :: (c ++ slash :: rest))) =
      a ++ slash :: (b ++ slash :: (c ++ slash :: rest.takeWhile (· ≠ slash))) := by
  generalize whole : a ++ slash :: (b ++ slash :: (c ++ slash :: rest)) = path
  have split : path = (a ++ [slash]) ++ (b ++ slash :: (c ++ slash :: rest)) := by simp [← whole]
  have split' : path = (a ++ slash :: (b ++ [slash])) ++ (c ++ slash :: rest) := by simp [← whole]
  have split'' : path = (a ++ slash :: (b ++ slash :: (c ++ [slash]))) ++ rest := by simp [← whole]
  have first : findFrom [slash] path 0 = some a.length := by
    rw [← whole]
    exact (@findFrom_slash [] _ _ 0 rfl no_a).trans (by rw [Nat.zero_add])
  have second : findFrom [slash] path (a.length + 1) = some (a.length + 1 + b.length) := by
    rw [split]
    exact findFrom_slash (by simp) no_b
  have third : findFrom [slash] path (a.length + 1 + b.length + 1) =
      some (a.length + 1 + b.length + 1 + c.length) := by
    rw [split']
    exact findFrom_slash (by simp; omega) no_c
  have width : (a ++ slash :: (b ++ slash :: (c ++ [slash]))).length =
      a.length + 1 + b.length + 1 + c.length + 1 := by
    simp
    omega
  simp only [toHostname, first, nextPos, second, third, reduceCtorEq, if_false]
  cases found : find [slash] rest with
  | none =>
      have absent := find_eq_none_iff.mp found
      rw [split'', findFrom_slash_none (by rwa [List.drop_left' width])]
      dsimp only
      have all : rest.takeWhile (· ≠ slash) = rest := by
        refine List.takeWhile_eq_self_iff.mpr fun d mem => ?_
        exact decide_eq_true fun same => absent (same ▸ mem)
      rw [all]
      simp
  | some pair =>
      obtain ⟨n, more⟩ := pair
      obtain ⟨rfl, plain⟩ := find_eq_some_iff.mp found
      rw [split'', findFrom_slash width plain, takeWhile_slash plain]
      dsimp only
      rw [← width, ← List.append_assoc, ← List.length_append, List.take_left' rfl]
      simp

/-- Back to the hostname is back to nothing, to the same prefix or to a shorter one. -/
theorem toHostname_cases (path : List UInt8) :
    toHostname path = [] ∨ toHostname path = path ∨ (toHostname path).length < path.length := by
  have cleared : findFrom [slash] [slash] 0 = some 0 := rfl
  have shorter : ∀ {str : List UInt8} {pos : Nat}, pos < path.length →
      (str.take pos).length < path.length := fun lt =>
    Nat.lt_of_le_of_lt (List.length_take_le _ _) lt
  rw [toHostname]
  cases first : findFrom [slash] path 0 with
  | none => simp [findFrom_nil, nextPos, cleared]
  | some p₁ =>
  cases second : findFrom [slash] path (p₁ + 1) with
  | none => simp [findFrom_nil, nextPos, cleared, second]
  | some p₂ =>
  cases third : findFrom [slash] path (p₂ + 1) with
  | none =>
      -- The search starts again at the front, and the first slash is found.
      obtain ⟨-, middle, split, length, absent⟩ := findFrom_slash_eq_some first
      have again : findFrom [slash] (path ++ [slash]) 0 = some p₁ := by
        rw [List.drop_zero] at split
        rw [split, List.append_assoc]
        refine (@findFrom_slash [] _ _ 0 rfl absent).trans ?_
        rw [length, Nat.sub_zero, Nat.zero_add]
      refine .inr (.inr ?_)
      simp only [nextPos, second, third, reduceCtorEq, if_false, if_true, again]
      exact shorter (findFrom_lt first)
  | some p₃ =>
      simp only [nextPos, second, third, reduceCtorEq, if_false]
      cases fourth : findFrom [slash] path (p₃ + 1) with
      | none => exact .inr (.inl rfl)
      | some p₄ => exact .inr (.inr (shorter (findFrom_lt fourth)))

end Positions

/-! ## The prefix and its reply -/

/-- The prefix is set, has at most 255 bytes and can be asked for. -/
def FitsReply (frame : PrefixFrame) (path : List UInt8) : Prop :=
  ∃ path', sioSetPrefix frame path = .ok path' ∧ path'.length ≤ 255 ∧
    ∃ reply, sioGetPrefix path' = .ok reply ∧ reply.length = 256

/-- What `sio_set_prefix` can do with a text: there is a parent to go to, and what is to become the
prefix is not too long when its dots are resolved. -/
def Fitting (spec path : List UInt8) : Prop :=
  if spec = [] then True
  else if spec = ascii ".." ∨ spec = ascii "<" then 2 ≤ path.count slash
  else if spec = ascii "/" ∨ spec = ascii ">" then True
  else if spec.head? = some slash ∨ colon ∈ spec then canonicalLength spec ≤ 255
  else canonicalLength (path ++ spec) ≤ 255

/-- The text ends in its frame, and it can be done. -/
def FittingFrame (frame : PrefixFrame) (path : List UInt8) : Prop :=
  ∃ spec, prefixSpec frame = .ok spec ∧ Fitting spec path

/-- What the device holds while all frames are fitting. -/
structure Held (path : List UInt8) : Prop where
  short : path.length ≤ 255
  ends : path = [] ∨ path.getLast? = some slash

section Reply

variable {frame : PrefixFrame} {spec path path' : List UInt8}

/-- `sio_get_prefix` stays in its frame exactly if the prefix leaves a byte for the end of the line. -/
theorem sioGetPrefix_iff :
    (∃ reply, sioGetPrefix path = .ok reply ∧ reply.length = 256) ↔ path.length ≤ 255 := by
  rw [sioGetPrefix]
  by_cases short : path.length ≤ 255
  · rw [if_pos (by omega)]
    dsimp only
    rw [if_pos (by omega)]
    refine iff_of_true ⟨_, rfl, ?_⟩ short
    rw [List.length_set, List.length_append, List.length_replicate]
    omega
  · refine iff_of_false ?_ short
    rintro ⟨reply, sent, -⟩
    split_ifs at sent with copied last
    · omega

theorem length_prefixSpec (h : prefixSpec frame = .ok spec) : spec.length ≤ 256 := by
  have whole : (utilDevicespecFix9b frame.val).length = 256 := by
    rw [utilDevicespecFix9b, List.length_map, frame.property]
  have str : ((utilDevicespecFix9b frame.val).takeWhile (· ≠ 0)).length ≤ 256 :=
    Nat.le_trans (List.takeWhile_sublist _).length_le whole.le
  rw [prefixSpec] at h
  split_ifs at h
  dsimp only at h
  split at h
  · rename_i found
    obtain ⟨split, -⟩ := find_eq_some_iff.mp found
    rw [Except.ok.inj h] at split
    rw [split, List.length_append, List.length_cons] at str
    omega
  · exact Except.ok.inj h ▸ str

/-- What a frame with a text does. -/
theorem sioSetPrefix_eq (text : prefixSpec frame = .ok spec) :
    sioSetPrefix frame path = (changed spec path).bind canonical := by
  rw [sioSetPrefix, text]
  rfl

/-- The prefix is set to the canonical form of something that fits an `int`. -/
theorem sioSetPrefix_eq_ok_iff (text : prefixSpec frame = .ok spec) :
    sioSetPrefix frame path = .ok path' ↔
      ∃ next, changed spec path = .ok next ∧ FitsInt next ∧ utilGetCanonicalPath next = path' := by
  rw [sioSetPrefix_eq text]
  cases changed spec path with
  | error e => exact iff_of_false (fun set => nomatch set) fun ⟨_, made, _⟩ => nomatch made
  | ok next =>
      change canonical next = _ ↔ _
      rw [canonical]
      constructor
      · intro set
        split_ifs at set with fits
        exact ⟨next, rfl, fits, Except.ok.inj set⟩
      · rintro ⟨next', same, fits, rfl⟩
        obtain rfl : next = next' := Except.ok.inj same
        exact if_pos fits

/-- The prefix fits if the text that is made canonical does. -/
theorem fitsReply_iff (text : prefixSpec frame = .ok spec) : FitsReply frame path ↔
    ∃ next, changed spec path = .ok next ∧ FitsInt next ∧ canonicalLength next ≤ 255 := by
  rw [FitsReply]
  constructor
  · rintro ⟨path', set, short, -⟩
    obtain ⟨next, made, fits, rfl⟩ := (sioSetPrefix_eq_ok_iff text).mp set
    rw [length_utilGetCanonicalPath] at short
    exact ⟨next, made, fits, short⟩
  · rintro ⟨next, made, fits, short⟩
    rw [← length_utilGetCanonicalPath] at short
    refine ⟨utilGetCanonicalPath next, ?_, short, sioGetPrefix_iff.mpr short⟩
    exact (sioSetPrefix_eq_ok_iff text).mpr ⟨next, made, fits, rfl⟩

theorem fitsInt_of_le {n : Nat} (le : path.length ≤ n) (small : n < 2 ^ 31) : FitsInt path :=
  Nat.lt_of_le_of_lt le small

/-- A text that can be gone to, whatever the length of what becomes the prefix: there is a slash to
go back to, and the positions fit an `int`. -/
def Settable (spec path : List UInt8) : Prop :=
  if spec = [] then True
  else if spec = ascii ".." ∨ spec = ascii "<" then
    FitsInt path ∧ if path.getLast? = some slash then 2 ≤ path.count slash else 1 ≤ path.count slash
  else if spec = ascii "/" ∨ spec = ascii ">" then FitsInt (toHostname path)
  else if spec.head? = some slash ∨ colon ∈ spec then True
  else FitsInt (path ++ spec)

/-- The text ends in its frame and can be gone to. -/
def SettableFrame (frame : PrefixFrame) (path : List UInt8) : Prop :=
  ∃ spec, prefixSpec frame = .ok spec ∧ Settable spec path

/-- There is a parent directory if there is a slash to go back to. -/
theorem devance_ok_iff : (∃ next, devance path = .ok next ∧ FitsInt next) ↔
    FitsInt path ∧
      if path.getLast? = some slash then 2 ≤ path.count slash else 1 ≤ path.count slash := by
  rw [devance]
  by_cases fits : FitsInt path
  · rw [if_pos fits, and_iff_right fits]
    cases last : path.getLast? with
    | none =>
        rw [List.getLast?_eq_none_iff] at last
        subst last
        exact iff_of_false (by rintro ⟨_, ⟨⟩, _⟩) (by simp)
    | some c =>
        simp only [Option.some.injEq]
        have count := length_pathLocations 0 path
        generalize pathLocations 0 path = locations at count
        have enough : (if c = slash then locations.dropLast else locations) ≠ [] ↔
            if c = slash then 2 ≤ path.count slash else 1 ≤ path.count slash := by
          rw [← List.length_pos_iff]
          split_ifs
          · rw [List.length_dropLast]
            omega
          · omega
        rw [← enough]
        generalize (if c = slash then locations.dropLast else locations) = rest
        cases back : rest.getLast? with
        | none =>
            rw [List.getLast?_eq_none_iff] at back
            exact iff_of_false (by rintro ⟨_, ⟨⟩, _⟩) (fun some => some back)
        | some back =>
            refine iff_of_true ⟨_, rfl, ?_⟩ fun empty => by simp [empty] at *
            exact Nat.lt_of_le_of_lt (List.length_take_le' _ _) fits
  · rw [if_neg fits]
    exact iff_of_false (by rintro ⟨_, ⟨⟩, _⟩) (fun all => fits all.1)

/-- The prefix is set exactly if the text ends in its frame and can be gone to. -/
theorem sioSetPrefix_ok_iff :
    (∃ path', sioSetPrefix frame path = .ok path') ↔ SettableFrame frame path := by
  cases text : prefixSpec frame with
  | error e =>
      refine iff_of_false ?_ ?_
      · rintro ⟨path', set⟩
        rw [sioSetPrefix, text] at set
        exact absurd set (by rintro ⟨⟩)
      · rintro ⟨spec, read, -⟩
        exact absurd (text.symm.trans read) (by rintro ⟨⟩)
  | ok spec =>
      have set : (∃ path', sioSetPrefix frame path = .ok path') ↔
          ∃ next, changed spec path = .ok next ∧ FitsInt next := by
        simp only [sioSetPrefix_eq_ok_iff text]
        constructor
        · rintro ⟨_, next, made, fits, -⟩
          exact ⟨next, made, fits⟩
        · rintro ⟨next, made, fits⟩
          exact ⟨_, next, made, fits, rfl⟩
      have whole : SettableFrame frame path ↔ Settable spec path := by
        refine ⟨?_, fun settable => ⟨spec, text, settable⟩⟩
        rintro ⟨spec', read, settable⟩
        obtain rfl : spec = spec' := Except.ok.inj (text.symm.trans read)
        exact settable
      have unique : ∀ text : List UInt8, (∃ next, (Except.ok text : Except Undefined _) = .ok next ∧
          FitsInt next) ↔ FitsInt text :=
        fun text => ⟨by rintro ⟨_, ⟨⟩, fits⟩; exact fits, fun fits => ⟨text, rfl, fits⟩⟩
      have short : FitsInt spec := fitsInt_of_le (length_prefixSpec text) (by decide)
      rw [set, whole, changed, Settable]
      by_cases empty : spec = []
      · rw [if_pos empty, if_pos empty, unique]
        exact iff_true_intro (fitsInt_of_le (Nat.le_refl 0) (by decide))
      rw [if_neg empty, if_neg empty]
      by_cases parent : spec = ascii ".." ∨ spec = ascii "<"
      · rw [if_pos parent, if_pos parent, devance_ok_iff]
      rw [if_neg parent, if_neg parent]
      by_cases root : spec = ascii "/" ∨ spec = ascii ">"
      · rw [if_pos root, if_pos root, unique]
      rw [if_neg root, if_neg root]
      by_cases absolute : spec.head? = some slash
      · rw [if_pos absolute, if_pos (.inl absolute), unique]
        exact iff_true_intro short
      rw [if_neg absolute]
      by_cases scheme : colon ∈ spec
      · rw [if_pos scheme, if_pos (.inr scheme), unique]
        exact iff_true_intro short
      · rw [if_neg scheme, if_neg (not_or.mpr ⟨absolute, scheme⟩), unique]

theorem canonicalLength_le_of_slash (ends : path = [] ∨ path.getLast? = some slash) :
    canonicalLength path ≤ path.length := by
  rw [← length_utilGetCanonicalPath]
  rcases ends with rfl | ends
  · exact Nat.le_refl 0
  · exact length_utilGetCanonicalPath_le_of_slash ends

/-- What was held becomes a prefix that fits exactly if the text is fitting. -/
theorem changed_iff (held : Held path) (length : spec.length ≤ 256) :
    (∃ next, changed spec path = .ok next ∧ FitsInt next ∧ canonicalLength next ≤ 255) ↔
      Fitting spec path := by
  have ok : ∀ {next : List UInt8}, next.length ≤ 511 →
      ((∃ m, Except.ok next = (Except.ok m : Except Undefined _) ∧ FitsInt m ∧
        canonicalLength m ≤ 255) ↔ canonicalLength next ≤ 255) := by
    intro next le
    constructor
    · rintro ⟨m, same, -, short⟩
      exact Except.ok.inj same ▸ short
    · exact fun short => ⟨next, rfl, fitsInt_of_le le (by decide), short⟩
  have short := held.short
  rw [changed, Fitting]
  by_cases clear : spec = []
  · rw [if_pos clear, if_pos clear, ok (by simp)]
    exact iff_of_true (by decide) trivial
  rw [if_neg clear, if_neg clear]
  by_cases parent : spec = ascii ".." ∨ spec = ascii "<"
  · have spec' := devance_spec held.ends (fitsInt_of_le short (by decide))
    rw [if_pos parent, if_pos parent]
    split_ifs at spec' with two
    · obtain ⟨next, same, le, ends⟩ := spec'
      rw [same, ok (by omega)]
      exact iff_of_true (Nat.le_trans (canonicalLength_le_of_slash (.inr ends)) (by omega)) two
    · obtain ⟨e, same⟩ := spec'
      rw [same]
      exact iff_of_false (fun ⟨_, bad, _⟩ => nomatch bad) two
  rw [if_neg parent, if_neg parent]
  by_cases root : spec = ascii "/" ∨ spec = ascii ">"
  · rw [if_pos root, if_pos root]
    have cases' := toHostname_cases path
    have le : (toHostname path).length ≤ 255 := by
      rcases cases' with none | same | less
      · simp [none]
      · rw [same]
        exact short
      · omega
    rw [ok (by omega)]
    refine iff_of_true ?_ trivial
    rcases cases' with none | same | less
    · rw [none]
      decide
    · rw [same]
      exact Nat.le_trans (canonicalLength_le_of_slash held.ends) short
    · have added := length_utilGetCanonicalPath_le (toHostname path)
      rw [length_utilGetCanonicalPath] at added
      omega
  rw [if_neg root, if_neg root]
  by_cases front : spec.head? = some slash
  · rw [if_pos front, if_pos (.inl front), ok (by omega)]
  rw [if_neg front]
  by_cases url : colon ∈ spec
  · rw [if_pos url, if_pos (.inr url), ok (by omega)]
  · rw [if_neg url, if_neg (not_or.mpr ⟨front, url⟩), ok]
    rw [List.length_append]
    omega

theorem fitsReply_iff_fittingFrame (held : Held path) :
    FitsReply frame path ↔ FittingFrame frame path := by
  cases text : prefixSpec frame with
  | error e =>
      refine iff_of_false ?_ ?_
      · rintro ⟨path', set, -⟩
        rw [sioSetPrefix, text] at set
        exact nomatch set
      · rintro ⟨spec, same, -⟩
        exact nomatch text.symm.trans same
  | ok spec =>
      rw [fitsReply_iff text, changed_iff held (length_prefixSpec text), FittingFrame, text]
      simp

/-- The step keeps what the device holds. -/
theorem Held.step (held : Held path) (fitting : FittingFrame frame path)
    (set : sioSetPrefix frame path = .ok path') : Held path' := by
  obtain ⟨path'', set', short, -⟩ := (fitsReply_iff_fittingFrame held).mpr fitting
  obtain rfl : path'' = path' := Except.ok.inj (set'.symm.trans set)
  obtain ⟨spec, text, -⟩ := fitting
  obtain ⟨next, -, -, rfl⟩ := (sioSetPrefix_eq_ok_iff text).mp set
  exact ⟨short, getLast?_utilGetCanonicalPath next⟩

/-- In every sequence of commands the prefix fits its reply, and nothing undefined is done, exactly if
every frame is fitting when its turn comes. -/
theorem prefix_fits_iff (frames : List PrefixFrame) :
    Machine.Along sioSetPrefix FitsReply frames [] ↔
      Machine.Along sioSetPrefix FittingFrame frames [] := by
  refine Machine.along_congr_of (I := Held) ?_ ?_ ⟨by decide, .inl rfl⟩
  · exact fun frame path path' held fitting set => held.step fitting set
  · exact fun frame path held => fitsReply_iff_fittingFrame held

end Reply

/-- The way to the parent directory when no prefix is set: the last byte of an empty string is read. -/
theorem parent_of_no_prefix :
    ¬ Machine.Along sioSetPrefix FitsReply [lineFrame (ascii "N:..") (by decide +kernel)] [] := by
  rintro ⟨⟨path', set, -⟩, -⟩
  have crash : sioSetPrefix (lineFrame (ascii "N:..") (by decide +kernel)) [] = .error .emptyPrefix := by
    decide +kernel
  exact nomatch crash.symm.trans set

end FujiNet.Device
