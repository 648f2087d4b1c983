import FujiNet.Device.Prefix

/-!
# Navigating with the prefix

A prefix stands for a directory on a host: a scheme, the host and the names below its root. A command
goes to the parent, to the root, along a relative path or to another URL. The device carries commands
out on the text of the prefix, where the parent of the root is the scheme alone, and where the root
is cut off behind the fourth slash and not the third.
-/

namespace FujiNet.Device

open Posix Utils

/-- A directory on a host. -/
structure Location where
  scheme : List UInt8
  host : List UInt8
  path : List (List UInt8)
  scheme_ne_nil : scheme ≠ []
  scheme_no_colon : colon ∉ scheme
  scheme_no_slash : slash ∉ scheme
  host_no_slash : slash ∉ host
  names : ∀ n ∈ path, Name n

/-- A path to append: not empty, without a host, and none of the other commands. -/
structure RelativePath where
  text : List UInt8
  ne_nil : text ≠ []
  no_nul : 0 ∉ text
  relative : text.head? ≠ some slash
  no_host : ∀ a b, text ≠ a ++ ascii "://" ++ b
  not_parent : text ≠ ascii ".." ∧ text ≠ ascii "<"
  not_root : text ≠ ascii ">"

/-- A URL with a path, which can have dots. -/
structure Url where
  scheme : List UInt8
  host : List UInt8
  rest : List UInt8
  scheme_ne_nil : scheme ≠ []
  scheme_no_colon : colon ∉ scheme
  scheme_no_slash : slash ∉ scheme
  host_no_slash : slash ∉ host
  no_nul : 0 ∉ rest

/-- Where a command goes; for the parent and the root there is a second way to write it. -/
inductive Way
  | parent | less | root | greater
  | append (path : RelativePath)
  | url (url : Url)

namespace Way

def text : Way → List UInt8
  | parent => ascii ".."
  | less => ascii "<"
  | root => ascii "/"
  | greater => ascii ">"
  | append p => p.text
  | url u => u.scheme ++ ascii "://" ++ (u.host ++ slash :: u.rest)

end Way

theorem name_of_names {t n : List UInt8} (no_nul : 0 ∉ t) (mem : n ∈ resolve [] (names t)) :
    Name n := by
  rcases mem_resolve mem with none | ⟨given, ne_dotdot, ne_dot⟩
  · exact absurd none List.not_mem_nil
  · obtain ⟨ne_nil, no_slash⟩ := names_plain given
    obtain ⟨piece, -⟩ := List.mem_filter.mp given
    exact ⟨ne_nil, no_slash, fun nul => no_nul (mem_piece piece nul).1, ne_dot, ne_dotdot⟩

namespace Location

variable (l : Location)

/-- The canonical URL. -/
def text : List UInt8 := l.scheme ++ ascii "://" ++ (l.host ++ slash :: dirText l.path)

def parent : Location :=
  { l with
    path := l.path.dropLast
    names := fun n mem => l.names n (List.mem_of_mem_dropLast mem) }

def root : Location :=
  { l with
    path := []
    names := fun _ mem => absurd mem List.not_mem_nil }

/-- The names of the path behind those of the directory, with the dots resolved. -/
def append (path : RelativePath) : Location :=
  { l with
    path := resolve l.path (Posix.names path.text)
    names := by
      intro n mem
      rcases mem_resolve mem with before | ⟨given, ne_dotdot, ne_dot⟩
      · exact l.names n before
      · obtain ⟨ne_nil, no_slash⟩ := names_plain given
        obtain ⟨piece, -⟩ := List.mem_filter.mp given
        exact ⟨ne_nil, no_slash, fun nul => path.no_nul (mem_piece piece nul).1, ne_dot, ne_dotdot⟩ }

end Location

/-- Where a URL leads. -/
def Url.location (url : Url) : Location :=
  { url with
    path := resolve [] (names url.rest)
    names := fun _ mem => name_of_names url.no_nul mem }

/-- Where a command leads. -/
def Location.go (l : Location) : Way → Location
  | .parent => l.parent
  | .less => l.parent
  | .root => l.root
  | .greater => l.root
  | .append path => l.append path
  | .url url => url.location

/-- A frame of the computer that asks for a way. -/
structure Request where
  frame : PrefixFrame
  way : Way
  asks : prefixSpec frame = .ok way.text

/-- What the device does with a request; it answers with the prefix. -/
def follow (request : Request) (path : List UInt8) : Option (List UInt8 × List UInt8) :=
  (sioSetPrefix request.frame path).toOption.map fun path => (path, path)

/-- What the request means. -/
def meaning (request : Request) (l : Location) : List UInt8 × Location :=
  ((l.go request.way).text, l.go request.way)

/-- There is a parent, the root is not left, a path to append has no colon, and what is made canonical
has a length that fits an `int`. -/
def Followed (request : Request) (l : Location) : Prop :=
  match request.way with
  | .parent | .less => l.path ≠ [] ∧ FitsInt l.text
  | .root | .greater => l.path = [] ∧ FitsInt l.text
  | .append path => colon ∉ path.text ∧ FitsInt (l.text ++ path.text)
  | .url _ => True

/-! ## Canonical URLs -/

namespace Location

variable (l : Location)

theorem names_plain : ∀ n ∈ l.path, n ≠ [] ∧ slash ∉ n :=
  fun n mem => ⟨(l.names n mem).ne_nil, (l.names n mem).no_slash⟩

/-- A path behind the URL of a directory is resolved from there. -/
theorem canonical_append (rest : List UInt8) :
    utilGetCanonicalPath (l.text ++ rest) =
      l.scheme ++ ascii "://" ++ (l.host ++ slash :: dirText (resolve l.path (Posix.names rest))) := by
  have split : l.text ++ rest =
      l.scheme ++ ascii "://" ++ (l.host ++ slash :: (dirText l.path ++ rest)) := by
    simp [text]
  rw [split, utilGetCanonicalPath_url _ l.scheme_ne_nil l.scheme_no_colon l.host_no_slash,
    names_dirText_append l.names_plain, resolve_append, resolve_of_names l.names, List.nil_append]

theorem canonical_text : utilGetCanonicalPath l.text = l.text := by
  have whole := l.canonical_append []
  rwa [List.append_nil, Posix.names_nil] at whole

/-- The text with the slashes in it. -/
theorem text_eq : l.text =
    (l.scheme ++ [colon]) ++ slash :: ([] ++ slash :: (l.host ++ slash :: dirText l.path)) := by
  rw [text, show ascii "://" = [colon, slash, slash] by decide +kernel]
  simp

theorem getLast?_text : l.text.getLast? = some slash := by
  rw [text, ← List.append_assoc, List.getLast?_append]
  rcases getLast?_dirText l.path with none | ends
  · rw [none]
    rfl
  · rw [List.getLast?_cons, ends]
    rfl

/-- The text of the parent, and a name with its slash. -/
theorem text_parent (below : l.path ≠ []) :
    ∃ front n, slash ∉ n ∧ l.text = front ++ slash :: (n ++ [slash]) ∧
      l.parent.text = front ++ [slash] := by
  obtain ⟨front, ends⟩ := List.getLast?_eq_some_iff.mp l.parent.getLast?_text
  have last := l.names _ (List.getLast_mem below)
  refine ⟨front, l.path.getLast below, last.no_slash, ?_, ends⟩
  have split : dirText l.path = dirText l.path.dropLast ++ (l.path.getLast below ++ [slash]) := by
    conv_lhs => rw [← List.dropLast_concat_getLast below]
    simp
  have whole : l.text = l.parent.text ++ (l.path.getLast below ++ [slash]) := by
    rw [text, split]
    simp [text, parent]
  rw [whole, ends, List.append_assoc]
  rfl

end Location

/-! ## The commands -/

section Commands

variable {l : Location}

theorem devance_too_long {path : List UInt8} (long : ¬ FitsInt path) :
    devance path = .error .length := if_neg long

/-- Below the root the parent is reached; at the root the host is lost. -/
theorem devance_text_iff :
    (∃ next, devance l.text = .ok next ∧ FitsInt next ∧ utilGetCanonicalPath next = l.parent.text) ↔
      l.path ≠ [] ∧ FitsInt l.text := by
  by_cases fits : FitsInt l.text
  · rw [and_iff_left fits]
    by_cases below : l.path ≠ []
    · obtain ⟨front, n, plain, whole, ends⟩ := l.text_parent below
      refine iff_of_true ⟨l.parent.text, ?_, ?_, l.parent.canonical_text⟩ below
      · rw [whole, devance_name plain (whole ▸ fits), ends]
      · refine fitsInt_of_le ?_ fits
        rw [whole, ends]
        simp
    · rw [ne_eq, not_not] at below
      refine iff_of_false ?_ (not_not_intro below)
      rintro ⟨next, parent, -, same⟩
      have whole : l.text = (l.scheme ++ [colon, slash]) ++ slash :: (l.host ++ [slash]) := by
        rw [l.text_eq, below]
        simp
      rw [whole, devance_name l.host_no_slash (whole ▸ fits)] at parent
      have ends : (l.scheme ++ [colon, slash] ++ [slash]).getLast? = some slash := by
        rw [List.getLast?_concat]
      have le := length_utilGetCanonicalPath_le_of_slash ends
      rw [Except.ok.inj parent, same] at le
      rw [← Except.ok.inj parent, Location.text_eq] at le
      simp only [Location.parent, below, List.dropLast_nil, dirText_nil, List.length_append,
        List.length_cons, List.length_nil] at le
      omega
  · rw [devance_too_long fits]
    exact iff_of_false (fun ⟨_, bad, _⟩ => nomatch bad) fun regular => fits regular.2

/-- The first name below the host is not cut off. -/
theorem toHostname_text : toHostname l.text = l.root.text ++ l.path.headD [] := by
  have whole : l.text = (l.scheme ++ [colon]) ++ slash ::
      ([] ++ slash :: (l.host ++ slash :: dirText l.path)) := l.text_eq
  have plain : slash ∉ l.scheme ++ [colon] := by
    simp [l.scheme_no_slash, show slash ≠ colon by decide]
  rw [whole, toHostname_three plain List.not_mem_nil l.host_no_slash, Location.text_eq]
  have first : (dirText l.path).takeWhile (· ≠ slash) = l.path.headD [] := by
    cases path : l.path with
    | nil => rfl
    | cons n p =>
        have no_slash : slash ∉ n := (l.names n (path ▸ List.mem_cons_self)).no_slash
        rw [dirText_cons, takeWhile_slash no_slash]
        rfl
  rw [first]
  simp [Location.root]

/-- At the root the prefix stays; below it the first name stays with the host. -/
theorem toHostname_text_iff :
    (FitsInt (toHostname l.text) ∧ utilGetCanonicalPath (toHostname l.text) = l.root.text) ↔
      l.path = [] ∧ FitsInt l.text := by
  rw [toHostname_text]
  cases path : l.path with
  | nil =>
      have same : l.root.text = l.text := by simp [Location.text, Location.root, path]
      rw [List.headD_nil, List.append_nil, same, and_iff_left l.canonical_text, and_iff_right rfl]
  | cons n p =>
      have name : Name n := l.names n (path ▸ List.mem_cons_self)
      refine iff_of_false ?_ (fun root => nomatch root.1)
      rintro ⟨-, same⟩
      rw [List.headD_cons, l.root.canonical_append, names_of_no_slash name.ne_nil name.no_slash,
        resolve_of_names (by simpa using name)] at same
      simp [Location.text, Location.root] at same

theorem root_iff : (∃ next, (Except.ok (toHostname l.text) : Except Undefined _) = .ok next ∧
    FitsInt next ∧ utilGetCanonicalPath next = l.root.text) ↔ l.path = [] ∧ FitsInt l.text := by
  rw [← toHostname_text_iff]
  constructor
  · rintro ⟨next, same, becomes⟩
    exact Except.ok.inj same ▸ becomes
  · exact fun becomes => ⟨_, rfl, becomes⟩

/-- A path without a colon is appended; one with a colon replaces the prefix, and then the host is
lost. -/
theorem append_iff (path : RelativePath) :
    (∃ next, changed path.text l.text = .ok next ∧ FitsInt next ∧
      utilGetCanonicalPath next = (l.append path).text) ↔
      colon ∉ path.text ∧ FitsInt (l.text ++ path.text) := by
  have slash' : path.text ≠ ascii "/" := fun same => path.relative (same ▸ by decide +kernel)
  have branch : changed path.text l.text =
      if colon ∈ path.text then .ok path.text else .ok (l.text ++ path.text) := by
    rw [changed, if_neg path.ne_nil, if_neg (not_or.mpr path.not_parent),
      if_neg (not_or.mpr ⟨slash', path.not_root⟩), if_neg path.relative]
  rw [branch]
  by_cases url : colon ∈ path.text
  · rw [if_pos url]
    refine iff_of_false ?_ fun regular => regular.1 url
    rintro ⟨next, same, -, becomes⟩
    obtain rfl := Except.ok.inj same
    exact utilGetCanonicalPath_ne_url _ path.no_host l.scheme_ne_nil becomes
  · rw [if_neg url, and_iff_right url]
    constructor
    · rintro ⟨next, same, fits, -⟩
      exact Except.ok.inj same ▸ fits
    · exact fun fits => ⟨_, rfl, fits, l.canonical_append path.text⟩

/-- A URL with a path becomes the prefix. -/
theorem url_spec (u : Url) (fits : FitsInt (Way.url u).text) (path : List UInt8) :
    ∃ next, changed (Way.url u).text path = .ok next ∧ FitsInt next ∧
      utilGetCanonicalPath next = u.location.text := by
  have absolute : colon ∈ (Way.url u).text := by
    rw [Way.text, show ascii "://" = [colon, slash, slash] by decide +kernel]
    simp
  have front : (Way.url u).text.head? ≠ some slash := by
    obtain ⟨c, scheme, same⟩ := List.exists_cons_of_ne_nil u.scheme_ne_nil
    rw [Way.text, same]
    exact fun head => u.scheme_no_slash (by rw [same, ← Option.some.inj head]; exact List.mem_cons_self)
  have other : ∀ text : List UInt8, colon ∉ text → (Way.url u).text ≠ text :=
    fun text none same => none (same ▸ absolute)
  refine ⟨(Way.url u).text, ?_, fits, ?_⟩
  · rw [changed, if_neg (other _ List.not_mem_nil), if_neg, if_neg, if_neg front, if_pos absolute]
    · exact not_or.mpr ⟨other _ (by decide +kernel), other _ (by decide +kernel)⟩
    · exact not_or.mpr ⟨other _ (by decide +kernel), other _ (by decide +kernel)⟩
  · exact utilGetCanonicalPath_url _ u.scheme_ne_nil u.scheme_no_colon u.host_no_slash

/-- A request is followed exactly if it is one that can be. -/
theorem follows_iff (request : Request) :
    sioSetPrefix request.frame l.text = .ok (l.go request.way).text ↔ Followed request l := by
  obtain ⟨frame, way, asks⟩ := request
  have fits : FitsInt way.text := fitsInt_of_le (length_prefixSpec asks) (by decide)
  have up : changed (ascii "..") l.text = devance l.text := rfl
  have up' : changed (ascii "<") l.text = devance l.text := rfl
  have top : changed (ascii "/") l.text = .ok (toHostname l.text) := rfl
  have top' : changed (ascii ">") l.text = .ok (toHostname l.text) := rfl
  rw [sioSetPrefix_eq_ok_iff asks]
  cases way with
  | parent => exact (by rw [Way.text, up]; exact devance_text_iff)
  | less => exact (by rw [Way.text, up']; exact devance_text_iff)
  | root => exact (by rw [Way.text, top]; exact root_iff)
  | greater => exact (by rw [Way.text, top']; exact root_iff)
  | append path => exact append_iff path
  | url u => exact iff_of_true (url_spec u fits _) trivial

end Commands

/-- Every sequence of requests leads, request by request, to the canonical URLs that it means, exactly
if each request is one that can be followed. -/
theorem navigates_iff (requests : List Request) (l : Location) :
    Machine.run follow requests l.text =
        some ((Machine.runTotal meaning requests l).1, (Machine.runTotal meaning requests l).2.text) ↔
      Machine.Admissible meaning Followed requests l := by
  induction requests generalizing l with
  | nil => exact iff_of_true rfl trivial
  | cons request requests ih =>
      rw [Machine.Admissible, ← follows_iff, Machine.run, Machine.runTotal]
      cases set : sioSetPrefix request.frame l.text with
      | error e => simp [follow, set, Except.toOption]
      | ok path =>
          have step : follow request l.text = some (path, path) := by
            rw [follow, set]
            rfl
          rw [step, Option.bind_some]
          by_cases same : path = (l.go request.way).text
          · subst same
            rw [and_iff_right rfl]
            refine Iff.trans ?_ (ih (l.go request.way))
            rw [Option.map_eq_some_iff]
            constructor
            · rintro ⟨⟨answers, last⟩, run, both⟩
              rw [run]
              simp [meaning] at both ⊢
              exact both
            · intro run
              exact ⟨_, run, rfl⟩
          · refine iff_of_false ?_ fun both => same (Except.ok.inj both.1)
            rw [Option.map_eq_some_iff]
            rintro ⟨⟨answers, last⟩, -, both⟩
            exact same (List.cons.inj (Prod.mk.inj both).1).1

/-- From the root of a host the way to the parent leads to a prefix without the host. -/
theorem parent_loses_host : ∃ (l : Location) (request : Request),
    l.text = ascii "TNFS://h/" ∧ request.way = .parent ∧
      Machine.run follow [request] l.text = some ([ascii "TNFS:/"], ascii "TNFS:/") ∧
      Machine.run follow [request] l.text ≠
        some ((Machine.runTotal meaning [request] l).1,
          (Machine.runTotal meaning [request] l).2.text) := by
  refine ⟨⟨ascii "TNFS", ascii "h", [], by decide +kernel, by decide +kernel, by decide +kernel,
    by decide +kernel, fun _ mem => absurd mem List.not_mem_nil⟩,
    ⟨lineFrame (ascii "N:..") (by decide +kernel), .parent, by decide +kernel⟩, ?_, rfl, ?_, ?_⟩
  · decide +kernel
  · decide +kernel
  · decide +kernel

end FujiNet.Device
