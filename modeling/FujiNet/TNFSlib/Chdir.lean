import FujiNet.Control.Machine
import FujiNet.Data.DirTree
import FujiNet.TNFSlib.Exchange
import FujiNet.TNFSlib.Keeps
import FujiNet.TNFSlib.Open

/-!
# The working directory

`tnfs_chdir` joins a name to the stored path and for `..` cuts the path at its last slash,
unless that is its first character. Compared with lists of names the cut is right
everywhere except in a directory directly below the root: there the last slash is the
first character, and `..` leaves the path as it is.
-/

namespace FujiNet.TNFS

open Posix (slash dotdot Name text cwdText)

/-- `strrchr`: the place of the last such character. -/
def strrchr (b : UInt8) : List UInt8 → Option Nat
  | [] => none
  | c :: s =>
    match strrchr b s with
    | some i => some (i + 1)
    | none => if c = b then some 0 else none

/-- `tnfs_chdir`. -/
def tnfsChdir {ν : Type} (tx : Transact ν) (dirpath : List UInt8) (c : Client ν) :
    Option (Int × Client ν) := do
  if dirpath = dotdot then
    match strrchr slash c.mInfo.currentWorkingDirectory with
    | some (i + 1) =>
      let cwd := c.mInfo.currentWorkingDirectory.take (i + 1)
      some (code Result.success, { c with mInfo.currentWorkingDirectory := cwd })
    | _ => some (code Result.success, c)
  else
    let ((rs, stat), c) ← tnfsStat tx dirpath c
    if rs ≠ code Result.success then some (rs, c)
    else if ¬ stat.any Stat.isDir then some (code Result.notADirectory, c)
    else
      let (_, cwd) := adjustWithFullPath c.mInfo dirpath maxFilelen
      some (code Result.success, { c with mInfo.currentWorkingDirectory := cwd })

/-! ## The last slash -/

theorem strrchr_eq_none {b : UInt8} {s : List UInt8} (h : b ∉ s) : strrchr b s = none := by
  induction s with
  | nil => rfl
  | cons c s ih =>
      obtain ⟨ne, rest⟩ := not_or.mp (List.mem_cons.not.mp h)
      rw [strrchr, ih rest]
      exact if_neg (Ne.symm ne)

theorem strrchr_append {b : UInt8} {s t : List UInt8} (h : b ∉ t) :
    strrchr b (s ++ b :: t) = some s.length := by
  induction s with
  | nil => simp [strrchr, strrchr_eq_none h]
  | cons c s ih => rw [List.cons_append, strrchr, ih, List.length_cons]

section

variable {dir p : List (List UInt8)} {n : List UInt8}

/-- The path of a directory, cut at its last slash. -/
theorem strrchr_text (plain : slash ∉ n) :
    strrchr slash (text (dir ++ [n])) = some (text dir).length := by
  rw [text, List.flatMap_append]
  exact strrchr_append (by simpa using plain)

theorem text_append : text (dir ++ p) = text dir ++ text p := by
  rw [text, List.flatMap_append]
  rfl

theorem nul_notMem_text (named : ∀ n ∈ p, Name n) : 0 ∉ text p := by
  simp only [text, List.mem_flatMap, List.mem_cons, not_exists, not_and, not_or]
  exact fun n mem => ⟨by decide, (named n mem).no_nul⟩

theorem cwdText_eq_text (some : p ≠ []) : cwdText p = text p := if_neg some

/-- A path text ends with a name. -/
theorem getLast?_text (named : ∀ n ∈ p, Name n) : (text p).getLast? ≠ some slash := by
  rcases List.eq_nil_or_concat p with rfl | ⟨dir, n, rfl⟩
  · simp [text]
  · rw [List.concat_eq_append] at named ⊢
    have name : Name n := named n (by simp)
    rw [text_append, show text [n] = slash :: n by simp [text], List.getLast?_append]
    cases n using List.reverseRecOn with
    | nil => exact absurd rfl name.ne_nil
    | append_singleton n b =>
        have ne : b ≠ slash := fun same => name.no_slash (by simp [same])
        rw [← List.cons_append, List.getLast?_concat]
        simpa using ne

end

/-! ## Moves -/

/-- An argument of `tnfs_chdir`: `..`, or names with slashes between them. -/
inductive Move where
  | up
  | down (names : List (List UInt8))
  deriving DecidableEq, Repr

namespace Move

/-- The text of the argument. -/
def dirpath : Move → List UInt8
  | up => dotdot
  | down p => (text p).tail

/-- Where it leads. -/
def target (dir : List (List UInt8)) : Move → List (List UInt8)
  | up => dir.dropLast
  | down p => dir ++ p

/-- A directory name is one or more names, and the path of the directory fits the buffer. -/
def Fits (dir : List (List UInt8)) : Move → Prop
  | up => True
  | down p => p ≠ [] ∧ (∀ n ∈ p, Name n) ∧ (cwdText (dir ++ p)).length < maxFilelen

/-- It does not go up from a directory directly below the root. -/
def Careful (dir : List (List UInt8)) (move : Move) : Prop := move = up → dir.length ≠ 1

theorem Fits.names {dir : List (List UInt8)} {move : Move} (fits : move.Fits dir)
    (named : ∀ n ∈ dir, Name n) : ∀ n ∈ move.target dir, Name n := by
  cases move with
  | up => exact fun n mem => named n (List.mem_of_mem_dropLast mem)
  | down p => exact fun n mem => (List.mem_append.mp mem).elim (named n) (fits.2.1 n)

end Move

/-- The server's answer to STAT for the path of a directory: it is there, and is a directory. -/
def isDirectory {ν : Type} (tx : Transact ν) (dir : List (List UInt8)) (c : Client ν) : Bool :=
  match tx (.request Cmd.stat (cwdText dir ++ [0])) ((cwdText dir).length + 1) c with
  | some (some packet, _) =>
    packet.payloadByte 0 = Result.success && (packet.payloadU16 1).testBit 14
  | _ => false

/-- The directory that is named exists. -/
def Move.exists' {ν : Type} (tx : Transact ν) (dir : List (List UInt8)) (c : Client ν) : Move → Bool
  | up => true
  | down p => isDirectory tx (dir ++ p) c

/-- The client, and the directory it is in. -/
structure Walk (ν : Type) where
  client : Client ν
  dir : List (List UInt8)

/-- The stored path is that of the directory. -/
def Walk.Stored {ν : Type} (w : Walk ν) : Prop :=
  w.client.mInfo.currentWorkingDirectory = cwdText w.dir

/-- A call of `tnfs_chdir`. The directory is another one if the server has it. -/
def Walk.chdir {ν : Type} (tx : Transact ν) (move : Move) (w : Walk ν) : Option (Int × Walk ν) :=
  (tnfsChdir tx move.dirpath w.client).map fun (rs, c) =>
    (rs, ⟨c, if move.exists' tx w.dir w.client then move.target w.dir else w.dir⟩)

/-! ## One call -/

/-- Mounting anew does not change a path that begins with a slash. -/
theorem untouched_cwdText (dir : List (List UInt8)) :
    Untouched fun m => m.currentWorkingDirectory = cwdText dir where
  session _ stored := stored
  sequence _ stored := stored
  mounted _ stored := stored
  prepareMount stored := by
    rw [MountInfo.prepareMount, stored]
    cases dir with
    | nil => rfl
    | cons n dir => rfl

section

variable {ν : Type} {tx : Transact ν} {w w' : Walk ν} {move : Move} {rs : Int}
  {dir p : List (List UInt8)}

/-- Joining a name to the path of a directory. -/
theorem adjust_cwdText {m : MountInfo} (stored : m.currentWorkingDirectory = cwdText dir)
    (named : ∀ n ∈ dir, Name n) (fits : (Move.down p).Fits dir) {bufflen : Nat}
    (room : maxFilelen ≤ bufflen) :
    adjustWithFullPath m (text p).tail bufflen =
      (((cwdText (dir ++ p)).length : Int), cwdText (dir ++ p)) := by
  obtain ⟨some, names, short⟩ := fits
  rw [cwdText_eq_text (by simp [some])] at short ⊢
  obtain ⟨n, p, rfl⟩ := List.exists_cons_of_ne_nil some
  have name := names n List.mem_cons_self
  have argument : text (n :: p) = slash :: (n ++ text p) := rfl
  have noNul : 0 ∉ n ++ text p := by
    have := nul_notMem_text names
    rw [argument] at this
    exact fun mem => this (List.mem_cons_of_mem _ mem)
  obtain ⟨b, n', rfl⟩ := List.exists_cons_of_ne_nil name.ne_nil
  have relative : b ≠ slash := fun same => name.no_slash (by simp [same])
  rw [text_append, argument] at short ⊢
  rw [List.length_append, List.length_cons] at short
  rcases List.eq_nil_or_concat dir with rfl | ⟨parent, last, rfl⟩
  · -- at the root the slash is there already
    have copied : strlcpy m.currentWorkingDirectory bufflen = [slash] := by
      rw [stored]
      exact strlcpy_of_length_lt (by decide) (lt_of_lt_of_le (by decide) room)
    simp only [text, List.flatMap_nil, List.length_nil, Nat.zero_add] at short
    simp only [adjustWithFullPath, copied, List.tail_cons]
    rw [maxFilelen] at room
    rw [if_neg (by simp only [List.length_singleton]; omega), if_neg (by simp [slash]),
      if_neg (by simpa [eq_comm, slash] using relative)]
    rw [strlcpy_of_length_lt noNul (by
      rw [maxFilelen] at short
      simp only [text, List.length_singleton]
      omega)]
    rfl
  · rw [List.concat_eq_append] at *
    have path : m.currentWorkingDirectory = text (parent ++ [last]) := by
      rw [stored, cwdText_eq_text (by simp)]
    have copied : strlcpy m.currentWorkingDirectory bufflen = text (parent ++ [last]) := by
      rw [path]
      exact strlcpy_of_length_lt (nul_notMem_text named) (by omega)
    have long : 1 ≤ (text (parent ++ [last])).length := by
      rw [text_append]
      simp only [text, List.flatMap_singleton, List.length_append, List.length_cons]
      omega
    have ended := getLast?_text named
    simp only [adjustWithFullPath, copied, List.tail_cons]
    generalize text (parent ++ [last]) = path at *
    simp only [List.length_append, List.length_cons] at short
    rw [if_neg (by rw [maxFilelen] at short room; omega),
      if_pos ⟨by simpa [slash] using relative, ended⟩]
    rw [strlcpy_of_length_lt noNul (by
      simp only [List.length_append, List.length_cons, List.length_nil]
      omega)]
    simp [slash]

theorem dirpath_ne_dotdot (fits : (Move.down p).Fits dir) : (text p).tail ≠ dotdot := by
  obtain ⟨some, names, -⟩ := fits
  obtain ⟨n, p, rfl⟩ := List.exists_cons_of_ne_nil some
  have name := names n List.mem_cons_self
  intro same
  change n ++ text p = dotdot at same
  rcases Posix.text_cases p with nil | ⟨rest, cons⟩
  · exact name.ne_dotdot (by simpa [nil] using same)
  · have mem : slash ∈ dotdot := by
      rw [← same, cons]
      simp
    exact absurd mem (by decide)

/-- Going up. -/
theorem tnfsChdir_dotdot (tx : Transact ν) {c : Client ν}
    (stored : c.mInfo.currentWorkingDirectory = cwdText dir)
    (named : ∀ n ∈ dir, Name n) : ∃ c', tnfsChdir tx dotdot c = some (code Result.success, c') ∧
      c'.mInfo.currentWorkingDirectory =
        cwdText (if dir.length = 1 then dir else dir.dropLast) := by
  simp only [tnfsChdir, if_true, stored]
  rcases List.eq_nil_or_concat dir with rfl | ⟨parent, n, rfl⟩
  · exact ⟨c, rfl, stored⟩
  · rw [List.concat_eq_append] at *
    have name : Name n := named n (by simp)
    rw [cwdText_eq_text (by simp), strrchr_text name.no_slash]
    cases parent with
    | nil => exact ⟨c, rfl, stored⟩
    | cons m parent =>
        refine ⟨_, rfl, ?_⟩
        rw [if_neg (by simp), List.dropLast_concat, cwdText_eq_text (List.cons_ne_nil _ _)]
        rw [text_append]
        exact List.take_left' rfl

/-- A directory that the server has is entered, and another one is not. -/
theorem tnfsChdir_names (tx : Transact ν) {c : Client ν}
    (keeps : Preserves (fun m => m.currentWorkingDirectory = cwdText dir) tx)
    (stored : c.mInfo.currentWorkingDirectory = cwdText dir) (named : ∀ n ∈ dir, Name n)
    (fits : (Move.down p).Fits dir) :
    (isDirectory tx (dir ++ p) c = true → ∃ c', tnfsChdir tx (text p).tail c =
      some (code Result.success, c') ∧ c'.mInfo.currentWorkingDirectory = cwdText (dir ++ p)) ∧
    (isDirectory tx (dir ++ p) c = false → ∀ rs c', tnfsChdir tx (text p).tail c = some (rs, c') →
      rs ≠ code Result.success ∧ c'.mInfo.currentWorkingDirectory = cwdText dir) := by
  have request := adjust_cwdText stored named fits (by decide : maxFilelen ≤ payloadSize)
  have size : (((cwdText (dir ++ p)).length : Int) + 1).toNat = (cwdText (dir ++ p)).length + 1 := by
    omega
  simp only [tnfsChdir, if_neg (dirpath_ne_dotdot fits), tnfsStat, request, size,
    Option.bind_eq_bind, isDirectory]
  cases asked : tx (.request Cmd.stat (cwdText (dir ++ p) ++ [0]))
      ((cwdText (dir ++ p)).length + 1) c with
  | none =>
      refine ⟨fun no => absurd no Bool.false_ne_true, fun _ rs c' called => ?_⟩
      cases called
  | some answer =>
      obtain ⟨packet, c₁⟩ := answer
      have still : c₁.mInfo.currentWorkingDirectory = cwdText dir := keeps asked stored
      cases packet with
      | none =>
          refine ⟨fun no => absurd no Bool.false_ne_true, fun _ rs c' called => ?_⟩
          cases called
          exact ⟨(by decide : (-1 : Int) ≠ code Result.success), still⟩
      | some packet =>
          simp only [Option.bind_some]
          by_cases success : packet.payloadByte 0 = Result.success
          · simp only [success, decide_true, Bool.true_and, ne_eq, not_true_eq_false, if_false,
              if_true, Option.any_some]
            cases directory : (packet.payloadU16 1).testBit 14 with
            | true =>
                refine ⟨fun _ => ⟨_, rfl, ?_⟩, fun no => absurd no.symm Bool.false_ne_true⟩
                exact congrArg Prod.snd (adjust_cwdText still named fits (le_refl maxFilelen))
            | false =>
                refine ⟨fun no => absurd no Bool.false_ne_true, fun _ rs c' called => ?_⟩
                cases called
                exact ⟨code_ne (by decide), still⟩
          · simp only [success, decide_false, Bool.false_and, if_pos (code_ne success), ne_eq]
            refine ⟨fun no => absurd no Bool.false_ne_true, fun _ rs c' called => ?_⟩
            cases called
            exact ⟨code_ne success, still⟩

/-- A call for a directory that the server has succeeds, and leaves the right path behind if and only
if it is careful. -/
theorem Walk.chdir_of_exists (tx : Transact ν)
    (keeps : Preserves (fun m => m.currentWorkingDirectory = cwdText w.dir) tx)
    (stored : w.Stored) (named : ∀ n ∈ w.dir, Name n) (fits : move.Fits w.dir)
    (there : move.exists' tx w.dir w.client = true) :
    ∃ w', w.chdir tx move = some (code Result.success, w') ∧ w'.dir = move.target w.dir ∧
      (w'.Stored ↔ move.Careful w.dir) := by
  cases move with
  | down p =>
      obtain ⟨c, called, path⟩ := (tnfsChdir_names tx keeps stored named fits).1 there
      refine ⟨⟨c, w.dir ++ p⟩, ?_, rfl, iff_of_true path fun up => by cases up⟩
      rw [Walk.chdir, Move.dirpath, called, there]
      rfl
  | up =>
      obtain ⟨c, called, path⟩ := tnfsChdir_dotdot tx stored named
      refine ⟨⟨c, w.dir.dropLast⟩, ?_, rfl, ?_⟩
      · rw [Walk.chdir, Move.dirpath, called]
        rfl
      rw [Walk.Stored, path]
      by_cases top : w.dir.length = 1
      · obtain ⟨n, single⟩ := List.length_eq_one_iff.mp top
        have some : n ≠ [] := (named n (by simp [single])).ne_nil
        simp [Move.Careful, single, cwdText, text, some]
      · rw [if_neg top]
        exact iff_of_true rfl fun _ => top

/-- A call for one that it has not fails, and the client stays where it is. -/
theorem Walk.chdir_of_missing (tx : Transact ν)
    (keeps : Preserves (fun m => m.currentWorkingDirectory = cwdText w.dir) tx)
    (stored : w.Stored) (named : ∀ n ∈ w.dir, Name n) (fits : move.Fits w.dir)
    (missing : move.exists' tx w.dir w.client = false) (called : w.chdir tx move = some (rs, w')) :
    rs ≠ code Result.success ∧ w'.dir = w.dir ∧ w'.Stored := by
  simp only [Walk.chdir, Option.map_eq_some_iff, Prod.exists, Prod.mk.injEq] at called
  obtain ⟨result, c, called, rfl, rfl⟩ := called
  rw [missing]
  cases move with
  | down p =>
      obtain ⟨failed, path⟩ := (tnfsChdir_names tx keeps stored named fits).2 missing _ _ called
      exact ⟨failed, rfl, path⟩
  | up => cases missing

end

/-! ## Runs -/

section

variable {ν : Type} {tx : Transact ν}

/-- In every run of calls that fit and are careful the stored path is that of the directory. One more
call for a directory that the server has succeeds, and the stored path is that of this directory if
and only if the call is careful; for one that it has not the call fails and changes nothing. Going
down by a name and up again comes back unless it starts at the root. -/
theorem tnfsChdir_follows_iff (net : Net ν) (fuel : Nat) {c : Client ν}
    (root : c.mInfo.currentWorkingDirectory = [slash]) {w : Walk ν}
    (reached : Machine.Reaches (Walk.chdir (transaction net fuel))
      (fun move w _ _ => move.Fits w.dir ∧ move.Careful w.dir) ⟨c, []⟩ w) :
    w.Stored ∧
    (∀ move, move.Fits w.dir → move.exists' (transaction net fuel) w.dir w.client = true →
      ∃ w', w.chdir (transaction net fuel) move = some (code Result.success, w') ∧
        w'.dir = move.target w.dir ∧ (w'.Stored ↔ move.Careful w.dir)) ∧
    (∀ move rs w', move.Fits w.dir → move.exists' (transaction net fuel) w.dir w.client = false →
      w.chdir (transaction net fuel) move = some (rs, w') →
      rs ≠ code Result.success ∧ w'.dir = w.dir ∧ w'.Stored) ∧
    ∀ n, (Move.down [n]).Fits w.dir → isDirectory (transaction net fuel) (w.dir ++ [n]) w.client = true →
      ∃ w₁ w₂, w.chdir (transaction net fuel) (.down [n]) = some (code Result.success, w₁) ∧
        w₁.chdir (transaction net fuel) .up = some (code Result.success, w₂) ∧
        (w₂.client.mInfo.currentWorkingDirectory = w.client.mInfo.currentWorkingDirectory ↔
          w.dir ≠ []) := by
  have keeps (dir : List (List UInt8)) :
      Preserves (fun m => m.currentWorkingDirectory = cwdText dir) (transaction net fuel) :=
    (untouched_cwdText dir).transaction net fuel
  obtain ⟨stored, named⟩ : w.Stored ∧ ∀ n ∈ w.dir, Name n := by
    refine reached.invariant (fun w => w.Stored ∧ ∀ n ∈ w.dir, Name n) ⟨root, by simp⟩ ?_
    rintro move w rs w' ⟨stored, named⟩ called ⟨fits, careful⟩
    cases there : move.exists' (transaction net fuel) w.dir w.client with
    | true =>
        obtain ⟨w'', called', dir, stored'⟩ := Walk.chdir_of_exists _ (keeps _) stored named fits there
        cases Option.some.inj (called.symm.trans called')
        exact ⟨stored'.mpr careful, dir ▸ fits.names named⟩
    | false =>
        obtain ⟨-, dir, stored'⟩ := Walk.chdir_of_missing _ (keeps _) stored named fits there called
        exact ⟨stored', dir ▸ named⟩
  refine ⟨stored, fun move fits there => Walk.chdir_of_exists _ (keeps _) stored named fits there,
    fun move rs w' fits missing called =>
      Walk.chdir_of_missing _ (keeps _) stored named fits missing called, fun n fits there => ?_⟩
  obtain ⟨w₁, down, below, stored₁⟩ :=
    @Walk.chdir_of_exists _ w (.down [n]) (transaction net fuel) (keeps _) stored named fits there
  have stored₁ : w₁.Stored := stored₁.mpr fun up => by cases up
  have named₁ : ∀ n ∈ w₁.dir, Name n := below ▸ fits.names named
  obtain ⟨w₂, up, back, stored₂⟩ :=
    @Walk.chdir_of_exists _ w₁ .up (transaction net fuel) (keeps _) stored₁ named₁ trivial rfl
  refine ⟨w₁, w₂, down, up, ?_⟩
  have back : w₂.dir = w.dir := by
    rw [back, below]
    exact List.dropLast_concat
  rw [Walk.Stored, back] at stored₂
  rw [stored, stored₂, below, Move.Careful]
  simp [Move.target]

end

/-- A server for which every path is a directory. -/
def allDirectories : Net Unit where
  send d _ := (some [{ datagram := [d.getD 0 0, d.getD 1 0, d.getD 2 0, d.getD 3 0,
    Result.success, 0xED, 0x41] }], ())

/-- The client in the root directory of such a server. -/
def atRoot : Walk Unit := ⟨⟨{ session := 1, currentWorkingDirectory := [slash] }, ()⟩, []⟩

theorem fits_a : (Move.down [[0x61]]).Fits [] := ⟨by decide, by decide, by decide⟩

/-- The client enters the directory `a`. -/
theorem atRoot_chdir_a : ∃ w, atRoot.chdir (transaction allDirectories 1) (.down [[0x61]]) =
    some (code Result.success, w) ∧ w.Stored ∧ w.dir = [[0x61]] := by
  have answered : (atRoot.chdir (transaction allDirectories 1) (.down [[0x61]])).map
      (fun answer => (answer.1, answer.2.client.mInfo.currentWorkingDirectory, answer.2.dir)) =
        some (code Result.success, cwdText [[0x61]], [[0x61]]) := by decide +kernel
  obtain ⟨⟨rs, w⟩, called, view⟩ := Option.map_eq_some_iff.mp answered
  simp only [Prod.mk.injEq] at view
  obtain ⟨rfl, path, dir⟩ := view
  exact ⟨w, called, path.trans (congrArg cwdText dir.symm), dir⟩

theorem tnfsChdir_follows_into_a : ∃ w : Walk Unit, w.dir = [[0x61]] ∧ w.Stored ∧
    ∀ move, move.Fits w.dir → move.exists' (transaction allDirectories 1) w.dir w.client = true →
      ∃ w', w.chdir (transaction allDirectories 1) move = some (code Result.success, w') ∧
        w'.dir = move.target w.dir ∧ (w'.Stored ↔ move.Careful w.dir) := by
  obtain ⟨w, called, -, dir⟩ := atRoot_chdir_a
  have follows := @tnfsChdir_follows_iff _ allDirectories 1 atRoot.client rfl _
    (.next .refl called ⟨fits_a, fun up => by cases up⟩)
  exact ⟨w, dir, follows.1, follows.2.1⟩

/-- From `/a` the client does not get back to the root. -/
theorem tnfsChdir_stuck_below_root : ¬∀ w,
    Machine.Reaches (Walk.chdir (transaction allDirectories 1)) (fun move w _ _ => move.Fits w.dir)
      atRoot w → w.Stored := by
  intro all
  obtain ⟨w, called, stored, dir⟩ := atRoot_chdir_a
  have named : ∀ n ∈ w.dir, Name n := by
    rw [dir]
    decide
  obtain ⟨c, up, path⟩ := tnfsChdir_dotdot (transaction allDirectories 1) stored named
  have called₂ : w.chdir (transaction allDirectories 1) .up =
      some (code Result.success, ⟨c, w.dir.dropLast⟩) := by
    rw [Walk.chdir, Move.dirpath, up]
    rfl
  have there := all _ (.next (.next .refl called fits_a) called₂ trivial)
  rw [Walk.Stored, path, dir] at there
  simp [cwdText, text] at there

end FujiNet.TNFS
