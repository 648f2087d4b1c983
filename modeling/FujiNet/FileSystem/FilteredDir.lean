import FujiNet.Data.WeakOrders
import FujiNet.Utils.Strings
import FujiNet.Utils.Wildcard
import Mathlib.Data.List.Lex

/-!
# Listings of a directory cache

`DirCache::apply_filter` keeps the directories and the files that match a pattern, sorts them, and
rewinds a read cursor of 16 bits. The comparisons order the entries by a pair of keys. The cursor
comes to the end of the listing when it can count its entries.
-/

namespace FujiNet.FileSystem

def FNFS_INVALID_DIRPOS : UInt16 := 0xFFFF

end FujiNet.FileSystem

namespace FujiNet.FileSystem.FilteredDir

open Utils

def DIR_OPTION_DESCENDING : UInt16 := 1
def DIR_OPTION_FILEDATE : UInt16 := 2

/-- `fsdir_entry`; the name ends at its NUL. -/
structure FsdirEntry where
  filename : List UInt8
  isDir : Bool
  size : UInt32
  modifiedTime : Int
deriving DecidableEq

/-- `strcasecmp` of two texts without their NULs. -/
def strcasecmp : List UInt8 → List UInt8 → Int
  | [], [] => 0
  | [], b :: _ => -(tolower b).toNat
  | a :: _, [] => (tolower a).toNat
  | a :: as, b :: bs =>
    if tolower a = tolower b then strcasecmp as bs else (tolower a).toNat - (tolower b).toNat

def fsdirSortNameAscend : FsdirEntry → FsdirEntry → Bool :=
  byGroup (·.isDir) fun left right => strcasecmp (cStr left.filename) (cStr right.filename) < 0

def fsdirSortNameDescend : FsdirEntry → FsdirEntry → Bool :=
  byGroup (·.isDir) fun left right => strcasecmp (cStr left.filename) (cStr right.filename) > 0

def fsdirSortTimeAscend : FsdirEntry → FsdirEntry → Bool :=
  byGroup (·.isDir) fun left right => left.modifiedTime > right.modifiedTime

def fsdirSortTimeDescend : FsdirEntry → FsdirEntry → Bool :=
  byGroup (·.isDir) fun left right => left.modifiedTime < right.modifiedTime

/-- The sorting function that `apply_filter` chooses. -/
def sortfn (diropts : UInt16) : FsdirEntry → FsdirEntry → Bool :=
  if diropts &&& DIR_OPTION_FILEDATE ≠ 0 then
    if diropts &&& DIR_OPTION_DESCENDING ≠ 0 then fsdirSortTimeDescend else fsdirSortTimeAscend
  else
    if diropts &&& DIR_OPTION_DESCENDING ≠ 0 then fsdirSortNameDescend else fsdirSortNameAscend

/-- An entry that is not skipped. -/
def keeps (pattern : Option (List UInt8)) (entry : FsdirEntry) : Bool :=
  match pattern with
  | none => true
  | some pattern =>
    let havePattern := cStr pattern ≠ []
    !(!entry.isDir && havePattern &&
      utilWildcardMatch (cStr entry.filename) (cStr pattern) == false)

structure DirCache where
  entries : List FsdirEntry
  filtered : List FsdirEntry
  current : UInt16

namespace DirCache

/-- The loop over the entries, which counts in an `unsigned`. -/
def filterLoop (keeps : FsdirEntry → Bool) (entries : List FsdirEntry) :
    Nat → UInt32 → List FsdirEntry → Option (List FsdirEntry)
  | 0, _, _ => none
  | fuel + 1, i, filtered =>
    match entries[i.toNat]? with
    | none => some filtered
    | some entry =>
      filterLoop keeps entries fuel (i + 1) (if keeps entry then filtered ++ [entry] else filtered)

/-- `DirCache::apply_filter`, with `std::sort`. -/
def applyFilter (sort : (FsdirEntry → FsdirEntry → Bool) → List FsdirEntry → List FsdirEntry)
    (fuel : Nat) (pattern : Option (List UInt8)) (diropts : UInt16) (d : DirCache) :
    Option DirCache :=
  (filterLoop (keeps pattern) d.entries fuel 0 []).map fun filtered =>
    { d with filtered := sort (sortfn diropts) filtered, current := 0 }

def read (d : DirCache) : Option FsdirEntry × DirCache :=
  match d.filtered[d.current.toNat]? with
  | some entry => (some entry, { d with current := d.current + 1 })
  | none => (none, d)

def tell (d : DirCache) : UInt16 := if d.filtered.isEmpty then FNFS_INVALID_DIRPOS else d.current

def seek (d : DirCache) (pos : UInt16) : Bool × DirCache :=
  if pos.toNat ≤ d.filtered.length then (true, { d with current := pos }) else (false, d)

/-- The next `n` answers of `read`. -/
def reads : Nat → DirCache → List (Option FsdirEntry)
  | 0, _ => []
  | n + 1, d => d.read.1 :: reads n d.read.2

/-- A call that moves the cursor. -/
inductive Move where
  | read
  | seek (pos : UInt16)

def move (d : DirCache) : Move → DirCache
  | .read => d.read.2
  | .seek pos => (d.seek pos).2

end DirCache

/-! ## What a listing is to be -/

/-- A name as `strcasecmp` sees it. -/
def nameKey (entry : FsdirEntry) : List Nat := (cStr entry.filename).map fun c => (tolower c).toNat

/-- The chosen key: the names in either direction, or the newest or the oldest first. -/
def KeyOrder (diropts : UInt16) (a b : FsdirEntry) : Prop :=
  if diropts &&& DIR_OPTION_FILEDATE ≠ 0 then
    if diropts &&& DIR_OPTION_DESCENDING ≠ 0 then a.modifiedTime ≤ b.modifiedTime
    else b.modifiedTime ≤ a.modifiedTime
  else
    if diropts &&& DIR_OPTION_DESCENDING ≠ 0 then nameKey b ≤ nameKey a
    else nameKey a ≤ nameKey b

/-- Directories before files, and each group by the chosen key. -/
def InOrder (diropts : UInt16) (a b : FsdirEntry) : Prop :=
  (a.isDir = false → b.isDir = false) ∧ (a.isDir = b.isDir → KeyOrder diropts a b)

/-- The reads return each entry to be kept once, in order, and then null for ever. To seek to a told
position is to go back there. -/
structure Lists (pattern : Option (List UInt8)) (diropts : UInt16) (entries : List FsdirEntry)
    (d : DirCache) : Prop where
  listing : ∃ listing : List FsdirEntry, listing.Perm (entries.filter (keeps pattern)) ∧
    listing.Pairwise (InOrder diropts) ∧
    ∀ n, d.reads n = (List.range n).map fun i => listing[i]?
  resumes : ∀ (moves : List DirCache.Move) (m n : Nat),
    let point := moves.foldl DirCache.move d
    let later := (List.replicate m DirCache.Move.read).foldl DirCache.move point
    (later.seek point.tell).2.reads n = point.reads n

/-! ## The comparisons -/

theorem tolower_ne_zero {c : UInt8} (nonzero : c ≠ 0) : tolower c ≠ 0 := by
  rw [tolower]
  grind

theorem tolower_toNat_pos {c : UInt8} (nonzero : c ≠ 0) : 0 < (tolower c).toNat :=
  Nat.pos_of_ne_zero fun zero => tolower_ne_zero nonzero (UInt8.toNat_inj.mp zero)

/-- `strcasecmp` is the order of the dictionary. -/
theorem strcasecmp_neg_iff {a b : List UInt8} (plain : 0 ∉ b) : strcasecmp a b < 0 ↔
    a.map (fun c => (tolower c).toNat) < b.map fun c => (tolower c).toNat := by
  induction a generalizing b with
  | nil =>
      cases b with
      | nil => simp [strcasecmp]
      | cons b bs =>
          have pos := tolower_toNat_pos (Ne.symm (List.ne_of_not_mem_cons plain))
          simpa [strcasecmp] using pos
  | cons a as ih =>
      cases b with
      | nil => simp [strcasecmp]
      | cons b bs =>
          rw [strcasecmp, List.map_cons, List.map_cons, List.cons_lt_cons_iff]
          split_ifs with same
          · rw [ih (List.not_mem_of_not_mem_cons plain), same]
            simp
          · have differ : (tolower a).toNat ≠ (tolower b).toNat := mt UInt8.toNat_inj.mp same
            omega

theorem strcasecmp_swap (a b : List UInt8) : strcasecmp a b = -strcasecmp b a := by
  induction a generalizing b with
  | nil => cases b <;> simp [strcasecmp]
  | cons a as ih =>
      cases b with
      | nil => simp [strcasecmp]
      | cons b bs =>
          rw [strcasecmp, strcasecmp]
          by_cases same : tolower a = tolower b
          · rw [if_pos same, if_pos same.symm, ih]
          · rw [if_neg same, if_neg (Ne.symm same)]
            omega

/-- What is sorted with one of the comparisons is in the order of its key. -/
theorem pairwise_sort {κ : Type} [LinearOrder κ]
    {sort : (FsdirEntry → FsdirEntry → Bool) → List FsdirEntry → List FsdirEntry}
    (sorts : SortsWeakOrders sort) {before : FsdirEntry → FsdirEntry → Bool} (key : FsdirEntry → κ)
    (compares : ∀ a b, before a b = true ↔ key a < key b) (xs : List FsdirEntry) :
    (sort (byGroup (·.isDir) before) xs).Perm xs ∧
      (sort (byGroup (·.isDir) before) xs).Pairwise fun a b =>
        (a.isDir = false → b.isDir = false) ∧ (a.isDir = b.isDir → key a ≤ key b) := by
  obtain ⟨perm, sorted⟩ := sorts.of_key _ (byGroup_iff compares) xs
  exact ⟨perm, sorted.imp fun {a b} le => (toLex_group_le_iff a b).mp le⟩

theorem sort_inOrder
    {sort : (FsdirEntry → FsdirEntry → Bool) → List FsdirEntry → List FsdirEntry}
    (sorts : SortsWeakOrders sort) (diropts : UInt16) (xs : List FsdirEntry) :
    (sort (sortfn diropts) xs).Perm xs ∧
      (sort (sortfn diropts) xs).Pairwise (InOrder diropts) := by
  have names (a b : FsdirEntry) :
      strcasecmp (cStr a.filename) (cStr b.filename) < 0 ↔ nameKey a < nameKey b :=
    strcasecmp_neg_iff (zero_notMem_cStr _)
  have namesBack (a b : FsdirEntry) :
      strcasecmp (cStr a.filename) (cStr b.filename) > 0 ↔ nameKey b < nameKey a := by
    rw [← names, strcasecmp_swap]
    omega
  have order : InOrder diropts = fun a b => (a.isDir = false → b.isDir = false) ∧
    (a.isDir = b.isDir → KeyOrder diropts a b) := rfl
  rw [order, sortfn]
  simp only [KeyOrder]
  split_ifs
  · exact pairwise_sort sorts (·.modifiedTime) (by simp) xs
  · exact pairwise_sort sorts (fun e => OrderDual.toDual e.modifiedTime) (by simp) xs
  · exact pairwise_sort sorts (fun e => OrderDual.toDual (nameKey e)) (by simp [namesBack]) xs
  · exact pairwise_sort sorts nameKey (by simp [names]) xs

/-! ## The filter -/

namespace DirCache

section Loop

variable {keeps : FsdirEntry → Bool} {entries filtered : List FsdirEntry} {fuel : Nat} {i : UInt32}

/-- The loop ends where its counter reaches the number of entries. -/
theorem filterLoop_eq (small : entries.length < 2 ^ 32) (inside : i.toNat ≤ entries.length) :
    filterLoop keeps entries fuel i filtered = if entries.length - i.toNat < fuel then
      some (filtered ++ (entries.drop i.toNat).filter keeps) else none := by
  induction fuel generalizing i filtered with
  | zero => rfl
  | succ fuel ih =>
      rw [filterLoop]
      cases next : entries[i.toNat]? with
      | none =>
          have behind := List.getElem?_eq_none_iff.mp next
          rw [if_pos (by omega), List.drop_of_length_le behind, List.filter_nil, List.append_nil]
      | some entry =>
          obtain ⟨before, here⟩ := List.getElem?_eq_some_iff.mp next
          have counted : (i + 1).toNat = i.toNat + 1 := by
            rw [UInt32.toNat_add, show UInt32.toNat 1 = 1 from rfl]
            omega
          have rest : (if keeps entry then filtered ++ [entry] else filtered) ++
              (entries.drop (i.toNat + 1)).filter keeps =
              filtered ++ (entries.drop i.toNat).filter keeps := by
            rw [List.drop_eq_getElem_cons before, here, List.filter_cons]
            split_ifs <;> simp
          dsimp only
          rw [ih (by omega), counted, rest]
          split_ifs <;> first | rfl | omega

/-- An `unsigned` never reaches 2^32. -/
theorem filterLoop_of_large (large : 2 ^ 32 ≤ entries.length) :
    filterLoop keeps entries fuel i filtered = none := by
  induction fuel generalizing i filtered with
  | zero => rfl
  | succ fuel ih =>
      have before : i.toNat < entries.length := Nat.lt_of_lt_of_le i.toNat_lt large
      rw [filterLoop, List.getElem?_eq_getElem before]
      exact ih

end Loop

/-! ## The cursor -/

variable {d : DirCache}

theorem filtered_read : d.read.2.filtered = d.filtered := by
  rw [read]
  split <;> rfl

theorem filtered_move (m : Move) : (d.move m).filtered = d.filtered := by
  cases m with
  | read => exact filtered_read
  | seek pos =>
      rw [move, seek]
      split_ifs <;> rfl

theorem filtered_moves (moves : List Move) : (moves.foldl move d).filtered = d.filtered := by
  induction moves generalizing d with
  | nil => rfl
  | cons m moves ih => exact ih.trans (filtered_move m)

/-- A cursor that counts all entries reads them to their end. -/
theorem reads_eq (small : d.filtered.length < 2 ^ 16) (n : Nat) :
    d.reads n = (List.range n).map fun i => d.filtered[d.current.toNat + i]? := by
  induction n generalizing d with
  | zero => rfl
  | succ n ih =>
      rw [reads, ih (by rwa [filtered_read]), filtered_read, List.range_succ_eq_map, List.map_cons,
        List.map_map, Nat.add_zero]
      cases next : d.filtered[d.current.toNat]? with
      | none =>
          have behind := List.getElem?_eq_none_iff.mp next
          have stays : d.read = (none, d) := by rw [read, next]
          rw [stays, List.cons.injEq]
          refine ⟨rfl, List.map_congr_left fun i _ => ?_⟩
          have past (k : Nat) : d.filtered[d.current.toNat + k]? = none :=
            List.getElem?_eq_none (Nat.le_add_right_of_le behind)
          exact (past i).trans (past (i + 1)).symm
      | some entry =>
          have before := (List.getElem?_eq_some_iff.mp next).1
          have goes : d.read = (some entry, { d with current := d.current + 1 }) := by
            rw [read, next]
          have counted : (d.current + 1).toNat = d.current.toNat + 1 := by
            rw [UInt16.toNat_add, show UInt16.toNat 1 = 1 from rfl]
            omega
          rw [goes, List.cons.injEq]
          refine ⟨rfl, List.map_congr_left fun i _ => ?_⟩
          rw [Function.comp_apply, counted, Nat.add_right_comm, Nat.add_assoc]

/-- A cursor that does not count all entries never comes to their end. -/
theorem none_notMem_reads (large : 2 ^ 16 ≤ d.filtered.length) (n : Nat) : none ∉ d.reads n := by
  induction n generalizing d with
  | zero => exact List.not_mem_nil
  | succ n ih =>
      have before : d.current.toNat < d.filtered.length :=
        Nat.lt_of_lt_of_le d.current.toNat_lt large
      have goes : d.read = (some d.filtered[d.current.toNat],
          { d with current := d.current + 1 }) := by
        rw [read, List.getElem?_eq_getElem before]
      rw [reads, List.mem_cons, goes]
      rintro (here | later)
      · cases here
      · exact absurd later (ih large)

/-- The cursor is among the entries or at their end. -/
theorem current_move (small : d.filtered.length < 2 ^ 16)
    (inside : d.current.toNat ≤ d.filtered.length) (m : Move) :
    (d.move m).current.toNat ≤ d.filtered.length := by
  cases m with
  | read =>
      rw [move, read]
      cases next : d.filtered[d.current.toNat]? with
      | none => exact inside
      | some entry =>
          have before := (List.getElem?_eq_some_iff.mp next).1
          change (d.current + 1).toNat ≤ _
          rw [UInt16.toNat_add, show UInt16.toNat 1 = 1 from rfl]
          omega
  | seek pos =>
      rw [move, seek]
      split_ifs with within
      · exact within
      · exact inside

theorem current_moves (small : d.filtered.length < 2 ^ 16)
    (inside : d.current.toNat ≤ d.filtered.length) (moves : List Move) :
    (moves.foldl move d).current.toNat ≤ d.filtered.length := by
  induction moves generalizing d with
  | nil => exact inside
  | cons m moves ih =>
      rw [List.foldl_cons, ← filtered_move m]
      refine ih (by rwa [filtered_move]) ?_
      rw [filtered_move]
      exact current_move small inside m

/-- To seek to a told position, from wherever the cursor is, is to go back. -/
theorem seek_tell {later : DirCache} (same : later.filtered = d.filtered)
    (small : d.filtered.length < 2 ^ 16) (inside : d.current.toNat ≤ d.filtered.length)
    (n : Nat) : (later.seek d.tell).2.reads n = d.reads n := by
  rw [reads_eq small]
  have kept : (later.seek d.tell).2.filtered = d.filtered := (filtered_move (.seek d.tell)).trans same
  rw [reads_eq (by rwa [kept]), kept]
  refine List.map_congr_left fun i _ => ?_
  by_cases empty : d.filtered = []
  · rw [empty]
    rfl
  · have told : d.tell = d.current := by
      rw [tell, if_neg (by simpa using empty)]
    have back : (later.seek d.tell).2.current = d.current := by
      rw [told, seek, same, if_pos inside]
    rw [back]

end DirCache

/-! ## The listing -/

section Listing

variable {sort : (FsdirEntry → FsdirEntry → Bool) → List FsdirEntry → List FsdirEntry}
  {d d' : DirCache} {fuel : Nat} {pattern : Option (List UInt8)} {diropts : UInt16}

/-- What `apply_filter` leaves: the kept entries in order, and the cursor in front of them. -/
theorem applyFilter_spec (sorts : SortsWeakOrders sort)
    (applied : d.applyFilter sort fuel pattern diropts = some d') :
    d.entries.length < 2 ^ 32 ∧ d'.filtered.Perm (d.entries.filter (keeps pattern)) ∧
      d'.filtered.Pairwise (InOrder diropts) ∧ d'.current = 0 := by
  rw [DirCache.applyFilter, Option.map_eq_some_iff] at applied
  obtain ⟨kept, looped, rfl⟩ := applied
  rcases Nat.lt_or_ge d.entries.length (2 ^ 32) with small | large
  · rw [DirCache.filterLoop_eq small (Nat.zero_le _)] at looped
    split_ifs at looped
    obtain rfl : d.entries.filter (keeps pattern) = kept := Option.some.inj looped
    obtain ⟨perm, sorted⟩ := sort_inOrder sorts diropts (d.entries.filter (keeps pattern))
    exact ⟨small, perm, sorted, rfl⟩
  · rw [DirCache.filterLoop_of_large large] at looped
    cases looped

theorem applyFilter_of_small
    (sort : (FsdirEntry → FsdirEntry → Bool) → List FsdirEntry → List FsdirEntry)
    (pattern : Option (List UInt8)) (diropts : UInt16) (small : d.entries.length < 2 ^ 32) :
    ∃ d', d.applyFilter sort (d.entries.length + 1) pattern diropts = some d' := by
  rw [DirCache.applyFilter, DirCache.filterLoop_eq small (Nat.zero_le _),
    if_pos (Nat.lt_succ_of_le (Nat.sub_le _ _))]
  exact ⟨_, rfl⟩

/-- The reads of more entries than the cursor counts do not come to an end. -/
theorem not_lists_of_large {entries : List FsdirEntry} (large : 2 ^ 16 ≤ d'.filtered.length) :
    ¬ Lists pattern diropts entries d' := by
  rintro ⟨⟨listing, all, -, reads⟩, -⟩
  refine DirCache.none_notMem_reads large (listing.length + 1) ?_
  rw [reads, List.mem_map]
  exact ⟨listing.length, by simp, by simp⟩

theorem lists_of_small {entries : List FsdirEntry} (small : d'.filtered.length < 2 ^ 16)
    (perm : d'.filtered.Perm (entries.filter (keeps pattern)))
    (sorted : d'.filtered.Pairwise (InOrder diropts)) (rewound : d'.current = 0) :
    Lists pattern diropts entries d' where
  listing := by
    refine ⟨d'.filtered, perm, sorted, fun n => ?_⟩
    rw [DirCache.reads_eq small, rewound]
    simp
  resumes := by
    intro moves m n point later
    have same : point.filtered = d'.filtered := DirCache.filtered_moves moves
    have inside : point.current.toNat ≤ d'.filtered.length :=
      DirCache.current_moves small (by rw [rewound]; exact Nat.zero_le _) moves
    exact DirCache.seek_tell (DirCache.filtered_moves _) (by rwa [same]) (by rwa [same]) n

end Listing

/-- A listing has every directory and every matching file once, directories in front and in the
order of the chosen key, and can be left and resumed, exactly when the loop of `apply_filter` counts
the entries and the cursor counts those that it keeps. -/
theorem applyFilter_lists_iff
    {sort : (FsdirEntry → FsdirEntry → Bool) → List FsdirEntry → List FsdirEntry}
    (sorts : SortsWeakOrders sort) (d : DirCache) (pattern : Option (List UInt8))
    (diropts : UInt16) :
    (∃ fuel d', d.applyFilter sort fuel pattern diropts = some d' ∧
        Lists pattern diropts d.entries d') ↔
      d.entries.length < 2 ^ 32 ∧ (d.entries.filter (keeps pattern)).length < 2 ^ 16 := by
  constructor
  · rintro ⟨fuel, d', applied, lists⟩
    obtain ⟨small, perm, -, -⟩ := applyFilter_spec sorts applied
    refine ⟨small, ?_⟩
    by_contra large
    exact not_lists_of_large (by rw [perm.length_eq]; omega) lists
  · rintro ⟨small, short⟩
    obtain ⟨d', applied⟩ := applyFilter_of_small sort pattern diropts small
    obtain ⟨-, perm, sorted, rewound⟩ := applyFilter_spec sorts applied
    exact ⟨_, d', applied, lists_of_small (by rwa [perm.length_eq]) perm sorted rewound⟩

section Examples

/-- A merge sort in the place of `std::sort`. -/
def mergeSort (less : FsdirEntry → FsdirEntry → Bool) (xs : List FsdirEntry) : List FsdirEntry :=
  xs.mergeSort fun a b => !less b a

def emptyFile : FsdirEntry := ⟨ascii "A", false, 0, 0⟩

theorem applyFilter_lists_one_file :
    ∃ fuel d', DirCache.applyFilter mergeSort fuel none 0 ⟨[emptyFile], [], 0⟩ = some d' ∧
      Lists none 0 [emptyFile] d' :=
  (applyFilter_lists_iff sortsWeakOrders_mergeSort ⟨[emptyFile], [], 0⟩ none 0).mpr
    ⟨by decide, by decide⟩

/-- The reads of 65536 files come back to the first one. -/
theorem not_applyFilter_lists_large :
    ¬ ∃ fuel d', DirCache.applyFilter mergeSort fuel none 0
        ⟨List.replicate (2 ^ 16) emptyFile, [], 0⟩ = some d' ∧
      Lists none 0 (List.replicate (2 ^ 16) emptyFile) d' := by
  rintro ⟨fuel, d', applied, lists⟩
  obtain ⟨-, perm, -, -⟩ := applyFilter_spec sortsWeakOrders_mergeSort applied
  have all : (List.replicate (2 ^ 16) emptyFile).filter (keeps none) =
      List.replicate (2 ^ 16) emptyFile := List.filter_eq_self.mpr fun _ _ => rfl
  refine not_lists_of_large ?_ lists
  rw [perm.length_eq, all, List.length_replicate]

end Examples

end FujiNet.FileSystem.FilteredDir
