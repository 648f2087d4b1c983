import Mathlib
import FujiNet.Config.Persisted

/-!
# Files that do not fit the buffer

`save` writes as much as there is, while `load` reads 2047 bytes. What lies behind
them is lost without an error, and as the last line of a file belongs to the section
`[BOIP]`, whatever is lost costs at least one section a part of its lines.
-/

namespace FujiNet.FnConfig

open Text Lines

/-! ## Lines in sections -/

/-- The number of lines in sections, with their titles. -/
def weight (found : List (Section × List Str)) : Nat := (found.map fun s => s.2.length + 1).sum

theorem weight_append (found found' : List (Section × List Str)) :
    weight (found ++ found') = weight found + weight found' := by
  simp [weight]

theorem weight_le_weight_group (open_ : Option (Section × List Str)) (lines : List Str) :
    weight open_.toList ≤ weight (group open_ lines) := by
  induction lines generalizing open_ with
  | nil => exact Nat.le_refl _
  | cons line lines ih =>
      rw [group]
      split
      · refine Nat.le_trans ?_ (ih _)
        cases open_ with
        | none => exact Nat.le_refl _
        | some s => simp [weight]
      · rw [weight_append]
        exact Nat.le_add_right _ _

/-- A text that goes on has no fewer lines in sections. -/
theorem weight_group_le (open_ : Option (Section × List Str)) (front rest : List Str) :
    weight (group open_ front) ≤ weight (group open_ (front ++ rest)) := by
  induction front generalizing open_ with
  | nil => exact weight_le_weight_group open_ rest
  | cons line front ih =>
      rw [List.cons_append, group, group]
      split
      · exact ih _
      · rw [weight_append, weight_append]
        exact Nat.add_le_add_left (ih _) _

/-! ## The end of a file -/

theorem fileLines_concat (bs : List Block) (b : Block) :
    ∃ front, fileLines (bs ++ [b]) = front ++ b.lines := by
  induction bs with
  | nil => exact ⟨[], rfl⟩
  | cons b' bs ih =>
      obtain ⟨front, lines⟩ := ih
      cases bs with
      | nil => exact ⟨b'.lines ++ [[]], by simp [fileLines]⟩
      | cons b'' bs =>
          refine ⟨b'.lines ++ [] :: front, ?_⟩
          rw [List.cons_append, List.cons_append, fileLines, ← List.cons_append, lines]
          simp

theorem blocks_eq_concat {c : FnConfig} {bs : List Block} (made : c.blocks = some bs) :
    ∃ front, bs = front ++ [boipBlock c.boip] := by
  simp only [blocks, Option.bind_eq_bind, Option.bind_eq_some_iff] at made
  obtain ⟨serial, -, hosts, -, mounts, -, tapes, -, made⟩ := made
  cases made
  exact ⟨_, (List.append_assoc _ [cassetteBlock c.cassette, cpmBlock c.cpm,
    deviceEnableBlock c.denable, netsioBlock c.netsio] [boipBlock c.boip]).symm⟩

theorem readable_boip {b : BoipInfo} (host : Clean b.host) : (boipBlock b).Readable where
  known := ⟨.boip, rfl⟩
  title := show '\r' ∉ '[' :: ("BOIP".toList ++ [']']) ∧ '\n' ∉ '[' :: ("BOIP".toList ++ [']']) by
    decide
  names := List.forall_mem_cons.mpr ⟨rfl, List.forall_mem_cons.mpr ⟨rfl, List.forall_mem_cons.mpr
    ⟨rfl, List.forall_mem_nil _⟩⟩⟩
  values := by
    have enabled := plainText_boolText b.boipEnabled
    have port := plainText_decimal b.port
    refine List.forall_mem_cons.mpr ⟨⟨enabled.1, enabled.2.1⟩, List.forall_mem_cons.mpr ⟨host, ?_⟩⟩
    exact List.forall_mem_cons.mpr ⟨⟨port.1, port.2.1⟩, List.forall_mem_nil _⟩
  written := List.cons_ne_nil _ _

/-- The lines of a file end with those of the section `[BOIP]`. -/
theorem splitLines_text {c : FnConfig} {t : Str} (made : c.text = some t)
    (host : Clean c.boip.host) : ∃ front, splitLines t = front ++ (boipBlock c.boip).lines := by
  rw [text, Option.map_eq_some_iff] at made
  obtain ⟨bs, made, rfl⟩ := made
  obtain ⟨front, rfl⟩ := blocks_eq_concat made
  obtain ⟨lines, written⟩ := fileLines_concat front (boipBlock c.boip)
  refine ⟨splitLines (joinLines lines), ?_⟩
  rw [written, joinLines_append, splitLines_joinLines_append_eq,
    splitLines_joinLines (readable_boip host).clean_lines]

/-- The section `[BOIP]` with some of its lines. -/
theorem group_boip {b : BoipInfo} (host : Clean b.host) (front : List Str)
    {fields : List (Str × Str)} (inside : fields ⊆ (boipBlock b).fields) :
    group none (front ++ (boipBlock b).header :: fields.map Block.fieldLine) =
      group none front ++ [(.boip, fields.map Block.fieldLine)] := by
  have closed : ∀ line ∈ fields.map Block.fieldLine, (!opens line) = true := by
    intro line mem
    obtain ⟨f, hf, rfl⟩ := List.mem_map.mp mem
    simp [opens_fieldLine ((readable_boip host).names f (inside hf))]
  rw [group_append (opens_header _), group]
  simp only [Option.isSome_none, Bool.false_and, Bool.false_eq_true, if_false,
    Option.toList_none, List.nil_append,
    show findSectionInLine (boipBlock b).header = some .boip from rfl, Option.map_some, group_some]
  rw [List.takeWhile_eq_self_iff.mpr closed, List.dropWhile_eq_nil_iff.mpr closed]
  rfl

/-- A file that is not read to its end loses a line of a section. -/
theorem sections_inibuffer_ne {c : FnConfig} {t : Str} (made : c.text = some t)
    (host : Clean c.boip.host) (cut : splitLines (inibuffer t) ≠ splitLines t) :
    sections (inibuffer t) ≠ sections t := by
  obtain ⟨front, lines⟩ := splitLines_text made host
  obtain ⟨fields, last, block⟩ : ∃ fields last, (boipBlock c.boip).fields = fields ++ [last] :=
    ⟨[_, _], _, rfl⟩
  have inside : fields ⊆ (boipBlock c.boip).fields := by
    rw [block]
    exact List.subset_append_left _ _
  have whole : splitLines t = (front ++ (boipBlock c.boip).header :: fields.map Block.fieldLine) ++
      [Block.fieldLine last] := by
    rw [lines, Block.lines, block]
    simp
  have shorter : splitLines (inibuffer t) <+:
      front ++ (boipBlock c.boip).header :: fields.map Block.fieldLine := by
    have start := splitLines_isPrefix (inibuffer_isPrefix t)
    rw [whole] at start cut
    exact (List.prefix_concat_iff.mp start).resolve_left cut
  obtain ⟨rest, hrest⟩ := shorter
  have fewer := weight_group_le none (splitLines (inibuffer t)) rest
  rw [hrest, group_boip host front inside] at fewer
  intro same
  have all : sections t = group none front ++
      [(.boip, (boipBlock c.boip).fields.map Block.fieldLine)] := by
    rw [sections, lines, Block.lines, group_boip host front (List.Subset.refl _)]
  have equal := congrArg weight same
  rw [all, sections] at equal
  rw [equal, block] at fewer
  simp only [weight, List.map_append, List.sum_append, List.map_cons, List.map_nil,
    List.sum_cons, List.sum_nil, List.length_append, List.length_map, List.length_cons,
    List.length_nil] at fewer
  omega

/-! ## What `save` writes is in the file -/

/-- A title that is found, on a line of its own. -/
def Block.Titled (b : Block) : Prop :=
  (∃ sec, findSectionInLine b.header = some sec) ∧ PlainText b.header

theorem titled_blocks {c : FnConfig} {bs : List Block} (made : c.blocks = some bs) :
    ∀ b ∈ bs, b.Titled := by
  simp only [blocks, Option.bind_eq_bind, Option.bind_eq_some_iff] at made
  obtain ⟨serial, hserial, hosts, hhosts, mounts, hmounts, tapes, htapes, made⟩ := made
  cases made
  have plain (title : Str) (h : PlainText ('[' :: (title ++ [']']))) (fields : List (Str × Str))
      (known : ∃ sec, findSectionInLine ('[' :: (title ++ [']'])) = some sec) :
      (Block.mk title fields).Titled := ⟨known, h⟩
  simp only [List.forall_mem_append, List.forall_mem_cons, List.forall_mem_map]
  refine ⟨⟨⟨⟨⟨⟨⟨⟨⟨⟨plain _ (by decide) _ ⟨.general, rfl⟩, ?_, plain _ (by decide) _ ⟨.wifi, rfl⟩,
    List.forall_mem_nil _⟩, fun i _ => ?_⟩, plain _ (by decide) _ ⟨.bt, rfl⟩,
    plain _ (by decide) _ ⟨.network, rfl⟩, List.forall_mem_nil _⟩, ?_⟩, ?_⟩, fun i _ => ?_⟩, ?_⟩,
    plain _ (by decide) _ ⟨.modem, rfl⟩, List.forall_mem_nil _⟩, fun i _ => ?_⟩,
    plain _ (by decide) _ ⟨.cassette, rfl⟩, plain _ (by decide) _ ⟨.cpm, rfl⟩,
    plain _ (by decide) _ ⟨.deviceEnable, rfl⟩, plain _ (by decide) _ ⟨.netsio, rfl⟩,
    plain _ (by decide) _ ⟨.boip, rfl⟩, List.forall_mem_nil _⟩
  · simp only [serialBlock, Option.bind_eq_bind, Option.bind_eq_some_iff] at hserial
    obtain ⟨command, -, proceed, -, made⟩ := hserial
    cases made
    exact plain _ (by decide) _ ⟨.serial, rfl⟩
  · exact ⟨⟨_, known_wifiStored i⟩, plainText_numbered (by decide) i⟩
  · refine forall_mem_of_mapM hhosts fun i b made => ?_
    simp only [hostBlock, Option.bind_eq_bind, Option.bind_eq_some_iff] at made
    obtain ⟨type, -, made⟩ := made
    cases made
    exact ⟨⟨_, known_host i⟩, plainText_numbered (by decide) i⟩
  · refine forall_mem_of_mapM hmounts fun i b made => ?_
    simp only [mountBlock, Option.bind_eq_bind, Option.bind_eq_some_iff] at made
    obtain ⟨mode, -, made⟩ := made
    cases made
    exact ⟨⟨_, known_mount i⟩, plainText_numbered (by decide) i⟩
  · exact ⟨⟨_, known_printer i⟩, plainText_numbered (by decide) i⟩
  · refine forall_mem_of_mapM htapes fun i b made => ?_
    simp only [mountBlock, Option.bind_eq_bind, Option.bind_eq_some_iff] at made
    obtain ⟨mode, -, made⟩ := made
    cases made
    exact ⟨⟨_, known_tape i⟩, plainText_numbered (by decide) i⟩
  · exact ⟨⟨_, known_phonebook i⟩, plainText_numbered (by decide) i⟩

/-- A block stands in the lines of its file. -/
theorem fileLines_of_mem {bs : List Block} {b : Block} (mem : b ∈ bs) :
    ∃ front rest, fileLines bs = front ++ (b.lines ++ rest) := by
  induction bs using fileLines.induct with
  | case1 => cases mem
  | case2 b' =>
      rw [List.mem_singleton.mp mem]
      exact ⟨[], [], (List.append_nil _).symm⟩
  | case3 b' b'' bs ih =>
      rcases List.mem_cons.mp mem with rfl | mem
      · exact ⟨[], _, rfl⟩
      · obtain ⟨front, rest, lines⟩ := ih mem
        refine ⟨b'.lines ++ [] :: front, rest, ?_⟩
        rw [fileLines, lines]
        simp

/-- Every block makes a section of the file, whatever its strings are. -/
theorem exists_mem_sections {c : FnConfig} {bs : List Block} (made : c.blocks = some bs) {b : Block}
    (mem : b ∈ bs) :
    ∃ sec body, findSectionInLine b.header = some sec ∧
      (sec, body) ∈ sections (joinLines (fileLines bs)) := by
  obtain ⟨⟨sec, known⟩, title⟩ := titled_blocks made b mem
  obtain ⟨front, rest, lines⟩ := fileLines_of_mem mem
  rw [Block.lines, List.cons_append] at lines
  generalize b.fields.map Block.fieldLine ++ rest = rest at lines
  have header : splitLines (joinLines (b.header :: rest)) = b.header :: splitLines (joinLines rest) := by
    have one := @splitLines_joinLines_append [b.header]
      (List.forall_mem_singleton.mpr ⟨title.1, title.2.1⟩) (joinLines rest)
    rw [← joinLines_append] at one
    exact one
  refine ⟨sec, (splitLines (joinLines rest)).takeWhile (!opens ·), known, ?_⟩
  rw [sections, lines, joinLines_append, splitLines_joinLines_append_eq, header,
    group_append (opens_header b), List.mem_append]
  right
  rw [group]
  simp only [Option.isSome_none, Bool.false_and, Bool.false_eq_true, if_false,
    Option.toList_none, List.nil_append, known, Option.map_some, group_some]
  exact List.mem_cons_self

/-! ## What `load` processes -/

/-- A disk with a path of any length. -/
def diskConfig (path : Str) : FnConfig :=
  storeMount 0 0 path .read .disk (storeHost 0 "SD".toList .sd fresh)

theorem length_le_text_diskConfig (path : Str) :
    ∃ t, (diskConfig path).text = some t ∧ path.length + 5 ≤ t.length := by
  obtain ⟨bs, blocks, mount⟩ : ∃ bs, (diskConfig path).blocks = some bs ∧
      bs[6]? = mountBlock "Mount".toList (diskConfig path).mountSlots 0 := ⟨_, rfl, rfl⟩
  refine ⟨joinLines (fileLines bs), by rw [text, blocks]; rfl, ?_⟩
  obtain ⟨front, rest, lines⟩ := fileLines_of_mem (List.mem_of_getElem? mount)
  have line : Block.fieldLine ("path".toList, path) ∈ fileLines bs := by
    rw [lines]
    refine List.mem_append_right _ (List.mem_append_left _ (List.mem_cons_of_mem _ ?_))
    exact List.mem_map_of_mem (List.mem_cons_of_mem _ List.mem_cons_self)
  have long := length_le_length_joinLines line
  have width : (Block.fieldLine ("path".toList, path)).length = 4 + (path.length + 1) :=
    (List.length_append).trans rfl
  omega

end FujiNet.FnConfig
