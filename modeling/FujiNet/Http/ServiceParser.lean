import FujiNet.Control.Loop
import FujiNet.Utils.CanonicalPath

/-!
# Pages with tags

`parse_contents` copies a page of the configuration server and replaces what stands between `<%`
and `%>`. It goes by positions in the page: that of the next marker to begin a tag, that of the
marker to end it, and the one from which nothing was copied yet.
-/

namespace FujiNet.Utils

/-- The first occurrence of a pattern, with the text in front of it and the text behind it. -/
structure First (pattern text before after : List UInt8) : Prop where
  split : text = before ++ pattern ++ after
  first : ∀ b a, text = b ++ pattern ++ a → before.length ≤ b.length

section First

variable {pattern text before after before' after' : List UInt8}

theorem First.unique (first : First pattern text before after)
    (first' : First pattern text before' after') : before = before' ∧ after = after' := by
  have length : before.length = before'.length :=
    Nat.le_antisymm (first.first _ _ first'.split) (first'.first _ _ first.split)
  have same := first.split.symm.trans first'.split
  rw [List.append_assoc, List.append_assoc] at same
  obtain ⟨front, behind⟩ := List.append_inj same length
  exact ⟨front, List.append_cancel_left behind⟩

/-- What is found is the first occurrence. -/
theorem first_of_find (found : find pattern text = some (before, after)) :
    First pattern text before after := by
  refine ⟨eq_append_of_find found, ?_⟩
  intro b a occurs
  induction text generalizing before b with
  | nil =>
      have split := eq_append_of_find found
      have length := congrArg List.length split
      simp only [List.length_append, List.length_nil] at length
      omega
  | cons c text ih =>
      rw [find] at found
      split_ifs at found with here
      · obtain ⟨rfl, -⟩ := Prod.mk.inj (Option.some.inj found)
        exact Nat.zero_le _
      · obtain ⟨⟨front, behind⟩, later, same⟩ := Option.map_eq_some_iff.mp found
        obtain ⟨rfl, rfl⟩ := Prod.mk.inj same
        cases b with
        | nil =>
            rw [List.nil_append] at occurs
            exact absurd (List.isPrefixOf_iff_prefix.mpr ⟨a, occurs.symm⟩) here
        | cons d b =>
            obtain ⟨-, occurs⟩ := List.cons.inj occurs
            exact Nat.succ_le_succ (ih later b occurs)

/-- What is not found does not occur. -/
theorem find_eq_none (found : find pattern text = none) : ∀ b a, text ≠ b ++ pattern ++ a := by
  intro b a occurs
  induction text generalizing b with
  | nil =>
      obtain ⟨front, -⟩ := List.append_eq_nil_iff.mp occurs.symm
      obtain ⟨-, rfl⟩ := List.append_eq_nil_iff.mp front
      cases found
  | cons c text ih =>
      rw [find] at found
      split_ifs at found with here
      cases b with
      | nil =>
          rw [List.nil_append] at occurs
          exact here (List.isPrefixOf_iff_prefix.mpr ⟨a, occurs.symm⟩)
      | cons d b =>
          obtain ⟨-, occurs⟩ := List.cons.inj occurs
          exact ih (Option.map_eq_none_iff.mp found) b occurs

end First

end FujiNet.Utils

namespace FujiNet.Http

open Utils Loop

/-- `<%` -/
def OPEN_TAG : List UInt8 := [0x3C, 0x25]

/-- `%>` -/
def CLOSE_TAG : List UInt8 := [0x25, 0x3E]

structure ParseState where
  pos : Nat := 0
  ss : List UInt8 := []

section Parsing

variable (substituteTag : List UInt8 → List UInt8) (contents : List UInt8)

/-- One pass of the loop in `parse_contents`. -/
def parsePass (s : ParseState) : Option (ParseState ⊕ List UInt8) :=
  match findFrom OPEN_TAG contents s.pos with
  | none => some (.inr (s.ss ++ contents.drop s.pos))
  | some x =>
    match findFrom CLOSE_TAG contents (x + 2) with
    | none => some (.inr (s.ss ++ contents.drop s.pos))
    | some y =>
      let ss := if x > 0 then s.ss ++ (contents.drop s.pos).take (x - s.pos) else s.ss
      some (.inl
        { pos := y + 2
          ss := ss ++ substituteTag ((contents.drop (x + 2)).take (y - x - 2)) })

/-- `fnHttpServiceParser::parse_contents`. -/
def parseContents (fuel : Nat) : Option (List UInt8) :=
  Loop.run (parsePass substituteTag contents) fuel {}

end Parsing

/-- The text of a page with its tags replaced, one after the other from the left. -/
inductive Substituted (substituteTag : List UInt8 → List UInt8) : List UInt8 → List UInt8 → Prop
  | plain {text : List UInt8} (noOpen : ∀ b a, text ≠ b ++ OPEN_TAG ++ a) :
      Substituted substituteTag text text
  | unmatched {text before after : List UInt8} (opens : First OPEN_TAG text before after)
      (noClose : ∀ b a, after ≠ b ++ CLOSE_TAG ++ a) : Substituted substituteTag text text
  | tag {text before after tag rest out : List UInt8} (opens : First OPEN_TAG text before after)
      (closes : First CLOSE_TAG after tag rest) (later : Substituted substituteTag rest out) :
      Substituted substituteTag text (before ++ substituteTag tag ++ out)

section Substitution

variable {substituteTag : List UInt8 → List UInt8} {text out out' : List UInt8}

/-- There is one such text. -/
theorem Substituted.unique (substituted : Substituted substituteTag text out)
    (substituted' : Substituted substituteTag text out') : out = out' := by
  induction substituted generalizing out' with
  | plain noOpen =>
      cases substituted' with
      | plain => rfl
      | unmatched => rfl
      | tag opens => exact absurd opens.split (noOpen _ _)
  | unmatched opens noClose =>
      cases substituted' with
      | plain => rfl
      | unmatched => rfl
      | tag opens' closes =>
          obtain ⟨-, rfl⟩ := opens.unique opens'
          exact absurd closes.split (noClose _ _)
  | tag opens closes _ ih =>
      cases substituted' with
      | plain noOpen => exact absurd opens.split (noOpen _ _)
      | unmatched opens' noClose =>
          obtain ⟨-, rfl⟩ := opens.unique opens'
          exact absurd closes.split (noClose _ _)
      | tag opens' closes' later =>
          obtain ⟨rfl, rfl⟩ := opens.unique opens'
          obtain ⟨rfl, rfl⟩ := closes.unique closes'
          rw [ih later]

/-- A pass either ends with what is left, or copies up to a tag and goes on behind it. -/
theorem parsePass_spec (substituteTag : List UInt8 → List UInt8) (contents : List UInt8)
    (s : ParseState) :
    (parsePass substituteTag contents s = some (.inr (s.ss ++ contents.drop s.pos)) ∧
      Substituted substituteTag (contents.drop s.pos) (contents.drop s.pos)) ∨
    ∃ before after tag pos, First OPEN_TAG (contents.drop s.pos) before after ∧
      First CLOSE_TAG after tag (contents.drop pos) ∧ s.pos < pos ∧ pos ≤ contents.length ∧
      parsePass substituteTag contents s =
        some (.inl { pos, ss := s.ss ++ (before ++ substituteTag tag) }) := by
  rw [parsePass, findFrom]
  cases opening : find OPEN_TAG (contents.drop s.pos) with
  | none => exact .inl ⟨rfl, .plain (find_eq_none opening)⟩
  | some cut =>
      obtain ⟨before, after⟩ := cut
      have opens := first_of_find opening
      have behindOpen : contents.drop (s.pos + before.length + 2) = after := by
        rw [Nat.add_assoc, ← List.drop_drop, opens.split]
        exact List.drop_left' (by rw [List.length_append]; rfl)
      rw [Option.map_some]
      dsimp only
      rw [findFrom, behindOpen]
      cases closing : find CLOSE_TAG after with
      | none => exact .inl ⟨rfl, .unmatched opens (find_eq_none closing)⟩
      | some cut =>
          obtain ⟨tag, rest⟩ := cut
          have closes := first_of_find closing
          have behindClose :
              contents.drop (s.pos + before.length + 2 + tag.length + 2) = rest := by
            rw [Nat.add_assoc _ tag.length, ← List.drop_drop, behindOpen, closes.split]
            exact List.drop_left' (by rw [List.length_append]; rfl)
          have inside : s.pos + before.length + 2 + tag.length + 2 ≤ contents.length := by
            have length := congrArg List.length opens.split
            rw [closes.split] at length
            simp only [List.length_drop, List.length_append, OPEN_TAG, CLOSE_TAG, List.length_cons,
              List.length_nil] at length
            omega
          have front : (contents.drop s.pos).take (s.pos + before.length - s.pos) = before := by
            rw [Nat.add_sub_cancel_left, opens.split, List.append_assoc, List.take_left]
          have between : after.take (s.pos + before.length + 2 + tag.length -
              (s.pos + before.length) - 2) = tag := by
            rw [show s.pos + before.length + 2 + tag.length - (s.pos + before.length) - 2 =
              tag.length by omega, closes.split, List.append_assoc, List.take_left]
          have copied : (if s.pos + before.length > 0 then s.ss ++ before else s.ss) =
              s.ss ++ before := by
            split_ifs with later
            · rfl
            · rw [List.eq_nil_of_length_eq_zero (by omega : before.length = 0), List.append_nil]
          refine .inr ⟨before, after, tag, s.pos + before.length + 2 + tag.length + 2, opens, ?_,
            by omega, inside, ?_⟩
          · rw [behindClose]
            exact closes
          · rw [Option.map_some]
            dsimp only
            rw [front, between, copied, List.append_assoc]

end Substitution

/-- Every page is parsed, and the result is its text with the tags replaced. -/
theorem parse_contents_substitutes (substituteTag : List UInt8 → List UInt8)
    (contents : List UInt8) :
    ∃ out, (∀ fuel > contents.length, parseContents substituteTag contents fuel = some out) ∧
      Substituted substituteTag contents out ∧
      ∀ out', Substituted substituteTag contents out' → out' = out := by
  -- one pass for each tag, and one for what is behind the last
  have from' (fuel : Nat) : ∀ s : ParseState, s.pos ≤ contents.length →
      contents.length - s.pos < fuel →
      ∃ out, Loop.run (parsePass substituteTag contents) fuel s = some (s.ss ++ out) ∧
        Substituted substituteTag (contents.drop s.pos) out := by
    induction fuel with
    | zero => exact fun _ _ enough => absurd enough (Nat.not_lt_zero _)
    | succ fuel ih =>
        intro s inside enough
        rcases parsePass_spec substituteTag contents s with
          ⟨pass, substituted⟩ | ⟨before, after, tag, pos, opens, closes, lt, inside', pass⟩
        · exact ⟨_, run_succ_inr pass, substituted⟩
        · obtain ⟨out, later, substituted⟩ := ih ⟨pos, s.ss ++ (before ++ substituteTag tag)⟩
            inside' (by dsimp only; omega)
          refine ⟨before ++ substituteTag tag ++ out, ?_, .tag opens closes substituted⟩
          rw [run_succ_inl pass, later, List.append_assoc]
  obtain ⟨out, run, substituted⟩ :=
    from' (contents.length + 1) {} (Nat.zero_le _) (Nat.lt_succ_self _)
  exact ⟨out, fun fuel enough => run_mono run enough, substituted,
    fun out' other => other.unique substituted⟩

end FujiNet.Http
