import FujiNet.PrinterEmulator.Epson80

/-!
# How many bytes a command takes

`Params` says which parameters the comments of the `switch` give a command, and `Expect` what
a byte is by them: text, a command, or one more parameter. The emulator keeps step with that
as long as no command is begun that it never ends, and ends of lines stay where lines end.
-/

namespace FujiNet.PrinterEmulator.Epson80

/-- The parameters of a command. -/
inductive Params
  | none | one | formLength | tabs | graphics
deriving DecidableEq

/-- The commands with parameters. -/
def documented (cmd : UInt8) : Params :=
  match cmd with
  -- '-', '3', 'A', 'J', 'N', 'Q', 'S', 'U', 'W', 'j', 'l'
  | 0x2D | 0x33 | 0x41 | 0x4A | 0x4E | 0x51 | 0x53 | 0x55 | 0x57 | 0x6A | 0x6C => .one
  | 0x43 => .formLength
  | 0x44 => .tabs
  | 0x4B | 0x4C | 0x59 | 0x5A => .graphics
  | _ => .none

/-- The number of bytes of graphics data. -/
def graphicsLength (n1 n2 : UInt8) : Nat := n1.toNat + 256 * (n2.toNat % 8)

/-- The parameters that have come are all. -/
def Params.Complete : Params → List UInt8 → Prop
  | .none, _ => True
  | .one, got => got ≠ []
  | .formLength, got => got ≠ [] ∧ got ≠ [0]
  | .tabs, got => (∃ t ∈ got.getLast?, t.toNat % 128 = 0) ∨ 28 < got.length
  | .graphics, n1 :: n2 :: data => data.length = graphicsLength n1 n2
  | .graphics, _ => False

instance (params : Params) (got : List UInt8) : Decidable (params.Complete got) := by
  cases params with
  | none => exact .isTrue trivial
  | one => exact inferInstanceAs (Decidable (got ≠ []))
  | formLength => exact inferInstanceAs (Decidable (got ≠ [] ∧ got ≠ [0]))
  | tabs =>
      exact inferInstanceAs (Decidable ((∃ t ∈ got.getLast?, t.toNat % 128 = 0) ∨ 28 < got.length))
  | graphics =>
      match got with
      | [] | [_] => exact .isFalse id
      | n1 :: n2 :: data => exact inferInstanceAs (Decidable (data.length = graphicsLength n1 n2))

/-- What the next byte is. -/
inductive Expect
  | text | command
  | params (cmd : UInt8) (got : List UInt8)
deriving DecidableEq

namespace Expect

/-- Behind the parameters that have come. -/
def next (cmd : UInt8) (got : List UInt8) : Expect :=
  if (documented cmd).Complete got then .text else .params cmd got

def step (c : UInt8) : Expect → Expect
  | .text => if c = 27 then .command else .text
  | .command => next c []
  | .params cmd got => next cmd (got ++ [c])

def run (expect : Expect) (bytes : List UInt8) : Expect := bytes.foldl (fun e c => e.step c) expect

@[simp] theorem run_nil (expect : Expect) : expect.run [] = expect := rfl

@[simp] theorem run_cons (expect : Expect) (c : UInt8) (bytes : List UInt8) :
    expect.run (c :: bytes) = (expect.step c).run bytes := rfl

theorem run_append (expect : Expect) (bytes more : List UInt8) :
    expect.run (bytes ++ more) = (expect.run bytes).run more := List.foldl_append ..

/-- Parameters that have come, and are not all. -/
def Partial (cmd : UInt8) (got : List UInt8) : Prop :=
  match documented cmd with
  | .none => False
  | .one => got = []
  | .formLength => got = [] ∨ got = [0]
  | .tabs => got.length ≤ 28
  | .graphics => got.length < 2 ∨
      ∃ n1 n2 data, got = n1 :: n2 :: data ∧ data.length < graphicsLength n1 n2

/-- An expectation that commands lead to. -/
def Proper : Expect → Prop
  | .params cmd got => Partial cmd got
  | _ => True

theorem graphicsLength_lt (n1 n2 : UInt8) : graphicsLength n1 n2 < 2048 := by
  have low := n1.toNat_lt
  have high := Nat.mod_lt n2.toNat (by decide : 0 < 8)
  rw [graphicsLength]
  omega

theorem Partial.length_lt {cmd : UInt8} {got : List UInt8} (part : Partial cmd got) :
    got.length < 2049 := by
  rw [Partial] at part
  split at part
  · exact part.elim
  · simp [part]
  · rcases part with rfl | rfl <;> simp
  · omega
  · rcases part with short | ⟨n1, n2, data, rfl, short⟩
    · omega
    · have bound := graphicsLength_lt n1 n2
      simp only [List.length_cons]
      omega

/-- One more parameter. -/
theorem Partial.proper_next {cmd : UInt8} {got : List UInt8} (part : Partial cmd got) (c : UInt8) :
    (next cmd (got ++ [c])).Proper := by
  rw [next]
  split_ifs with complete
  · trivial
  show Partial cmd (got ++ [c])
  rw [Partial] at part ⊢
  cases kind : documented cmd with
  | none => exact absurd (by simp [kind, Params.Complete]) complete
  | one => exact absurd (by simp [kind, Params.Complete]) complete
  | formLength =>
      simp only [kind] at part
      rcases part with rfl | rfl
      · simp only [kind, Params.Complete, List.nil_append, ne_eq, List.cons_ne_nil,
          not_false_eq_true, true_and, not_not] at complete
        exact .inr complete
      · exact absurd (by simp [kind, Params.Complete]) complete
  | tabs =>
      simp only [kind, Params.Complete, not_or, Nat.not_lt] at complete
      exact complete.2
  | graphics =>
      simp only [kind] at part
      rcases part with short | ⟨n1, n2, data, rfl, short⟩
      · match got, short with
        | [], _ => exact .inl (by simp)
        | [n1], _ =>
            have more : ¬ 0 = graphicsLength n1 c := by
              simpa [kind, Params.Complete] using complete
            exact .inr ⟨n1, c, [], rfl, by simp only [List.length_nil]; omega⟩
      · refine .inr ⟨n1, n2, data ++ [c], rfl, ?_⟩
        have more : ¬ data.length + 1 = graphicsLength n1 n2 := by
          simpa [kind, Params.Complete] using complete
        simp only [List.length_append, List.length_singleton]
        omega

theorem Proper.step {expect : Expect} (proper : expect.Proper) (c : UInt8) :
    (expect.step c).Proper := by
  cases expect with
  | text =>
      rw [Expect.step]
      split_ifs <;> trivial
  | command =>
      rw [Expect.step, next]
      split_ifs with complete
      · trivial
      · show Partial c []
        rw [Partial]
        cases kind : documented c with
        | none => exact absurd (by simp [kind, Params.Complete]) complete
        | one => rfl
        | formLength => exact .inl rfl
        | tabs => exact Nat.zero_le _
        | graphics => exact .inl (by decide)
  | params cmd got => exact Partial.proper_next proper c

theorem Proper.run {expect : Expect} (proper : expect.Proper) (bytes : List UInt8) :
    (expect.run bytes).Proper := by
  induction bytes generalizing expect with
  | nil => exact proper
  | cons c bytes ih => exact ih (proper.step c)

/-- A bound on the bytes that are missing. -/
def missing : Expect → Nat
  | .text => 0
  | .command => 2050
  | .params _ got => 2049 - got.length

theorem Proper.missing_step {expect : Expect} (proper : expect.Proper) (c : UInt8)
    (busy : expect ≠ .text) : (expect.step c).missing < expect.missing := by
  cases expect with
  | text => exact absurd rfl busy
  | command =>
      rw [Expect.step, next]
      split_ifs
      · exact (by decide : (0 : Nat) < 2050)
      · exact (by decide : 2049 < 2050)
  | params cmd got =>
      have bound := Partial.length_lt proper
      rw [Expect.step, next]
      split_ifs
      · simp only [missing]
        omega
      · simp only [missing, List.length_append, List.length_singleton]
        omega

/-- Every command ends. -/
theorem Proper.returns {expect : Expect} (proper : expect.Proper) {bytes : List UInt8}
    (enough : expect.missing ≤ bytes.length) :
    ∃ n ≤ expect.missing, expect.run (bytes.take n) = .text := by
  induction bytes generalizing expect with
  | nil =>
      refine ⟨0, Nat.zero_le _, ?_⟩
      cases expect with
      | text => rfl
      | command => exact absurd enough (by decide)
      | params cmd got =>
          have bound := Partial.length_lt proper
          simp only [missing, List.length_nil] at enough
          omega
  | cons c bytes ih =>
      by_cases busy : expect = .text
      · exact ⟨0, Nat.zero_le _, busy⟩
      · have less := proper.missing_step c busy
        rw [List.length_cons] at enough
        obtain ⟨n, le, ended⟩ := ih (proper.step c) (by omega)
        exact ⟨n + 1, by omega, ended⟩

end Expect

/-! ## The emulator keeps step -/

/-- The parameters that a branch of the `switch` waits for. -/
def Escape.params : Escape → Params
  | .unended | .reset | .immediate _ => .none
  | .one .. => .one
  | .formLength => .formLength
  | .tabs => .tabs
  | .graphics => .graphics

/-- They are those in the comments. -/
theorem escape_params (cmd : UInt8) : (escape cmd).params = documented cmd := by
  unfold escape
  split <;> try rfl
  -- what is no command has no parameters
  unfold documented
  split <;> first | rfl | contradiction

/-- The branches that do not end. -/
theorem escape_eq_unended (cmd : UInt8) : escape cmd = .unended ↔ cmd = 0x23 ∨ cmd = 0x4F := by
  unfold escape
  split <;> simp_all

theorem escape_eq_tabs {cmd : UInt8} (tabs : escape cmd = .tabs) : cmd = 0x44 := by
  unfold escape at tabs
  split at tabs <;> simp_all

/-- What has come of the parameters, in the fields of the emulator. -/
def Fields (cmd : UInt8) (got : List UInt8) (s : Scan) : Prop :=
  match documented cmd with
  | .none => False
  | .one => got = [] ∧ s.textMode = true
  | .formLength => (got = [] ∨ got = [0]) ∧ s.textMode = true
  | .tabs => got.length ≤ 28 ∧ s.textMode = true
  | .graphics => s.textMode = false ∧ (got = [] ∨ (∃ n1, got = [n1] ∧ s.N1 = n1) ∨
      ∃ n1 n2 data, got = n1 :: n2 :: data ∧ s.N1 = n1 ∧ s.N2 = n2 ∧
        data.length < graphicsLength n1 n2 ∧ (data ≠ [] → s.N = graphicsLength n1 n2))

/-- The emulator takes the next byte for what it is. -/
def Tracks (expect : Expect) (s : Scan) : Prop :=
  match expect with
  | .text => s.escMode = false ∧ s.cmd = 0 ∧ s.textMode = true
  | .command => s.escMode = true ∧ s.cmd = 0 ∧ s.textMode = true
  | .params cmd got =>
    s.escMode = true ∧ s.cmd = cmd ∧ cmd ≠ 0 ∧ s.ctr = got.length ∧ Fields cmd got s

/-- No command is begun that has no end, and the length of graphics is neither zero nor changed
as an end of line. -/
def Careful (expect : Expect) (c : UInt8) : Prop :=
  match expect with
  | .text => True
  | .command => c ≠ 0x23 ∧ c ≠ 0x4F
  | .params cmd got => documented cmd = .graphics → got.length < 2 →
      c ≠ atasciiEol ∧ ∀ n1 ∈ got.head?, graphicsLength n1 c ≠ 0

instance (expect : Expect) (c : UInt8) : Decidable (Careful expect c) :=
  match expect with
  | .text => .isTrue trivial
  | .command => inferInstanceAs (Decidable (c ≠ 0x23 ∧ c ≠ 0x4F))
  | .params cmd got => inferInstanceAs (Decidable (documented cmd = .graphics → got.length < 2 →
      c ≠ atasciiEol ∧ ∀ n1 ∈ got.head?, graphicsLength n1 c ≠ 0))

theorem translate850_of_ne {c : UInt8} (ne : c ≠ atasciiEol) : translate850 c = c := if_neg ne

theorem translate850_eq_iff {c k : UInt8} (cr : k ≠ 13) (eol : k ≠ atasciiEol) :
    translate850 c = k ↔ c = k := by
  rw [translate850]
  split_ifs with isEol
  · exact iff_of_false (fun eq => cr eq.symm) (fun eq => eol (eq ▸ isEol))
  · exact Iff.rfl

theorem documented_translate850 (c : UInt8) : documented (translate850 c) = documented c := by
  by_cases isEol : c = atasciiEol
  · subst isEol
    rfl
  · rw [translate850_of_ne isEol]

theorem control_snd (c : UInt8) (s : Scan) :
    (control c s).2 = if c = 27 then { s with escMode := true } else s := by
  unfold control
  split <;> simp_all

/-- A byte of text. -/
theorem Tracks.text {s : Scan} (tracks : Tracks .text s) (c : UInt8) :
    Tracks (Expect.text.step c) (pdfHandleChar (translate850 c) s).2 := by
  obtain ⟨esc, cmd, text⟩ := tracks
  have escape_iff : translate850 c = 27 ↔ c = 27 :=
    translate850_eq_iff (by decide) (by decide)
  rw [pdfHandleChar, esc, if_neg (by decide), control_snd, Expect.step]
  by_cases esc' : c = 27
  · rw [if_pos esc', if_pos (escape_iff.mpr esc')]
    exact ⟨rfl, cmd, text⟩
  · rw [if_neg esc', if_neg (mt escape_iff.mp esc')]
    exact ⟨esc, cmd, text⟩

theorem tracks_resetCmd {s : Scan} (text : s.textMode = true) : Tracks .text (resetCmd s) :=
  ⟨rfl, rfl, text⟩

/-- The byte of a command. -/
theorem Tracks.command {s : Scan} (tracks : Tracks .command s) {c : UInt8}
    (careful : Careful .command c) :
    Tracks (Expect.command.step c) (pdfHandleChar (translate850 c) s).2 := by
  obtain ⟨esc, cmd, text⟩ := tracks
  have counted : count (translate850 c) s = { s with ctr := 0, cmd := translate850 c } := by
    simp [count, cmd]
  have params := escape_params (translate850 c)
  rw [documented_translate850] at params
  -- a command without parameters ends at once
  have ends {s' : Scan} (kind : documented c = .none) (tracks' : Tracks .text s') :
      Tracks (Expect.command.step c) s' := by
    rw [Expect.step, Expect.next, if_pos (by rw [kind]; trivial)]
    exact tracks'
  -- one with parameters waits for the first
  have waits {s' : Scan} (kind : documented c ≠ .none) (incomplete : ¬ (documented c).Complete [])
      (esc' : s'.escMode = true) (cmd' : s'.cmd = translate850 c) (ctr : s'.ctr = 0)
      (fields : Fields c [] s') : Tracks (Expect.command.step c) s' := by
    rw [Expect.step, Expect.next, if_neg incomplete]
    have same : translate850 c = c := translate850_of_ne fun eol => kind (by rw [eol]; rfl)
    exact ⟨esc', cmd'.trans same, fun zero => kind (by rw [zero]; rfl), ctr, fields⟩
  rw [pdfHandleChar, esc, if_pos rfl, counted]
  cases branch : escape (translate850 c) with
  | unended =>
      rcases (escape_eq_unended _).mp branch with hash | o
      · exact absurd ((translate850_eq_iff (by decide) (by decide)).mp hash) careful.1
      · exact absurd ((translate850_eq_iff (by decide) (by decide)).mp o) careful.2
  | reset =>
      simp only [execute, branch]
      exact ends (by rw [← params, branch]; rfl) (tracks_resetCmd rfl)
  | immediate actions =>
      simp only [execute, branch]
      exact ends (by rw [← params, branch]; rfl) (tracks_resetCmd text)
  | one actions implemented =>
      have kind : documented c = .one := by rw [← params, branch]; rfl
      simp only [execute, branch, gt_iff_lt, Nat.lt_irrefl, if_false]
      refine waits (by simp [kind]) (by simp [kind, Params.Complete]) esc rfl rfl ?_
      rw [Fields, kind]
      exact ⟨rfl, text⟩
  | formLength =>
      have kind : documented c = .formLength := by rw [← params, branch]; rfl
      simp only [execute, branch, Nat.zero_ne_one, false_and, if_false,
        show ¬ (0 : Nat) = 2 by decide]
      refine waits (by simp [kind]) (by simp [kind, Params.Complete]) esc rfl rfl ?_
      rw [Fields, kind]
      exact ⟨.inl rfl, text⟩
  | tabs =>
      have kind : documented c = .tabs := by rw [← params, branch]; rfl
      have same := escape_eq_tabs branch
      have no : ¬ ((translate850 c).toNat % 128 = 0 ∨ 0 > 28) := by
        rw [same]
        decide
      simp only [execute, branch, if_neg no]
      refine waits (by simp [kind]) (by simp [kind, Params.Complete]) esc rfl rfl ?_
      rw [Fields, kind]
      exact ⟨Nat.zero_le _, text⟩
  | graphics =>
      have kind : documented c = .graphics := by rw [← params, branch]; rfl
      simp only [execute, branch, if_true, gt_iff_lt, Nat.not_lt_zero, if_false]
      refine waits (by simp [kind]) (by simp [kind, Params.Complete]) esc rfl rfl ?_
      rw [Fields, kind]
      exact ⟨rfl, .inl rfl⟩

/-- The counter goes on. -/
theorem count_of_ne {s : Scan} (nonzero : s.cmd ≠ 0) (small : s.ctr < 2049) (c : UInt8) :
    count c s =
      if s.ctr = 0 then { s with ctr := 1, N1 := c }
      else if s.ctr = 1 then { s with ctr := 2, N2 := c }
      else if s.ctr = 2 then { s with ctr := 3, N := graphicsLength s.N1 s.N2 }
      else { s with ctr := s.ctr + 1 } := by
  have next : (s.ctr + 1) % 65536 = s.ctr + 1 := Nat.mod_eq_of_lt (by omega)
  simp only [count, if_neg nonzero, next]
  split_ifs <;> simp_all [graphicsLength]

/-- The byte of a parameter. -/
theorem Tracks.params {s : Scan} {cmd : UInt8} {got : List UInt8}
    (tracks : Tracks (.params cmd got) s) {c : UInt8} (careful : Careful (.params cmd got) c) :
    Tracks ((Expect.params cmd got).step c) (pdfHandleChar (translate850 c) s).2 := by
  obtain ⟨esc, rfl, nonzero, ctr, fields⟩ := tracks
  have params := escape_params s.cmd
  have ends {s' : Scan} (complete : (documented s.cmd).Complete (got ++ [c]))
      (tracks' : Tracks .text s') : Tracks ((Expect.params s.cmd got).step c) s' := by
    rw [Expect.step, Expect.next, if_pos complete]
    exact tracks'
  have waits {s' : Scan} (incomplete : ¬ (documented s.cmd).Complete (got ++ [c]))
      (esc' : s'.escMode = true) (cmd' : s'.cmd = s.cmd) (ctr' : s'.ctr = got.length + 1)
      (fields : Fields s.cmd (got ++ [c]) s') :
      Tracks ((Expect.params s.cmd got).step c) s' := by
    rw [Expect.step, Expect.next, if_neg incomplete]
    exact ⟨esc', cmd', nonzero, by rw [ctr', List.length_append]; rfl, fields⟩
  rw [pdfHandleChar, esc, if_pos rfl]
  rw [Fields] at fields
  cases branch : escape s.cmd with
  | unended | reset | immediate actions =>
      rw [← params, branch] at fields
      exact fields.elim
  | one actions implemented =>
      have kind : documented s.cmd = .one := by rw [← params, branch]; rfl
      rw [kind] at fields
      obtain ⟨rfl, text⟩ := fields
      have zero : s.ctr = 0 := ctr
      rw [count_of_ne nonzero (by omega), if_pos zero]
      simp only [execute, branch, gt_iff_lt, Nat.lt_one_iff, if_true]
      exact ends (by simp [kind, Params.Complete]) (tracks_resetCmd text)
  | formLength =>
      have kind : documented s.cmd = .formLength := by rw [← params, branch]; rfl
      have unchanged : translate850 c = 0 ↔ c = 0 :=
        translate850_eq_iff (by decide) (by decide)
      rw [kind] at fields
      obtain ⟨rfl | rfl, text⟩ := fields
      · have zero : s.ctr = 0 := ctr
        rw [count_of_ne nonzero (by omega), if_pos zero]
        simp only [execute, branch, true_and, gt_iff_lt]
        by_cases again : c = 0
        · have last : translate850 c = 0 := unchanged.mpr again
          simp only [last, UInt8.lt_irrefl, if_false, show ¬ (1 : Nat) = 2 by decide]
          refine waits (by simp [kind, Params.Complete, again]) esc rfl rfl ?_
          rw [Fields, kind, again]
          exact ⟨.inr rfl, text⟩
        · have positive : 0 < translate850 c := UInt8.pos_iff_ne_zero.mpr (mt unchanged.mp again)
          rw [if_pos positive]
          exact ends (by simp [kind, Params.Complete, again]) (tracks_resetCmd text)
      · have one : s.ctr = 1 := ctr
        rw [count_of_ne nonzero (by omega), if_neg (by omega), if_pos one]
        simp only [execute, branch, show ¬ (2 : Nat) = 1 by decide, false_and, if_false, if_true]
        exact ends (by simp [kind, Params.Complete]) (tracks_resetCmd text)
  | tabs =>
      have kind : documented s.cmd = .tabs := by rw [← params, branch]; rfl
      have terminator : (translate850 c).toNat % 128 = 0 ↔ c.toNat % 128 = 0 := by
        rw [translate850]
        split_ifs with eol
        · rw [eol]
          decide
        · exact Iff.rfl
      rw [kind] at fields
      obtain ⟨few, text⟩ := fields
      obtain ⟨t, counted, esc', cmd', ctr', text'⟩ : ∃ t, count (translate850 c) s = t ∧
          t.escMode = true ∧ t.cmd = s.cmd ∧ t.ctr = got.length + 1 ∧ t.textMode = true := by
        refine ⟨_, count_of_ne nonzero (by omega) _, ?_⟩
        split_ifs <;> exact ⟨esc, rfl, by dsimp only; omega, text⟩
      have complete : (documented s.cmd).Complete (got ++ [c]) ↔
          (translate850 c).toNat % 128 = 0 ∨ t.ctr > 28 := by
        simp [kind, Params.Complete, terminator, ctr']
      simp only [counted, execute, cmd', branch]
      by_cases done : (documented s.cmd).Complete (got ++ [c])
      · rw [if_pos (complete.mp done)]
        exact ends done (tracks_resetCmd text')
      · rw [if_neg (mt complete.mpr done)]
        refine waits done esc' cmd' ctr' ?_
        rw [Fields, kind]
        have few' := mt (fun many => complete.mpr (.inr many)) done
        exact ⟨by simp only [List.length_append, List.length_singleton]; omega, text'⟩
  | graphics =>
      have kind : documented s.cmd = .graphics := by rw [← params, branch]; rfl
      rw [kind] at fields
      obtain ⟨gfx, rfl | ⟨n1, rfl, first⟩ | ⟨n1, n2, data, rfl, first, second, short, known⟩⟩ :=
        fields
      · obtain ⟨plain, -⟩ := careful kind (by decide)
        have zero : s.ctr = 0 := ctr
        rw [translate850_of_ne plain, count_of_ne nonzero (by omega), if_pos zero]
        simp only [execute, branch, Nat.one_ne_zero, if_false, gt_iff_lt,
          show ¬ 2 < 1 by decide]
        refine waits (by simp [kind, Params.Complete]) esc rfl rfl ?_
        rw [Fields, kind]
        exact ⟨gfx, .inr (.inl ⟨c, rfl, rfl⟩)⟩
      · obtain ⟨plain, positive⟩ := careful kind (by simp)
        have one : s.ctr = 1 := ctr
        rw [translate850_of_ne plain, count_of_ne nonzero (by omega), if_neg (by omega), if_pos one]
        simp only [execute, branch, gt_iff_lt, Nat.lt_irrefl, if_false,
          show ¬ (2 : Nat) = 0 by decide]
        refine waits ?_ esc rfl rfl ?_
        · rw [kind]
          exact fun empty => positive n1 rfl empty.symm
        · rw [Fields, kind]
          exact ⟨gfx, .inr (.inr ⟨n1, c, [], rfl, first, rfl,
            Nat.pos_of_ne_zero (positive n1 rfl), nofun⟩)⟩
      · have bound := Expect.graphicsLength_lt n1 n2
        have ctr : s.ctr = data.length + 2 := ctr
        obtain ⟨t, counted, esc', cmd', ctr', N, gfx'⟩ : ∃ t, count (translate850 c) s = t ∧
            t.escMode = true ∧ t.cmd = s.cmd ∧ t.ctr = data.length + 3 ∧
            t.N = graphicsLength n1 n2 ∧ t.N1 = n1 ∧ t.N2 = n2 ∧ t.textMode = false := by
          refine ⟨_, count_of_ne nonzero (by omega) _, ?_⟩
          rw [if_neg (by omega), if_neg (by omega)]
          split_ifs with three
          · exact ⟨esc, rfl, by dsimp only; omega, by rw [first, second], first, second, gfx⟩
          · refine ⟨esc, rfl, by dsimp only; omega, known fun none => ?_, first, second, gfx⟩
            simp [none] at ctr
            omega
        have complete : (documented s.cmd).Complete (n1 :: n2 :: data ++ [c]) ↔
            t.ctr = t.N + 2 := by
          simp only [kind, List.cons_append, Params.Complete, List.length_append,
            List.length_singleton, ctr', N]
          omega
        have counting : t.ctr ≠ 0 := by omega
        have behind : t.ctr > 2 := by omega
        simp only [counted, execute, cmd', branch, if_neg counting, if_pos behind]
        by_cases done : (documented s.cmd).Complete (n1 :: n2 :: data ++ [c])
        · rw [if_pos (complete.mp done)]
          exact ends done (tracks_resetCmd rfl)
        · rw [if_neg (mt complete.mpr done)]
          refine waits done esc' cmd' ctr' ?_
          rw [Fields, kind]
          obtain ⟨first', second', gfx''⟩ := gfx'
          refine ⟨gfx'', .inr (.inr ⟨n1, n2, data ++ [c], rfl, first', second', ?_, fun _ => N⟩)⟩
          have more := mt complete.mpr done
          simp only [List.length_append, List.length_singleton]
          omega

theorem Tracks.step {expect : Expect} {s : Scan} (tracks : Tracks expect s) {c : UInt8}
    (careful : Careful expect c) : Tracks (expect.step c) (pdfHandleChar (translate850 c) s).2 := by
  cases expect with
  | text => exact tracks.text c
  | command => exact tracks.command careful
  | params cmd got => exact tracks.params careful

/-! ## Records -/

/-- A record of careful bytes, in which an end of line is the last. -/
def CarefulRecord : Expect → List UInt8 → Prop
  | _, [] => True
  | expect, c :: rest =>
    Careful expect c ∧ (c = atasciiEol → rest = []) ∧ CarefulRecord (expect.step c) rest

instance decidableCarefulRecord (expect : Expect) (record : List UInt8) :
    Decidable (CarefulRecord expect record) :=
  match record with
  | [] => .isTrue trivial
  | c :: rest =>
    have := decidableCarefulRecord (expect.step c) rest
    inferInstanceAs (Decidable (Careful expect c ∧ (c = atasciiEol → rest = []) ∧
      CarefulRecord (expect.step c) rest))

/-- Careful records, one after another. -/
def CarefulRun : Expect → List (List UInt8) → Prop
  | _, [] => True
  | expect, record :: records =>
    CarefulRecord expect record ∧ CarefulRun (expect.run record) records

instance decidableCarefulRun (expect : Expect) (records : List (List UInt8)) :
    Decidable (CarefulRun expect records) :=
  match records with
  | [] => .isTrue trivial
  | record :: records =>
    have := decidableCarefulRun (expect.run record) records
    inferInstanceAs (Decidable (CarefulRecord expect record ∧
      CarefulRun (expect.run record) records))

theorem Tracks.processBuffer {expect : Expect} {s : Scan} (tracks : Tracks expect s)
    {record : List UInt8} (careful : CarefulRecord expect record) :
    Tracks (expect.run record) (processBuffer record s).2 := by
  induction record generalizing expect s with
  | nil => exact tracks
  | cons c rest ih =>
      obtain ⟨here, last, behind⟩ := careful
      have stepped := tracks.step here
      rw [Epson80.processBuffer]
      split_ifs with eol
      · rw [last eol]
        exact stepped
      · exact ih stepped behind

theorem Tracks.print {expect : Expect} {s : Scan} (tracks : Tracks expect s)
    {records : List (List UInt8)} (careful : CarefulRun expect records) :
    Tracks (expect.run records.flatten) (print records s) := by
  induction records generalizing expect s with
  | nil => exact tracks
  | cons record records ih =>
      rw [List.flatten_cons, Expect.run_append]
      exact ih (tracks.processBuffer careful.1) careful.2

theorem tracks_escMode {expect : Expect} {s : Scan} (tracks : Tracks expect s) :
    s.escMode = true ↔ expect ≠ .text := by
  cases expect with
  | text => simp [tracks.1]
  | command => simp [tracks.1]
  | params cmd got => simp [tracks.1]

/-- A command that does not end goes on with every byte. -/
theorem pdfHandleChar_of_unended {s : Scan} (esc : s.escMode = true) (nonzero : s.cmd ≠ 0)
    (unended : escape s.cmd = .unended) (c : UInt8) :
    (pdfHandleChar c s).2.escMode = true ∧ (pdfHandleChar c s).2.cmd = s.cmd := by
  have counted : (count c s).escMode = true ∧ (count c s).cmd = s.cmd := by
    simp only [count, if_neg nonzero]
    split_ifs <;> exact ⟨esc, rfl⟩
  rw [pdfHandleChar, if_pos esc, execute, counted.2, unended]
  exact counted

theorem print_of_unended {s : Scan} (esc : s.escMode = true) (nonzero : s.cmd ≠ 0)
    (unended : escape s.cmd = .unended) (records : List (List UInt8)) :
    (print records s).escMode = true := by
  have record (bytes : List UInt8) (s : Scan) (esc : s.escMode = true) (nonzero : s.cmd ≠ 0)
      (unended : escape s.cmd = .unended) :
      (processBuffer bytes s).2.escMode = true ∧ (processBuffer bytes s).2.cmd = s.cmd := by
    induction bytes generalizing s with
    | nil => exact ⟨esc, rfl⟩
    | cons c rest ih =>
        obtain ⟨esc', cmd'⟩ := pdfHandleChar_of_unended esc nonzero unended (translate850 c)
        rw [processBuffer]
        split_ifs with eol
        · exact ⟨esc', cmd'⟩
        · have more := ih _ esc' (cmd' ▸ nonzero) (cmd' ▸ unended)
          exact ⟨more.1, more.2.trans cmd'⟩
  induction records generalizing s with
  | nil => exact esc
  | cons bytes records ih =>
      obtain ⟨esc', cmd'⟩ := record bytes s esc nonzero unended
      exact ih esc' (cmd' ▸ nonzero) (cmd' ▸ unended)

end FujiNet.PrinterEmulator.Epson80
