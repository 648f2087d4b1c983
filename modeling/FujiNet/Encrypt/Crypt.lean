import FujiNet.Data.Text

/-!
# The cipher for stored passphrases

`Crypto::crypt` runs over the text one character at a time. A printable character
is replaced by another printable one; the running key then takes in both of them
and a counter, the salt. Since the sum is the same from either side, a second run
over the result meets the same running keys and undoes the first.
-/

namespace FujiNet.Crypto

open Text

/-- The static variables of `myencrypt`. -/
structure State where
  key : Nat
  salt : Nat
deriving DecidableEq, Repr

/-- `key` after the overflow is stripped off and bit 29 is fed back. -/
def State.fedBack (s : State) : Nat :=
  let key := s.key &&& 0x1FFFFFFF
  if key &&& 0x10000000 ≠ 0 then key ^^^ 0x0040A001 else key

/-- `mod95`: the four loops leave the remainder between 0 and 94. -/
def mod95 (val : Int) : Int := val % 95

/-- Only these characters are enciphered. -/
def printable (c : Char) : Bool := 32 ≤ c.toNat && c.toNat ≤ 126

/-- The character that takes the place of `c`. -/
def encipher (s : State) (c : Char) : Char :=
  Char.ofNat (mod95 ((s.fedBack % 95 : Nat) - (c.toNat - 32 : Int)) + 32).toNat

def nextSalt (salt : Nat) : Nat := if salt + 1 ≥ 20857 then 0 else salt + 1

/-- The key and the salt after a printable character. -/
def State.next (s : State) (clear cipher : Char) : State :=
  { key := s.fedBack + s.fedBack + cipher.toNat + clear.toNat + nextSalt s.salt
    salt := nextSalt s.salt }

/-- The loop of `myencrypt`: the static variables afterwards and the new text. -/
def myencrypt : State → List Char → State × List Char
  | s, [] => (s, [])
  | s, c :: rest =>
    if printable c then
      let (s', out) := myencrypt (s.next c (encipher s c)) rest
      (s', encipher s c :: out)
    else
      let (s', out) := myencrypt s rest
      (s', c :: out)

/-- The state in which the text is met: reset, and run over the key. -/
def start (key : List Char) : State := (myencrypt ⟨0, 0⟩ (cString key)).1

/-- `Crypto::crypt` with `_key`. Both copies end at a NUL character. -/
def crypt (key t : List Char) : List Char := (myencrypt (start key) (cString t)).2

theorem toNat_encipher (s : State) (c : Char) :
    ((encipher s c).toNat : Int) = mod95 ((s.fedBack % 95 : Nat) - (c.toNat - 32 : Int)) + 32 := by
  have low : 0 ≤ mod95 ((s.fedBack % 95 : Nat) - (c.toNat - 32 : Int)) :=
    Int.emod_nonneg _ (by decide)
  have high : mod95 ((s.fedBack % 95 : Nat) - (c.toNat - 32 : Int)) < 95 :=
    Int.emod_lt_of_pos _ (by decide)
  have valid : (mod95 ((s.fedBack % 95 : Nat) - (c.toNat - 32 : Int)) + 32).toNat.isValidChar :=
    .inl (by omega)
  rw [encipher, Char.ofNat, dif_pos valid]
  exact Int.toNat_of_nonneg (by omega)

theorem printable_encipher (s : State) (c : Char) : printable (encipher s c) = true := by
  have value := toNat_encipher s c
  have low : 0 ≤ mod95 ((s.fedBack % 95 : Nat) - (c.toNat - 32 : Int)) :=
    Int.emod_nonneg _ (by decide)
  have high : mod95 ((s.fedBack % 95 : Nat) - (c.toNat - 32 : Int)) < 95 :=
    Int.emod_lt_of_pos _ (by decide)
  simp only [printable, Bool.and_eq_true, decide_eq_true_eq]
  omega

/-- The Beaufort step is its own inverse. -/
theorem encipher_encipher (s : State) {c : Char} (h : printable c = true) :
    encipher s (encipher s c) = c := by
  apply Char.toNat_inj.mp
  simp only [printable, Bool.and_eq_true, decide_eq_true_eq] at h
  have twice := toNat_encipher s (encipher s c)
  have once := toNat_encipher s c
  simp only [mod95] at once twice
  omega

theorem next_comm (s : State) (a b : Char) : s.next a b = s.next b a := by
  simp only [State.next]
  congr 1
  omega

theorem myencrypt_myencrypt (s : State) (t : List Char) :
    (myencrypt s (myencrypt s t).2).2 = t := by
  induction t generalizing s with
  | nil => rfl
  | cons c t ih =>
      by_cases h : printable c = true
      · simp only [myencrypt, if_pos h, if_pos (printable_encipher s c), encipher_encipher s h]
        rw [next_comm, ih]
      · simp only [myencrypt, if_neg h]
        rw [ih]

theorem length_myencrypt (s : State) (t : List Char) : (myencrypt s t).2.length = t.length := by
  induction t generalizing s with
  | nil => rfl
  | cons c t ih =>
      by_cases h : printable c = true
      · simp [myencrypt, if_pos h, ih]
      · simp [myencrypt, if_neg h, ih]

/-- A character of the result is printable or was in the text already. -/
theorem mem_myencrypt {s : State} {t : List Char} {c : Char} (h : c ∈ (myencrypt s t).2) :
    printable c = true ∨ c ∈ t := by
  induction t generalizing s with
  | nil => simp [myencrypt] at h
  | cons d t ih =>
      by_cases hd : printable d = true
      · simp only [myencrypt, if_pos hd, List.mem_cons] at h
        rcases h with rfl | h
        · exact .inl (printable_encipher s d)
        · exact (ih h).imp_right (List.mem_cons_of_mem d)
      · simp only [myencrypt, if_neg hd, List.mem_cons] at h
        rcases h with rfl | h
        · exact .inr List.mem_cons_self
        · exact (ih h).imp_right (List.mem_cons_of_mem d)

theorem myencrypt_append (s : State) (t t' : List Char) :
    (myencrypt s (t ++ t')).2 = (myencrypt s t).2 ++ (myencrypt (myencrypt s t).1 t').2 := by
  induction t generalizing s with
  | nil => rfl
  | cons c t ih =>
      by_cases h : printable c = true
      · simp only [List.cons_append, myencrypt, if_pos h, ih]
      · simp only [List.cons_append, myencrypt, if_neg h, ih]

/-- The running key with which a printable character turns into a space. -/
def State.blanks (s : State) (c : Char) : Bool := s.fedBack % 95 = c.toNat - 32

theorem encipher_eq_space_iff (s : State) {c : Char} (h : printable c = true) :
    encipher s c = ' ' ↔ s.blanks c = true := by
  have value := toNat_encipher s c
  simp only [printable, Bool.and_eq_true, decide_eq_true_eq] at h
  simp only [mod95] at value
  have space : (' ').toNat = 32 := rfl
  have below : s.fedBack % 95 < 95 := Nat.mod_lt _ (by decide)
  rw [← Char.toNat_inj, space, State.blanks, decide_eq_true_eq]
  omega

theorem isSpace_iff {c : Char} (h : printable c = true) : isSpace c = true ↔ c = ' ' := by
  constructor
  · intro space
    simp only [isSpace, Bool.or_eq_true, decide_eq_true_eq] at space
    rcases space with ((((rfl | rfl) | rfl) | rfl) | rfl) | rfl
    · rfl
    all_goals cases h
  · rintro rfl
    rfl

/-- Where the cipher text starts with a space. -/
def blankFirst (key t : List Char) : Bool :=
  match t.head? with
  | some c => (start key).blanks c
  | none => false

/-- Where the cipher text ends with a space: the running key is the one after all characters but
the last. -/
def blankLast (key t : List Char) : Bool :=
  match t.getLast? with
  | some c => (myencrypt (start key) t.dropLast).1.blanks c
  | none => false

/-- Which cipher texts keep both of their ends when white space is cut off. -/
theorem trimmed_crypt_iff (key : List Char) {t : List Char} (h : ∀ c ∈ t, printable c = true) :
    Trimmed (crypt key t) ↔ blankFirst key t = false ∧ blankLast key t = false := by
  have free : '\x00' ∉ t := fun mem => nomatch h _ mem
  have visible (s : State) {c : Char} (hc : printable c = true) :
      isSpace (encipher s c) = false ↔ s.blanks c = false := by
    rw [← Bool.not_eq_true, ← Bool.not_eq_true, isSpace_iff (printable_encipher s c),
      encipher_eq_space_iff s hc]
  rw [crypt, cString_eq_self_iff.mpr free, Trimmed]
  refine and_congr ?_ ?_
  · cases t with
    | nil => simp [myencrypt, blankFirst]
    | cons c t =>
        have hc := h c List.mem_cons_self
        simp only [myencrypt, if_pos hc, List.head?_cons, Option.mem_some_iff, forall_eq',
          blankFirst]
        exact visible _ hc
  · rcases List.eq_nil_or_concat t with rfl | ⟨front, c, rfl⟩
    · simp [myencrypt, blankLast]
    · have hc : printable c = true := h c (by simp)
      rw [List.concat_eq_append, myencrypt_append]
      simp only [myencrypt, if_pos hc, List.getLast?_append, List.getLast?_singleton,
        Option.some_or, Option.mem_some_iff, forall_eq', blankLast, List.dropLast_concat]
      exact visible _ hc

theorem nul_notMem_crypt (key t : List Char) : '\x00' ∉ crypt key t := by
  intro mem
  rcases mem_myencrypt mem with printed | inside
  · cases printed
  · exact nul_notMem_cString t inside

/-- Enciphering twice gives the text back. -/
theorem crypt_crypt (key : List Char) {t : List Char} (free : '\x00' ∉ t) :
    crypt key (crypt key t) = t := by
  have same : cString (crypt key t) = crypt key t :=
    cString_eq_self_iff.mpr (nul_notMem_crypt key t)
  have clear : cString t = t := cString_eq_self_iff.mpr free
  rw [crypt, same, crypt, clear, myencrypt_myencrypt]

/-- Printable characters stay printable, and the others stay what they are. -/
theorem forall₂_myencrypt (s : State) (t : List Char) :
    List.Forall₂ (fun c d => if printable c then printable d = true else d = c) t
      (myencrypt s t).2 := by
  induction t generalizing s with
  | nil => exact .nil
  | cons c t ih =>
      by_cases h : printable c = true
      · simp only [myencrypt, if_pos h]
        exact .cons (by rw [if_pos h]; exact printable_encipher s c) (ih _)
      · simp only [myencrypt, if_neg h]
        exact .cons (by rw [if_neg h]) (ih _)

/-- The cipher is its own inverse; it keeps the length, and maps printable characters to printable
ones and all others to themselves. -/
theorem crypt_self_inverse (key t : List Char) (free : '\x00' ∉ t) :
    crypt key (crypt key t) = t ∧ (crypt key t).length = t.length ∧
      List.Forall₂ (fun c d => if printable c then printable d = true else d = c) t
        (crypt key t) := by
  have clear : cString t = t := cString_eq_self_iff.mpr free
  refine ⟨crypt_crypt key free, ?_, ?_⟩
  · rw [crypt, clear, length_myencrypt]
  · rw [crypt, clear]
    exact forall₂_myencrypt _ t

/-- A text with a character that is not printable. -/
theorem crypt_self_inverse_line : crypt "fuji".toList (crypt "fuji".toList "pass\n".toList) =
      "pass\n".toList ∧ (crypt "fuji".toList "pass\n".toList).length = "pass\n".toList.length ∧
      List.Forall₂ (fun c d => if printable c then printable d = true else d = c) "pass\n".toList
        (crypt "fuji".toList "pass\n".toList) :=
  crypt_self_inverse _ _ (by decide)

end FujiNet.Crypto
