import Mathlib.Data.List.DropRight

/-!
# Text as C programs read and write it

Strings are lists of characters without a terminator. The functions below are
those of the C library that a hand-written reader of text files uses: white
space and case in the C locale, and decimal numbers. A number that does not fit
a `long` is read as the nearest one that does, and `atoi` keeps its low 32 bits.
-/

namespace FujiNet.Text

/-! ## White space -/

/-- `isspace` in the C locale. -/
def isSpace (c : Char) : Bool :=
  c = ' ' || c = '\t' || c = '\n' || c = '\x0b' || c = '\x0c' || c = '\r'

def ltrim (s : List Char) : List Char := s.dropWhile isSpace

def rtrim (s : List Char) : List Char := s.rdropWhile isSpace

def trim (s : List Char) : List Char := rtrim (ltrim s)

/-- Neither the first nor the last character is white space. -/
def Trimmed (s : List Char) : Prop :=
  (∀ c ∈ s.head?, isSpace c = false) ∧ ∀ c ∈ s.getLast?, isSpace c = false

theorem ltrim_eq_self_iff {s : List Char} :
    ltrim s = s ↔ ∀ c ∈ s.head?, isSpace c = false := by
  cases s with
  | nil => simp [ltrim]
  | cons c s =>
      by_cases space : isSpace c = true
      · have shorter : (ltrim (c :: s)).length ≠ (c :: s).length := by
          have := (List.dropWhile_suffix isSpace (l := s)).length_le
          simp only [ltrim, List.dropWhile_cons_of_pos space, List.length_cons]
          omega
        simp only [List.head?_cons, Option.mem_some_iff, forall_eq', space]
        exact iff_of_false (fun same => shorter (congrArg List.length same)) (by simp)
      · simp [ltrim, List.dropWhile_cons_of_neg space, space]

theorem rtrim_eq_self_iff {s : List Char} :
    rtrim s = s ↔ ∀ c ∈ s.getLast?, isSpace c = false := by
  rw [rtrim, List.rdropWhile_eq_self_iff]
  rcases s.eq_nil_or_concat with rfl | ⟨init, last, rfl⟩
  · simp
  · simp

theorem length_rtrim_le (s : List Char) : (rtrim s).length ≤ s.length :=
  (List.rdropWhile_prefix isSpace s).length_le

theorem trim_eq_self_iff {s : List Char} : trim s = s ↔ Trimmed s := by
  constructor
  · intro same
    have left : ltrim s = s := by
      refine (List.dropWhile_suffix isSpace).eq_of_length_le ?_
      calc s.length = (trim s).length := by rw [same]
        _ ≤ (ltrim s).length := length_rtrim_le _
    refine ⟨ltrim_eq_self_iff.mp left, rtrim_eq_self_iff.mp ?_⟩
    rwa [trim, left] at same
  · rintro ⟨first, last⟩
    rw [trim, ltrim_eq_self_iff.mpr first, rtrim_eq_self_iff.mpr last]

instance decidableTrimmed (s : List Char) : Decidable (Trimmed s) :=
  decidable_of_iff (trim s = s) trim_eq_self_iff

theorem Trimmed.trim {s : List Char} (trimmed : Trimmed s) : Text.trim s = s :=
  trim_eq_self_iff.mpr trimmed

theorem mem_of_mem_trim {s : List Char} {c : Char} (h : c ∈ trim s) : c ∈ s :=
  (List.dropWhile_suffix isSpace).subset ((List.rdropWhile_prefix isSpace _).subset h)

/-- What has no white space in it at all. -/
theorem Trimmed.of_forall {s : List Char} (free : ∀ c ∈ s, isSpace c = false) : Trimmed s :=
  ⟨fun c first => free c (List.mem_of_mem_head? first),
    fun c last => free c (List.mem_of_mem_getLast? last)⟩

/-! ## C strings -/

/-- What a `char *` that points at `s` stands for. -/
def cString (s : List Char) : List Char := s.takeWhile (· ≠ '\x00')

theorem cString_eq_self_iff {s : List Char} : cString s = s ↔ '\x00' ∉ s := by
  rw [cString, List.takeWhile_eq_self_iff]
  constructor
  · intro free mem
    simpa using free _ mem
  · intro free c mem
    have ne : c ≠ '\x00' := fun e => free (e ▸ mem)
    simpa using ne

theorem nul_notMem_cString (s : List Char) : '\x00' ∉ cString s := by
  intro mem
  simpa using List.mem_takeWhile_imp mem

/-! ## Comparisons without regard to case -/

/-- `strcasecmp(a, b) == 0`. -/
def strcasecmp (a b : List Char) : Bool := a.map Char.toLower = b.map Char.toLower

/-- A string equals at most one of two names that differ in more than case. -/
theorem strcasecmp_of_ne {n a b : List Char} (h : strcasecmp n a = true)
    (ne : strcasecmp a b = false) : strcasecmp n b = false := by
  simp only [strcasecmp, decide_eq_true_eq, decide_eq_false_iff_not] at h ne ⊢
  rwa [h]

/-- `strncasecmp(a, b, n) == 0`. -/
def strncasecmp (a b : List Char) (n : Nat) : Bool := strcasecmp (a.take n) (b.take n)

/-- The position of the first of `names` that is `s`, or their number. -/
def nameIndex (names : List (List Char)) (s : List Char) : Nat :=
  names.findIdx (strcasecmp · s)

/-! ## Decimal numbers -/

/-- What `<<` writes for an integer. -/
def decimal : Int → List Char
  | .ofNat n => Nat.toDigits 10 n
  | .negSucc n => '-' :: Nat.toDigits 10 (n + 1)

/-- The optional sign in front of the digits, and what follows it. -/
def sign : List Char → Bool × List Char
  | '-' :: s => (true, s)
  | '+' :: s => (false, s)
  | s => (false, s)

/-- The number in front of `s`, whatever its size; no digits are zero. -/
def leadingInt (s : List Char) : Int :=
  let (negative, digits) := sign (ltrim s)
  let value : Int := Nat.ofDigitChars 10 (digits.takeWhile Char.isDigit) 0
  if negative then -value else value

/-- `strtol` with base 10. -/
def strtol (s : List Char) : Int :=
  max (-9223372036854775808) (min 9223372036854775807 (leadingInt s))

/-- `atoi`: the result of `strtol` as an `int`. -/
def atoi (s : List Char) : Int := (strtol s).bmod 4294967296

def isInt32 (i : Int) : Bool := -2147483648 ≤ i && i ≤ 2147483647

/-- `std::stoi`, with `none` for its two exceptions. -/
def stoi (s : List Char) : Option Int :=
  if ((sign (ltrim s)).2.takeWhile Char.isDigit) = [] then none
  else if isInt32 (leadingInt s) then some (leadingInt s) else none

theorem isSpace_of_isDigit {c : Char} (digit : c.isDigit = true) : isSpace c = false := by
  have ne {d : Char} (other : d.isDigit = false) : c ≠ d := by
    rintro rfl
    rw [digit] at other
    cases other
  have space : c ≠ ' ' := ne rfl
  have tab : c ≠ '\t' := ne rfl
  have vtab : c ≠ '\x0b' := ne rfl
  have feed : c ≠ '\x0c' := ne rfl
  have ret : c ≠ '\r' := ne rfl
  have newline : c ≠ '\n' := ne rfl
  simp [isSpace, space, tab, newline, vtab, feed, ret]

theorem isDigit_of_mem_toDigits {c : Char} {n : Nat} (h : c ∈ Nat.toDigits 10 n) :
    c.isDigit = true :=
  Nat.isDigit_of_mem_toDigits (by decide) (by decide) h

/-- The characters of a written number. -/
theorem mem_decimal {c : Char} {i : Int} (h : c ∈ decimal i) : c = '-' ∨ c.isDigit = true := by
  cases i with
  | ofNat n => exact .inr (isDigit_of_mem_toDigits h)
  | negSucc n =>
      rcases List.mem_cons.mp h with rfl | h
      · exact .inl rfl
      · exact .inr (isDigit_of_mem_toDigits h)

theorem isSpace_of_mem_decimal {c : Char} {i : Int} (h : c ∈ decimal i) : isSpace c = false := by
  rcases mem_decimal h with rfl | digit
  · rfl
  · exact isSpace_of_isDigit digit

theorem trimmed_decimal (i : Int) : Trimmed (decimal i) :=
  .of_forall fun _ h => isSpace_of_mem_decimal h

theorem sign_toDigits (n : Nat) : sign (Nat.toDigits 10 n) = (false, Nat.toDigits 10 n) := by
  cases h : Nat.toDigits 10 n with
  | nil => rfl
  | cons c rest =>
      have digit : c.isDigit = true := isDigit_of_mem_toDigits (h ▸ List.mem_cons_self)
      unfold sign
      split
      · simp_all
      · simp_all
      · rfl

theorem takeWhile_toDigits (n : Nat) :
    (Nat.toDigits 10 n).takeWhile Char.isDigit = Nat.toDigits 10 n :=
  List.takeWhile_eq_self_iff.mpr fun _ => isDigit_of_mem_toDigits

theorem ltrim_decimal (i : Int) : ltrim (decimal i) = decimal i :=
  ltrim_eq_self_iff.mpr (trimmed_decimal i).1

theorem leadingInt_decimal (i : Int) : leadingInt (decimal i) = i := by
  rw [leadingInt, ltrim_decimal]
  cases i with
  | ofNat n =>
      simp [decimal, sign_toDigits, takeWhile_toDigits]
  | negSucc n =>
      simp [decimal, sign, takeWhile_toDigits, Int.negSucc_eq]

theorem atoi_decimal {i : Int} (fits : isInt32 i = true) : atoi (decimal i) = i := by
  simp only [isInt32, Bool.and_eq_true, decide_eq_true_eq] at fits
  have inRange : max (-9223372036854775808) (min 9223372036854775807 i) = i := by omega
  rw [atoi, strtol, leadingInt_decimal, inRange]
  exact Int.bmod_eq_of_le (by omega) (by omega)

theorem stoi_decimal {i : Int} (fits : isInt32 i = true) : stoi (decimal i) = some i := by
  have some_digit : (sign (ltrim (decimal i))).2.takeWhile Char.isDigit ≠ [] := by
    rw [ltrim_decimal]
    cases i with
    | ofNat n => simp [decimal, sign_toDigits, takeWhile_toDigits]
    | negSucc n => simp [decimal, sign, takeWhile_toDigits]
  rw [stoi, if_neg some_digit, leadingInt_decimal, if_pos fits]

/-- The number is the one of the digits up to the first character that is none. -/
theorem leadingInt_append {digits rest : List Char} (digit : ∀ c ∈ digits, c.isDigit = true)
    (nonempty : digits ≠ []) (stop : ∀ c ∈ rest.head?, c.isDigit = false) :
    leadingInt (digits ++ rest) = Nat.ofDigitChars 10 digits 0 := by
  obtain ⟨first, more, rfl⟩ := List.exists_cons_of_ne_nil nonempty
  have isDigit : first.isDigit = true := digit first List.mem_cons_self
  have noSpace : ltrim (first :: more ++ rest) = first :: more ++ rest := by
    refine ltrim_eq_self_iff.mpr fun c head => ?_
    obtain rfl : first = c := Option.some.inj head
    exact isSpace_of_isDigit isDigit
  have unsigned : sign (first :: more ++ rest) = (false, first :: more ++ rest) := by
    rw [List.cons_append]
    unfold sign
    split
    · rename_i minus
      obtain ⟨rfl, -⟩ := List.cons.inj minus
      cases isDigit
    · rename_i plus
      obtain ⟨rfl, -⟩ := List.cons.inj plus
      cases isDigit
    · rfl
  have stops : rest.takeWhile Char.isDigit = [] := by
    cases rest with
    | nil => rfl
    | cons c rest => exact List.takeWhile_cons_of_neg (by rw [stop c rfl]; exact Bool.false_ne_true)
  rw [leadingInt, noSpace, unsigned]
  dsimp only
  rw [if_neg Bool.false_ne_true, List.takeWhile_append_of_pos digit, stops, List.append_nil]

/-- A small number is read as it is. -/
theorem atoi_append {digits rest : List Char} (digit : ∀ c ∈ digits, c.isDigit = true)
    (nonempty : digits ≠ []) (stop : ∀ c ∈ rest.head?, c.isDigit = false)
    (small : Nat.ofDigitChars 10 digits 0 < 2147483648) :
    atoi (digits ++ rest) = Nat.ofDigitChars 10 digits 0 := by
  rw [atoi, strtol, leadingInt_append digit nonempty stop]
  generalize Nat.ofDigitChars 10 digits 0 = n at small
  have inRange : max (-9223372036854775808) (min 9223372036854775807 (n : Int)) = n := by omega
  rw [inRange]
  exact Int.bmod_eq_of_le (by omega) (by omega)

end FujiNet.Text
