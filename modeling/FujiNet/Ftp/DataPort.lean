import FujiNet.Data.Text
import FujiNet.Ftp.Response
import FujiNet.Utils.Strings

/-!
# The port for the data connection

The reply to `EPSV` names a port as `(|||port|)`. It is looked for three bytes behind the first bar,
in a piece of the text that is as long as the text in front of the last bar. Whether there are bars
is not looked at: without them the search starts behind the first two digits of the reply.
-/

namespace FujiNet.Ftp

open Utils

/-- `std::string::npos`. -/
def npos : Nat := 18446744073709551615

/-- `s.substr(pos, len)`, with `none` for `std::out_of_range`. -/
def substr (s : List UInt8) (pos len : Nat) : Option (List UInt8) :=
  if pos ≤ s.length then some ((s.drop pos).take len) else none

/-- `atoi(s.c_str())`. -/
def atoi (s : List UInt8) : Int := Text.atoi ((cStr s).map fun c => Char.ofNat c.toNat)

def BAR : UInt8 := 0x7C

/-- `find_first_of("|") + 3`, which is 2 for `npos`. -/
def portPosBeg (controlResponse : List UInt8) : Nat :=
  (find [BAR] controlResponse).elim 2 fun cut => cut.1.length + 3

/-- `find_last_of("|")`. -/
def portPosEnd (controlResponse : List UInt8) : Nat :=
  (findLast BAR controlResponse).elim npos fun cut => cut.1.length

/-- How `get_data_port` ends: with an error and no connection, with an exception, or with an attempt
to connect to a port and the error that is reported then. -/
inductive DataPort
  | refused
  | thrown
  | connect (dataPort : UInt16) (err : Bool)
deriving DecidableEq

/-- The reply says that the command failed. -/
def isNegative (controlResponse : List UInt8) : Bool :=
  controlResponse.head? = some 0x35 || controlResponse.head? = some 0x34

/-- What `get_data_port` does with a reply that is not negative, where the server accepts
connections to the ports that `opens` says. -/
def peelDataPort (opens : UInt16 → Bool) (controlResponse : List UInt8) : DataPort :=
  match substr controlResponse (portPosBeg controlResponse) (portPosEnd controlResponse) with
  | none => .thrown
  | some text =>
    let dataPort := UInt16.ofInt (atoi text)
    .connect dataPort (!opens dataPort)

/-- `get_data_port`, where `control` has what the server sends after `EPSV`. -/
def getDataPort (fuel : Nat) (opens : UInt16 → Bool) (control : Control) : Option DataPort :=
  (parseResponse fuel control).map fun response =>
    if response.err then .refused
    else if isNegative response.controlResponse then .refused
    else peelDataPort opens response.controlResponse

/-! ## Numbers -/

/-- The number that digits stand for. -/
def number (digits : List UInt8) : Nat := digits.foldl (fun n c => 10 * n + (c.toNat - 0x30)) 0

theorem toNat_charOfNat (c : UInt8) : (Char.ofNat c.toNat).toNat = c.toNat := by
  have lt := c.toNat_lt
  have valid : c.toNat.isValidChar := .inl (by omega)
  rw [Char.ofNat, dif_pos valid]
  rfl

theorem isDigit_charOfNat (c : UInt8) : (Char.ofNat c.toNat).isDigit = isDigit c := by
  have bounds := c.toNat_lt
  rw [Bool.eq_iff_iff]
  simp only [Char.isDigit, isDigit, Bool.and_eq_true, decide_eq_true_eq, ge_iff_le,
    UInt32.le_iff_toNat_le, UInt8.le_iff_toNat_le]
  have same : (Char.ofNat c.toNat).val.toNat = c.toNat := toNat_charOfNat c
  rw [same]
  rfl

theorem ofDigitChars_charOfNat (digits : List UInt8) :
    Nat.ofDigitChars 10 (digits.map fun c => Char.ofNat c.toNat) 0 = number digits := by
  rw [Nat.ofDigitChars_eq_foldl, List.foldl_map, number]
  simp only [toNat_charOfNat]
  rfl

theorem ne_zero_of_isDigit {c : UInt8} (digit : isDigit c = true) : c ≠ 0 := by
  rintro rfl
  cases digit

/-- `atoi` reads a port up to the bar. -/
theorem atoi_digits {digits : List UInt8} (digit : ∀ c ∈ digits, isDigit c = true)
    (nonempty : digits ≠ []) (small : number digits < 65536) (rest : List UInt8) :
    atoi (digits ++ BAR :: rest) = number digits := by
  have text : cStr (digits ++ BAR :: rest) = digits ++ BAR :: cStr rest := by
    rw [cStr, List.takeWhile_append_of_pos fun c mem => ?_, List.takeWhile_cons_of_pos rfl]
    · rfl
    · rw [decide_eq_true_eq]
      exact ne_zero_of_isDigit (digit c mem)
  rw [atoi, text, List.map_append, Text.atoi_append, ofDigitChars_charOfNat]
  · simp only [List.mem_map]
    rintro _ ⟨c, mem, rfl⟩
    rw [isDigit_charOfNat, digit c mem]
  · simpa using nonempty
  · rintro _ ⟨⟩
    rfl
  · rw [ofDigitChars_charOfNat]
    omega

/-! ## Replies -/

/-- The text has `(|||port|)` in it, with no bar in front. -/
def Announces (controlResponse : List UInt8) (port : UInt16) : Prop :=
  ∃ before digits after,
    controlResponse = before ++ [0x28, BAR, BAR, BAR] ++ digits ++ [BAR, 0x29] ++ after ∧
      BAR ∉ before ∧ (∀ c ∈ digits, isDigit c = true) ∧ number digits = port.toNat ∧ 0 < port

/-- The port that is announced is the one that is connected to; without one there is an error and no
connection. -/
def Obeys (opens : UInt16 → Bool) (controlResponse : List UInt8) (outcome : DataPort) : Prop :=
  (∀ port, Announces controlResponse port → outcome = .connect port (!opens port)) ∧
    ((∀ port, ¬ Announces controlResponse port) → outcome = .refused)

/-- A reply is taken, and its first digit says that the command did not fail. -/
def Response.Positive (response : Response) : Prop :=
  response.err = false ∧ ∃ c ∈ response.controlResponse.head?, c = 0x31 ∨ c = 0x32 ∨ c = 0x33

/-- The search starts three bytes behind the first bar. -/
theorem portPosBeg_append {front : List UInt8} (absent : BAR ∉ front) (back : List UInt8) :
    portPosBeg (front ++ BAR :: back) = front.length + 3 := by
  rw [portPosBeg, find_append absent]
  rfl

/-- Every bar is in front of the last one, or it is the last one. -/
theorem le_portPosEnd (front back : List UInt8) :
    front.length ≤ portPosEnd (front ++ BAR :: back) := by
  by_cases later : BAR ∈ back
  · obtain ⟨cut, found⟩ : ∃ cut, findLast BAR back = some cut := by
      rw [← Option.isSome_iff_exists, ← Option.ne_none_iff_isSome]
      exact fun none => findLast_eq_none_iff.mp none later
    obtain ⟨rfl, absent⟩ := findLast_eq_some found
    rw [portPosEnd, ← List.cons_append, ← List.append_assoc, findLast_append absent]
    simp
  · rw [portPosEnd, findLast_append later]
    exact Nat.le_refl _

theorem peelDataPort_of_announces {opens : UInt16 → Bool} {controlResponse : List UInt8}
    {port : UInt16} (announces : Announces controlResponse port) :
    peelDataPort opens controlResponse = .connect port (!opens port) := by
  obtain ⟨before, digits, after, rfl, absent, digit, same, pos⟩ := announces
  have nonempty : digits ≠ [] := by
    rintro rfl
    rw [UInt16.lt_iff_toNat_lt, ← same] at pos
    exact absurd pos (Nat.lt_irrefl 0)
  have small : number digits < 65536 := same ▸ port.toNat_lt
  have beg : portPosBeg (before ++ [0x28, BAR, BAR, BAR] ++ digits ++ [BAR, 0x29] ++ after) =
      (before ++ [0x28, BAR, BAR, BAR]).length := by
    have absent' : BAR ∉ before ++ [0x28] := by
      rw [List.mem_append, not_or]
      exact ⟨absent, by decide⟩
    have split : before ++ [0x28, BAR, BAR, BAR] ++ digits ++ [BAR, 0x29] ++ after =
        (before ++ [0x28]) ++ BAR :: (BAR :: BAR :: digits ++ [BAR, 0x29] ++ after) := by simp
    rw [split, portPosBeg_append absent', List.length_append, List.length_append]
    rfl
  have last : digits.length <
      portPosEnd (before ++ [0x28, BAR, BAR, BAR] ++ digits ++ [BAR, 0x29] ++ after) := by
    have split : before ++ [0x28, BAR, BAR, BAR] ++ digits ++ [BAR, 0x29] ++ after =
        (before ++ [0x28, BAR, BAR, BAR] ++ digits) ++ BAR :: 0x29 :: after := by simp
    have le := le_portPosEnd (before ++ [0x28, BAR, BAR, BAR] ++ digits) (0x29 :: after)
    rw [split]
    rw [List.length_append, List.length_append, List.length_cons] at le
    omega
  obtain ⟨more, text⟩ : ∃ more,
      substr (before ++ [0x28, BAR, BAR, BAR] ++ digits ++ [BAR, 0x29] ++ after)
        (portPosBeg (before ++ [0x28, BAR, BAR, BAR] ++ digits ++ [BAR, 0x29] ++ after))
        (portPosEnd (before ++ [0x28, BAR, BAR, BAR] ++ digits ++ [BAR, 0x29] ++ after)) =
      some (digits ++ BAR :: more) := by
    rw [substr, beg, if_pos (by simp)]
    obtain ⟨k, len⟩ := Nat.exists_eq_add_of_lt last
    refine ⟨(0x29 :: after).take k, ?_⟩
    rw [len, List.append_assoc, List.append_assoc, List.drop_left, Nat.add_assoc,
      List.take_length_add_append]
    rfl
  have read : UInt16.ofInt (atoi (digits ++ BAR :: more)) = port := by
    have fits : ((port.toNat : Int) % 2 ^ 16).toNat = port.toNat := by
      have lt := port.toNat_lt
      omega
    rw [atoi_digits digit nonempty small, same, UInt16.ofInt, fits, UInt16.ofNat_toNat]
  rw [peelDataPort, text]
  dsimp only
  rw [read]

/-- A reply that is not negative is always taken for one with a port. -/
theorem peelDataPort_ne_refused (opens : UInt16 → Bool) (controlResponse : List UInt8) :
    peelDataPort opens controlResponse ≠ .refused := by
  rw [peelDataPort]
  split <;> exact nofun

/-- A positive reply to `EPSV` leads to the right port, or to an error before the connection, if and
only if it announces a port. -/
theorem getDataPort_obeys_iff {fuel : Nat} {opens : UInt16 → Bool} {control : Control}
    {response : Response} (parsed : parseResponse fuel control = some response)
    (positive : response.Positive) :
    (∃ outcome, getDataPort fuel opens control = some outcome ∧
      Obeys opens response.controlResponse outcome) ↔
      ∃ port, Announces response.controlResponse port := by
  obtain ⟨taken, digit, first, digits⟩ := positive
  have passes : isNegative response.controlResponse = false := by
    rw [isNegative, first]
    rcases digits with rfl | rfl | rfl <;> rfl
  have done : getDataPort fuel opens control =
      some (peelDataPort opens response.controlResponse) := by
    rw [getDataPort, parsed, Option.map_some, taken, passes]
    rfl
  constructor
  · rintro ⟨outcome, same, -, refuses⟩
    obtain rfl : peelDataPort opens response.controlResponse = outcome :=
      Option.some.inj (done.symm.trans same)
    by_contra silent
    exact peelDataPort_ne_refused opens _ (refuses (not_exists.mp silent))
  · rintro ⟨port, announces⟩
    refine ⟨_, done, fun port' announces' => peelDataPort_of_announces announces', fun silent => ?_⟩
    exact absurd announces (silent port)

set_option maxRecDepth 2048 in
/-- The reply to `EPSV` in the form of the standard. -/
theorem getDataPort_obeys :
    ∃ outcome, getDataPort 30 (fun _ => true) (atOnce (ascii "229 (|||6446|)" ++ [CR, LF])) =
      some outcome ∧ Obeys (fun _ => true) (ascii "229 (|||6446|)") outcome := by
  have parsed : parseResponse 30 (atOnce (ascii "229 (|||6446|)" ++ [CR, LF])) =
      some ⟨false, 229, ascii "229 (|||6446|)", []⟩ := rfl
  have announces : Announces (ascii "229 (|||6446|)") 6446 :=
    ⟨ascii "229 ", ascii "6446", [], by decide, by decide, by decide, by decide, by decide⟩
  exact (getDataPort_obeys_iff parsed ⟨rfl, 0x32, rfl, .inr (.inl rfl)⟩).mpr ⟨6446, announces⟩

/-- Without bars the port is the last digit of the number of the reply. -/
example : getDataPort 30 (fun _ => true) (atOnce (ascii "229 ok" ++ [CR, LF])) =
    some (.connect 9 false) := rfl

/-- One bar at the end: the search starts behind the end of the text. -/
theorem getDataPort_thrown :
    let control := atOnce (ascii "229 |" ++ [CR, LF])
    ∃ response, parseResponse 30 control = some response ∧ response.Positive ∧
      ¬ ∃ outcome, getDataPort 30 (fun _ => true) control = some outcome ∧
        Obeys (fun _ => true) response.controlResponse outcome := by
  refine ⟨⟨false, 229, ascii "229 |", []⟩, rfl, ⟨rfl, 0x32, rfl, .inr (.inl rfl)⟩, ?_⟩
  rintro ⟨outcome, done, announced, refuses⟩
  have thrown : getDataPort 30 (fun _ => true) (atOnce (ascii "229 |" ++ [CR, LF])) =
      some .thrown := rfl
  obtain rfl : .thrown = outcome := Option.some.inj (thrown.symm.trans done)
  by_cases silent : ∀ port, ¬ Announces (ascii "229 |") port
  · exact nomatch refuses silent
  · obtain ⟨port, announces⟩ := not_forall_not.mp silent
    exact nomatch announced port announces

end FujiNet.Ftp
