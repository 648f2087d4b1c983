import Mathlib
import FujiNet.Data.Bytes

/-!
# Values of a JSON document

`FNJSON` resolves a query to an item of the parsed document and turns the item into text. Items
hang together as in `cJSON`: an object or an array has a first child, and each child a next one.
The text of a number is part of its item.
-/

namespace FujiNet.FNJSON

mutual

/-- `cJSON`. -/
inductive Item
  | string (valuestring : List UInt8)
  | bool (value : Bool)
  | null
  | number (text : List UInt8)
  | object (child : Children)
  | array (child : Children)
  | other

/-- The children of an item, each with its `string`. -/
inductive Children
  | none
  | next (string : List UInt8) (item : Item) (next : Children)

end

/-! ## `cJSONUtils_GetPointer` -/

/-- `tolower`. -/
def tolower (c : UInt8) : UInt8 := if 65 ≤ c ∧ c ≤ 90 then c + 32 else c

/-- `compare_pointers`, of a name with the pointer up to its next '/'. -/
def comparePointers : List UInt8 → List UInt8 → Bool
  | name, [] => name.isEmpty
  | [], p :: _ => p == 0x2F
  | c :: name, p :: pointer =>
    if p = 0x2F then false
    else if p = 0x7E then
      match pointer with
      | [] => false
      | e :: pointer =>
        if e = 0x30 ∧ c = 0x7E ∨ e = 0x31 ∧ c = 0x2F then comparePointers name pointer else false
    else if tolower c ≠ tolower p then false
    else comparePointers name pointer

/-- `decode_array_index_from_pointer`. Only the first byte is compared with '9'. -/
def decodeArrayIndexFromPointer (pointer : List UInt8) : Option Nat :=
  if pointer.head? = some 0x30 ∧ (pointer.tail.head?.any (· ≠ 0x2F)) then none
  else
    let digits := if pointer.head?.any (· ≤ 0x39) then pointer.takeWhile (0x30 ≤ ·) else []
    if (pointer.drop digits.length).head?.any (· ≠ 0x2F) then none
    else some (digits.foldl (fun index c => (10 * index + (c.toNat - 0x30)) % 2 ^ 64) 0)

/-- `get_array_item`. -/
def getArrayItem : Children → Nat → Option Item
  | .none, _ => none
  | .next _ item _, 0 => some item
  | .next _ _ next, index + 1 => getArrayItem next index

/-- The first child with the name. -/
def getObjectItem (pointer : List UInt8) : Children → Option Item
  | .none => none
  | .next string item next =>
    if comparePointers string pointer then some item else getObjectItem pointer next

/-- `get_item_from_pointer`. -/
def getItemFromPointer (currentElement : Option Item) (pointer : List UInt8) : Option Item :=
  match pointer, currentElement with
  | [], _ => currentElement
  | _ :: _, none => none
  | p :: pointer, some item =>
    if p ≠ 0x2F then some item
    else
      let rest := pointer.dropWhile (· ≠ 0x2F)
      match item with
      | .array child =>
        match decodeArrayIndexFromPointer pointer with
        | none => none
        | some index => getItemFromPointer (getArrayItem child index) rest
      | .object child => getItemFromPointer (getObjectItem pointer child) rest
      | _ => none
termination_by pointer.length
decreasing_by
  all_goals
    have less := (List.dropWhile_suffix (· ≠ 0x2F) (l := pointer)).length_le
    simp only [List.length_cons]
    omega

/-- `resolveQuery`. -/
def resolveQuery (json : Option Item) (queryString : List UInt8) : Option Item :=
  if queryString = [] then json else getItemFromPointer json queryString

/-! ## Texts -/

/-- One pass of the loop in `processString` that takes out a tag, at a '<' found at `startpos`. An
erasure of nothing leaves the loop where it is, and one of a negative length erases the rest. -/
def eraseTag (text : List UInt8) (startpos : Nat) : Option (List UInt8) :=
  let endpos := ((text.findIdx? (· = 0x3E)).map (· + 1)).getD 0
  if endpos = startpos then none
  else if startpos < endpos then some (text.take startpos ++ text.drop endpos)
  else some (text.take startpos)

theorem length_eraseTag {text shorter : List UInt8} {startpos : Nat}
    (found : text.findIdx? (· = 0x3C) = some startpos)
    (erased : eraseTag text startpos = some shorter) : shorter.length < text.length := by
  have inside : startpos < text.length := (List.findIdx?_eq_some_iff_findIdx_eq.mp found).1
  rw [eraseTag] at erased
  generalize ((text.findIdx? (· = 0x3E)).map (· + 1)).getD 0 = endpos at erased
  split_ifs at erased with same before
  · rw [← Option.some.inj erased, List.length_append, List.length_take, List.length_drop]
    omega
  · rw [← Option.some.inj erased, List.length_take]
    omega

/-- The loop in `processString`; `none` if it is never left. -/
def stripTags (text : List UInt8) : Option (List UInt8) :=
  match _found : text.findIdx? (· = 0x3C) with
  | none => some text
  | some startpos =>
    match _erased : eraseTag text startpos with
    | none => none
    | some text => stripTags text
termination_by text.length
decreasing_by exact length_eraseTag _found _erased

/-- Replace the first occurrence. -/
def replaceFirst (old new : List UInt8) : List UInt8 → List UInt8
  | [] => []
  | c :: text =>
    if old <+: c :: text then new ++ (c :: text).drop old.length else c :: replaceFirst old new text

/-- The bytes of a literal of the source. -/
def bytes (s : String) : List UInt8 := s.toUTF8.toList

/-- `mapFrom` and `mapTo` for the international character set. The literal for the first letter is
the empty string, since it ends at its NUL. -/
def MAP_INTERNATIONAL : List (List UInt8 × List UInt8) :=
  (["á", "ù", "Ñ", "É", "ç", "ô", "ò", "ì", "£", "ï", "ü", "ä", "Ö", "ú", "ó", "ö", "Ü", "â", "û",
    "î", "é", "è", "ñ", "ê", "å", "à", "Å", "¡", "Ä", "ß"].map bytes).zip
  ([] :: ((List.range 26).map fun i => [UInt8.ofNat (i + 1)]) ++ [[0x60], [0x7B], bytes "ss"])

/-- `mapFrom` and `mapTo` without it. -/
def MAP_ASCII : List (List UInt8 × List UInt8) :=
  (["Ä", "Ö", "Ü", "ä", "ö", "ü", "ß", "é", "è", "á", "à", "ó", "ò", "ú", "ù"].map bytes).zip
  (["Ae", "Oe", "Ue", "ae", "oe", "ue", "ss", "e", "e", "a", "a", "o", "o", "u", "u"].map bytes)

/-- `processString`. -/
def processString (queryParam : UInt8) (text : List UInt8) : Option (List UInt8) :=
  (stripTags text).map fun text =>
    if queryParam &&& 1 ≠ 0 then
      (if queryParam &&& 2 ≠ 0 then MAP_INTERNATIONAL else MAP_ASCII).foldl
        (fun text (mapFrom, mapTo) => replaceFirst mapFrom mapTo text) text
    else text

/-! ## `getValue` -/

section GetValue

variable (queryParam : UInt8) (lineEnding : List UInt8)

mutual

/-- `getValue` of an item; `none` if it does not return. -/
def getValue : Item → Option (List UInt8)
  | .string valuestring => processString queryParam (valuestring ++ lineEnding)
  | .bool value => some (bytes (if value then "TRUE" else "FALSE") ++ lineEnding)
  | .null => some (bytes "NULL" ++ lineEnding)
  | .number text => some (text ++ lineEnding)
  | .object .none => some lineEnding
  | .object (.next string item next) => getMembers (.next string item next)
  -- The loop over the children follows `next` of a child that is not there.
  | .array .none => none
  | .array (.next string item next) => getElements (.next string item next)
  | .other => some (bytes "UNKNOWN" ++ lineEnding)

/-- The children of an object, each after its name. -/
def getMembers : Children → Option (List UInt8)
  | .none => some []
  | .next string item next =>
    (getValue item).bind fun value =>
    (getMembers next).map fun rest => string ++ lineEnding ++ value ++ rest

/-- The children of an array. -/
def getElements : Children → Option (List UInt8)
  | .none => some []
  | .next _ item next =>
    (getValue item).bind fun value =>
    (getElements next).map fun rest => value ++ rest

end

end GetValue

end FujiNet.FNJSON
