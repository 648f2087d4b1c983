import FujiNet.NetworkProtocol.HTTP
import FujiNet.Utils.Strings
import Mathlib.Data.List.AList

/-!
# Setting HTTP headers

A line of the form `name: value` is cut at its first colon. The byte behind the colon is skipped,
whatever it is, and it has to be there. Both texts are then used as C strings, and the client keeps
at most 20 headers.
-/

namespace FujiNet.NetworkProtocol

open Utils

/-- The most headers that a client sends with a request. -/
def REQUEST_HEADERS_MAX : Nat := 20

/-- `mgHttpClient`, after `begin`: the headers that it sends with a request. Their names come from C
strings. -/
structure MgHttpClient where
  requestHeaders : AList fun _ : List UInt8 => List UInt8
  plain : ∀ key ∈ requestHeaders, 0 ∉ key

namespace MgHttpClient

def initial : MgHttpClient where
  requestHeaders := ∅
  plain := fun key mem => absurd mem (AList.notMem_empty key)

/-- `set_header` -/
def setHeader (headerKey headerValue : List UInt8) (client : MgHttpClient) : Bool × MgHttpClient :=
  if REQUEST_HEADERS_MAX ≤ client.requestHeaders.keys.length then (false, client)
  else
    (true,
      { requestHeaders := client.requestHeaders.insert (cStr headerKey) (cStr headerValue)
        plain := by
          intro key mem
          rcases (AList.mem_insert _).mp mem with rfl | before
          · exact zero_notMem_cStr headerKey
          · exact client.plain key before })

variable {client : MgHttpClient} {headerKey headerValue : List UInt8}

theorem requestHeaders_setHeader
    (room : client.requestHeaders.keys.length < REQUEST_HEADERS_MAX) :
    (client.setHeader headerKey headerValue).2.requestHeaders =
      client.requestHeaders.insert (cStr headerKey) (cStr headerValue) := by
  rw [setHeader, if_neg (Nat.not_le.mpr room)]

theorem setHeader_of_full (full : REQUEST_HEADERS_MAX ≤ client.requestHeaders.keys.length) :
    client.setHeader headerKey headerValue = (false, client) :=
  if_pos full

end MgHttpClient

/-- The part of a write that counts: what is in front of the first line end. -/
def incomingHeader (buf : List UInt8) : List UInt8 := buf.takeWhile (· ≠ 0x9B)

/-- `write_file_handle_set_header`: whether it fails, and the client. `none` is the exception that
`substr` throws for a position behind the end. What the client answers is not looked at. -/
def writeFileHandleSetHeader (buf : List UInt8) (client : MgHttpClient) :
    Option (Bool × MgHttpClient) :=
  match find [0x3A] (incomingHeader buf) with
  | none => some (true, client)
  | some (_, []) => none
  | some (key, _ :: rest) =>
    let val := cStr rest
    some (false, (client.setHeader (utilStringTrim key) (utilStringTrim val)).2)

/-- The headers are those from before, but for `name`, which has `value` now. -/
def MgHttpClient.Sets (client client' : MgHttpClient) (name value : List UInt8) : Prop :=
  ∀ key, client'.requestHeaders.lookup key =
    if key = name then some value else client.requestHeaders.lookup key

/-- A write of `buf` is not aborted. It fails if there is no colon in the line, and sets the header
that the first colon cuts out of it otherwise. -/
def SetsHeader (buf : List UInt8) (client : MgHttpClient) : Prop :=
  ∃ fails client', writeFileHandleSetHeader buf client = some (fails, client') ∧
    (fails = true ↔ 0x3A ∉ incomingHeader buf) ∧
    ∀ name value, incomingHeader buf = name ++ 0x3A :: value → 0x3A ∉ name →
      client.Sets client' (utilStringTrim name) (utilStringTrim value)

/-- Something follows the first colon. If the client has room for a header, then it is white space,
and there is no NUL in the line; otherwise the client has this header already. -/
def TakesHeader (buf : List UInt8) (client : MgHttpClient) : Prop :=
  ∀ name value, incomingHeader buf = name ++ 0x3A :: value → 0x3A ∉ name →
    ∃ c rest, value = c :: rest ∧
      if client.requestHeaders.keys.length < REQUEST_HEADERS_MAX then
        isSpace c = true ∧ 0 ∉ incomingHeader buf
      else client.requestHeaders.lookup (utilStringTrim name) = some (utilStringTrim value)

/-- A client with room sets a header unless its name is cut; one without room leaves its headers. -/
theorem MgHttpClient.sets_setHeader_iff {client : MgHttpClient} {key val value : List UInt8} :
    client.Sets (client.setHeader key val).2 key value ↔
      if client.requestHeaders.keys.length < REQUEST_HEADERS_MAX then 0 ∉ key ∧ cStr val = value
      else client.requestHeaders.lookup key = some value := by
  by_cases room : client.requestHeaders.keys.length < REQUEST_HEADERS_MAX
  · rw [if_pos room]
    constructor
    · intro sets
      have there := sets key
      rw [if_pos rfl] at there
      have plain : 0 ∉ key := by
        refine (client.setHeader key val).2.plain key ?_
        rw [← AList.lookup_isSome, there]
        rfl
      rw [requestHeaders_setHeader room, cStr_of_notMem plain, AList.lookup_insert] at there
      exact ⟨plain, Option.some.inj there⟩
    · rintro ⟨plain, rfl⟩ other
      rw [requestHeaders_setHeader room, cStr_of_notMem plain]
      split_ifs with here
      · rw [here]
        exact AList.lookup_insert _
      · exact AList.lookup_insert_ne here
  · rw [if_neg room, setHeader_of_full (Nat.not_lt.mp room)]
    constructor
    · intro sets
      rw [sets key, if_pos rfl]
    · intro there other
      split_ifs with here
      · rwa [here]
      · rfl

/-- What is behind the colon is taken as it is if the byte that is skipped is white space and no NUL
cuts it. -/
theorem utilStringTrim_cStr_iff {c : UInt8} {rest : List UInt8} :
    utilStringTrim (cStr rest) = utilStringTrim (c :: rest) ↔ isSpace c = true ∧ 0 ∉ c :: rest := by
  have ink : isSpace 0 = false := rfl
  constructor
  · intro same
    have plain : 0 ∉ c :: rest := by
      intro mem
      have kept := (mem_utilStringTrim_iff ink).mpr mem
      rw [← same] at kept
      exact zero_notMem_cStr rest ((mem_utilStringTrim_iff ink).mp kept)
    refine ⟨?_, plain⟩
    rw [cStr_of_notMem fun mem => plain (List.mem_cons_of_mem c mem)] at same
    by_contra other
    exact utilStringTrim_cons_ne (Bool.eq_false_iff.mpr other) same.symm
  · rintro ⟨space, plain⟩
    rw [cStr_of_notMem fun mem => plain (List.mem_cons_of_mem c mem), utilStringTrim_cons space]

/-- A write in the mode for headers that are sent does what it should for the lines that the client
takes. -/
theorem setsHeader_iff (buf : List UInt8) (client : MgHttpClient) :
    SetsHeader buf client ↔ TakesHeader buf client := by
  rw [SetsHeader, TakesHeader, writeFileHandleSetHeader]
  cases found : find [0x3A] (incomingHeader buf) with
  | none =>
      have absent := find_eq_none_iff.mp found
      have noCut (name value : List UInt8) : incomingHeader buf ≠ name ++ 0x3A :: value := by
        intro cut
        rw [cut] at absent
        exact absent (List.mem_append_right _ List.mem_cons_self)
      exact iff_of_true
        ⟨true, client, rfl, iff_of_true rfl absent, fun _ _ cut => absurd cut (noCut _ _)⟩
        fun _ _ cut => absurd cut (noCut _ _)
  | some pair =>
      obtain ⟨key, val⟩ := pair
      obtain ⟨cut, first⟩ := find_eq_some_iff.mp found
      have colon : 0x3A ∈ incomingHeader buf := cut ▸ List.mem_append_right _ List.mem_cons_self
      -- the first colon cuts the line in one way only
      have unique {name value : List UInt8} (cut' : incomingHeader buf = name ++ 0x3A :: value)
          (first' : 0x3A ∉ name) : key = name ∧ val = value := by
        have same := found.symm.trans (find_eq_some_iff.mpr ⟨cut', first'⟩)
        exact Prod.mk.inj (Option.some.inj same)
      cases val with
      | nil =>
          refine iff_of_false ?_ fun takes => ?_
          · rintro ⟨_, _, done, -⟩
            cases done
          · obtain ⟨_, _, nothing, -⟩ := takes key [] cut first
            cases nothing
      | cons c rest =>
          have plain : 0 ∉ utilStringTrim (cStr rest) := fun mem =>
            zero_notMem_cStr rest ((mem_utilStringTrim_iff rfl).mp mem)
          have zero : 0 ∉ incomingHeader buf ↔ 0 ∉ key ∧ 0 ∉ c :: rest := by
            rw [cut, List.mem_append, List.mem_cons, not_or, not_or]
            exact and_congr_right fun _ => and_iff_right (by decide)
          have sets : client.Sets
              (client.setHeader (utilStringTrim key) (utilStringTrim (cStr rest))).2
              (utilStringTrim key) (utilStringTrim (c :: rest)) ↔
              if client.requestHeaders.keys.length < REQUEST_HEADERS_MAX then
                isSpace c = true ∧ 0 ∉ incomingHeader buf
              else client.requestHeaders.lookup (utilStringTrim key) =
                some (utilStringTrim (c :: rest)) := by
            rw [MgHttpClient.sets_setHeader_iff, cStr_of_notMem plain, utilStringTrim_cStr_iff,
              zero, mem_utilStringTrim_iff rfl, and_left_comm]
          constructor
          · rintro ⟨_, _, done, -, set'⟩ name value cut' first'
            obtain ⟨rfl, rfl⟩ := unique cut' first'
            cases done
            exact ⟨c, rest, rfl, sets.mp (set' _ _ cut' first')⟩
          · intro takes
            obtain ⟨_, _, same, taken⟩ := takes key _ cut first
            obtain ⟨rfl, rfl⟩ := List.cons.inj same
            refine ⟨false, _, rfl, iff_of_false Bool.false_ne_true (not_not.mpr colon), ?_⟩
            intro name value cut' first'
            obtain ⟨rfl, rfl⟩ := unique cut' first'
            exact sets.mpr taken

/-- Without a space the first byte of the value is lost. -/
example : (writeFileHandleSetHeader (ascii "X-Test:abc") .initial).map
    (fun done => done.2.requestHeaders.lookup (ascii "X-Test")) = some (some (ascii "bc")) := by
  decide

/-- The value is empty: nothing follows the colon. -/
theorem not_setsHeader_empty : ¬ SetsHeader (ascii "X-Test:" ++ [0x9B]) .initial := by
  rintro ⟨_, _, done, -⟩
  have thrown : writeFileHandleSetHeader (ascii "X-Test:" ++ [0x9B]) .initial = none := rfl
  rw [thrown] at done
  cases done

end FujiNet.NetworkProtocol
