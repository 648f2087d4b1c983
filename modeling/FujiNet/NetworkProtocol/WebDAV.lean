import FujiNet.Utils.Strings

/-!
# The listing of a WebDAV directory

An XML parser calls `WebDAV` at the start and the end of each element and with the text between, of
which it may give one piece at a time. A response of the server is put into the entries when its
element ends. Each piece of a text takes the place of the one before, and what a response does not
have is left over from the response before.
-/

namespace FujiNet.WebDAV

open Utils

/-- `DAVEntry`. -/
structure DAVEntry where
  filename : List UInt8 := []
  fileSize : List UInt8 := []
deriving DecidableEq, Repr

/-- The members of `WebDAV`. Nothing initialises the flags. -/
structure Handler where
  entries : List DAVEntry
  currentEntry : DAVEntry
  insideResponse : Bool
  insideDisplayName : Bool
  insideGetContentLength : Bool
deriving DecidableEq, Repr

inductive XmlEvent
  | start (el : List UInt8)
  | finish (el : List UInt8)
  | char (s : List UInt8)
deriving DecidableEq, Repr

def RESPONSE : List UInt8 := ascii "D:response"
def DISPLAYNAME : List UInt8 := ascii "D:displayname"
def GETCONTENTLENGTH : List UInt8 := ascii "D:getcontentlength"

namespace Handler

/-- `Start`. -/
def start (el : List UInt8) (w : Handler) : Handler :=
  if el = RESPONSE then { w with insideResponse := true }
  else if el = DISPLAYNAME then { w with insideDisplayName := true }
  else if el = GETCONTENTLENGTH then { w with insideGetContentLength := true }
  else w

/-- `End`. -/
def finish (el : List UInt8) (w : Handler) : Handler :=
  if el = RESPONSE then
    { w with
      insideResponse := false
      entries := w.entries ++ [w.currentEntry] }
  else if el = DISPLAYNAME then { w with insideDisplayName := false }
  else if el = GETCONTENTLENGTH then { w with insideGetContentLength := false }
  else w

/-- `Char`. -/
def char (s : List UInt8) (w : Handler) : Handler :=
  if w.insideResponse = true then
    if w.insideDisplayName = true then { w with currentEntry := { w.currentEntry with filename := s } }
    else if w.insideGetContentLength = true then
      { w with currentEntry := { w.currentEntry with fileSize := s } }
    else w
  else w

def handle (w : Handler) : XmlEvent → Handler
  | .start el => w.start el
  | .finish el => w.finish el
  | .char s => w.char s

/-- The calls of the parser, one after the other. -/
def parse (events : List XmlEvent) (w : Handler) : Handler := events.foldl handle w

theorem parse_append (events events' : List XmlEvent) (w : Handler) :
    w.parse (events ++ events') = (w.parse events).parse events' := List.foldl_append

theorem parse_cons (event : XmlEvent) (events : List XmlEvent) (w : Handler) :
    w.parse (event :: events) = (w.handle event).parse events := rfl

end Handler

/-! ## Answers -/

/-- The start or the end of another element, or a piece of text. -/
def XmlEvent.Other : XmlEvent → Prop
  | .start el => el ≠ RESPONSE ∧ el ≠ DISPLAYNAME ∧ el ≠ GETCONTENTLENGTH
  | .finish el => el ≠ RESPONSE ∧ el ≠ DISPLAYNAME ∧ el ≠ GETCONTENTLENGTH
  | .char _ => True

/-- Text, with other elements among it. -/
abbrev Content := List { e : XmlEvent // e.Other }

/-- The pieces in which a text is given. -/
def pieces (content : Content) : List (List UInt8) :=
  content.filterMap fun e =>
    match e.val with
    | .char s => some s
    | _ => none

/-- The whole text. -/
def textOf (content : Content) : List UInt8 := (pieces content).flatten

/-- What a response holds, one after the other. -/
inductive Part
  | other (e : { e : XmlEvent // e.Other })
  | displayname (content : Content)
  | getcontentlength (content : Content)

def Part.isDisplayname : Part → Bool
  | .displayname _ => true
  | _ => false

def Part.isGetcontentlength : Part → Bool
  | .getcontentlength _ => true
  | _ => false

/-- The text of a display name in the part. -/
def Part.nameContent : Part → Content
  | .displayname content => content
  | _ => []

/-- The text of a content length in the part. -/
def Part.sizeContent : Part → Content
  | .getcontentlength content => content
  | _ => []

/-- A response has at most one display name and one content length, in any order. -/
structure Response where
  parts : List Part
  one_name : parts.countP Part.isDisplayname ≤ 1
  one_size : parts.countP Part.isGetcontentlength ≤ 1

namespace Response

variable (r : Response)

/-- The content of its display name, nothing if it has none. -/
def name : Content := (r.parts.find? Part.isDisplayname).elim [] Part.nameContent

def size : Content := (r.parts.find? Part.isGetcontentlength).elim [] Part.sizeContent

/-- The entry for it. -/
def entry : DAVEntry := ⟨textOf r.name, textOf r.size⟩

end Response

/-- What stands at the top of an answer. -/
inductive Item
  | other (e : { e : XmlEvent // e.Other })
  | response (r : Response)

abbrev Answer := List Item

def contentEvents (content : Content) : List XmlEvent := content.map (·.val)

def Part.events : Part → List XmlEvent
  | .other e => [e.val]
  | .displayname content => .start DISPLAYNAME :: contentEvents content ++ [.finish DISPLAYNAME]
  | .getcontentlength content =>
    .start GETCONTENTLENGTH :: contentEvents content ++ [.finish GETCONTENTLENGTH]

def Item.events : Item → List XmlEvent
  | .other e => [e.val]
  | .response r => .start RESPONSE :: r.parts.flatMap Part.events ++ [.finish RESPONSE]

def eventsOf (answer : Answer) : List XmlEvent := answer.flatMap Item.events

/-- The responses of an answer. -/
def responses (answer : Answer) : List Response :=
  answer.filterMap fun item =>
    match item with
    | .other _ => none
    | .response r => some r

/-- Text is given in one piece, apart from empty ones; where none is given, the text of the response
before was empty. -/
def Delivered (before : List UInt8) (content : Content) : Prop :=
  if pieces content = [] then before = []
  else ∀ piece ∈ (pieces content).dropLast, piece = []

/-- All the texts of the responses are delivered so; `before` is the entry in front of them. -/
def AllDelivered : DAVEntry → List Response → Prop
  | _, [] => True
  | before, r :: rs =>
    (Delivered before.filename r.name ∧ Delivered before.fileSize r.size) ∧ AllDelivered r.entry rs

/-- The listing has one entry for each response, with the texts of the response. -/
def Lists (w : Handler) (answer : Answer) : Prop :=
  (w.parse (eventsOf answer)).entries = (responses answer).map Response.entry

/-- A handler in front of an answer; the flags for the two texts are clear. -/
structure Fresh (w : Handler) : Prop where
  entries : w.entries = []
  currentEntry : w.currentEntry = {}
  insideDisplayName : w.insideDisplayName = false
  insideGetContentLength : w.insideGetContentLength = false

/-! ## What the handler keeps -/

section Handler

variable {w : Handler}

theorem handle_start_response : w.handle (.start RESPONSE) = { w with insideResponse := true } := rfl

theorem names_apart :
    (DISPLAYNAME ≠ RESPONSE ∧ GETCONTENTLENGTH ≠ RESPONSE) ∧ GETCONTENTLENGTH ≠ DISPLAYNAME := by
  decide +kernel

theorem handle_start_name : w.handle (.start DISPLAYNAME) = { w with insideDisplayName := true } := by
  rw [Handler.handle, Handler.start, if_neg names_apart.1.1, if_pos rfl]

theorem handle_finish_name :
    w.handle (.finish DISPLAYNAME) = { w with insideDisplayName := false } := by
  rw [Handler.handle, Handler.finish, if_neg names_apart.1.1, if_pos rfl]

theorem handle_start_size :
    w.handle (.start GETCONTENTLENGTH) = { w with insideGetContentLength := true } := by
  rw [Handler.handle, Handler.start, if_neg names_apart.1.2, if_neg names_apart.2,
    if_pos rfl]

theorem handle_finish_size :
    w.handle (.finish GETCONTENTLENGTH) = { w with insideGetContentLength := false } := by
  rw [Handler.handle, Handler.finish, if_neg names_apart.1.2, if_neg names_apart.2,
    if_pos rfl]

/-- Of the other events only text can do something. -/
theorem handle_other (e : { e : XmlEvent // e.Other }) :
    (∃ s, e.val = .char s) ∨ pieces [e] = [] ∧ ∀ w : Handler, w.handle e.val = w := by
  obtain ⟨event, other⟩ := e
  cases event with
  | start el =>
      refine .inr ⟨rfl, fun w => ?_⟩
      rw [Handler.handle, Handler.start, if_neg other.1, if_neg other.2.1, if_neg other.2.2]
  | finish el =>
      refine .inr ⟨rfl, fun w => ?_⟩
      rw [Handler.handle, Handler.finish, if_neg other.1, if_neg other.2.1, if_neg other.2.2]
  | char s => exact .inl ⟨s, rfl⟩

/-- The last piece, or what was there before. -/
def lastPiece (before : List UInt8) (texts : List (List UInt8)) : List UInt8 :=
  texts.getLast?.getD before

theorem lastPiece_append (before : List UInt8) (texts texts' : List (List UInt8)) :
    lastPiece before (texts ++ texts') = lastPiece (lastPiece before texts) texts' := by
  rw [lastPiece, lastPiece, lastPiece, List.getLast?_append]
  cases texts'.getLast? <;> rfl

theorem pieces_append (content content' : Content) :
    pieces (content ++ content') = pieces content ++ pieces content' := List.filterMap_append

theorem pieces_cons (e : { e : XmlEvent // e.Other }) (content : Content) :
    pieces (e :: content) = pieces [e] ++ pieces content := pieces_append [e] content

/-- Outside the two elements text is not kept. -/
theorem handle_clear (name : w.insideDisplayName = false) (size : w.insideGetContentLength = false)
    (e : { e : XmlEvent // e.Other }) : w.handle e.val = w := by
  rcases handle_other e with ⟨s, same⟩ | ⟨-, same⟩
  · rw [same, Handler.handle, Handler.char, name, size]
    simp
  · exact same w

theorem parse_name (inside : w.insideResponse = true) (name : w.insideDisplayName = true)
    (content : Content) : w.parse (contentEvents content) =
      { w with
        currentEntry :=
          { w.currentEntry with
            filename := lastPiece w.currentEntry.filename (pieces content) } } := by
  induction content generalizing w with
  | nil => rfl
  | cons e content ih =>
      rw [pieces_cons, lastPiece_append]
      rcases handle_other e with ⟨s, same⟩ | ⟨none, same⟩
      · have step : w.handle e.val =
            { w with currentEntry := { w.currentEntry with filename := s } } := by
          rw [same, Handler.handle, Handler.char, if_pos inside, if_pos name]
        have piece : pieces [e] = [s] := by
          simp [pieces, same]
        rw [contentEvents, List.map_cons, Handler.parse_cons, step, piece]
        exact ih inside name
      · rw [contentEvents, List.map_cons, Handler.parse_cons, same w, none]
        exact ih inside name

theorem parse_size (inside : w.insideResponse = true) (name : w.insideDisplayName = false)
    (size : w.insideGetContentLength = true) (content : Content) :
    w.parse (contentEvents content) =
      { w with
        currentEntry :=
          { w.currentEntry with
            fileSize := lastPiece w.currentEntry.fileSize (pieces content) } } := by
  induction content generalizing w with
  | nil => rfl
  | cons e content ih =>
      rw [pieces_cons, lastPiece_append]
      rcases handle_other e with ⟨s, same⟩ | ⟨none, same⟩
      · have step : w.handle e.val =
            { w with currentEntry := { w.currentEntry with fileSize := s } } := by
          rw [same, Handler.handle, Handler.char, if_pos inside, if_neg (by simp [name]), if_pos size]
        have piece : pieces [e] = [s] := by
          simp [pieces, same]
        rw [contentEvents, List.map_cons, Handler.parse_cons, step, piece]
        exact ih inside name size
      · rw [contentEvents, List.map_cons, Handler.parse_cons, same w, none]
        exact ih inside name size

/-- What is kept of the contents of a response. -/
def kept (before : DAVEntry) (name size : Content) : DAVEntry :=
  ⟨lastPiece before.filename (pieces name), lastPiece before.fileSize (pieces size)⟩

theorem kept_append (before : DAVEntry) (name name' size size' : Content) :
    kept before (name ++ name') (size ++ size') = kept (kept before name size) name' size' := by
  simp [kept, pieces_append, lastPiece_append]

theorem parse_part (inside : w.insideResponse = true) (name : w.insideDisplayName = false)
    (size : w.insideGetContentLength = false) (p : Part) :
    w.parse p.events =
      { w with currentEntry := kept w.currentEntry p.nameContent p.sizeContent } := by
  cases p with
  | other e => exact handle_clear name size e
  | displayname content =>
      rw [Part.events, List.cons_append, Handler.parse_cons, handle_start_name, Handler.parse_append,
        parse_name (by exact inside) rfl, Handler.parse_cons, handle_finish_name, ← name]
      rfl
  | getcontentlength content =>
      rw [Part.events, List.cons_append, Handler.parse_cons, handle_start_size, Handler.parse_append,
        parse_size (by exact inside) (by exact name) rfl, Handler.parse_cons, handle_finish_size,
        ← size]
      rfl

theorem parse_parts (inside : w.insideResponse = true) (name : w.insideDisplayName = false)
    (size : w.insideGetContentLength = false) (parts : List Part) :
    w.parse (parts.flatMap Part.events) =
      { w with
        currentEntry :=
          kept w.currentEntry (parts.flatMap Part.nameContent) (parts.flatMap Part.sizeContent) } := by
  induction parts generalizing w with
  | nil => rfl
  | cons p parts ih =>
      rw [List.flatMap_cons, Handler.parse_append, parse_part inside name size, List.flatMap_cons,
        List.flatMap_cons, kept_append]
      exact ih inside name size

end Handler

/-! ## Responses -/

/-- Of at most one part of a kind, the first one is all that there is. -/
theorem flatMap_of_one {is : Part → Bool} {content : Part → Content}
    (other : ∀ p, is p = false → content p = []) {parts : List Part} (one : parts.countP is ≤ 1) :
    parts.flatMap content = (parts.find? is).elim [] content := by
  induction parts with
  | nil => rfl
  | cons p parts ih =>
      rw [List.flatMap_cons]
      cases here : is p with
      | true =>
          rw [List.countP_cons_of_pos here] at one
          have none : ∀ q ∈ parts, is q = false := by
            intro q mem
            simpa using List.countP_eq_zero.mp (Nat.le_zero.mp (Nat.le_of_succ_le_succ one)) q mem
          have rest : parts.flatMap content = [] :=
            List.flatMap_eq_nil_iff.mpr fun q mem => other q (none q mem)
          rw [List.find?_cons_of_pos here, rest, List.append_nil]
          rfl
      | false =>
          rw [List.countP_cons_of_neg (by simp [here])] at one
          rw [List.find?_cons_of_neg (by simp [here]), other p here, List.nil_append]
          exact ih one

theorem Response.flatMap_name (r : Response) : r.parts.flatMap Part.nameContent = r.name :=
  flatMap_of_one (fun p other => by cases p <;> first | rfl | exact nomatch other) r.one_name

theorem Response.flatMap_size (r : Response) : r.parts.flatMap Part.sizeContent = r.size :=
  flatMap_of_one (fun p other => by cases p <;> first | rfl | exact nomatch other) r.one_size

section Responses

variable {w : Handler}

theorem parse_response (name : w.insideDisplayName = false) (size : w.insideGetContentLength = false)
    (r : Response) : w.parse (Item.response r).events =
      { w with
        entries := w.entries ++ [kept w.currentEntry r.name r.size]
        currentEntry := kept w.currentEntry r.name r.size
        insideResponse := false } := by
  rw [Item.events, List.cons_append, Handler.parse_cons, handle_start_response, Handler.parse_append,
    parse_parts rfl (by exact name) (by exact size), r.flatMap_name, r.flatMap_size]
  rfl

/-- The entries that come out for the responses. -/
def listed : DAVEntry → List Response → List DAVEntry
  | _, [] => []
  | before, r :: rs => kept before r.name r.size :: listed (kept before r.name r.size) rs

theorem entries_parse (name : w.insideDisplayName = false) (size : w.insideGetContentLength = false)
    (answer : Answer) :
    (w.parse (eventsOf answer)).entries = w.entries ++ listed w.currentEntry (responses answer) := by
  induction answer generalizing w with
  | nil => exact (List.append_nil _).symm
  | cons item answer ih =>
      rw [eventsOf, List.flatMap_cons, Handler.parse_append]
      cases item with
      | other e =>
          have same : w.parse (Item.other e).events = w := handle_clear name size e
          rw [same]
          exact ih name size
      | response r =>
          rw [parse_response name size]
          refine (ih (by exact name) (by exact size)).trans ?_
          rw [List.append_assoc]
          rfl

/-- The last piece is the whole text exactly if the text was delivered so. -/
theorem lastPiece_eq_textOf_iff (before : List UInt8) (content : Content) :
    lastPiece before (pieces content) = textOf content ↔ Delivered before content := by
  rw [textOf, Delivered]
  rcases List.eq_nil_or_concat (pieces content) with none | ⟨front, piece, split⟩
  · rw [if_pos none, none]
    rfl
  · rw [List.concat_eq_append] at split
    rw [if_neg (by simp [split]), split, lastPiece, List.getLast?_concat, List.dropLast_concat]
    simp

theorem listed_iff (before : DAVEntry) (rs : List Response) :
    listed before rs = rs.map Response.entry ↔ AllDelivered before rs := by
  induction rs generalizing before with
  | nil => exact iff_of_true rfl trivial
  | cons r rs ih =>
      have here : kept before r.name r.size = r.entry ↔
          Delivered before.filename r.name ∧ Delivered before.fileSize r.size := by
        rw [← lastPiece_eq_textOf_iff, ← lastPiece_eq_textOf_iff, kept, Response.entry, DAVEntry.mk.injEq]
      rw [listed, List.map_cons, List.cons.injEq, AllDelivered, ← here]
      constructor
      · rintro ⟨same, rest⟩
        exact ⟨same, (ih r.entry).mp (same ▸ rest)⟩
      · rintro ⟨same, rest⟩
        exact ⟨same, same ▸ (ih r.entry).mpr rest⟩

end Responses

/-- The listing of an answer is what the responses say exactly if each text is given in one piece, and no
response without a text comes behind one that had it. -/
theorem lists_iff {w : Handler} (fresh : Fresh w) (answer : Answer) :
    Lists w answer ↔ AllDelivered {} (responses answer) := by
  rw [Lists, entries_parse fresh.insideDisplayName fresh.insideGetContentLength, fresh.entries,
    fresh.currentEntry, List.nil_append]
  exact listed_iff {} (responses answer)

/-- A file with a size, and a directory without one. -/
def fileAndDirectory : Answer :=
  [.response ⟨[.displayname [⟨.char (ascii "a"), trivial⟩],
      .getcontentlength [⟨.char (ascii "7"), trivial⟩]], by decide, by decide⟩,
    .response ⟨[.displayname [⟨.char (ascii "b"), trivial⟩]], by decide, by decide⟩]

theorem lists_fileAndDirectory_iff : Lists ⟨[], {}, false, false, false⟩ fileAndDirectory ↔
    AllDelivered {} (responses fileAndDirectory) :=
  lists_iff ⟨rfl, rfl, rfl, rfl⟩ fileAndDirectory

/-- The directory gets the size of the file. -/
theorem directory_keeps_size :
    (Handler.parse (eventsOf fileAndDirectory) ⟨[], {}, false, false, false⟩).entries =
      [⟨ascii "a", ascii "7"⟩, ⟨ascii "b", ascii "7"⟩] ∧
    ¬ Lists ⟨[], {}, false, false, false⟩ fileAndDirectory := by
  have listing : (Handler.parse (eventsOf fileAndDirectory) ⟨[], {}, false, false, false⟩).entries =
      [⟨ascii "a", ascii "7"⟩, ⟨ascii "b", ascii "7"⟩] := by
    decide +kernel
  refine ⟨listing, fun lists => ?_⟩
  rw [Lists, listing] at lists
  revert lists
  decide +kernel

end FujiNet.WebDAV
