import LogTail.Document.Buffer
import LogTail.Record

/-!
# Documents

A document is a line buffer that may refuse some edits: those whose number, counted
over all tries, is among its refusals. A batch of entries goes in as one edit that
appends the entries and trims the oldest lines, so that nobody sees the document
above its budget; views that showed the last line are then moved to the new one.
-/
namespace LogTail

structure Document where
  buffer : Buffer := {}
  /-- Edits tried so far, refused ones included. -/
  tries : Nat := 0
  refusals : List Nat := []
  deriving DecidableEq, Repr, Inhabited

/-- How many lines an append brought and how many it trimmed. -/
structure Appended where
  lines : Nat := 0
  trimmed : Nat := 0
  deriving DecidableEq, Repr, Inhabited

/-- The edit that appends the entries to a document of `count` lines and trims it back
to its budget. -/
def planAppend (count : Nat) (entries : List Entry) (budget : Nat) : Edit :=
  if entries = [] then []
  else
    let text := String.join (entries.map Entry.text)
    let total := count + Text.lineCount text
    .insert count text :: if budget < total then [.delete ⟨0, total - budget⟩] else []

namespace Document

/-- A refused edit leaves the lines and the views as they were. -/
def commit (e : Edit) (d : Document) : Except Fault Unit × Document :=
  let d := { d with tries := d.tries + 1 }
  if d.tries ∈ d.refusals then (.error (.document ("refused edit " ++ toString d.tries)), d)
  else match d.buffer.commit e with
    | .ok b => (.ok (), { d with buffer := b })
    | .error fault => (.error fault, d)

def onBuffer (f : Buffer → Buffer) (d : Document) : Document := { d with buffer := f d.buffer }

def clear (d : Document) : Document := d.onBuffer Buffer.clear

/-- An empty batch makes no edit. -/
def append (budget : Nat) (entries : List Entry) (d : Document) :
    Except Fault Appended × Document :=
  match planAppend d.buffer.count entries budget with
  | [] => (.ok {}, d)
  | e =>
    match d.commit e with
    | (.ok (), d) => (.ok ⟨Edit.inserted e, Edit.deleted e⟩, d)
    | (.error fault, d) => (.error fault, d)

/-- Appends, and keeps the views at the end that were there before: they are settled
first, since a large batch can move the last line out of every view. -/
def follow (budget : Nat) (entries : List Entry) (d : Document) :
    Except Fault Appended × Document :=
  let followers := d.buffer.followers
  match d.append budget entries with
  | (.ok appended, d) => (.ok appended, d.onBuffer (Buffer.revealEnd followers))
  | (.error fault, d) => (.error fault, d)

end Document

end LogTail
