import LogTail.Fault
import LogTail.Text.Decimal
import LogTail.Text.Lines

/-!
# Log records and their entries

A record is one log event as the service delivers it. Its entry is the text that is
appended to a document: the time of day in UTC, a tab, the message, and a line feed
unless the message ends with one. A record without a time or without a message has
no entry, nor has one whose time lies outside the calendar.
-/
namespace LogTail

structure Record where
  /-- Milliseconds since the first of January 1970, UTC. -/
  time : Option Int := none
  message : Option String := none
  stream : Option String := none
  deriving DecidableEq, Repr, Inhabited

/-- The text of one record, one line or more, each ended by a line feed. -/
structure Entry where
  text : String
  deriving DecidableEq, Repr, Inhabited

/-- Line feeds in the text. -/
def Entry.lineCount (e : Entry) : Nat := e.text.toList.count '\n'

namespace Record

/-- The first millisecond of the year -262143. -/
def earliest : Int := -8334601228800000

/-- The last millisecond of the year 262142. -/
def latest : Int := 8210266876799999

def secondOfDay (ms : Int) : Nat := ((ms.fdiv 1000).fmod 86400).toNat

open Text (twoDigits)

/-- Hours, minutes and seconds of a second of the day, two digits each. -/
def clockText (s : Nat) : String :=
  twoDigits (s / 3600) ++ ":" ++ twoDigits (s % 3600 / 60) ++ ":" ++ twoDigits (s % 60)

/-- The message with one line feed added unless it ends with one. -/
def terminated (message : String) : String :=
  if message.toList.getLast? = some '\n' then message else message ++ "\n"

def written? (r : Record) : Option Entry :=
  match r.time, r.message with
  | some ms, some message =>
    if message ≠ "" ∧ earliest ≤ ms ∧ ms ≤ latest then
      some ⟨clockText (secondOfDay ms) ++ "\t" ++ terminated message⟩
    else none
  | _, _ => none

end Record

/-- The entries of the records that have one, in their order. -/
def entriesOf (records : List Record) : List Entry := records.filterMap Record.written?

end LogTail
