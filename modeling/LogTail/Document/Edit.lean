import LogTail.Fault
import LogTail.Text.Lines

/-!
# Edits

An edit is a list of changes to the lines of a document, committed together. Each
change counts lines in the document as the changes before it left it. `check` looks
at line counts alone; `splice` carries the changes out and is meant for edits that
passed the check.
-/
namespace LogTail

/-- Lines from `start` up to but not including `stop`, counted from zero. -/
structure LineRange where
  start : Nat
  stop : Nat
  deriving DecidableEq, Repr, Inhabited

namespace LineRange

def length (r : LineRange) : Nat := r.stop - r.start

def isEmpty (r : LineRange) : Bool := r.length = 0

def contains (r : LineRange) (line : Nat) : Bool := r.start ≤ line && line < r.stop

end LineRange

inductive Change where
  /-- The lines of a text go in before a line; at the line count they are appended. -/
  | insert (line : Nat) (text : String)
  | delete (range : LineRange)
  deriving DecidableEq, Repr, Inhabited

abbrev Edit := List Change

namespace Change

open Text

def inserted : Change → Nat
  | insert _ text => lineCount text
  | delete _ => 0

def deleted : Change → Nat
  | insert .. => 0
  | delete range => range.length

/-- The line count after the change, or why a document of `count` lines refuses it. -/
def check (count : Nat) : Change → Except Fault Nat
  | insert line text =>
    if line ≤ count then .ok (count + lineCount text)
    else .error (.document
      ("insert at line " ++ toString line ++ " past end (" ++ toString count ++ ")"))
  | delete range =>
    if range.start ≤ range.stop ∧ range.stop ≤ count then .ok (count - range.length)
    else .error (.document ("delete " ++ toString range.start ++ ".." ++ toString range.stop ++
      " outside document of " ++ toString count ++ " lines"))

def splice (lines : List String) : Change → List String
  | insert line text => lines.take line ++ linesOf text ++ lines.drop line
  | delete range => lines.take range.start ++ lines.drop range.stop

end Change

namespace Edit

def inserted : Edit → Nat
  | [] => 0
  | c :: rest => c.inserted + inserted rest

def deleted : Edit → Nat
  | [] => 0
  | c :: rest => c.deleted + deleted rest

/-- The first change that is out of range decides the fault. -/
def check : Nat → Edit → Except Fault Unit
  | _, [] => .ok ()
  | count, c :: rest =>
    match c.check count with
    | .ok count => check count rest
    | .error e => .error e

def splice (lines : List String) (e : Edit) : List String := e.foldl Change.splice lines

end Edit

end LogTail
