import LogTail.Document.Edit

/-!
# Line buffers

The lines of a document and the views that show them. A view is a window of a fixed
height whose first line may lie anywhere, also past the end; what it shows is the
part of the window inside the document. View numbers are handed out once each, in
ascending order, and views are kept in that order.

Where a window begins and how high it is are machine words, and so is where it ends:
a window that would end past the last word ends near the top of the document instead,
before it begins.
-/
namespace LogTail

structure View where
  id : Nat
  /-- First line of the window. -/
  top : UInt64
  height : UInt64
  deriving DecidableEq, Repr, Inhabited

namespace View

/-- First line below the window. -/
def bottom (v : View) : UInt64 := v.top + v.height

def range (v : View) (count : Nat) : LineRange := ⟨min v.top.toNat count, min v.bottom.toNat count⟩

/-- Moves the window no further than it takes to have the line in it. -/
def reveal (line : UInt64) (v : View) : View :=
  if line < v.top then { v with top := line }
  else if v.bottom ≤ line then { v with top := line + 1 - v.height }
  else v

/-- Whether the last of `count` lines is shown; a document without lines is always at
its end. -/
def atBottom (count : Nat) (v : View) : Bool :=
  if count = 0 then true else (v.range count).contains (count - 1)

end View

structure Buffer where
  lines : List String := []
  views : List View := []
  /-- The number of the view opened last. -/
  lastView : Nat := 0
  /-- Edits committed so far. -/
  edits : Nat := 0
  deriving DecidableEq, Repr, Inhabited

namespace Buffer

def count (b : Buffer) : Nat := b.lines.length

/-- A view shows one line at least and starts at the top. -/
def openView (height : UInt64) (b : Buffer) : Nat × Buffer :=
  let id := b.lastView + 1
  (id, { b with views := b.views ++ [⟨id, 0, max height 1⟩], lastView := id })

def view? (id : Nat) (b : Buffer) : Option View := b.views.find? fun v => v.id = id

def viewIds (b : Buffer) : List Nat := b.views.map (·.id)

def closeView (id : Nat) (b : Buffer) : Bool × Buffer :=
  ((b.view? id).isSome, { b with views := b.views.filter fun v => v.id ≠ id })

def adjustView (id : Nat) (f : View → View) (b : Buffer) : Buffer :=
  { b with views := b.views.map fun v => if v.id = id then f v else v }

def scrollTo (id : Nat) (top : UInt64) (b : Buffer) : Buffer :=
  b.adjustView id fun v => { v with top := top }

def reveal (id : Nat) (line : UInt64) (b : Buffer) : Buffer := b.adjustView id (View.reveal line)

def visible? (id : Nat) (b : Buffer) : Option LineRange :=
  (b.view? id).map fun v => v.range b.count

/-- No lines are left, and every view is back at the top. -/
def clear (b : Buffer) : Buffer :=
  { b with lines := [], views := b.views.map fun v => { v with top := 0 } }

def text (b : Buffer) : String := Text.textOf b.lines

/-- All changes of the edit or none of them. -/
def commit (e : Edit) (b : Buffer) : Except Fault Buffer :=
  match e.check b.count with
  | .ok () => .ok { b with lines := e.splice b.lines, edits := b.edits + 1 }
  | .error fault => .error fault

/-- The views that show the last line. -/
def followers (b : Buffer) : List Nat := (b.views.filter (View.atBottom b.count)).map (·.id)

/-- Reveals the last line, if there is one, in each of the views. -/
def revealEnd (ids : List Nat) (b : Buffer) : Buffer :=
  if b.count = 0 then b else ids.foldl (fun b id => b.reveal id (.ofNat (b.count - 1))) b

end Buffer

end LogTail
