import LogTail.Document
import LogTail.KeyMap

/-!
# The workspace

The documents of a host, each with its views, and which one has the focus. A document
is made when it is first opened and kept for good. Every view that is opened or closed
through the workspace is published; a subscriber reads what was published after it
subscribed, but only the last `retained` events are kept for those who read late.
-/
namespace LogTail

inductive ViewEvent where
  | opened (key : Key) (view : Nat)
  | closed (key : Key) (view : Nat)
  deriving DecidableEq, Repr, Inhabited

structure Workspace where
  documents : KeyMap Document := []
  focused : Option Key := none
  /-- How many times a document was brought to the front. -/
  focusRequests : Nat := 0
  viewHeight : UInt64 := 40
  /-- Everything published so far, oldest first. -/
  published : List ViewEvent := []
  /-- Requests to open a document so far. -/
  requests : Nat := 0
  /-- The numbers of the requests that are refused. -/
  refusals : List Nat := []
  deriving DecidableEq, Repr, Inhabited

namespace Workspace

def document? (key : Key) (w : Workspace) : Option Document := KeyMap.get? key w.documents

def onDocument (key : Key) (f : Document → Document) (w : Workspace) : Workspace :=
  { w with documents := KeyMap.adjust key f w.documents }

def onBuffer (key : Key) (f : Buffer → Buffer) (w : Workspace) : Workspace :=
  w.onDocument key (Document.onBuffer f)

def viewCount (key : Key) (w : Workspace) : Nat :=
  match w.document? key with
  | none => 0
  | some d => d.buffer.views.length

def publish (e : ViewEvent) (w : Workspace) : Workspace := { w with published := w.published ++ [e] }

/-- Opens one more view of a document that is there. -/
def openView (key : Key) (w : Workspace) : Option Nat × Workspace :=
  match w.document? key with
  | none => (none, w)
  | some d =>
    let (id, buffer) := d.buffer.openView w.viewHeight
    (some id, (w.onBuffer key fun _ => buffer).publish (.opened key id))

/-- Opens several views one after the other; the number of the last. -/
def openViews (key : Key) : Nat → Workspace → Option Nat × Workspace
  | 0, w => (none, w)
  | 1, w => w.openView key
  | n + 2, w => openViews key (n + 1) (w.openView key).2

/-- Whether the view was there to be closed. -/
def closeView (key : Key) (id : Nat) (w : Workspace) : Bool × Workspace :=
  match w.document? key with
  | none => (false, w)
  | some d =>
    match d.buffer.closeView id with
    | (true, buffer) => (true, (w.onBuffer key fun _ => buffer).publish (.closed key id))
    | (false, _) => (false, w)

/-- Closes the views in turn and counts those that were there. -/
def closeViews (key : Key) : List Nat → Workspace → Nat × Workspace
  | [], w => (0, w)
  | id :: rest, w =>
    let (closed, w) := w.closeView key id
    let (n, w) := closeViews key rest w
    ((if closed then n + 1 else n), w)

def closeAllViews (key : Key) (w : Workspace) : Nat × Workspace :=
  match w.document? key with
  | none => (0, w)
  | some d => closeViews key d.buffer.viewIds w

def scrollTo (key : Key) (id : Nat) (top : UInt64) (w : Workspace) : Workspace :=
  w.onBuffer key (Buffer.scrollTo id top)

/-- Brings a document that is there to the front, with a view of it if it has none. -/
def bringToFront (key : Key) (w : Workspace) : Workspace :=
  let w := { w with focused := some key, focusRequests := w.focusRequests + 1 }
  if w.viewCount key = 0 then (w.openView key).2 else w

/-- Opens the document of a key, making it if need be, and brings it to the front. -/
def openDocument (key : Key) (w : Workspace) : Except Fault Unit × Workspace :=
  let w := { w with requests := w.requests + 1 }
  if w.requests ∈ w.refusals then
    (.error (.document ("refused open " ++ toString w.requests)), w)
  else
    let w := if KeyMap.contains key w.documents then w
      else { w with documents := KeyMap.insert key {} w.documents }
    (.ok (), w.bringToFront key)

/-- Brings the document of a key to the front; `false` if there is none. -/
def focusDocument (key : Key) (w : Workspace) : Bool × Workspace :=
  if KeyMap.contains key w.documents then (true, w.bringToFront key) else (false, w)

/-- An edit by someone other than a session; `none` without a document. -/
def edit (key : Key) (e : Edit) (w : Workspace) : Option (Except Fault Unit) × Workspace :=
  match w.document? key with
  | none => (none, w)
  | some d =>
    let (answer, d) := d.commit e
    (some answer, w.onDocument key fun _ => d)

def clearDocument (key : Key) (w : Workspace) : Workspace := w.onDocument key Document.clear

def text (key : Key) (w : Workspace) : String :=
  match w.document? key with
  | none => ""
  | some d => d.buffer.text

/-- How many events are kept for those who read late. -/
def retained : Nat := 64

/-- What a subscriber that has seen the first `seen` events receives next. -/
inductive Delivery where
  | event (e : ViewEvent)
  /-- So many events were no longer there. -/
  | missed (count : Nat)
  deriving DecidableEq, Repr, Inhabited

/-- The next delivery and how many events it leaves the subscriber with as seen;
nothing when it has seen them all. -/
def receive (seen : Nat) (w : Workspace) : Option (Delivery × Nat) :=
  let total := w.published.length
  if seen + retained < total then some (.missed (total - retained - seen), total - retained)
  else match w.published[seen]? with
    | some e => some (.event e, seen + 1)
    | none => none

/-- Everything a subscriber has yet to receive. -/
def pending (seen : Nat) (w : Workspace) : List Delivery :=
  let total := w.published.length
  if seen + retained < total then
    .missed (total - retained - seen) :: (w.published.drop (total - retained)).map .event
  else (w.published.drop seen).map .event

end Workspace

end LogTail
