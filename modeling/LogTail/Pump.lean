import LogTail.Document
import LogTail.Frame
import LogTail.Notice

/-!
# Pumps

A pump takes the items of one stream in order, writes the updates into a document
and records a notice for each. It ends when the token of its session has fired, when
the stream ends, and at the first item that is a fault or whose edit is refused.

The token is looked at before every pull, and once more before an edit, since it may
fire while a pull hands its item over: such an item still counts as pulled, but its
entries do not reach the document.
-/
namespace LogTail

/-- Counts of one run. -/
structure Tally where
  frames : Nat := 0
  updates : Nat := 0
  unrecognized : Nat := 0
  records : Nat := 0
  appended : Nat := 0
  trimmed : Nat := 0
  deriving DecidableEq, Repr, Inhabited

inductive Exit where
  | cancelled
  | closed
  | failed (fault : Fault)
  deriving DecidableEq, Repr, Inhabited

structure Report where
  exit : Exit
  tally : Tally
  deriving DecidableEq, Repr, Inhabited

/-- What became of one frame. -/
inductive Verdict where
  | applied
  /-- The token had fired before the edit. -/
  | dropped
  | failed (fault : Fault)
  deriving DecidableEq, Repr, Inhabited

/-- A pump at work: the document it writes, its counts, and the notices it recorded,
oldest first. -/
structure Pump where
  document : Document := {}
  tally : Tally := {}
  notices : List Notice := []
  deriving DecidableEq, Repr, Inhabited

namespace Pump

def tell (n : Notice) (p : Pump) : Pump := { p with notices := p.notices ++ [n] }

def count (f : Tally → Tally) (p : Pump) : Pump := { p with tally := f p.tally }

/-- Writes one batch. A batch without entries leaves the document alone, and its
notice is recorded whether or not the token has fired. -/
def write (budget : Nat) (fired sampled : Bool) (records : List Record) (p : Pump) :
    Verdict × Pump :=
  let p := p.count fun t => { t with records := t.records + records.length }
  let entries := entriesOf records
  if entries = [] then (.applied, p.tell (.update sampled records.length))
  else if fired then (.dropped, p)
  else match p.document.follow budget entries with
    | (.error fault, d) => (.failed fault, { p with document := d })
    | (.ok a, d) =>
      let p := { p with document := d }
      let p := p.count fun t =>
        { t with appended := t.appended + a.lines, trimmed := t.trimmed + a.trimmed }
      (.applied, p.tell (.update sampled records.length))

def handle (budget : Nat) (fired : Bool) : Frame → Pump → Verdict × Pump
  | .accepted .., p => (.applied, p)
  | .update sampled records, p =>
    (p.count fun t => { t with updates := t.updates + 1 }).write budget fired sampled records
  | .unknown _, p => (.applied, p.count fun t => { t with unrecognized := t.unrecognized + 1 })

/-- Takes what a pull handed over, an item or the end of the stream, and says how the
run ends if it ends here. -/
def take (budget : Nat) (fired : Bool) : Option Item → Pump → Option Exit × Pump
  | none, p => (some .closed, p)
  | some (.fault e), p => (some (.failed e), p)
  | some (.frame f), p =>
    match (p.count fun t => { t with frames := t.frames + 1 }).handle budget fired f with
    | (.applied, p) => (none, p)
    | (.dropped, p) => (some .cancelled, p)
    | (.failed e, p) => (some (.failed e), p)

end Pump

/-- When a token fires, by the pulls of the run that watches it, counted from zero. -/
inductive Signal where
  | never
  /-- Before the pull with this number has handed anything over. -/
  | before (pull : Nat)
  /-- While the pull with this number hands its item over. -/
  | during (pull : Nat)
  deriving DecidableEq, Repr, Inhabited

namespace Signal

/-- Whether the token has fired by the time the pull is made or still waits. -/
def stops : Signal → Nat → Bool
  | never, _ => false
  | before k, n => k ≤ n
  | during k, n => k < n

/-- Whether the token has fired once the pull has handed its item over. -/
def reaches : Signal → Nat → Bool
  | never, _ => false
  | before k, n => k ≤ n
  | during k, n => k ≤ n

end Signal

namespace Pump

/-- How a run came out: its exit and how many pulls handed something over, the end of
the stream included. -/
structure Outcome where
  exit : Exit
  pulls : Nat
  pump : Pump
  deriving DecidableEq, Repr, Inhabited

def Outcome.report (o : Outcome) : Report := ⟨o.exit, o.pump.tally⟩

/-- Runs over the items of a stream, of which `pulls` came before. -/
def runFrom (budget : Nat) (signal : Signal) (pulls : Nat) : List Item → Pump → Outcome
  | items, p =>
    if signal.stops pulls then ⟨.cancelled, pulls, p⟩
    else match items with
      | [] => ⟨.closed, pulls + 1, p⟩
      | item :: rest =>
        match p.take budget (signal.reaches pulls) (some item) with
        | (some exit, p) => ⟨exit, pulls + 1, p⟩
        | (none, p) => runFrom budget signal (pulls + 1) rest p

/-- A whole run, counting from nothing. -/
def run (budget : Nat) (signal : Signal) (items : List Item) (p : Pump) : Outcome :=
  runFrom budget signal 0 items { p with tally := {} }

end Pump

end LogTail
