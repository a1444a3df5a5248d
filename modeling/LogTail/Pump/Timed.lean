import LogTail.Pump
import LogTail.Transport

/-!
# Runs in time

A run whose items come after delays and whose token fires at a given time, or while
a given pull hands its item over, whichever is first. The times say between which pulls
the token fires; what the run does is then the run of the items in order. A run that
would wait past its patience is given up, and what it has written stays.
-/
namespace LogTail

/-- When the token of a run fires. -/
structure Firing where
  /-- It has fired before the run. -/
  atOnce : Bool := false
  /-- It fires this many milliseconds after the start. -/
  after : Option Nat := none
  /-- It fires while this pull, counted from one, hands its item over. -/
  onPull : Option Nat := none
  deriving DecidableEq, Repr, Inhabited

/-- What a run will find: items, each with the delay from its pull to its coming. -/
structure Timeline where
  items : List (Nat × Item)
  /-- Nothing ends the stream after the last item. -/
  held : Bool
  /-- How many items in a row come before the run lets others go on. -/
  burst : Option Nat := none
  deriving DecidableEq, Repr, Inhabited

/-- The times at which items come when each is pulled as soon as the one before it. -/
def arrivals : Nat → List (Nat × Item) → List Nat
  | _, [] => []
  | now, (delay, _) :: rest => (now + delay) :: arrivals (now + delay) rest

/-- The timeline of a script; a channel counts as a script of what it holds whose sender
may go on. `none` for a refusal. -/
def Script.timeline (channels : List Channel) : Script → Option Timeline
  | .refuse _ => none
  | .scripted items held => some { items, held }
  | .channel n => match channels[n]? with
    | none => some { items := [], held := false }
    | some c => some
      { items := c.items.map fun i => (0, i), held := c.sending, burst := some LogTail.burst }

namespace Timeline

/-- How many items have come before something happens `after` milliseconds from the
start; `none` if the stream has ended by then. What happens at the start itself does not
come between items that lie ready, except where a burst ends. -/
def handed? (start after : Nat) (t : Timeline) : Option Nat :=
  let come := ((arrivals start t.items).takeWhile fun time => time ≤ start + after).length
  let pause := if after = 0 then t.burst.filter (· ≤ come) else none
  pause.or (if come < t.items.length || t.held then some come else none)

end Timeline

namespace Firing

/-- The milliseconds from the start to the firing by the clock. -/
def delay (f : Firing) : Nat := if f.atOnce then 0 else f.after.getD 0

/-- How many items have come before the token fires by the clock; `none` if it does not,
or the run has ended or been given up by then. -/
def handed? (f : Firing) (start : Nat) (t : Timeline) : Option Nat :=
  if f.atOnce then some 0
  else (f.after.filter (· ≤ patience)).bind fun after => t.handed? start after

/-- The signal of a run over a timeline. -/
def signal (f : Firing) (start : Nat) (t : Timeline) : Signal :=
  match f.handed? start t, f.onPull with
  | some handed, some (k + 1) => if k < handed then .during k else .before handed
  | some handed, _ => .before handed
  | none, some (k + 1) => .during k
  | none, _ => .never

end Firing

namespace Pump

/-- How a run in time came out; without a report it was given up. -/
structure Timed where
  report : Option Report
  finished : Nat
  pump : Pump
  deriving DecidableEq, Repr, Inhabited

/-- Runs from `start` over a timeline. A run that the clock cancels is over when the token
fires, any other with its last pull. -/
def runTimed (budget start : Nat) (firing : Firing) (timeline : Timeline) (p : Pump) : Timed :=
  let times := arrivals start timeline.items
  let signal := firing.signal start timeline
  let inTime := (times.takeWhile fun t => t ≤ start + patience).length
  let o := p.run budget signal ((timeline.items.take inTime).map (·.2))
  if (timeline.held || inTime < times.length) && inTime < o.pulls then
    ⟨none, start + patience, o.pump⟩
  else
    let lastPull := ((start :: times)[min o.pulls times.length]?).getD start
    match o.exit, signal with
    | .cancelled, .before _ => ⟨some o.report, start + firing.delay, o.pump⟩
    | _, _ => ⟨some o.report, lastPull, o.pump⟩

end Pump

end LogTail
