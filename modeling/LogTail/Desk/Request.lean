import LogTail.Desk.Agenda

/-!
# Requests

What can be asked of a desk and of its surroundings, and what is answered. Some
requests wait: a start for the service, a wait for a report. Several requests can be
made at once, each after a delay of its own; those without one are begun in the order
they are listed, each as far as it goes without waiting, before any task has a turn.
After every shift of turns the requests that can go on do so before the tasks whose
moment has come, as long as not too many waits have come to an end at once.

A desk that is dropped takes no more requests, and is given up as soon as none is under
way on it.
-/
namespace LogTail

inductive Request where
  | start (source : Source)
  | stop (key : Key)
  | stopAll
  | isActive (key : Key)
  | clear (key : Key)
  | stopUnviewed
  | watch
  /-- Waits for the report of the key's last feed. -/
  | report (key : Key)
  | policy
  /-- Takes a session off the roster and leaves it running. -/
  | unlist (key : Key)
  /-- Stops a session and leaves it on the roster. -/
  | stopSession (key : Key)
  | drop
  | provide (plan : Plan)
  | send (script : Nat) (items : List Item)
  | closeSender (script : Nat)
  | openViews (key : Key) (count : Nat)
  | closeView (key : Key) (view : Nat)
  | closeAllViews (key : Key)
  | scroll (key : Key) (view : Nat) (top : UInt64)
  | sleep (milliseconds : Nat)
  /-- Time passes at once, and whoever waited is late. -/
  | jump (milliseconds : Nat)
  deriving Repr, Inhabited

inductive Reply where
  | nothing
  | ok
  | truth (b : Bool)
  | count (n : Nat)
  | started (key : Key)
  | refocused (key : Key)
  | fault (f : Fault)
  | keys (ks : List Key)
  | report (r : Report)
  | gaveUp
  /-- There is no desk any more. -/
  | dropped
  | policy (p : Policy)
  | accepted (items : List Bool)
  | noSender
  | view (id : Option Nat)
  deriving Repr, Inhabited

/-- A request on its way. -/
inductive Errand where
  /-- It has been handed in and will be made after a delay. -/
  | planned (delay : Nat) (r : Request)
  | later (time : Nat) (r : Request)
  | opening (call due : Nat)
  | waiting (session deadline : Nat)
  | resting (time : Nat)
  /-- It has done its work and is over when it is looked at again. -/
  | yielding
  | done (r : Reply)
  deriving Repr, Inhabited

namespace Request

/-- Whether the request is made to the desk itself. -/
def isForDesk : Request → Bool
  | start _ | stop _ | stopAll | isActive _ | clear _ | stopUnviewed | watch | report _ | policy
  | unlist _ | stopSession _ => true
  | _ => false

/-- The longest time for which the request waits once it is begun. -/
def longest (d : Desk) : Request → Nat
  | start _ => d.connector.delay
  | report _ => patience
  | sleep ms => ms
  | _ => 0

end Request

namespace Desk

/-- The channel of a script as long as something can be sent on it. -/
def sender? (script : Nat) (d : Desk) : Option Nat :=
  (d.connector.senders[script]?).join.filter fun n => (d.channels[n]?.map (·.sending)).getD false

/-- Sends items one after the other; which of them were accepted. -/
def sendAll (channel : Nat) (items : List Item) (d : Desk) : List Bool × Desk :=
  let accepts := (d.channels[channel]?.map Channel.accepts).getD false
  (items.map fun _ => accepts, items.foldl (fun d i => d.onChannel channel (Channel.send i)) d)

/-- Goes on with a start that may have been answered. -/
def proceed (call : Nat) (d : Desk) : Errand × Desk :=
  let answered (key : Key) (answer : Except Fault Started) : Errand :=
    .done (match answer with
      | .ok .opened => .started key
      | .ok .refocused => .refocused key
      | .error fault => .fault fault)
  match d.calls[call]? with
  | none => (.done .nothing, d)
  | some ⟨key, .answered answer⟩ => (answered key answer, d)
  | some ⟨_, .opening _ due⟩ =>
    if due ≤ d.now then
      let d := d.finishStart call
      match d.calls[call]? with
      | some ⟨key, .answered answer⟩ => (answered key answer, d)
      | _ => (.done .nothing, d)
    else (.opening call due, d)

/-- Waits for the report of a key's last feed, which can be done once. -/
def awaitReport (key : Key) (d : Desk) : Errand × Desk :=
  match d.takeHandle key with
  | (none, d) => (.done .nothing, d)
  | (some n, d) => (.waiting n (d.now + patience), d)

/-- Begins a request that the desk can still serve. -/
def serve (r : Request) (d : Desk) : Errand × Desk :=
  match r with
  | .start source => (d.beginStart source).proceed d.calls.length
  | .stop key =>
    let (b, d) := d.stopKey key .explicit
    (.done (.truth b), d)
  | .stopAll =>
    let (n, d) := d.stopAll
    (.done (.count n), d)
  | .isActive key => (.done (.truth (KeyMap.contains key d.roster)), d)
  | .clear key =>
    match d.clear key with
    | (.ok (), d) => (.done .ok, d)
    | (.error fault, d) => (.done (.fault fault), d)
  | .stopUnviewed =>
    let (keys, d) := d.stopUnviewed
    (.done (.keys keys), d)
  | .watch => (.done .nothing, d.watch)
  | .report key => d.awaitReport key
  | .policy => (.done (.policy d.policy), d)
  | .unlist key =>
    let (found, roster) := d.roster.remove key
    (.done (.truth found.isSome), { d with roster })
  | .stopSession key =>
    match d.roster.lookup key with
    | .error fault => (.done (.fault fault), d)
    | .ok n =>
      let (first, d) := d.stopSession n
      (.done (.truth first), d)
  | .drop => (.done (.truth !d.closed), { d with closed := true })
  | .provide plan => (.done .nothing, d.provide plan)
  | .send script items =>
    match d.sender? script with
    | none => (.done .noSender, d)
    | some n =>
      let (accepted, d) := d.sendAll n items
      (.done (.accepted accepted), d)
  | .closeSender script =>
    match d.sender? script with
    | none => (.done .nothing, d)
    | some n => (.done .nothing, d.onChannel n fun c => { c with sending := false })
  | .openViews key count =>
    let (id, workspace) := d.workspace.openViews key count
    (.done (.view id), { d with workspace })
  | .closeView key id =>
    let (found, workspace) := d.workspace.closeView key id
    (.done (.truth found), { d with workspace })
  | .closeAllViews key =>
    let (n, workspace) := d.workspace.closeAllViews key
    (.done (.count n), { d with workspace })
  | .scroll key id top => (.done .nothing, d.onWorkspace (Workspace.scrollTo key id top))
  | .sleep ms => (.resting (d.now + ms), d)
  | .jump ms => (.yielding, d.pass ms)

def undertake (r : Request) (d : Desk) : Errand × Desk :=
  if d.closed && r.isForDesk then (.done .dropped, d) else d.serve r

end Desk

namespace Errand

/-- Goes on with an errand when all moments up to `called` have been called; nothing if
it must wait or is done. A delay counts from the time at which the errand is first
looked at. -/
def step? (called : Nat) (d : Desk) : Errand → Option (Errand × Desk)
  | planned 0 r => some (d.undertake r)
  | planned delay r => some (later (d.now + delay) r, d)
  | later time r => if time ≤ called then some (d.undertake r) else none
  | opening call due => if due ≤ called then some (d.proceed call) else none
  | waiting n deadline =>
    match d.report? n with
    | some r => some (done (.report r), d)
    | none => if deadline ≤ called then some (done .gaveUp, d) else none
  | resting time => if time ≤ called then some (done .nothing, d) else none
  | yielding | done _ => none

/-- An errand when it is looked at again. -/
def resumed : Errand → Errand
  | yielding => done .nothing
  | e => e

/-- Whether going on means that a wait has come to its end. -/
def isWait : Errand → Bool
  | later .. | opening .. | waiting .. | resting _ => true
  | planned .. | yielding | done _ => false

/-- Whether the desk is at work on the request. -/
def isUnderWay : Errand → Bool
  | opening .. | waiting .. => true
  | _ => false

/-- Whether an errand has something to do without time passing. -/
def isPressed (called : Nat) (d : Desk) : Errand → Bool
  | yielding => true
  | e => (e.step? called d).isSome

/-- The moment for which an errand waits at the latest. -/
def moment? : Errand → Option Nat
  | later time _ | opening _ time | waiting _ time | resting time => some time
  | planned .. | yielding | done _ => none

def reply : Errand → Reply
  | done r => r
  | _ => .gaveUp

end Errand

namespace Agenda

/-- Gives up a desk that takes no more requests. -/
def release (a : Agenda) : Agenda :=
  if a.desk.closed && !a.desk.dropped then a.act a.desk.drop else a

/-- Goes on with an errand, `most` times at most, as long as not more than `left` waits
come to their end; how many may still do so after it. -/
def look : (most left : Nat) → Errand → Agenda → Errand × Nat × Agenda
  | 0, left, e, a => (e, left, a)
  | most + 1, left, e, a =>
    if e.isWait && left = 0 then (e, left, a)
    else match e.step? a.called a.desk with
      | none => (e, left, a)
      | some (next, desk) => look most (if e.isWait then left - 1 else left) next (a.act desk)

/-- Goes on with each errand in turn. From being handed in to being done an errand goes
on three times at most. `held` says whether the desk is at work on an errand before these. -/
def proceed (held : Bool) (left : Nat) : List Errand → Agenda → List Errand × Agenda
  | [], a => ([], a)
  | e :: rest, a =>
    let (e, left, a) := look 3 left e.resumed a
    let held := held || e.isUnderWay
    let a := if held || rest.any Errand.isUnderWay then a else a.release
    let (rest, a) := proceed held left rest a
    (e :: rest, a)

/-- Whether there is something to do without time passing. -/
def isPressed (errands : List Errand) (a : Agenda) : Bool :=
  !a.queue.isEmpty || !a.deferred.isEmpty || errands.any (Errand.isPressed a.called a.desk)

/-- Runs until the errands are done and nothing is left to do, `fuel` rounds at most.
Time moves only when nothing can go on without it. -/
def runFor : Nat → List Errand → Agenda → List Errand × Agenda
  | 0, errands, a => (errands, a)
  | fuel + 1, errands, a =>
    let (errands, a) := a.proceed false burst errands
    let a := a.drain shift
    if a.isPressed errands then runFor fuel errands (a.call a.desk.now)
    else
      match (errands.filterMap Errand.moment?).min? with
      | none => (errands, a)
      | some last => runFor fuel errands (a.call ((a.nextMoment?.map fun t => min t last).getD last))

end Agenda

namespace Request

/-- How many items the request brings to channels at most. -/
def load : Request → Nat
  | provide (.channel items) => items.length
  | send _ items => items.length
  | _ => 0

end Request

namespace Desk

/-- Makes requests, each after its delay, and lets the desk work until all of them are
answered and nothing can go on without time passing.

A request goes on four times at most, a task comes back to a channel only after a burst
from it, and time moves a millisecond at least. Between two of these events no task has
more than two turns, and a request adds two tasks at most. -/
def perform (requests : List (Nat × Request)) (d : Desk) : List Reply × Desk :=
  let errands := requests.map fun (delay, r) => Errand.planned delay r
  let waits := requests.foldr (fun (delay, r) n => delay + r.longest d + r.load + 4 + n) 0
  let stored := d.channels.foldr (fun c n => c.items.length + n) 0
  let tasks := d.tasks.length + 2 * requests.length
  let (errands, a) := Agenda.runFor ((waits + stored + 4) * (tasks + 2)) errands (.ofDesk d)
  (errands.map Errand.reply, a.desk)

end Desk

end LogTail
