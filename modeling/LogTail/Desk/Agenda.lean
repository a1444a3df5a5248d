import LogTail.Desk.Move

/-!
# Agendas

The order in which the work of a desk is done when nobody else decides it. A task takes
a place at the end of a queue when it comes into being and whenever it can go on again;
each that gets its turn goes on until it must wait, or until it has taken as much as
one turn allows, and then gives way to the others.

Time stands still as long as the queue is not empty. Whoever waits for a moment is
called when the queue is empty or a shift of turns is over: those of earlier moments
first, and after them those who gave way. So a task may have to wait although its moment
has passed.
-/
namespace LogTail

inductive Task where
  | watcher (number : Nat)
  | ticker (session : Nat)
  | feed (session : Nat)
  deriving DecidableEq, Repr, Inhabited

namespace Desk

/-- The watchers, then for each session its ticker and its feed, so far as they are there. -/
def tasks (d : Desk) : List Task :=
  (List.range d.watchers.length).map .watcher ++
    (d.tails.mapIdx fun n t =>
      (if t.ticker = .absent then [] else [Task.ticker n]) ++
        (if t.feed.isSome then [Task.feed n] else [])).flatten

/-- Whether a task can go on when all moments up to `called` have been called. -/
def isReady (called : Nat) (d : Desk) : Task → Bool
  | .watcher n =>
    match d.watchers[n]? with
    | none => false
    | some w => !w.ended && (d.dropped || w.seen < d.workspace.published.length)
  | .ticker n =>
    match d.tails[n]? with
    | none => false
    | some t => match t.ticker with
      | .fresh => true
      | .due time => t.session.cancelled || time ≤ called
      | .absent | .ended => false
  | .feed n =>
    match d.tails[n]? with
    | none => false
    | some t => match t.feed with
      | none => false
      | some f => f.report.isNone && (t.session.cancelled || f.stream.isReady called d.channels)

/-- The moment for which a task waits, if it waits for one. -/
def moment? (d : Desk) : Task → Option Nat
  | .watcher _ => none
  | .ticker n =>
    match d.tails[n]? with
    | none => none
    | some t => match t.ticker with
      | .due time => some time
      | .absent | .fresh | .ended => none
  | .feed n =>
    match d.tails[n]?.bind Tail.feed with
    | none => none
    | some f => if f.report.isSome then none else f.stream.due?

/-- Pulls until the feed has ended or must wait, `most` times at most. -/
def pulls (called n : Nat) : (most : Nat) → Desk → Desk
  | 0, d => d
  | most + 1, d =>
    let d := d.pull n
    if d.isReady called (.feed n) then pulls called n most d else d

/-- Receives until there is nothing left to receive, `most` times at most. -/
def wakes (called n : Nat) : (most : Nat) → Desk → Desk
  | 0, d => d
  | most + 1, d =>
    let d := d.wake n
    if d.isReady called (.watcher n) then wakes called n most d else d

/-- One turn of a task. -/
def run (called : Nat) (d : Desk) : Task → Desk
  | .watcher n => wakes called n (d.workspace.published.length + 1) d
  | .ticker n =>
    let d := d.arm n
    if d.isReady called (.ticker n) then d.tick n else d
  | .feed n =>
    match d.tails[n]?.bind Tail.feed with
    | none => d
    | some f => pulls called n f.stream.longestTurn d

end Desk

structure Agenda where
  desk : Desk
  /-- Who waited for a moment up to this one has been called. -/
  called : Nat
  queue : List Task := []
  /-- Who had a full turn and could go on. -/
  deferred : List Task := []
  deriving Repr, Inhabited

namespace Agenda

/-- An agenda on which nobody waits for a moment that has passed. -/
def ofDesk (d : Desk) : Agenda := { desk := d, called := d.now }

def isReady (a : Agenda) (t : Task) : Bool := a.desk.isReady a.called t

/-- Queues the tasks that were not there before and those that can go on, and among
those that waited for a moment the ones of earlier moments first. -/
def enlist (before : List Task) (a : Agenda) : Agenda :=
  let added := a.desk.tasks.filter fun t =>
    (a.isReady t || t ∉ before) && t ∉ a.queue && t ∉ a.deferred
  let moment (t : Task) : Nat := (a.desk.moment? t).getD 0
  { a with queue := a.queue ++ added.mergeSort fun s t => moment s ≤ moment t }

/-- What someone did to the desk, and the tasks that can go on because of it. -/
def act (desk : Desk) (a : Agenda) : Agenda := { a with desk }.enlist a.desk.tasks

/-- A turn of a task that has left the queue. -/
def turn (t : Task) (a : Agenda) : Agenda :=
  let desk := a.desk.run a.called t
  let deferred := if desk.isReady a.called t then a.deferred ++ [t] else a.deferred
  { a with deferred }.act desk

/-- How many turns are given in a row before those who wait are called again. -/
def shift : Nat := 61

/-- Gives turns until the queue is empty, `most` of them at most. -/
def drain : (most : Nat) → Agenda → Agenda
  | 0, a => a
  | most + 1, a =>
    match a.queue with
    | [] => a
    | t :: queue => drain most ({ a with queue }.turn t)

/-- The next moment for which a task waits. -/
def nextMoment? (a : Agenda) : Option Nat :=
  ((a.desk.tasks.filterMap a.desk.moment?).filter (a.called < ·)).min?

/-- Lets time pass up to a moment, if it has not passed, and calls who waited for it. -/
def call (time : Nat) (a : Agenda) : Agenda :=
  let now := max a.desk.now time
  let a := { a with desk := { a.desk with now }, called := now }.enlist a.desk.tasks
  { a with queue := a.queue ++ a.deferred, deferred := [] }

end Agenda

end LogTail
