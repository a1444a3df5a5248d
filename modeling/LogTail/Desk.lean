import LogTail.Pump
import LogTail.Roster
import LogTail.Session.Timed
import LogTail.Settings
import LogTail.Workspace

/-!
# The desk

The desk starts and stops sessions for a workspace. It holds the roster of live
sessions, every session it ever made, and what was recorded about each key. A session
is known by its number, its place in the list of all sessions, which never changes.

What a session leaves running is kept with it: its feed, which writes the records of
its stream into the document, and its ticker, which records how long it has lasted.
-/
namespace LogTail

/-- The settings that concern the desk. -/
structure Policy where
  /-- How many lines a document may hold. -/
  budget : Nat
  /-- Milliseconds between two ticks of a session. -/
  refresh : Nat
  /-- A document is cleared when its session stops. -/
  clearOnStop : Bool
  deriving DecidableEq, Repr, Inhabited

namespace Policy

def ofSettings (s : Settings) : Policy := ⟨s.budget, s.refresh, s.clearOnStop⟩

/-- Ticks are never closer than this many milliseconds. -/
def leastRefresh : Nat := 10

/-- A document may hold a line at least. -/
def clamped (p : Policy) : Policy :=
  { p with budget := max p.budget 1, refresh := max p.refresh leastRefresh }

end Policy

/-- Where transports come from. -/
structure Connector where
  /-- One for each connection to come; after them all connections are silent. -/
  scripts : List Script := []
  /-- How long a transport takes to open. -/
  delay : Nat := 0
  /-- Why the next connection fails, if it does. -/
  fault : Option Fault := none
  connects : Nat := 0
  /-- The numbers of the connections during which someone else takes the key, counted
  with those that fail; during one that fails nobody does. -/
  rivals : List Nat := []
  /-- The channel of each script there ever was, if it has one. -/
  senders : List (Option Nat) := []
  deriving DecidableEq, Repr, Inhabited

namespace Connector

def connect (c : Connector) : Except Fault Transport × Connector :=
  let c := { c with connects := c.connects + 1 }
  match c.fault with
  | some fault => (.error fault, { c with fault := none })
  | none =>
    (.ok { script := some (c.scripts.headD .silent), delay := c.delay },
      { c with scripts := c.scripts.tail })

end Connector

/-- A stream at work: its counts so far, and its report once it has ended. -/
structure Feed where
  stream : Stream
  tally : Tally := {}
  report : Option Report := none
  deriving DecidableEq, Repr, Inhabited

inductive Ticker where
  /-- There is none yet. -/
  | absent
  /-- It has not been set going. -/
  | fresh
  /-- Its next tick is due at this time. -/
  | due (time : Nat)
  | ended
  deriving DecidableEq, Repr, Inhabited

/-- A session with what it leaves running. -/
structure Tail where
  session : Session
  /-- The desk made it. -/
  own : Bool := true
  feed : Option Feed := none
  ticker : Ticker := .absent
  deriving DecidableEq, Repr, Inhabited

def Tail.key (t : Tail) : Key := t.session.key

/-- What a successful start did. -/
inductive Started where
  | opened
  /-- A session held the key, and its document was brought to the front. -/
  | refocused
  deriving DecidableEq, Repr, Inhabited

/-- How far a request to start a session has come. -/
inductive Stage where
  /-- The session waits for the service, which answers at a time. -/
  | opening (session due : Nat)
  | answered (answer : Except Fault Started)
  deriving Repr, Inhabited

/-- A request to start a session. -/
structure Call where
  key : Key
  stage : Stage
  deriving Repr, Inhabited

/-- Someone who waits for views to open and close. -/
structure Watcher where
  /-- How many events it has received or missed. -/
  seen : Nat
  ended : Bool := false
  deriving DecidableEq, Repr, Inhabited

structure Desk where
  /-- Milliseconds since the desk was set up. -/
  now : Nat := 0
  policy : Policy
  connector : Connector := {}
  roster : Roster := []
  tails : List Tail := []
  workspace : Workspace := {}
  /-- What was recorded, newest first. -/
  log : List (Key × Notice) := []
  calls : List Call := []
  /-- The session whose report can be waited for, by key. -/
  handles : KeyMap Nat := []
  watchers : List Watcher := []
  channels : List Channel := []
  /-- No request is taken any more. -/
  closed : Bool := false
  /-- The desk was given up. -/
  dropped : Bool := false
  deriving Repr, Inhabited

namespace Desk

/-- A desk without sessions, under the policy that comes closest to the one asked for. -/
def make (policy : Policy) (connector : Connector) (workspace : Workspace) : Desk :=
  { policy := policy.clamped, connector, workspace }

def tell (key : Key) (n : Notice) (d : Desk) : Desk := { d with log := (key, n) :: d.log }

/-- What was recorded after the first `told` notices, oldest first. -/
def news (told : Nat) (d : Desk) : List (Key × Notice) := (d.log.take (d.log.length - told)).reverse

/-- Puts a session in the place of what it was before. -/
def put (n : Nat) (t : Tail) (d : Desk) : Desk := { d with tails := d.tails.set n t }

/-- A new session takes the number after the last. -/
def add (t : Tail) (d : Desk) : Desk := { d with tails := d.tails ++ [t] }

def session? (n : Nat) (d : Desk) : Option Session := d.tails[n]?.map (·.session)

/-- The sessions on the roster in the order of their keys. -/
def active (d : Desk) : List Snapshot :=
  d.roster.filterMap fun (_, n) => (d.session? n).map (Session.snapshot d.now)

/-- The transports that the connector handed out. -/
def transports (d : Desk) : List Transport :=
  (d.tails.filter (·.own)).map (·.session.transport)

def opens (d : Desk) : Nat := d.transports.foldr (fun t n => t.opens + n) 0

def closes (d : Desk) : Nat := d.transports.foldr (fun t n => t.closes + n) 0

/-- The report of a session's feed, once there is one. -/
def report? (n : Nat) (d : Desk) : Option Report :=
  d.tails[n]?.bind fun t => t.feed.bind (·.report)

/-- Takes the handle of a key, which can be done once: the session whose report can be
waited for with it. -/
def takeHandle (key : Key) (d : Desk) : Option Nat × Desk :=
  (KeyMap.get? key d.handles, { d with handles := KeyMap.erase key d.handles })

/-- Takes a session off the roster if it is the one that holds its key. -/
def unlist (key : Key) (n : Nat) (d : Desk) : Desk :=
  { d with roster := (d.roster.removeInstance key n).2 }

/-- Stops a session and nothing else; whether this was its first stop. -/
def stopSession (n : Nat) (d : Desk) : Bool × Desk :=
  match d.tails[n]? with
  | none => (false, d)
  | some t =>
    let (first, session) := t.session.stop d.now
    (first, d.put n { t with session })

end Desk

end LogTail
