import LogTail.Phase
import LogTail.Source
import LogTail.Transport

/-!
# Sessions

A session is one tailing of one source. It owns a transport and a token and is used
once: it starts at most once, and once stopped it stays stopped. Starting waits for
the service in the middle, so it is two steps, and a stop may fall between them.

Stopping, by whichever step, fires the token, closes the transport and sets the end
time, and only the first stop does so.
-/
namespace LogTail

structure Session where
  source : Source
  /-- How many lines its document may hold. -/
  budget : Nat
  transport : Transport
  phase : Phase := .idle
  /-- The token has fired. -/
  cancelled : Bool := false
  startedAt : Option Nat := none
  endedAt : Option Nat := none
  deriving DecidableEq, Repr, Inhabited

namespace Session

/-- A session for a source that can be tailed, with room for a line at least. -/
def make (source : Source) (budget : Nat) (transport : Transport) : Except Fault Session :=
  match source.check with
  | .error fault => .error fault
  | .ok () =>
    if budget = 0 then .error (.invalidArgument "max_lines must be at least 1")
    else .ok { source, budget, transport }

def key (s : Session) : Key := s.source.key

/-- Whether this call is the one that stopped the session. -/
def stop (now : Nat) (s : Session) : Bool × Session :=
  if s.phase = .stopped then (false, s)
  else
    let s := { s with phase := .stopped, endedAt := some now }
    -- the token first: a pull that ends with the transport finds it fired
    let s := { s with cancelled := true }
    (true, { s with transport := s.transport.close s.cancelled })

/-- The first half of a start, up to the call to the service. -/
def beginStart (now : Nat) (s : Session) : Except Fault Session :=
  match s.phase.change .starting s.key.text with
  | .error fault => .error fault
  | .ok () => .ok { s with
    phase := .starting, startedAt := some now, transport := s.transport.beginOpen }

/-- The second half of a start, once the service has answered. A refused call stops
the session; a stop that came first is not undone. -/
def finishStart (now : Nat) (s : Session) : Except Fault Stream × Session :=
  let (answer, transport) := s.transport.finishOpen
  let s := { s with transport }
  match answer with
  | .error fault => (.error fault, (s.stop now).2)
  | .ok stream =>
    if s.phase = .stopped then (.error (.invalidState s.key.text s.phase.text "start"), s)
    else (.ok stream, { s with phase := .running })

/-- Milliseconds from the start until now, or until the end once there is one; nothing
before the start. -/
def duration (now : Nat) (s : Session) : Nat :=
  match s.startedAt, s.endedAt with
  | some start, some stop => stop - start
  | some start, none => now - start
  | none, _ => 0

/-- One line about the session, for logs; `id` is the name of this very session. -/
def describe (id : String) (s : Session) : String :=
  let phase := match s.phase with
    | .idle => "Idle"
    | .starting => "Starting"
    | .running => "Running"
    | .stopped => "Stopped"
  "TailSession \x7b key: ResourceKey(" ++ Text.quoted s.key.text ++ "), instance_id: " ++
    Text.quoted id ++ ", max_lines: " ++ toString s.budget ++ ", state: " ++ phase ++ ", .. \x7d"

end Session

/-- What can be read off a session at one moment. -/
structure Snapshot where
  key : Key
  group : String
  phase : Phase
  budget : Nat
  started : Bool
  duration : Nat
  deriving DecidableEq, Repr, Inhabited

def Session.snapshot (now : Nat) (s : Session) : Snapshot :=
  { key := s.key, group := s.source.group, phase := s.phase, budget := s.budget,
    started := s.startedAt.isSome, duration := s.duration now }

end LogTail
