import LogTail.Session

/-!
# Starts in time

A whole start, with the wait for the service in its middle, and a start that someone
else's stop meets on its way. A stream that is opened but not handed out is dropped,
and whatever filled it is refused from then on.
-/
namespace LogTail.Session

/-- Answers the call of a session that has begun its start. -/
def finishStartOn (now : Nat) (channels : List Channel) (s : Session) :
    Except Fault Stream × List Channel × Session :=
  match s.finishStart now with
  | (.ok stream, t) => (.ok stream, channels, t)
  | (.error fault, t) => (.error fault, Channel.release s.transport.channel? channels, t)

/-- A start and when it was answered. -/
def start (now : Nat) (channels : List Channel) (s : Session) :
    Except Fault Stream × Nat × List Channel × Session :=
  match s.beginStart now with
  | .error fault => (.error fault, now, channels, s)
  | .ok s =>
    let answered := now + s.transport.delay
    let (answer, channels, s) := s.finishStartOn answered channels
    (answer, answered, channels, s)

/-- A start, and a stop some time after it was begun: what both answered, and when the
later one did. A call that takes no time is answered before the stop. -/
def startAndStop (now after : Nat) (channels : List Channel) (s : Session) :
    Except Fault Stream × Bool × Nat × List Channel × Session :=
  let stopped := now + after
  match s.beginStart now with
  | .error fault =>
    let (first, s) := s.stop stopped
    (.error fault, first, stopped, channels, s)
  | .ok s =>
    let answered := now + s.transport.delay
    if s.transport.delay = 0 ∨ answered < stopped then
      let (answer, channels, s) := s.finishStartOn answered channels
      let (first, s) := s.stop stopped
      (answer, first, stopped, channels, s)
    else
      let (first, s) := s.stop stopped
      let (answer, channels, s) := s.finishStartOn answered channels
      (answer, first, answered, channels, s)

end LogTail.Session
