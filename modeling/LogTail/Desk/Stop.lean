import LogTail.Desk

/-!
# Stopping

However a session comes to its end, it is torn down in one way: it is stopped, taken
off the roster, and, if this was its first stop, its document is cleared if the policy
says so and the stop is recorded with its reason.
-/
namespace LogTail.Desk

/-- What follows the first stop of a session. -/
def settle (key : Key) (reason : StopReason) (d : Desk) : Desk :=
  let d := if d.policy.clearOnStop then { d with workspace := d.workspace.clearDocument key } else d
  d.tell key (.stopped reason)

/-- Whether this was the session's first stop. -/
def teardown (n : Nat) (reason : StopReason) (d : Desk) : Bool × Desk :=
  match d.tails[n]? with
  | none => (false, d)
  | some t =>
    let (first, d) := d.stopSession n
    let d := d.unlist t.key n
    if first then (true, d.settle t.key reason) else (false, d)

/-- Tears down the session that holds a key; `false` if none does, or it had stopped. -/
def stopKey (key : Key) (reason : StopReason) (d : Desk) : Bool × Desk :=
  match KeyMap.get? key d.roster with
  | none => (false, d)
  | some n => d.teardown n reason

def stopKeys : List Key → Desk → Nat × Desk
  | [], d => (0, d)
  | key :: rest, d =>
    let (stopped, d) := d.stopKey key .shutdown
    let (n, d) := stopKeys rest d
    ((if stopped then n + 1 else n), d)

/-- Stops every session on the roster and counts them. -/
def stopAll (d : Desk) : Nat × Desk := stopKeys (KeyMap.keys d.roster) d

/-- Whether a session runs whose document nobody sees. A session that has not finished
its start has no document yet. -/
def isUnviewed (key : Key) (d : Desk) : Bool :=
  match (KeyMap.get? key d.roster).bind fun n => d.session? n with
  | none => false
  | some s => s.phase = .running && d.workspace.viewCount key = 0

def stopUnviewedAmong : List Key → Desk → List Key × Desk
  | [], d => ([], d)
  | key :: rest, d =>
    if d.isUnviewed key then
      let (stopped, d) := d.stopKey key .viewsClosed
      let (keys, d) := stopUnviewedAmong rest d
      ((if stopped then key :: keys else keys), d)
    else stopUnviewedAmong rest d

/-- Stops the sessions whose documents nobody sees. -/
def stopUnviewed (d : Desk) : List Key × Desk := stopUnviewedAmong (KeyMap.keys d.roster) d

/-- Empties the document of a session on the roster. -/
def clear (key : Key) (d : Desk) : Except Fault Unit × Desk :=
  if KeyMap.contains key d.roster then
    if (d.workspace.document? key).isSome then
      (.ok (), { d with workspace := d.workspace.clearDocument key }.tell key .cleared)
    else (.error (.document ("no document open for " ++ key.text)), d)
  else (.error (.notFound key.text), d)

/-- Gives the desk up. The sessions on the roster are stopped; one that is not goes on. -/
def drop (d : Desk) : Desk := { d with closed := true, dropped := true }.stopAll.2

end LogTail.Desk
