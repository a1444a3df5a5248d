import LogTail.Desk.Stop

/-!
# The work that sessions leave running

A feed pulls one item after the other and tears its session down when it ends; a
ticker records the time its session has lasted; a watcher stops the sessions whose
documents nobody sees, at every view that opens or closes. Each looks first whether it
should end.
-/
namespace LogTail.Desk

/-- Ends the feed of a session. -/
def endFeed (n : Nat) (t : Tail) (f : Feed) (exit : Exit) (d : Desk) : Desk :=
  let d := d.put n { t with feed := some { f with report := some ⟨exit, f.tally⟩ } }
  ({ d with channels := Channel.release f.stream.channel? d.channels }.teardown n .streamEnded).2

/-- Writes an item into the document of a session. -/
def takeItem (n : Nat) (t : Tail) (f : Feed) (i : Item) (d : Desk) : Desk :=
  let key := t.key
  let document := (d.workspace.document? key).getD {}
  let (exit, p) := ({ document, tally := f.tally } : Pump).take t.session.budget
    t.session.cancelled (some i)
  let f := { f with tally := p.tally }
  let d := { d with
    workspace := d.workspace.onDocument key fun _ => p.document
    log := (p.notices.map fun n => (key, n)).reverse ++ d.log }
  match exit with
  | none => d.put n { t with feed := some f }
  | some exit => d.endFeed n t f exit

/-- The session of a feed that has not ended, with the feed. -/
def feeding? (n : Nat) (d : Desk) : Option (Tail × Feed) :=
  d.tails[n]?.bind fun t => (t.feed.filter fun f => f.report.isNone).map fun f => (t, f)

/-- A pull looks at the token first, and goes on unless it has fired. -/
def look (n : Nat) (d : Desk) : Bool × Desk :=
  match d.feeding? n with
  | none => (false, d)
  | some (t, f) => if t.session.cancelled then (false, d.endFeed n t f .cancelled) else (true, d)

/-- Then it asks the stream, which `heeds` the token or looks for an item first: an item, the
end of the stream, or nothing while it waits. -/
def fetch (n : Nat) (heeds : Bool) (d : Desk) : Option (Option Item) × Desk :=
  match d.feeding? n with
  | none => (none, d)
  | some (t, f) =>
    let (found, stream, channels) :=
      f.stream.poll d.now (t.session.cancelled && heeds) d.channels
    (found.answer?, ({ d with channels } : Desk).put n { t with feed := some { f with stream } })

/-- At last it takes what was handed over. -/
def receive (n : Nat) (answer : Option Item) (d : Desk) : Desk :=
  match d.feeding? n with
  | none => d
  | some (t, f) =>
    match answer with
    | none => d.endFeed n t f .closed
    | some i => d.takeItem n t f i

/-- One pull of a feed that nothing comes in between. -/
def pull (n : Nat) (d : Desk) : Desk :=
  match d.look n with
  | (false, d) => d
  | (true, d) =>
    match d.fetch n true with
    | (none, d) => d
    | (some answer, d) => d.receive n answer

/-- Where on the grid of a ticker the next tick falls, once a tick that was due at a
time has come. Ticks that were missed are left out. -/
def nextTick (refresh due now : Nat) : Nat := now + refresh - (now - due) % refresh

/-- Sets a new ticker going: its first tick is due at once. -/
def arm (n : Nat) (d : Desk) : Desk :=
  match d.tails[n]? with
  | none => d
  | some t =>
    if t.ticker = .fresh then
      d.put n { t with ticker := if t.session.cancelled then .ended else .due d.now }
    else d

/-- A tick, if one is due. -/
def tick (n : Nat) (d : Desk) : Desk :=
  match d.tails[n]? with
  | none => d
  | some t =>
    match t.ticker with
    | .absent | .fresh | .ended => d
    | .due time =>
      if t.session.cancelled then d.put n { t with ticker := .ended }
      else if time ≤ d.now then
        (d.put n { t with ticker := .due (nextTick d.policy.refresh time d.now) }).tell t.key
          (.elapsed (t.session.duration d.now))
      else d

/-- A new watcher sees what happens from now on. -/
def watch (d : Desk) : Desk := { d with watchers := d.watchers ++ [⟨d.workspace.published.length, false⟩] }

/-- A watcher receives one delivery, or ends with the desk. -/
def wake (n : Nat) (d : Desk) : Desk :=
  match d.watchers[n]? with
  | none => d
  | some w =>
    if w.ended then d
    else if d.dropped then { d with watchers := d.watchers.set n { w with ended := true } }
    else match d.workspace.receive w.seen with
      | none => d
      | some (_, seen) => ({ d with watchers := d.watchers.set n { w with seen } }.stopUnviewed).2

end LogTail.Desk
