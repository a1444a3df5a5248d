import LogTail.Desk

/-!
# Starting

A request to start a session checks its source, and if a session holds the key it
brings that one's document to the front. Otherwise it connects, puts a new session on
the roster, so that another request meets it there, and opens the stream. Opening
waits for the service, so a start is two steps, and anything may happen between them.

A start that fails leaves the session stopped and off the roster.
-/
namespace LogTail.Desk

def addCall (c : Call) (d : Desk) : Desk := { d with calls := d.calls ++ [c] }

def answerCall (n : Nat) (answer : Except Fault Started) (d : Desk) : Desk :=
  { d with calls := d.calls.modify n fun c => { c with stage := .answered answer } }

/-- Brings the document of a key to the front, if there is one. -/
def refocus (key : Key) (d : Desk) : Desk :=
  { d with workspace := (d.workspace.focusDocument key).2 }.tell key .refocused

/-- The answer of a request that is over as soon as it was made. -/
def answerNow (key : Key) (answer : Except Fault Started) (d : Desk) : Desk :=
  d.addCall ⟨key, .answered answer⟩

def tellFailure (key : Key) (fault : Fault) (d : Desk) : Desk := d.tell key (.startFailed fault.message)

def refuse (key : Key) (fault : Fault) (d : Desk) : Desk :=
  (d.tellFailure key fault).answerNow key (.error fault)

/-- Someone else's session for the source takes the key, if the connection just made is
the one for it and the key is free. -/
def admitRival (source : Source) (d : Desk) : Desk :=
  if d.connector.connects ∈ d.connector.rivals then
    match Session.make source 1 { script := some .silent } with
    | .error _ => d
    | .ok s =>
      let n := d.tails.length
      let d := d.add { session := s, own := false }
      match d.roster.register s.key n with
      | .error _ => d
      | .ok roster => { d with roster }
  else d

/-- Enters a new session and sends out its call. -/
def enter (key : Key) (s : Session) (d : Desk) : Desk :=
  let n := d.tails.length
  match d.roster.register key n with
  | .error _ =>
    -- someone else was faster
    let d := d.add { session := (s.stop d.now).2 }
    let d := { d with channels := Channel.release s.transport.channel? d.channels }
    (d.refocus key).answerNow key (.ok .refocused)
  | .ok roster =>
    match s.beginStart d.now with
    | .error fault => d.refuse key fault
    | .ok s =>
      ({ d with roster }.add { session := s }).addCall
        ⟨key, .opening n (d.now + s.transport.delay)⟩

/-- The first half of a start. -/
def beginStart (source : Source) (d : Desk) : Desk :=
  let key := source.key
  match source.check with
  | .error fault => d.refuse key fault
  | .ok () =>
    if KeyMap.contains key d.roster then (d.refocus key).answerNow key (.ok .refocused)
    else
      match d.connector.connect with
      | (.error fault, connector) => { d with connector }.refuse key fault
      | (.ok transport, connector) =>
        let d := { d with connector }.admitRival source
        match Session.make source d.policy.budget transport with
        | .error fault => d.refuse key fault
        | .ok s => d.enter key s

/-- What a failed start leaves: nothing on the roster, and the reason on record. -/
def abandon (call : Nat) (key : Key) (n : Nat) (fault : Fault) (d : Desk) : Desk :=
  ((d.unlist key n).tellFailure key fault).answerCall call (.error fault)

/-- Sets a stream and a ticker to work. Only feeds that have not ended are kept for
those who wait for a report. -/
def launch (key : Key) (n : Nat) (stream : Stream) (d : Desk) : Desk :=
  let d := { d with tails := d.tails.modify n fun t =>
    { t with feed := some { stream }, ticker := .fresh } }
  let unfinished := d.handles.filter fun (_, m) => (d.report? m).isNone
  { d with handles := KeyMap.insert key n unfinished }

/-- The document of a session that was opened, and then its feed. -/
def welcome (call : Nat) (key : Key) (n : Nat) (stream : Stream) (d : Desk) : Desk :=
  match d.workspace.openDocument key with
  | (.error fault, workspace) =>
    let d := ({ d with workspace }.stopSession n).2
    { d with channels := Channel.release stream.channel? d.channels }.abandon call key n fault
  | (.ok (), workspace) =>
    (({ d with workspace }.tell key .started).launch key n stream).answerCall call (.ok .opened)

/-- The second half of a start, once the service has answered. -/
def finishStart (call : Nat) (d : Desk) : Desk :=
  match d.calls[call]? with
  | some ⟨key, .opening n _⟩ =>
    match d.tails[n]? with
    | none => d
    | some t =>
      let (answer, channels, session) := t.session.finishStartOn d.now d.channels
      let d := { d with channels }.put n { t with session }
      match answer with
      | .error fault => d.abandon call key n fault
      | .ok stream => d.welcome call key n stream
  | _ => d

end LogTail.Desk
