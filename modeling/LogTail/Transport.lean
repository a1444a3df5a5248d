import LogTail.Frame

/-!
# Transports and streams

A transport is the handle of one session's call to the log service. Opening it takes
a while and answers with a stream or a fault, and its second opening always fails.
What it answers is settled by its script: a refusal, a list of items with the delay
of each, or a channel that others fill.

`Stream.poll` says what a pull finds at a given time. Cancellation ends a pull that
waits, and the item waited for is lost; an item that comes without delay is handed
over all the same.
-/
namespace LogTail

/-- How many things one worker takes in a row before it lets others go on. -/
def burst : Nat := 128

/-- Items on their way from a sender to the stream that reads them. -/
structure Channel where
  items : List Item := []
  /-- The sender may still send. -/
  sending : Bool := true
  /-- The stream, or the script it will be made from, is still there. -/
  reading : Bool := true
  deriving DecidableEq, Repr, Inhabited

namespace Channel

/-- Whether an item is accepted. -/
def accepts (c : Channel) : Bool := c.sending && c.reading

def send (i : Item) (c : Channel) : Channel :=
  if c.accepts then { c with items := c.items ++ [i] } else c

/-- What reads a channel is gone; nothing happens without a channel. -/
def release (number : Option Nat) (channels : List Channel) : List Channel :=
  match number with
  | none => channels
  | some n => channels.modify n fun c => { c with reading := false }

end Channel

inductive Script where
  | refuse (fault : Fault)
  | channel (number : Nat)
  /-- Each item comes after its delay; then the stream ends, or is held open. -/
  | scripted (items : List (Nat × Item)) (held : Bool)
  deriving DecidableEq, Repr, Inhabited

/-- The script of a stream without traffic that stays open. -/
def Script.silent : Script := .scripted [] true

/-- A script as it is drawn up, before it has a channel of its own. -/
inductive Plan where
  | refuse (fault : Fault)
  | channel (items : List Item)
  | scripted (items : List (Nat × Item)) (held : Bool)
  deriving DecidableEq, Repr, Inhabited

/-- The script, with its channel after those that are there. -/
def Plan.lay (channels : List Channel) : Plan → Script × List Channel
  | refuse fault => (.refuse fault, channels)
  | channel items => (.channel channels.length, channels ++ [{ items }])
  | scripted items held => (.scripted items held, channels)

/-- The channel a script reads, if it reads one. -/
def Script.channel? : Script → Option Nat
  | .channel n => some n
  | _ => none

inductive Stream where
  /-- `waiting` is the item a pull waits for, with the time it comes. -/
  | scripted (items : List (Nat × Item)) (held : Bool) (waiting : Option (Nat × Item))
  | channel (number : Nat)
  deriving DecidableEq, Repr, Inhabited

/-- What a pull finds. -/
inductive Pull where
  | item (i : Item)
  | ended
  | waits
  deriving DecidableEq, Repr, Inhabited

/-- What it hands over, an item or the end of the stream, unless it waits. -/
def Pull.answer? : Pull → Option (Option Item)
  | .item i => some (some i)
  | .ended => some none
  | .waits => none

namespace Stream

/-- What a pull on a channel finds. -/
def pollChannel (cancelled : Bool) (c : Channel) : Pull × Channel :=
  if cancelled then (.ended, c)
  else match c.items with
    | i :: rest => (.item i, { c with items := rest })
    | [] => if c.sending then (.waits, c) else (.ended, c)

/-- What a pull finds at a time, with the stream and the channels as it leaves them. -/
def poll (now : Nat) (cancelled : Bool) (channels : List Channel) :
    Stream → Pull × Stream × List Channel
  | scripted items held (some (due, i)) =>
    if cancelled then (.ended, scripted items held none, channels)
    else if due ≤ now then (.item i, scripted items held none, channels)
    else (.waits, scripted items held (some (due, i)), channels)
  | scripted [] held none =>
    (if held && !cancelled then .waits else .ended, scripted [] held none, channels)
  | scripted ((delay, i) :: rest) held none =>
    if delay = 0 then (.item i, scripted rest held none, channels)
    else if cancelled then (.ended, scripted rest held none, channels)
    else (.waits, scripted rest held (some (now + delay, i)), channels)
  | channel n =>
    match channels[n]? with
    | none => (.ended, channel n, channels)
    | some c =>
      let (found, c) := pollChannel cancelled c
      (found, channel n, channels.set n c)

/-- Whether a pull would not wait, or, if one waits already, would end now. -/
def isReady (now : Nat) (channels : List Channel) : Stream → Bool
  | scripted _ _ (some (due, _)) => due ≤ now
  | scripted items held none => !items.isEmpty || !held
  | channel n =>
    match channels[n]? with
    | none => true
    | some c => !c.items.isEmpty || !c.sending

/-- When a pull that waits goes on by itself. -/
def due? : Stream → Option Nat
  | scripted _ _ (some (due, _)) => some due
  | _ => none

/-- The stream after the pull on it was given up: what it waited for is lost. -/
def giveUp : Stream → Stream
  | scripted items held _ => scripted items held none
  | channel n => channel n

/-- How many pulls one turn of its reader has at most. A script is read until a pull
waits or finds the end; of a channel one burst is read. -/
def longestTurn : Stream → Nat
  | scripted items _ _ => items.length + 2
  | channel _ => burst

/-- The channel it reads, if it reads one. -/
def channel? : Stream → Option Nat
  | channel n => some n
  | scripted .. => none

end Stream

structure Transport where
  /-- What opening will answer; taken by the first opening. -/
  script : Option Script
  /-- How long opening takes. -/
  delay : Nat := 0
  opens : Nat := 0
  closes : Nat := 0
  /-- The closes that came before the token had fired. -/
  earlyCloses : Nat := 0
  deriving DecidableEq, Repr, Inhabited

namespace Transport

/-- The call goes out. -/
def beginOpen (t : Transport) : Transport := { t with opens := t.opens + 1 }

/-- The call is answered. -/
def finishOpen (t : Transport) : Except Fault Stream × Transport :=
  let answer := match t.script with
    | some (.scripted items held) => .ok (.scripted items held none)
    | some (.channel n) => .ok (.channel n)
    | some (.refuse fault) => .error fault
    | none => .error (.internal "mock stream already opened")
  (answer, { t with script := none })

/-- The transport is closed, with the token as it is by then. -/
def close (cancelled : Bool) (t : Transport) : Transport :=
  { t with
    closes := t.closes + 1
    earlyCloses := if cancelled then t.earlyCloses else t.earlyCloses + 1 }

/-- The channel its script still holds. -/
def channel? (t : Transport) : Option Nat := t.script.bind Script.channel?

end Transport

/-- How long a wait for a stream or a report lasts before it is given up. -/
def patience : Nat := 60000

/-- How a single pull with patience comes out. -/
inductive Waited where
  | item (i : Item)
  | ended
  | gaveUp
  deriving DecidableEq, Repr, Inhabited

/-- Pulls once and waits for the outcome while nothing else happens: the time it came,
and the stream and channels after it. -/
def Stream.wait (now : Nat) (cancelled : Bool) (channels : List Channel) (s : Stream) :
    Waited × Nat × Stream × List Channel :=
  match s.poll now cancelled channels with
  | (.item i, s, channels) => (.item i, now, s, channels)
  | (.ended, s, channels) => (.ended, now, s, channels)
  | (.waits, s, channels) =>
    match s.due? with
    | none => (.gaveUp, now + patience, s.giveUp, channels)
    | some due =>
      if now + patience < due then (.gaveUp, now + patience, s.giveUp, channels)
      else match s.poll due cancelled channels with
        | (.item i, s, channels) => (.item i, due, s, channels)
        | (_, s, channels) => (.ended, due, s, channels)

end LogTail
