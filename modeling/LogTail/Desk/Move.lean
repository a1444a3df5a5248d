import LogTail.Desk.Start
import LogTail.Desk.Work

/-!
# Moves

Everything that can happen to a desk, one uninterrupted step at a time. Any sequence
of moves is a run of the desk: requests, answers of the service, work of feeds,
tickers and watchers, views opened and closed by the user, and items sent by the
service may follow each other in any order.
-/
namespace LogTail

inductive Move where
  | start (source : Source)
  /-- The service answers the open request with this number. -/
  | answer (call : Nat)
  | stop (key : Key)
  | stopAll
  | stopUnviewed
  | clear (key : Key)
  /-- Someone begins to wait for the report of the key's last feed. -/
  | await (key : Key)
  | watch
  | drop
  | pull (session : Nat)
  | arm (session : Nat)
  | tick (session : Nat)
  | wake (watcher : Nat)
  | pass (milliseconds : Nat)
  | provide (plan : Plan)
  /-- The next connection will fail. -/
  | cut (fault : Fault)
  | openView (key : Key)
  | closeView (key : Key) (view : Nat)
  | scroll (key : Key) (view : Nat) (top : UInt64)
  | send (channel : Nat) (item : Item)
  | closeSender (channel : Nat)
  deriving Repr, Inhabited

namespace Desk

def onWorkspace (f : Workspace → Workspace) (d : Desk) : Desk := { d with workspace := f d.workspace }

def onChannel (n : Nat) (f : Channel → Channel) (d : Desk) : Desk :=
  { d with channels := d.channels.modify n f }

/-- Adds a script for a connection to come. -/
def provide (plan : Plan) (d : Desk) : Desk :=
  let (script, channels) := plan.lay d.channels
  { d with
    channels
    connector := { d.connector with
      scripts := d.connector.scripts ++ [script]
      senders := d.connector.senders ++ [script.channel?] } }

def cut (fault : Fault) (d : Desk) : Desk :=
  { d with connector := { d.connector with fault := some fault } }

def pass (milliseconds : Nat) (d : Desk) : Desk := { d with now := d.now + milliseconds }

def move : Move → Desk → Desk
  | .start source, d => d.beginStart source
  | .answer call, d => d.finishStart call
  | .stop key, d => (d.stopKey key .explicit).2
  | .stopAll, d => d.stopAll.2
  | .stopUnviewed, d => d.stopUnviewed.2
  | .clear key, d => (d.clear key).2
  | .await key, d => (d.takeHandle key).2
  | .watch, d => d.watch
  | .drop, d => d.drop
  | .pull n, d => d.pull n
  | .arm n, d => d.arm n
  | .tick n, d => d.tick n
  | .wake n, d => d.wake n
  | .pass ms, d => d.pass ms
  | .provide plan, d => d.provide plan
  | .cut fault, d => d.cut fault
  | .openView key, d => d.onWorkspace fun w => (w.openView key).2
  | .closeView key id, d => d.onWorkspace fun w => (w.closeView key id).2
  | .scroll key id top, d => d.onWorkspace (Workspace.scrollTo key id top)
  | .send n i, d => d.onChannel n (Channel.send i)
  | .closeSender n, d => d.onChannel n fun c => { c with sending := false }

def moves (ms : List Move) (d : Desk) : Desk := ms.foldl (fun d m => d.move m) d

end Desk

end LogTail
