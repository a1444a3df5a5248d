import LogTail.Desk.Move

/-!
# What is seen of a run

A run is a list of moves. Of each move one sees what was put on record and which item a
feed took from its stream; the rest of a history is made up of these.
-/
namespace LogTail

/-- A request to start a session, or an answer to one. -/
def Move.isRequest : Move → Bool
  | start _ | answer _ => true
  | _ => false

/-- The key for which a move requests a session. -/
def Move.asked? : Move → Option Key
  | start source => some source.key
  | _ => none

namespace Desk

/-- What a move puts on record, oldest first. -/
def told (m : Move) (d : Desk) : List (Key × Notice) := (d.move m).news d.log.length

def key? (n : Nat) (d : Desk) : Option Key := d.tails[n]?.map (·.key)

def phase? (n : Nat) (d : Desk) : Option Phase := d.tails[n]?.map (·.session.phase)

/-- A session is on its way or runs. -/
def isLive (n : Nat) (d : Desk) : Bool := (d.phase? n).any Phase.isLive

/-- A move tears a session down: it stops it, and not because its start has failed. -/
def Tears (n : Nat) (m : Move) (d : Desk) : Prop :=
  m.isRequest = false ∧ d.isLive n = true ∧ (d.move m).isLive n = false

instance (n : Nat) (m : Move) (d : Desk) : Decidable (d.Tears n m) :=
  inferInstanceAs (Decidable (_ ∧ _ ∧ _))

/-- A run of moves tears a session down. -/
def TornDown (n : Nat) : List Move → Desk → Prop
  | [], _ => False
  | m :: ms, d => d.Tears n m ∨ TornDown n ms (d.move m)

/-- What was recorded about a key, oldest first. -/
def events (key : Key) (d : Desk) : List Notice :=
  (d.log.reverse.filter (·.1 = key)).map (·.2)

/-- The feed that a move makes pull, unless it has ended or is about to end. -/
def puller? (m : Move) (d : Desk) : Option (Nat × Feed) :=
  match m with
  | .pull n => d.tails[n]?.bind fun t =>
    (t.feed.filter fun f => f.report.isNone && !t.session.cancelled).map fun f => (n, f)
  | _ => none

/-- The item that a move takes from the stream of a session. -/
def taken? (m : Move) (d : Desk) : Option (Nat × Item) :=
  (d.puller? m).bind fun (n, f) =>
    match (f.stream.poll d.now false d.channels).1 with
    | .item i => some (n, i)
    | .ended | .waits => none

/-- The update that a move applies to the document of a session: the feed took it and
goes on. -/
def applied? (m : Move) (d : Desk) : Option (Nat × Bool × List Record) :=
  match d.taken? m with
  | some (n, .frame (.update sampled records)) =>
    if ((d.move m).report? n).isNone then some (n, sampled, records) else none
  | _ => none

@[simp] theorem moves_nil (d : Desk) : d.moves [] = d := rfl

theorem moves_append (ms ms' : List Move) (d : Desk) :
    d.moves (ms ++ ms') = (d.moves ms).moves ms' := List.foldl_append

@[simp] theorem moves_cons (m : Move) (ms : List Move) (d : Desk) :
    d.moves (m :: ms) = (d.move m).moves ms := rfl

end Desk

end LogTail
