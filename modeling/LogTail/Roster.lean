import LogTail.KeyMap
import LogTail.Fault

/-!
# The roster of sessions

Which session holds each key. Sessions are known by their numbers, and no two
sessions have the same one, so taking a session off the roster by key and number
never takes off a later session of its key.
-/
namespace LogTail

abbrev Roster := KeyMap Nat

namespace Roster

/-- Puts a session under its key, unless the key is held. -/
def register (key : Key) (session : Nat) (r : Roster) : Except Fault Roster :=
  if KeyMap.contains key r then .error (.alreadyExists key.text)
  else .ok (KeyMap.insert key session r)

def lookup (key : Key) (r : Roster) : Except Fault Nat :=
  match KeyMap.get? key r with
  | some session => .ok session
  | none => .error (.notFound key.text)

/-- Takes off whatever holds the key, and says what it was. -/
def remove (key : Key) (r : Roster) : Option Nat × Roster :=
  (KeyMap.get? key r, KeyMap.erase key r)

/-- Takes off this session, if it is the one that holds the key. -/
def removeInstance (key : Key) (session : Nat) (r : Roster) : Option Nat × Roster :=
  if KeyMap.get? key r = some session then (some session, KeyMap.erase key r) else (none, r)

end Roster

end LogTail
