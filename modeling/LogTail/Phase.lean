import LogTail.Fault

/-!
# Phases of a session

A session is made idle, starts once, runs once the service has opened its stream,
and stops for good. Stopping is allowed from every phase and may be repeated.
-/
namespace LogTail

inductive Phase where
  | idle
  | starting
  | running
  | stopped
  deriving DecidableEq, Repr, Inhabited

namespace Phase

def text : Phase → String
  | idle => "idle"
  | starting => "starting"
  | running => "running"
  | stopped => "stopped"

def isFinal (p : Phase) : Bool := p = stopped

/-- A live session is starting or running. -/
def isLive (p : Phase) : Bool := p = starting || p = running

def allows : Phase → Phase → Bool
  | idle, starting => true
  | starting, running => true
  | _, stopped => true
  | _, _ => false

/-- The fault of a session that was to change its phase against the rule. -/
def refusal (p next : Phase) (key : String) : Fault :=
  .invalidState key p.text ("transition_to_" ++ next.text)

/-- Whether the change is allowed, and if not, which fault the session with this key
reports. -/
def change (p next : Phase) (key : String) : Except Fault Unit :=
  if p.allows next then .ok () else .error (p.refusal next key)

end Phase

end LogTail
