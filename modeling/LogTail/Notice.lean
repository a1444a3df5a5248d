import LogTail.Source
import LogTail.Text.Decimal

/-!
# Notices

What is told about a session, for a status line or an audit: each step of its life
and each refresh of its duration.
-/
namespace LogTail

inductive StopReason where
  /-- The user asked for it. -/
  | explicit
  /-- No view of the session's document is left. -/
  | viewsClosed
  /-- The stream ended or broke. -/
  | streamEnded
  | shutdown
  deriving DecidableEq, Repr, Inhabited

def StopReason.text : StopReason → String
  | explicit => "explicit"
  | viewsClosed => "views_closed"
  | streamEnded => "stream_ended"
  | shutdown => "shutdown"

inductive Notice where
  | started
  /-- A request met a session of its key; the session's document was focused. -/
  | refocused
  | startFailed (reason : String)
  /-- One update was handled; the count includes records without an entry. -/
  | update (sampled : Bool) (count : Nat)
  | elapsed (milliseconds : Nat)
  | stopped (reason : StopReason)
  | cleared
  deriving DecidableEq, Repr, Inhabited

open Text (twoDigits) in
/-- Whole hours, minutes and seconds; the hours take as many digits as they need. -/
def elapsedText (milliseconds : Nat) : String :=
  let s := milliseconds / 1000
  twoDigits (s / 3600) ++ ":" ++ twoDigits (s % 3600 / 60) ++ ":" ++ twoDigits (s % 60)

namespace Notice

def text : Notice → String
  | started => "started"
  | refocused => "refocused"
  | startFailed reason => "start_failed: " ++ reason
  | update sampled count =>
    "update: " ++ toString count ++ " events (sampled=" ++ (if sampled then "true" else "false") ++ ")"
  | elapsed ms => "elapsed: " ++ elapsedText ms
  | stopped reason => "stopped: " ++ reason.text
  | cleared => "cleared"

def elapsed? : Notice → Option Nat
  | elapsed ms => some ms
  | _ => none

end Notice

end LogTail
