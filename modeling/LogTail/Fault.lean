import LogTail.Text.Quoted

/-!
# Faults

What can go wrong while tailing, by cause, with the one place where each cause is
put into words. A fault that names a session names it by the text of its key.
-/
namespace LogTail

inductive Fault where
  /-- The source that was asked for is not one that can be tailed. -/
  | invalidArgument (message : String)
  /-- Another session holds the key. -/
  | alreadyExists (key : String)
  | notFound (key : String)
  /-- The session is in a phase that does not allow the operation. -/
  | invalidState (key phase operation : String)
  /-- The log service cannot be reached. -/
  | unavailable (message : String)
  /-- The log service refuses the request. -/
  | rejected (message : String)
  /-- The stream broke after it was opened. -/
  | stream (message : String)
  /-- The document refuses an edit. -/
  | document (message : String)
  | internal (message : String)
  deriving DecidableEq, Repr, Inhabited

namespace Fault

open Text (quoted)

def message : Fault → String
  | invalidArgument m => "invalid argument: " ++ m
  | alreadyExists k => "session " ++ quoted k ++ " already exists"
  | notFound k => "session " ++ quoted k ++ " not found"
  | invalidState k p o =>
    "session " ++ quoted k ++ " in state " ++ quoted p ++ " does not support " ++ quoted o
  | unavailable m => "log service unavailable: " ++ m
  | rejected m => "log service rejected request: " ++ m
  | stream m => "stream failed: " ++ m
  | document m => "document edit failed: " ++ m
  | internal m => "internal error: " ++ m

/-- Whether the request itself is at fault, so that trying it again unchanged is of no
use before its configuration or the way to the service is mended. -/
def isConfiguration : Fault → Bool
  | invalidArgument _ | rejected _ | unavailable _ => true
  | _ => false

end Fault

end LogTail
