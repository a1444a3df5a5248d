import LogTail.Record

/-!
# Frames

What an open stream yields: the service's word that it accepted the request, a batch
of records, or something of an unknown shape. An item is a frame or the fault that
the stream reports in its place.
-/
namespace LogTail

inductive Frame where
  | accepted (groups : List String) (request : Option String)
  /-- A batch; it is sampled when the service dropped records to keep up. -/
  | update (sampled : Bool) (records : List Record)
  | unknown (shape : String)
  deriving DecidableEq, Repr, Inhabited

def Frame.kind : Frame → String
  | accepted .. => "session_start"
  | update .. => "session_update"
  | unknown _ => "unrecognized"

inductive Item where
  | frame (f : Frame)
  | fault (e : Fault)
  deriving DecidableEq, Repr, Inhabited

end LogTail
