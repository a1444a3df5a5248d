import LogTail.Fault
import LogTail.Text.Blank

/-!
# Sources and their keys

A source says what is tailed: a log group of a region, which of its streams, and the
pattern that its records must match. Two sources that mean the same to the log
service have the same key; the key's text escapes the characters that separate its
parts, so two sources that differ have different keys.
-/
namespace LogTail

/-- Which log streams of the group are followed. -/
inductive StreamChoice where
  | all
  | startingWith (value : String)
  | exactly (value : String)
  deriving DecidableEq, Repr, Inhabited

namespace StreamChoice

def kind : StreamChoice → String
  | all => "all"
  | startingWith _ => "prefix"
  | exactly _ => "specific"

def value? : StreamChoice → Option String
  | all => none
  | startingWith v | exactly v => some v

def text (c : StreamChoice) : String :=
  match c.value? with
  | none => c.kind
  | some v => c.kind ++ ":" ++ v

end StreamChoice

structure Source where
  region : String
  group : String
  streams : Option StreamChoice := none
  pattern : Option String := none
  deriving DecidableEq, Repr, Inhabited

/-- The identity of a session and of its document. -/
structure Key where
  text : String
  deriving DecidableEq, Repr, Inhabited

namespace Key

/-- Keys are ordered by their texts, code point by code point. -/
instance : LT Key := ⟨fun a b => a.text < b.text⟩

instance (a b : Key) : Decidable (a < b) := inferInstanceAs (Decidable (a.text < b.text))

def delimiters : List Char := ['%', ':', '?', '&', '=']

def escapeChar (c : Char) : List Char :=
  if c ∈ delimiters then '%' :: (Nat.toDigits 16 c.toNat).map Char.toUpper else [c]

/-- A delimiter becomes a percent sign and its number in two upper case hexadecimal
digits; all else stays. -/
def escape (s : List Char) : List Char := s.flatMap escapeChar

def scheme : String := "livetail"

end Key

namespace Source

/-- No choice of streams means all of them. -/
def effectiveStreams (s : Source) : StreamChoice := s.streams.getD .all

/-- A blank pattern is no pattern; any other is taken as it is written. -/
def effectivePattern (s : Source) : Option String :=
  s.pattern.filter fun p => !Text.isAllBlank p

/-- The region is asked for first, then the group, then the value of the stream choice. -/
def check (s : Source) : Except Fault Unit :=
  if Text.isAllBlank s.region then .error (.invalidArgument "region is required")
  else if Text.isAllBlank s.group then .error (.invalidArgument "log group is required")
  else if s.effectiveStreams.value? = some "" then
    .error (.invalidArgument (s.effectiveStreams.kind ++ " stream filter requires a value"))
  else .ok ()

def streamsPart (c : StreamChoice) : List Char :=
  c.kind.toList ++ match c.value? with
    | none => []
    | some v => ':' :: Key.escape v.toList

def patternPart : Option String → List Char
  | none => []
  | some p => "&filter=".toList ++ Key.escape p.toList

/-- Region, group, streams and pattern, in this order, each escaped. -/
def keyText (s : Source) : List Char :=
  Key.scheme.toList ++ ':' :: Key.escape s.region.toList ++ ':' :: Key.escape s.group.toList ++
    "?streams=".toList ++ streamsPart s.effectiveStreams ++ patternPart s.effectivePattern

def key (s : Source) : Key := ⟨String.ofList s.keyText⟩

end Source

end LogTail
