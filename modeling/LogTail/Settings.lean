import LogTail.Logging
import LogTail.Text.Decimal
import LogTail.Text.Quoted

/-!
# Settings

What a host reads before it starts sessions: the line budget of a document, how often
the duration of a session is refreshed, whether a document is cleared when its session
stops, and how the host logs. Settings that pass `check` take effect unchanged.
-/
namespace LogTail

structure Settings where
  /-- How many lines a document may hold. -/
  budget : Nat := 10000
  /-- Milliseconds between two refreshes of a session's duration. -/
  refresh : Nat := 500
  clearOnStop : Bool := false
  /-- The name of a level, as it was written. -/
  level : String := "info"
  /-- The name of a format, as it was written. -/
  format : String := "console"
  deriving DecidableEq, Repr, Inhabited

/-- Why settings are refused. -/
inductive Flaw where
  | budget (lines : Nat)
  | refresh
  | level
  | format
  /-- An override of the budget is not a whole number. -/
  | notWhole (input : String)
  /-- An override of the budget is out of range. -/
  | outside (lines : Nat)
  deriving DecidableEq, Repr, Inhabited

namespace Settings

def leastBudget : Nat := 1000

def greatestBudget : Nat := 15000

def leastRefresh : Nat := 50

def budgetVariable : String := "LIVETAIL_MAX_LINES"

def levelVariable : String := "LIVETAIL_LOG_LEVEL"

def formatVariable : String := "LIVETAIL_LOG_FORMAT"

end Settings

namespace Flaw

/-- What is wrong with the value itself. -/
def message : Flaw → String
  | budget n => "max_lines must be between " ++ toString Settings.leastBudget ++ " and " ++
      toString Settings.greatestBudget ++ ", got " ++ toString n
  | refresh => "status_refresh_ms must be at least " ++ toString Settings.leastRefresh
  | level => "logging.level must be one of trace, debug, info, warn (warning), error"
  | format => "logging.format must be one of console, json"
  | notWhole input => Text.quoted input ++ " is not a whole number"
  | outside n => toString n ++ " is outside " ++ toString Settings.leastBudget ++ "..=" ++
      toString Settings.greatestBudget

/-- What is wrong, with the variable that brought it if one did. -/
def report (f : Flaw) : String :=
  "invalid settings: " ++ match f with
    | notWhole _ | outside _ => Settings.budgetVariable ++ ": " ++ f.message
    | _ => f.message

end Flaw

namespace Settings

/-- A budget as a user enters it: blanks around it do not count. -/
def readBudget (input : String) : Except Flaw Nat :=
  match Text.wholeNumber? (Text.trim input.toList) with
  | none => .error (.notWhole input)
  | some n => if leastBudget ≤ n ∧ n ≤ greatestBudget then .ok n else .error (.outside n)

/-- The first flaw, in the order of the fields. -/
def check (s : Settings) : Except Flaw Unit :=
  if s.budget < leastBudget ∨ greatestBudget < s.budget then .error (.budget s.budget)
  else if s.refresh < leastRefresh then .error .refresh
  else if Level.ofName? s.level = none then .error .level
  else if Format.ofName? s.format = none then .error .format
  else .ok ()

/-- How the host logs under these settings. -/
def logging (s : Settings) : Logging := Logging.ofNames s.level s.format

/-- Changes the level and the format to what their variables say. -/
def overrideNames (environment : String → Option String) (s : Settings) : Settings :=
  { s with
    level := (environment levelVariable).getD s.level
    format := (environment formatVariable).getD s.format }

/-- Puts the values of variables in place of settings, and checks what comes out. A bad
budget changes nothing; after any other flaw the changes stay. -/
def override (environment : String → Option String) (s : Settings) : Except Flaw Unit × Settings :=
  match environment budgetVariable with
  | none =>
    let s := s.overrideNames environment
    (s.check, s)
  | some input =>
    match readBudget input with
    | .error flaw => (.error flaw, s)
    | .ok n =>
      let s := { s with budget := n }.overrideNames environment
      (s.check, s)

end Settings

end LogTail
