import LogTail.Text.Blank

/-!
# Logging

How much is written to the log and in which form. Levels and formats are given by
name; blanks around a name and the case of its letters do not count.
-/
namespace LogTail

/-- Without the blanks around it and in lower case. Only ASCII letters change, which is
enough: no letter of the names below is the lower case of any other character. -/
def plainName (s : String) : String := String.ofList ((Text.trim s.toList).map Char.toLower)

inductive Level where
  | trace
  | debug
  | info
  | warn
  | error
  deriving DecidableEq, Repr, Inhabited

namespace Level

def name : Level → String
  | trace => "trace"
  | debug => "debug"
  | info => "info"
  | warn => "warn"
  | error => "error"

def label : Level → String
  | trace => "TRACE"
  | debug => "DEBUG"
  | info => "INFO"
  | warn => "WARN"
  | error => "ERROR"

def all : List Level := [trace, debug, info, warn, error]

/-- The level with a name; warnings have a second one. -/
def ofName? (s : String) : Option Level :=
  if plainName s = "warning" then some warn else all.find? fun l => l.name = plainName s

/-- Whether the level tells of something that is wrong. -/
def isAboveInfo (l : Level) : Bool := l = warn || l = error

end Level

inductive Format where
  | console
  | json
  deriving DecidableEq, Repr, Inhabited

namespace Format

def name : Format → String
  | console => "console"
  | json => "json"

def ofName? (s : String) : Option Format :=
  if plainName s = "console" then some console
  else if plainName s = "json" then some json
  else none

end Format

structure Logging where
  level : Level := .info
  format : Format := .console
  deriving DecidableEq, Repr, Inhabited

namespace Logging

/-- A name that is not known gives way to the default. -/
def ofNames (level format : String) : Logging :=
  ⟨(Level.ofName? level).getD .info, (Format.ofName? format).getD .console⟩

/-- Puts a log into force unless one is in force already; whether it was done. -/
def install (current : Option Logging) (l : Logging) : Bool × Option Logging :=
  match current with
  | none => (true, some l)
  | some c => (false, some c)

/-- The least level that is written to the log, by name, or that nothing is. A request
names one of the levels by its only name, or `off`, in any case; one that does not is
ignored. -/
def filterText (request : Option String) (l : Logging) : String :=
  let names := "off" :: Level.all.map Level.name
  let asked := request.bind fun r =>
    names.find? fun n => n = String.ofList (r.toList.map Char.toLower)
  asked.getD l.level.name

end Logging

end LogTail
