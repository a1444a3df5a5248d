import LogTail.FileTree
import LogTail.Settings.Written

/-!
# Settings files

Settings are accepted from a text if it can be read and they pass their check. A host
looks for its settings file in the directory for configuration, then below the home
directory, then where it was started, and takes the first file that is there; without
one it has the defaults. The variables of the environment come last.
-/
namespace LogTail

/-- Why there are no settings. -/
inductive SettingsFault where
  | unreadable (path : String) (trouble : FileTrouble)
  /-- The text is not YAML, or not of the right shape. -/
  | malformed
  | invalid (flaw : Flaw)
  deriving DecidableEq, Repr, Inhabited

/-- No words are given for a text that cannot be read. -/
def SettingsFault.message? : SettingsFault → Option String
  | unreadable path trouble => some ("read " ++ path ++ ": " ++ trouble.message)
  | malformed => none
  | invalid flaw => some flaw.report

namespace Settings

/-- What was read, if it passes its check. -/
def accept : Option Settings → Except SettingsFault Settings
  | none => .error .malformed
  | some s =>
    match s.check with
    | .ok () => .ok s
    | .error flaw => .error (.invalid flaw)

def ofText (text : String) : Except SettingsFault Settings := accept (ofText? text)

def load (tree : FileTree) (path : String) : Except SettingsFault Settings :=
  match tree.read path with
  | .error trouble => .error (.unreadable path trouble)
  | .ok text => ofText text

def fileName : String := "livetail.yaml"

/-- A path and a name below it; the empty path is where the host was started. -/
def below (path name : String) : String :=
  if path = "" then name
  else if path.toList.getLast? = some '/' then path ++ name
  else path ++ "/" ++ name

/-- Where a settings file may be, in the order of the search. What the environment has for
`HOME` is the home path. -/
def candidates (environment : String → Option String) : List String :=
  let configuration := match environment "XDG_CONFIG_HOME" with
    | none => []
    | some path => [below path "livetail"]
  let home := match environment "HOME" with
    | none | some "" => []
    | some path => [below path ".config/livetail"]
  (configuration ++ home ++ ["."]).map fun path => below path fileName

def find? (environment : String → Option String) (tree : FileTree) : Option String :=
  (candidates environment).find? fun path => tree.isFile path

/-- The settings of a host that starts now. -/
def discover (environment : String → Option String) (tree : FileTree) :
    Except SettingsFault Settings := do
  let s ← match find? environment tree with
    | none => .ok {}
    | some path => load tree path
  match s.override environment with
  | (.ok (), s) => .ok s
  | (.error flaw, _) => .error (.invalid flaw)

end Settings

end LogTail
