import LogTail.Settings
import LogTail.Yaml.Node

/-!
# Written settings

Settings as a YAML document: a mapping with a key for each setting, where those of
the log stand in a mapping of their own. A key may be left out, but not written twice,
and there are no others. Where a mapping is asked for, nothing at all is an empty one.
-/
namespace LogTail.Settings

open Yaml

/-- Digits of a base as a number of sixty-four bits. -/
def digitsIn? (base : Nat) (cs : List Char) : Option Nat :=
  let value? (c : Char) : Option Nat := (hexValue? c).filter (· < base)
  if cs = [] || cs.any fun c => (value? c).isNone then none
  else
    let n := cs.foldl (fun n c => base * n + (value? c).getD 0) 0
    if n < Text.wordLimit then some n else none

/-- Digits after an optional plus sign, with a mark for each base but ten; a decimal
number does not start with a zero unless it is one. -/
def number? (text : List Char) : Option Nat :=
  let text := match text with
    | '+' :: rest => rest
    | _ => text
  match text with
  | '0' :: 'x' :: rest => digitsIn? 16 rest
  | '0' :: 'o' :: rest => digitsIn? 8 rest
  | '0' :: 'b' :: rest => digitsIn? 2 rest
  | '0' :: _ :: _ => none
  | _ => digitsIn? 10 text

def truth? (text : List Char) : Option Bool :=
  if String.ofList text ∈ ["true", "True", "TRUE"] then some true
  else if String.ofList text ∈ ["false", "False", "FALSE"] then some false
  else none

/-- The text of a scalar that may stand for more than text: a plain one, or a literal
block with the tag of its kind. -/
def symbol? (kind : String) : Node → Option (List Char)
  | .scalar .plain _ text => some text
  | .scalar .literal tag text =>
    if tag = ("tag:yaml.org,2002:" ++ kind).toList then some text else none
  | _ => none

def textOf? : Node → Option String
  | .scalar _ _ text => some (String.ofList text)
  | _ => none

/-- The entries of a mapping by their keys, with aliases followed. -/
def entriesOf? (d : Yaml.Document) : Node → Option (List (String × Node))
  | .mapping entries => entries.mapM fun (k, v) => do
    let k ← (d.resolve k).bind textOf?
    let v ← d.resolve v
    some (k, v)
  | .scalar .plain _ [] => some []
  | _ => none

/-- Whether every key is one of these and none stands twice. -/
def keysAmong (known : List String) (entries : List (String × Node)) : Bool :=
  let keys := entries.map (·.1)
  keys.all (· ∈ known) && keys.eraseDups.length = keys.length

/-- The value at a key, read by `read`; without the key, what was there. -/
def field? {α : Type} (entries : List (String × Node)) (key : String)
    (read : Node → Option α) (preset : α) : Option α :=
  match entries.lookup key with
  | none => some preset
  | some n => read n

/-- The level and the format that the log's own mapping names. -/
def logging? (d : Yaml.Document) (preset : Settings) (n : Node) : Option Settings := do
  let entries ← entriesOf? d n
  if keysAmong ["level", "format"] entries then do
    let level ← field? entries "level" textOf? preset.level
    let format ← field? entries "format" textOf? preset.format
    some { preset with level, format }
  else none

/-- The settings of a document, checked or not. -/
def ofDocument? (d : Yaml.Document) : Option Settings := do
  let root ← match d.root with
    | none => some (.absent [])
    | some n => d.resolve n
  let entries ← entriesOf? d root
  if keysAmong ["max_lines", "status_refresh_ms", "clear_on_stop", "logging"] entries then do
    let preset : Settings := {}
    let number (n : Node) := (symbol? "int" n).bind number?
    let budget ← field? entries "max_lines" number preset.budget
    let refresh ← field? entries "status_refresh_ms" number preset.refresh
    let clearOnStop ← field? entries "clear_on_stop"
      (fun n => (symbol? "bool" n).bind truth?) preset.clearOnStop
    field? entries "logging" (logging? d { preset with budget, refresh, clearOnStop })
      { preset with budget, refresh, clearOnStop }
  else none

/-- A blank text leaves everything at its default. -/
def ofText? (text : String) : Option Settings :=
  if Text.isAllBlank text then some {} else (Yaml.Document.ofText? text).bind ofDocument?

end LogTail.Settings
