import LogTail.Yaml.Glyph

/-!
# Names, tags and directives

What begins with an ampersand, an asterisk, an exclamation mark or a percent sign. A
tag is written as a handle and a suffix; directives say what a handle stands for. In
a tag an octet may be written by its number after a percent sign: the octets must
spell characters, and each stands here as the character of its own number.
-/
namespace LogTail.Yaml

/-- A tag as it is written. An empty handle leaves the suffix as the whole tag. -/
structure Tag where
  handle : List Char
  suffix : List Char
  deriving DecidableEq, Repr, Inhabited

inductive Directive where
  | version (major minor : Nat)
  /-- Tags with the handle start with the lead. -/
  | tag (handle lead : List Char)
  deriving DecidableEq, Repr, Inhabited

/-- Reads name characters, which may be none. -/
def nameChars (gs : List Glyph) : List Char × List Glyph :=
  let name := gs.takeWhile fun g => isNameChar g.char
  (name.map (·.char), gs.drop name.length)

/-- Reads on after the mark of an anchor or an alias. -/
def anchorName? (gs : List Glyph) : Option (List Char × List Glyph) :=
  let (name, rest) := nameChars gs
  if name = [] then none
  else if isGapOrEnd (next rest) || next rest ∈ ['?', ':', ',', ']', '\x7d', '%', '@', '\x60'] then
    some (name, rest)
  else none

/-- The characters of a tag; in a verbatim one also some marks of flow collections. -/
def isTagChar (verbatim : Bool) (c : Char) : Bool :=
  isNameChar c || c ∈ ";/?:@&=+$.%!~*\x27()".toList || (verbatim && c ∈ [',', '[', ']'])

/-- How many octets follow the first octet of a character. -/
def octetsAfter? (octet : Nat) : Option Nat :=
  if octet < 0x80 then some 0
  else if 0xc0 ≤ octet ∧ octet < 0xe0 then some 1
  else if 0xe0 ≤ octet ∧ octet < 0xf0 then some 2
  else if 0xf0 ≤ octet ∧ octet < 0xf8 then some 3
  else none

/-- Reads tag characters, which may be none. `due` is how many octets of a character
are still to come. -/
def tagChars (verbatim : Bool) (due : Nat) : List Glyph → Option (List Char × List Glyph)
  | p :: a :: b :: rest =>
    if p.char = '%' then
      match hexValue? a.char, hexValue? b.char with
      | some high, some low =>
        let octet := 16 * high + low
        let due := if due = 0 then octetsAfter? octet
          else if 0x80 ≤ octet ∧ octet < 0xc0 then some (due - 1) else none
        match due with
        | none => none
        | some due => (tagChars verbatim due rest).map fun (cs, r) => (Char.ofNat octet :: cs, r)
      | _, _ => none
    else if due ≠ 0 then none
    else if isTagChar verbatim p.char then
      (tagChars verbatim 0 (a :: b :: rest)).map fun (cs, r) => (p.char :: cs, r)
    else some ([], p :: a :: b :: rest)
  | p :: rest =>
    if due ≠ 0 || p.char = '%' then none
    else if isTagChar verbatim p.char then
      (tagChars verbatim 0 rest).map fun (cs, r) => (p.char :: cs, r)
    else some ([], p :: rest)
  | [] => if due = 0 then some ([], []) else none

/-- An octet of zero ends a tag. -/
def untilNull (cs : List Char) : List Char := cs.takeWhile (· ≠ '\x00')

/-- Reads on after the exclamation mark of a handle: name characters, and a second
mark if it is there. -/
def handleChars (gs : List Glyph) : List Char × List Glyph :=
  let (name, rest) := nameChars gs
  if next rest = '!' then ('!' :: name ++ ['!'], rest.tail) else ('!' :: name, rest)

/-- Reads on after the exclamation mark of a tag. -/
def tag? (flow : Bool) (gs : List Glyph) : Option (Tag × List Glyph) := do
  let (tag, rest) ←
    if next gs = '<' then do
      let (suffix, rest) ← tagChars true 0 gs.tail
      if suffix = [] || next rest ≠ '>' then none
      else some (Tag.mk [] (untilNull suffix), rest.tail)
    else do
      let (handle, rest) := handleChars gs
      let (more, rest) ← tagChars false 0 rest
      if 2 ≤ handle.length && handle.getLast? = some '!' then
        if more = [] then none else some (Tag.mk handle (untilNull more), rest)
      else
        let suffix := untilNull (handle.tail ++ more)
        some (if suffix = [] then Tag.mk [] ['!'] else Tag.mk ['!'] suffix, rest)
  if (flow && next rest = ',') || isGapOrEnd (next rest) then some (tag, rest) else none

/-- Reads a number of nine digits at most. -/
def versionNumber? (gs : List Glyph) : Option (Nat × List Glyph) :=
  let digits := gs.takeWhile fun g => '0' ≤ g.char && g.char ≤ '9'
  if digits = [] || 9 < digits.length then none
  else some (digits.foldl (fun n g => 10 * n + (g.char.toNat - 0x30)) 0, gs.drop digits.length)

def version? (gs : List Glyph) : Option (Directive × List Glyph) := do
  let (major, gs) ← versionNumber? (skipGaps gs)
  if next gs ≠ '.' then none
  else
    let (minor, gs) ← versionNumber? gs.tail
    some (.version major minor, gs)

def tagDirective? (gs : List Glyph) : Option (Directive × List Glyph) := do
  let gs := skipGaps gs
  if next gs ≠ '!' then none
  else
    let (handle, gs) := handleChars gs.tail
    if (handle ≠ ['!'] && handle.getLast? ≠ some '!') || !isGap (next gs) then none
    else
      let (lead, gs) ← tagChars true 0 (skipGaps gs)
      if lead = [] || !isGapOrEnd (next gs) then none
      else some (.tag handle (untilNull lead), gs)

/-- Reads on after the percent sign of a directive, to the end of its line. -/
def directive? (gs : List Glyph) : Option (Directive × List Glyph) := do
  let (name, gs) := nameChars gs
  if !isGapOrEnd (next gs) then none
  else
    let (directive, gs) ←
      if name = "YAML".toList then version? gs
      else if name = "TAG".toList then tagDirective? gs
      else none
    let gs ← skipLine? gs
    some (directive, gs)

end LogTail.Yaml
