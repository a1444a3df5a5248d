import LogTail.Yaml.Glyph

/-!
# Scalars

The four ways to write a scalar: plain, in single or double quotes, and as a block of
lines. Line breaks inside a scalar are folded: a single one becomes a space, and of
several the first is dropped, except that separators other than the line feed stay.
Each reader walks its glyphs once and returns the text with what follows it.
-/
namespace LogTail.Yaml

inductive Style where
  | plain
  | quoted
  /-- A block that keeps its line breaks. -/
  | literal
  /-- A block whose line breaks are folded. -/
  | folded
  deriving DecidableEq, Repr, Inhabited

/-- What separates two words of a scalar that is being read. -/
structure Gap where
  /-- The spaces and tabs, as long as no line break was met. -/
  blanks : List Char := []
  broken : Bool := false
  /-- The first line break, if it counts. -/
  first : List Char := []
  /-- The line breaks after the first. -/
  more : List Char := []
  deriving DecidableEq, Repr, Inhabited

namespace Gap

def isOpen (g : Gap) : Bool := g.broken || g.blanks ≠ []

/-- Blanks after a line break do not count. -/
def blank (c : Char) (g : Gap) : Gap :=
  if g.broken then g else { g with blanks := g.blanks ++ [c] }

def lineBreak (c : Char) (g : Gap) : Gap :=
  if g.broken then { g with more := g.more ++ [c] }
  else { g with blanks := [], broken := true, first := [c] }

/-- A line break that is written away with a backslash. -/
def escapedBreak : Gap := { broken := true }

/-- The folded form. -/
def text (g : Gap) : List Char :=
  if !g.broken then g.blanks
  else if g.first = ['\n'] then (if g.more = [] then [' '] else g.more)
  else g.first ++ g.more

end Gap

/-- A scalar as it was read: its text, whether a line break follows the text, and the
glyphs after it. -/
structure Reading where
  text : List Char
  broken : Bool := false
  rest : List Glyph
  deriving Repr, Inhabited

/-- Reads a plain scalar. In a block it ends before a line that starts left of
`margin`; in a flow collection it ends at the marks of the collection. -/
def plainFrom (flow : Bool) (margin : Nat) (text : List Char) (gap : Gap) :
    List Glyph → Option Reading
  | [] => some ⟨text, gap.broken, []⟩
  | g :: rest =>
    if isGap g.char then
      if gap.broken && g.column < margin && g.char = '\t' then none
      else plainFrom flow margin text (gap.blank g.char) rest
    else if isBreak g.char then plainFrom flow margin text (gap.lineBreak g.char) rest
    else if isEnd g.char then some ⟨text, gap.broken, g :: rest⟩
    else if gap.isOpen && (g.char = '#' || (!flow && g.column < margin) || isBoundary (g :: rest)) then
      some ⟨text, gap.broken, g :: rest⟩
    else if flow && g.char = ':' && (next rest = '?' || isFlowMark (next rest)) then none
    else if (g.char = ':' && isGapOrEnd (next rest)) || (flow && isFlowMark g.char) then
      some ⟨text, gap.broken, g :: rest⟩
    else plainFrom flow margin (text ++ gap.text ++ [g.char]) {} rest

/-- Reads on after the opening single quote. `doubt` says that a quote came just now,
which a second one makes part of the text. -/
def singleFrom (text : List Char) (gap : Gap) (doubt : Bool) : List Glyph → Option Reading
  | [] => none
  | g :: rest =>
    if doubt then
      if g.char = '\x27' then singleFrom (text ++ ['\x27']) {} false rest
      else some ⟨text, false, g :: rest⟩
    else if isBoundary (g :: rest) || isEnd g.char then none
    else if isGap g.char then singleFrom text (gap.blank g.char) false rest
    else if isBreak g.char then singleFrom text (gap.lineBreak g.char) false rest
    else if g.char = '\x27' then singleFrom (text ++ gap.text) {} true rest
    else singleFrom (text ++ gap.text ++ [g.char]) {} false rest

/-- Where the reading of a text in double quotes stands. -/
inductive Escape where
  | none
  /-- After a backslash. -/
  | started
  /-- So many hexadecimal digits are still to come. -/
  | digits (left value : Nat)
  deriving DecidableEq, Repr, Inhabited

/-- The characters that a backslash stands before for another. -/
def escaped? (c : Char) : Option Char :=
  match c with
  | '0' => some '\x00'
  | 'a' => some '\x07'
  | 'b' => some '\x08'
  | 't' | '\t' => some '\t'
  | 'n' => some '\n'
  | 'v' => some '\x0b'
  | 'f' => some '\x0c'
  | 'r' => some '\r'
  | 'e' => some '\x1b'
  | ' ' => some ' '
  | '\x22' => some '\x22'
  | '/' => some '/'
  | '\\' => some '\\'
  | 'N' => some '\u0085'
  | '_' => some '\u00a0'
  | 'L' => some '\u2028'
  | 'P' => some '\u2029'
  | _ => none

/-- How many digits follow a backslash and this letter. -/
def escapeDigits? (c : Char) : Option Nat :=
  match c with
  | 'x' => some 2
  | 'u' => some 4
  | 'U' => some 8
  | _ => none

/-- The character with a number, if there is one. -/
def charOf? (n : Nat) : Option Char := if n.isValidChar then some (Char.ofNat n) else none

/-- Reads on after the opening double quote. -/
def doubleFrom (text : List Char) (gap : Gap) (escape : Escape) : List Glyph → Option Reading
  | [] => none
  | g :: rest =>
    match escape with
    | .digits left value =>
      match hexValue? g.char with
      | none => none
      | some d =>
        let value := 16 * value + d
        if left ≤ 1 then
          match charOf? value with
          | none => none
          | some c => doubleFrom (text ++ [c]) {} .none rest
        else doubleFrom text {} (.digits (left - 1) value) rest
    | .started =>
      if isBreak g.char then doubleFrom text .escapedBreak .none rest
      else match escaped? g.char, escapeDigits? g.char with
        | some c, _ => doubleFrom (text ++ [c]) {} .none rest
        | none, some n => doubleFrom text {} (.digits n 0) rest
        | none, none => none
    | .none =>
      if isBoundary (g :: rest) || isEnd g.char then none
      else if isGap g.char then doubleFrom text (gap.blank g.char) .none rest
      else if isBreak g.char then doubleFrom text (gap.lineBreak g.char) .none rest
      else if g.char = '\x22' then some ⟨text ++ gap.text, false, rest⟩
      else if g.char = '\\' then doubleFrom (text ++ gap.text) {} .started rest
      else doubleFrom (text ++ gap.text ++ [g.char]) {} .none rest

/-- What becomes of the line breaks at the end of a block. -/
inductive Chomp where
  /-- The last line keeps its line break. -/
  | clip
  | strip
  | keep
  deriving DecidableEq, Repr, Inhabited

/-- The column at which the lines of a block start, by the first line that is not
empty; no less than any empty line is indented, and `none` if a tab stands there. -/
def blockColumn (widest : Nat) : List Glyph → Option Nat
  | [] => some widest
  | g :: rest =>
    if g.char = ' ' then blockColumn widest rest
    else if g.char = '\t' then none
    else if isBreak g.char then blockColumn (max widest g.column) rest
    else some (max widest g.column)

/-- The part of a block that was read. -/
structure Block where
  text : List Char := []
  /-- The break that ended the last line. -/
  last : List Char := []
  /-- The breaks of the empty lines after it. -/
  empty : List Char := []
  /-- The last line starts with a blank, so it is not folded. -/
  indented : Bool := false
  deriving Repr, Inhabited

namespace Block

/-- Goes on to a line that starts with this character. -/
def startLine (fold : Bool) (c : Char) (b : Block) : Block :=
  let joint :=
    if fold && b.last = ['\n'] && !b.indented && !isGap c then
      (if b.empty = [] then [' '] else [])
    else b.last
  { text := b.text ++ joint ++ b.empty ++ [c], indented := isGap c }

def finish (chomp : Chomp) (b : Block) : List Char :=
  match chomp with
  | .strip => b.text
  | .clip => b.text ++ b.last
  | .keep => b.text ++ b.last ++ b.empty

end Block

/-- Reads the lines of a block that start at a column. -/
def blockFrom (fold : Bool) (chomp : Chomp) (column : Nat) (inLine : Bool) (b : Block) :
    List Glyph → Option Reading
  | [] => some ⟨b.finish chomp, true, []⟩
  | g :: rest =>
    if inLine then
      if isBreak g.char then
        blockFrom fold chomp column false { b with last := [g.char], empty := [] } rest
      else if isEnd g.char then some ⟨b.finish chomp, true, g :: rest⟩
      else blockFrom fold chomp column true { b with text := b.text ++ [g.char] } rest
    else if g.char = ' ' && g.column < column then blockFrom fold chomp column false b rest
    else if g.char = '\t' && g.column < column then none
    else if isBreak g.char then
      blockFrom fold chomp column false { b with empty := b.empty ++ [g.char] } rest
    else if g.column = column && !isEnd g.char then
      blockFrom fold chomp column true (b.startLine fold g.char) rest
    else some ⟨b.finish chomp, true, g :: rest⟩

/-- The marks after a block's indicator, in either order: what becomes of its last line
breaks, and how far its lines are indented against their surroundings. -/
def blockHeader (gs : List Glyph) : Option (Chomp × Option Nat × List Glyph) :=
  let chompOf (c : Char) : Option Chomp :=
    if c = '+' then some .keep else if c = '-' then some .strip else none
  let isDigit (c : Char) : Bool := '0' ≤ c && c ≤ '9'
  let width (c : Char) : Option Nat := if c = '0' then none else some (c.toNat - 0x30)
  match chompOf (next gs) with
  | some chomp =>
    let gs := gs.tail
    if isDigit (next gs) then (width (next gs)).map fun n => (chomp, some n, gs.tail)
    else some (chomp, none, gs)
  | none =>
    if isDigit (next gs) then
      match width (next gs) with
      | none => none
      | some n =>
        let gs := gs.tail
        match chompOf (next gs) with
        | some chomp => some (chomp, some n, gs.tail)
        | none => some (.clip, some n, gs)
    else some (.clip, none, gs)

/-- Reads on after a block's indicator. `margin` is the least column that lies inside
the surroundings of the block. -/
def block (fold : Bool) (margin : Nat) (gs : List Glyph) : Option Reading := do
  let (chomp, width, gs) ← blockHeader gs
  let gs ← skipLine? gs
  let column ← match width with
    | some n => some (margin - 1 + n)
    | none => (blockColumn 0 gs).map fun widest => max (max widest margin) 1
  blockFrom fold chomp column false {} gs

end LogTail.Yaml
