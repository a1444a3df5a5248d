/-!
# Glyphs

The characters of a YAML text, each with its place. Every way to end a line but two
counts as one line feed; the line and the paragraph separator end a line and stay
what they are. The list closes with a null character, which no text may hold, so
looking one character ahead always finds one.
-/
namespace LogTail.Yaml

structure Glyph where
  char : Char
  line : Nat
  column : Nat
  /-- Characters before it. -/
  index : Nat
  deriving DecidableEq, Repr, Inhabited

/-- Control characters, surrogates and the last two numbers of the first plane may not
occur in a text. -/
def isAllowed (c : Char) : Bool :=
  let n := c.toNat
  n == 0x09 || n == 0x0a || n == 0x0d || (0x20 ≤ n && n ≤ 0x7e) || n == 0x85 ||
    (0xa0 ≤ n && n ≤ 0xd7ff) || (0xe000 ≤ n && n ≤ 0xfffd) || 0x10000 ≤ n

/-- A space or a tab. -/
def isGap (c : Char) : Bool := c = ' ' || c = '\t'

/-- A byte order mark in the first column. It has no meaning between tokens, but the
column it takes counts. -/
def Glyph.isByteOrderMark (g : Glyph) : Bool := g.char = '\ufeff' && g.column = 0

def isBreak (c : Char) : Bool := c = '\n' || c = '\u2028' || c = '\u2029'

def isEnd (c : Char) : Bool := c = '\x00'

def isBreakOrEnd (c : Char) : Bool := isBreak c || isEnd c

def isGapOrEnd (c : Char) : Bool := isGap c || isBreakOrEnd c

def isFlowMark (c : Char) : Bool := c ∈ [',', '[', ']', '\x7b', '\x7d']

/-- The characters of a name. -/
def isNameChar (c : Char) : Bool :=
  ('0' ≤ c && c ≤ '9') || ('A' ≤ c && c ≤ 'Z') || ('a' ≤ c && c ≤ 'z') || c = '_' || c = '-'

def hexValue? (c : Char) : Option Nat :=
  if '0' ≤ c ∧ c ≤ '9' then some (c.toNat - 0x30)
  else if 'A' ≤ c ∧ c ≤ 'F' then some (c.toNat - 0x37)
  else if 'a' ≤ c ∧ c ≤ 'f' then some (c.toNat - 0x57)
  else none

def glyphsFrom (line column index : Nat) : List Char → List Glyph
  | [] => [⟨'\x00', line, column, index⟩]
  | '\r' :: '\n' :: rest => ⟨'\n', line, column, index⟩ :: glyphsFrom (line + 1) 0 (index + 2) rest
  | c :: rest =>
    if c = '\n' || c = '\r' || c = '\u0085' then
      ⟨'\n', line, column, index⟩ :: glyphsFrom (line + 1) 0 (index + 1) rest
    else if isBreak c then
      ⟨c, line, column, index⟩ :: glyphsFrom (line + 1) 0 (index + 1) rest
    else ⟨c, line, column, index⟩ :: glyphsFrom line (column + 1) (index + 1) rest

/-- The glyphs of a text; `none` when it holds a character that may not occur. -/
def glyphs? (s : String) : Option (List Glyph) :=
  if s.toList.all isAllowed then some (glyphsFrom 0 0 0 s.toList) else none

/-- The character that comes next. -/
def next (gs : List Glyph) : Char :=
  match gs with
  | [] => '\x00'
  | g :: _ => g.char

def skipGaps (gs : List Glyph) : List Glyph := gs.dropWhile fun g => isGap g.char

/-- Passes over gaps and a comment to the end of the line and over the line break;
`none` if something else is left on the line. -/
def skipLine? (gs : List Glyph) : Option (List Glyph) :=
  let gs := skipGaps gs
  let gs := if next gs = '#' then gs.dropWhile fun g => !isBreakOrEnd g.char else gs
  if isBreak (next gs) then some gs.tail
  else if isEnd (next gs) then some gs
  else none

/-- Whether a mark of three equal characters alone stands here: three dashes begin a
document, three dots end one. -/
def isMark (c : Char) : List Glyph → Bool
  | a :: b :: d :: rest => a.char = c && b.char = c && d.char = c && isGapOrEnd (next rest)
  | _ => false

/-- Whether a document begins or ends here, which happens in the first column only. -/
def isBoundary (gs : List Glyph) : Bool :=
  match gs with
  | [] => false
  | g :: _ => g.column = 0 && (isMark '-' gs || isMark '.' gs)

end LogTail.Yaml
