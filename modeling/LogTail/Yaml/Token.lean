import LogTail.Yaml.Scalar
import LogTail.Yaml.Tag

/-!
# Tokens

A text as a list of tokens. The layout of a block is written down with tokens of its
own: `blockStart` and `blockEnd` stand where the indentation grows and shrinks, and a
`key` stands before each key, also one that is known as a key only by the colon after
it. Sequences are not read: a text with a mark of one is refused.
-/
namespace LogTail.Yaml

inductive Token where
  | directive (d : Directive)
  | documentStart
  | documentEnd
  | blockStart
  | blockEnd
  | flowStart
  | flowEnd
  | flowEntry
  | key
  | value
  | alias (name : List Char)
  | anchor (name : List Char)
  | tag (t : Tag)
  | scalar (style : Style) (text : List Char)
  deriving DecidableEq, Repr, Inhabited

/-- A token that turns out to be a key if a colon follows. -/
structure Candidate where
  /-- How many tokens come before it. -/
  position : Nat
  /-- It stands where only a key can stand. -/
  required : Bool
  place : Glyph
  deriving Repr, Inhabited

/-- A text that is being cut into tokens. -/
structure Layout where
  rest : List Glyph
  tokens : List Token := []
  /-- The least column inside the innermost block. -/
  margin : Nat := 0
  /-- The margins of the blocks around it, innermost first. -/
  outer : List Nat := []
  /-- The candidate of the innermost collection, then those of the flow collections
  around it, then that of the block around them all. -/
  candidates : List (Option Candidate) := [none]
  /-- A key may start here. -/
  keyAllowed : Bool := true
  deriving Repr, Inhabited

namespace Layout

def inFlow (l : Layout) : Bool := 1 < l.candidates.length

def here (l : Layout) : Glyph := l.rest.headD ⟨'\x00', 0, 0, 0⟩

def emit (t : Token) (l : Layout) : Layout := { l with tokens := l.tokens ++ [t] }

def emitAt (position : Nat) (t : Token) (l : Layout) : Layout :=
  { l with tokens := l.tokens.insertIdx position t }

/-- Passes over blanks, comments, line breaks and a byte order mark that begins a line.
Where a key may start, a tab is no blank; in a block a key may start on every new
line. -/
def skipFrom (flow keyAllowed comment : Bool) : List Glyph → Bool × List Glyph
  | [] => (keyAllowed, [])
  | g :: rest =>
    if isBreak g.char then skipFrom flow (keyAllowed || !flow) false rest
    else if comment && !isEnd g.char || g.char = '#' then skipFrom flow keyAllowed true rest
    else if g.isByteOrderMark || g.char = ' ' || (g.char = '\t' && (flow || !keyAllowed)) then
      skipFrom flow keyAllowed false rest
    else (keyAllowed, g :: rest)

def skip (l : Layout) : Layout :=
  let (keyAllowed, rest) := skipFrom l.inFlow l.keyAllowed false l.rest
  { l with keyAllowed, rest }

/-- A candidate must lie on this line and not more than 1024 characters back. -/
def isStale (here : Glyph) (c : Candidate) : Bool :=
  c.place.line < here.line || c.place.index + 1024 < here.index

/-- Gives up the candidates that are too far back. -/
def expire (l : Layout) : Option Layout :=
  let stale := fun c : Option Candidate => c.any (isStale l.here)
  if l.candidates.any fun c => stale c && c.any (·.required) then none
  else some { l with candidates := l.candidates.map fun c => if stale c then none else c }

/-- Gives up the candidate of the innermost collection. -/
def dropCandidate (l : Layout) : Option Layout :=
  match l.candidates with
  | some c :: rest => if c.required then none else some { l with candidates := none :: rest }
  | _ => some l

/-- What comes next may be a key, if a key may start here. -/
def saveCandidate (l : Layout) : Option Layout :=
  if l.keyAllowed then do
    let required := !l.inFlow && l.margin = l.here.column + 1
    let c : Candidate := ⟨l.tokens.length, required, l.here⟩
    let l ← l.dropCandidate
    some { l with candidates := some c :: l.candidates.tail }
  else some l

/-- Starts a block at a column unless one has started there. -/
def openBlock (column position : Nat) (l : Layout) : Layout :=
  if !l.inFlow && l.margin ≤ column then
    { l.emitAt position .blockStart with margin := column + 1, outer := l.margin :: l.outer }
  else l

/-- How many of the blocks with these margins end for lack of indentation, and what is
left of them. -/
def ended (bound margin : Nat) : List Nat → Nat × Nat × List Nat
  | [] => (0, margin, [])
  | m :: outer =>
    if bound < margin then
      let (n, margin, outer) := ended bound m outer
      (n + 1, margin, outer)
    else (0, margin, m :: outer)

/-- Ends the blocks whose margin is right of `bound`. -/
def closeBlocks (bound : Nat) (l : Layout) : Layout :=
  if l.inFlow then l
  else
    let (n, margin, outer) := ended bound l.margin l.outer
    { l with tokens := l.tokens ++ List.replicate n .blockEnd, margin, outer }

def take (n : Nat) (l : Layout) : Layout := { l with rest := l.rest.drop n }

/-- A directive or a boundary of documents: it ends every block. -/
def boundary (l : Layout) : Option Layout := do
  let l ← (l.closeBlocks 0).dropCandidate
  some { l with keyAllowed := false }

def flowStart (l : Layout) : Option Layout := do
  let l ← l.saveCandidate
  some (({ l with candidates := none :: l.candidates, keyAllowed := true }.take 1).emit .flowStart)

def flowEnd (l : Layout) : Option Layout := do
  let l ← l.dropCandidate
  let candidates := if l.inFlow then l.candidates.tail else l.candidates
  some (({ l with candidates, keyAllowed := false }.take 1).emit .flowEnd)

def flowEntry (l : Layout) : Option Layout := do
  let l ← l.dropCandidate
  some (({ l with keyAllowed := true }.take 1).emit .flowEntry)

/-- In a block an explicit key starts where a key may start. -/
def explicitKey (l : Layout) : Option Layout :=
  if !l.inFlow && !l.keyAllowed then none
  else do
    let l ← (l.openBlock l.here.column l.tokens.length).dropCandidate
    some (({ l with keyAllowed := !l.inFlow }.take 1).emit .key)

/-- A colon makes the candidate a key; without one it stands after an explicit key. -/
def value (l : Layout) : Option Layout :=
  match l.candidates with
  | some c :: rest =>
    let l := (l.emitAt c.position .key).openBlock c.place.column c.position
    some (({ l with candidates := none :: rest, keyAllowed := false }.take 1).emit .value)
  | _ =>
    if !l.inFlow && !l.keyAllowed then none
    else
      let l := l.openBlock l.here.column l.tokens.length
      some (({ l with keyAllowed := !l.inFlow }.take 1).emit .value)

/-- Something that may be a key and that no key can follow. -/
def property {α : Type} (skipped : Nat) (read : List Glyph → Option (α × List Glyph))
    (token : α → Token) (l : Layout) : Option Layout := do
  let l ← l.saveCandidate
  let (a, rest) ← read (l.take skipped).rest
  some ({ l with rest, keyAllowed := false }.emit (token a))

def quoted (read : List Glyph → Option Reading) (l : Layout) : Option Layout :=
  l.property 1 (fun gs => (read gs).map fun r => (r.text, r.rest)) (.scalar .quoted)

/-- After a plain scalar that ends with a line break a key may start. -/
def plain (l : Layout) : Option Layout := do
  let l ← l.saveCandidate
  let r ← plainFrom l.inFlow l.margin [] {} l.rest
  some ({ l with rest := r.rest, keyAllowed := r.broken }.emit (.scalar .plain r.text))

def blockScalar (style : Style) (l : Layout) : Option Layout := do
  let l ← l.dropCandidate
  let r ← block (style = .folded) l.margin (l.take 1).rest
  some ({ l with rest := r.rest, keyAllowed := true }.emit (.scalar style r.text))

/-- The marks that a plain scalar cannot start with. -/
def marks : List Char := "-?:,[]\x7b\x7d#&*!|>\x27\x22%@\x60".toList

/-- Whether a plain scalar may start with a character that stands before another. -/
def startsPlain (flow : Bool) (c after : Char) : Bool :=
  (c ∉ marks && !isGap c) || (c = '-' && !isGap after) ||
    (!flow && (c = '?' || c = ':') && !isGapOrEnd after)

/-- Reads the next token, with the tokens of the layout that go with it. -/
def token (l : Layout) : Option Layout :=
  let c := l.here.char
  let after := next l.rest.tail
  if l.here.column = 0 && c = '%' then do
    let l ← l.boundary
    let (d, rest) ← directive? (l.take 1).rest
    some ({ l with rest }.emit (.directive d))
  else if isBoundary l.rest then
    l.boundary.map fun l =>
      (l.take 3).emit (if c = '-' then .documentStart else .documentEnd)
  else if c = '\x7b' then l.flowStart
  else if c = '\x7d' then l.flowEnd
  else if c = ',' then l.flowEntry
  else if c = '[' || c = ']' || (c = '-' && isGapOrEnd after) then none
  else if c = '?' && (l.inFlow || isGapOrEnd after) then l.explicitKey
  else if c = ':' && (l.inFlow || isGapOrEnd after) then l.value
  else if c = '*' then l.property 1 anchorName? .alias
  else if c = '&' then l.property 1 anchorName? .anchor
  else if c = '!' then l.property 1 (tag? l.inFlow) .tag
  else if c = '|' && !l.inFlow then l.blockScalar .literal
  else if c = '>' && !l.inFlow then l.blockScalar .folded
  else if c = '\x27' then l.quoted (singleFrom [] {} false)
  else if c = '\x22' then l.quoted (doubleFrom [] {} .none)
  else if startsPlain l.inFlow c after then l.plain
  else none

/-- Reads tokens to the end of the text, `fuel` of them at most. -/
def run : Nat → Layout → Option (List Token)
  | 0, _ => none
  | fuel + 1, l => do
    let l ← l.skip.expire
    let l := l.closeBlocks (l.here.column + 1)
    if isEnd l.here.char then
      let l ← (l.closeBlocks 0).dropCandidate
      some l.tokens
    else
      let l ← l.token
      run fuel l

end Layout

/-- The tokens of a text. Each takes one character at least. -/
def tokens? (s : String) : Option (List Token) := do
  let glyphs ← glyphs? s
  Layout.run (glyphs.length + 1) { rest := glyphs }

end LogTail.Yaml
