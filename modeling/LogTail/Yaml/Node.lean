import LogTail.Yaml.Token

/-!
# Documents

A text holds one document at most, and a document is one node: a scalar, a mapping,
or an alias for a node that an anchor marks. An anchor has a number, which is how many
names of anchors came before it, and an alias means the node that was marked last
under its number.
-/
namespace LogTail.Yaml

inductive Node where
  | scalar (style : Style) (tag : List Char) (text : List Char)
  | mapping (entries : List (Node × Node))
  | alias (number : Nat)
  deriving Repr, Inhabited

/-- The scalar that stands where nothing is written. -/
def Node.absent (tag : List Char) : Node := .scalar .plain tag []

/-- The anchors of a document. -/
structure Anchors where
  numbers : List (List Char × Nat) := []
  /-- The marked nodes with their numbers; `none` while a node is being read. -/
  nodes : List (Nat × Option Node) := []
  deriving Repr, Inhabited

namespace Anchors

def number? (name : List Char) (a : Anchors) : Option Nat := a.numbers.lookup name

/-- Enters the anchor of a node about to be read; its position among the marked nodes. -/
def enter (name : List Char) (a : Anchors) : Nat × Anchors :=
  let known := a.numbers.filter fun e => e.1 ≠ name
  (a.nodes.length, ⟨(name, a.numbers.length) :: known, a.nodes ++ [(a.numbers.length, none)]⟩)

def fill (position : Nat) (n : Node) (a : Anchors) : Anchors :=
  { a with nodes := a.nodes.modify position fun (number, _) => (number, some n) }

/-- What an alias with a number means. -/
def node? (number : Nat) (a : Anchors) : Option Node :=
  (a.nodes.reverse.lookup number).join

end Anchors

/-- A document; without a node there was nothing to read. -/
structure Document where
  root : Option Node := none
  anchors : Anchors := {}
  deriving Repr, Inhabited

namespace Document

/-- A node, or none if it is an alias without one. -/
def resolve (d : Document) : Node → Option Node
  | .alias number => d.anchors.node? number
  | n => some n

end Document

/-- What the tags of a document may start with, by their handles. -/
abbrev Handles := List (List Char × List Char)

/-- The whole tag; `none` for a handle that stands for nothing. -/
def Tag.resolve (handles : Handles) (t : Tag) : Option (List Char) :=
  if t.handle = [] then some t.suffix
  else (handles.lookup t.handle).map (· ++ t.suffix)

/-- The handles that need no directive. -/
def defaultHandles : Handles :=
  [(['!'], ['!']), (['!', '!'], "tag:yaml.org,2002:".toList)]

/-- The properties in front of a node: an anchor, a tag, or both in either order. -/
def properties (handles : Handles) : List Token →
    Option (Option (List Char) × Option (List Char) × List Token)
  | .anchor a :: .tag t :: rest => (t.resolve handles).map fun t => (some a, some t, rest)
  | .tag t :: .anchor a :: rest => (t.resolve handles).map fun t => (some a, some t, rest)
  | .anchor a :: rest => some (some a, none, rest)
  | .tag t :: rest => (t.resolve handles).map fun t => (none, some t, rest)
  | rest => some (none, none, rest)

/-- What was read of a document, and the tokens after it. -/
structure Progress (α : Type) where
  result : α
  anchors : Anchors
  rest : List Token

mutual

/-- Reads a node; a block may start only where `inBlock` says so. -/
def node (handles : Handles) (fuel : Nat) (inBlock : Bool) (anchors : Anchors)
    (tokens : List Token) : Option (Progress Node) :=
  match fuel with
  | 0 => none
  | fuel + 1 =>
    match tokens with
    | .alias name :: rest => (anchors.number? name).map fun n => ⟨.alias n, anchors, rest⟩
    | tokens => do
      let (anchor, tag, tokens) ← properties handles tokens
      let (position, anchors) := match anchor with
        | none => (none, anchors)
        | some name =>
          let (p, a) := anchors.enter name
          (some p, a)
      let close (n : Node) (anchors : Anchors) (rest : List Token) : Progress Node :=
        ⟨n, match position with
          | none => anchors
          | some p => anchors.fill p n, rest⟩
      match tokens with
      | .scalar style text :: rest =>
        some (close (.scalar style (tag.getD []) text) anchors rest)
      | .flowStart :: rest => do
        let p ← flowEntries handles fuel true anchors rest
        some (close (.mapping p.result) p.anchors p.rest)
      | .blockStart :: rest =>
        if inBlock then do
          let p ← blockEntries handles fuel anchors rest
          some (close (.mapping p.result) p.anchors p.rest)
        else if anchor.isSome || tag.isSome then
          some (close (.absent (tag.getD [])) anchors (.blockStart :: rest))
        else none
      | rest =>
        if anchor.isSome || tag.isSome then some (close (.absent (tag.getD [])) anchors rest)
        else none

/-- Reads the entries of a block to its end. -/
def blockEntries (handles : Handles) (fuel : Nat) (anchors : Anchors) (tokens : List Token) :
    Option (Progress (List (Node × Node))) :=
  match fuel with
  | 0 => none
  | fuel + 1 =>
    let absentBefore (rest : List Token) : Bool := match rest with
      | .key :: _ | .value :: _ | .blockEnd :: _ => true
      | _ => false
    match tokens with
    | .blockEnd :: rest => some ⟨[], anchors, rest⟩
    | .key :: rest => do
      let k ← if absentBefore rest then some ⟨.absent [], anchors, rest⟩
        else node handles fuel true anchors rest
      let v ← match k.rest with
        | .value :: rest =>
          if absentBefore rest then some ⟨.absent [], k.anchors, rest⟩
          else node handles fuel true k.anchors rest
        | rest => some ⟨.absent [], k.anchors, rest⟩
      let more ← blockEntries handles fuel v.anchors v.rest
      some { more with result := (k.result, v.result) :: more.result }
    | _ => none

/-- Reads the entries of a flow mapping to its end; after the first, each has a comma
before it. -/
def flowEntries (handles : Handles) (fuel : Nat) (first : Bool) (anchors : Anchors)
    (tokens : List Token) : Option (Progress (List (Node × Node))) :=
  match fuel with
  | 0 => none
  | fuel + 1 =>
    let absentBefore (rest : List Token) : Bool := match rest with
      | .flowEntry :: _ | .flowEnd :: _ => true
      | _ => false
    let entry := match first, tokens with
      | true, tokens => some tokens
      | false, .flowEntry :: rest => some rest
      | false, .flowEnd :: rest => some (.flowEnd :: rest)
      | false, _ => none
    match entry with
    | none => none
    | some (.flowEnd :: rest) => some ⟨[], anchors, rest⟩
    | some (.key :: rest) => do
      let k ← match rest with
        | .value :: _ | .flowEntry :: _ | .flowEnd :: _ => some ⟨.absent [], anchors, rest⟩
        | rest => node handles fuel false anchors rest
      let v ← match k.rest with
        | .value :: rest =>
          if absentBefore rest then some ⟨.absent [], k.anchors, rest⟩
          else node handles fuel false k.anchors rest
        | rest => some ⟨.absent [], k.anchors, rest⟩
      let more ← flowEntries handles fuel false v.anchors v.rest
      some { more with result := (k.result, v.result) :: more.result }
    | some tokens => do
      let k ← node handles fuel false anchors tokens
      let more ← flowEntries handles fuel false k.anchors k.rest
      some { more with result := (k.result, .absent []) :: more.result }

end

/-- Reads the directives of a document: one version at most, and each handle once. -/
def directives (version : Bool) (handles : Handles) : List Token → Option (Handles × List Token)
  | .directive (.version major minor) :: rest =>
    if version || major ≠ 1 || (minor ≠ 1 && minor ≠ 2) then none
    else directives true handles rest
  | .directive (.tag handle lead) :: rest =>
    if (handles.lookup handle).isSome then none
    else directives version ((handle, lead) :: handles) rest
  | rest => some (handles, rest)

/-- Whether the content of a document ends before it has begun. -/
def endsDocument : List Token → Bool
  | [] | .directive _ :: _ | .documentStart :: _ | .documentEnd :: _ => true
  | _ => false

namespace Document

/-- Reads the one document that some tokens hold. Directives need a document start
after them; a document without content is empty. -/
def ofTokens? (tokens : List Token) : Option Document := do
  let fuel := 2 * tokens.length + 2
  let p ← match tokens with
    | [] => some ⟨none, {}, []⟩
    | .directive _ :: _ | .documentStart :: _ => do
      let (own, rest) ← directives false [] tokens
      match rest with
      | .documentStart :: rest =>
        if endsDocument rest then some ⟨some (.absent []), {}, rest⟩
        else (node (own ++ defaultHandles) fuel true {} rest).map fun p => { p with result := some p.result }
      | _ => none
    | tokens => (node defaultHandles fuel true {} tokens).map fun p => { p with result := some p.result }
  if p.rest.all (· = .documentEnd) then some ⟨p.result, p.anchors⟩ else none

/-- The one document of a text. -/
def ofText? (s : String) : Option Document := (tokens? s).bind ofTokens?

end Document

end LogTail.Yaml
