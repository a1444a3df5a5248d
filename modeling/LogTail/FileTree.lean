/-!
# File trees

Files and directories below a root, and what a path leads to. A path is followed one
component after the other: a step up leads to the directory above, and a step of any
kind needs a directory to start from, also the empty one that a slash at the end of a
path asks for. Above the root there are directories only, and none that can be named.
-/
namespace LogTail

/-- The names that lead from the root to a place. -/
abbrev Trail := List String

structure FileTree where
  directories : List Trail := []
  files : List (Trail × ByteArray) := []

/-- Why a file cannot be read. -/
inductive FileTrouble where
  | missing
  | notDirectory
  | isDirectory
  /-- The bytes of the file are not UTF-8. -/
  | notText
  /-- What else a system may say; a tree that is known as a whole never does. -/
  | other (words : String)
  deriving DecidableEq, Repr, Inhabited

def FileTrouble.message : FileTrouble → String
  | missing => "No such file or directory (os error 2)"
  | notDirectory => "Not a directory (os error 20)"
  | isDirectory => "Is a directory (os error 21)"
  | notText => "stream did not contain valid UTF-8"
  | other words => words

namespace FileTree

/-- What a path leads to. -/
inductive Place where
  | directory
  | file (content : ByteArray)

/-- The trail of a relative path without steps up. -/
def trail (path : String) : Trail := (path.splitOn "/").filter fun c => c ≠ "" && c ≠ "."

/-- A tree of some directories and files; what lies above them is there too. -/
def ofPaths (directories : List String) (files : List (String × ByteArray)) : FileTree :=
  ⟨directories.map trail, files.map fun (path, content) => (trail path, content)⟩

def file? (t : Trail) (tree : FileTree) : Option ByteArray := tree.files.lookup t

def hasDirectory (t : Trail) (tree : FileTree) : Bool :=
  t = [] || (tree.directories.any fun d => t.isPrefixOf d) ||
    tree.files.any fun f => t.isPrefixOf f.1 && t ≠ f.1

/-- Whether a path that starts above the root leads to a directory. -/
def staysAbove (components : List String) : Bool :=
  components.all fun c => c = "" || c = "." || c = ".."

def walk (tree : FileTree) (here : Trail) : List String → Except FileTrouble Place
  | [] =>
    match tree.file? here with
    | some content => .ok (.file content)
    | none => .ok .directory
  | c :: rest =>
    if (tree.file? here).isSome then .error .notDirectory
    else if c = "" || c = "." then walk tree here rest
    else if c = ".." then
      if here = [] then (if staysAbove rest then .ok .directory else .error .missing)
      else walk tree here.dropLast rest
    else
      let there := here ++ [c]
      if (tree.file? there).isSome || tree.hasDirectory there then walk tree there rest
      else .error .missing

def resolve (path : String) (tree : FileTree) : Except FileTrouble Place :=
  match path.splitOn "/" with
  | [""] => .error .missing
  | "" :: rest => if staysAbove rest then .ok .directory else .error .missing
  | components => tree.walk [] components

def isFile (path : String) (tree : FileTree) : Bool :=
  match tree.resolve path with
  | .ok (.file _) => true
  | _ => false

/-- The text of a file. -/
def read (path : String) (tree : FileTree) : Except FileTrouble String :=
  match tree.resolve path with
  | .error trouble => .error trouble
  | .ok .directory => .error .isDirectory
  | .ok (.file content) =>
    match String.fromUTF8? content with
    | none => .error .notText
    | some text => .ok text

end FileTree

end LogTail
