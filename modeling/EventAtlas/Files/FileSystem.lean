import EventAtlas.Files.Tree
import EventAtlas.Path

namespace EventAtlas

open RawText (dot)

/-- Why a file could not be read or written. -/
inductive FileFault where
  | notFound
  | occupied
  | notDirectory
  | isDirectory
  | notText
  /-- A module that was to be given was not. -/
  | notGiven
  deriving DecidableEq, Repr

def FileFault.message : FileFault → String
  | notFound => "No such file or directory (os error 2)"
  | occupied => "File exists (os error 17)"
  | notDirectory => "Not a directory (os error 20)"
  | isDirectory => "Is a directory (os error 21)"
  | notText => "stream did not contain valid UTF-8"
  | notGiven => "module not loaded"

/-- A file tree with the names that lead to the current directory. -/
structure FileSystem where
  root : FileTree
  current : List RawText := []

namespace FileSystem

/-- The names that lead to the next step of a path. -/
def step (tree : FileTree) (names : List RawText) (c : Path.Component) : Except FileFault (List RawText) :=
  match c with
  | .root => .ok []
  | .current => .ok names
  | .parent =>
    match tree.find? names with
    | some (.directory _) => .ok names.dropLast
    | _ => .error .notDirectory
  | .name s =>
    match tree.find? names with
    | some (.directory entries) => if (entries.lookup s).isSome then .ok (names ++ [s]) else .error .notFound
    | _ => .error .notDirectory

/-- Whether the text of a path asks for a directory. -/
def asksForDirectory (p : Path) : Bool :=
  let last := (Path.pieces p.text.bytes).getLast?
  last == some [] || last == some [dot]

/-- The names that lead to a path from the root, and what lies there. -/
def locate (fs : FileSystem) (p : Path) : Except FileFault (List RawText × FileTree) := do
  if p.text.bytes = [] then throw .notFound
  let names ← p.components.foldlM (step fs.root) fs.current
  match fs.root.find? names with
  | none => throw .notFound
  | some (.file bytes) => if asksForDirectory p then throw .notDirectory else return (names, .file bytes)
  | some tree => return (names, tree)

def find? (fs : FileSystem) (p : Path) : Option FileTree :=
  match fs.locate p with
  | .ok (_, tree) => some tree
  | .error _ => none

/-- The text of a file. -/
def readText (fs : FileSystem) (p : Path) : Except FileFault String :=
  match fs.locate p with
  | .error fault => .error fault
  | .ok (_, .directory _) => .error .isDirectory
  | .ok (_, .file bytes) =>
    match String.fromUTF8? bytes with
    | some text => .ok text
    | none => .error .notText

/-- Whether a path ends in a dot, and so speaks of the inside of its last directory. -/
def endsInDot (p : Path) : Bool :=
  ((Path.pieces p.text.bytes).filter (!·.isEmpty)).getLast? == some [dot]

/-- The tree with the directories that the steps name, from the directory at `names` on. `made` tells
whether one had to be made. If `inside` holds, the last of them has to be there already. -/
def makeDirectories (inside : Bool) (tree : FileTree) (names : List RawText) (made : Bool) :
    List Path.Component → Except FileFault FileTree
  | [] => .ok tree
  | .root :: rest => makeDirectories inside tree [] made rest
  | .current :: rest => makeDirectories inside tree names made rest
  | .parent :: rest => makeDirectories inside tree names.dropLast made rest
  | .name s :: rest =>
    let last := rest.isEmpty
    match tree.find? (names ++ [s]) with
    | some (.directory _) => makeDirectories inside tree (names ++ [s]) made rest
    | some (.file _) =>
      .error (if last && inside then .notDirectory else if last || made then .occupied else .notDirectory)
    | none =>
      if last && inside then .error .notFound
      else makeDirectories inside (tree.put (names ++ [s]) (.directory [])) (names ++ [s]) true rest

/-- Makes a directory and those above it, as far as they are missing. -/
def createDirectory (fs : FileSystem) (p : Path) : Except FileFault FileSystem :=
  match makeDirectories (endsInDot p) fs.root fs.current false p.components with
  | .ok root => .ok { fs with root }
  | .error fault => .error fault

/-- Writes the file with a name in a directory. -/
def writeFile (fs : FileSystem) (directory : Path) (name : RawText) (text : String) :
    Except FileFault FileSystem := do
  let (names, tree) ← fs.locate directory
  match tree.entries.lookup name with
  | some (.directory _) => throw .isDirectory
  | _ => return { fs with root := fs.root.put (names ++ [name]) (.file text.toUTF8) }

end FileSystem

end EventAtlas
