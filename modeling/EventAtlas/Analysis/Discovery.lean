import EventAtlas.Fact
import EventAtlas.Files.FileSystem
import EventAtlas.Indicators
import EventAtlas.Module.Dump

namespace EventAtlas

/-- A directory that holds the sources of one or more projects. -/
structure Repository where
  name : String
  root : Path
  deriving DecidableEq, Repr

/-- The repository at a path. It is called after its directory, or by the path if that has no name. -/
def Repository.ofRoot (root : Path) : Repository := ⟨(root.fileName?.getD root.text).shown, root⟩

namespace Discovery

/-- Whether a directory never belongs to a project: a hidden one, or one of foreign packages. -/
def isForeign (name : RawText) : Bool :=
  name.shown.toList.head? == some '.' || name.shown == "node_modules"

/-- Whether a directory holds no sources: a foreign one, or one of build results. -/
def isSourceless (name : RawText) : Bool :=
  isForeign name || name.shown == "bin" || name.shown == "obj"

/-- Whether a file describes a solution or a project. -/
def isManifest (name : RawText) : Bool := hasExtension "sln" name || hasExtension "csproj" name

/-- A file of a repository, by the names that lead to it. -/
abbrev Entry := List RawText × ByteArray

/-- The name of an entry's file, which for a repository that is a file itself is that file's. -/
def entryName (root : Path) (names : List RawText) : RawText :=
  names.getLast?.getD (root.fileName?.getD "")

/-- The path of an entry. -/
def entryPath (root : Path) (names : List RawText) : Path := names.foldl Path.join root

/-- Whether a manifest lies in a tree, outside directories without sources. -/
def holdsManifest (root : Path) (tree : FileTree) : Bool :=
  (tree.files (!isSourceless ·)).any fun (names, _) => isManifest (entryName root names)

/-- The subdirectories that may be repositories, in order. -/
def candidates (root : Path) (tree : FileTree) : List (Path × FileTree) :=
  let directories := tree.entries.filter fun (name, below) => below.isDirectory && !isForeign name
  (directories.map fun (name, below) => (root.join name, below)).mergeSort
    fun a b => (compare a.1 b.1).isLE

/-- The repositories in a directory: its subdirectories with a manifest, or else the directory itself if
it has one. -/
def repositoriesIn (root : Path) (tree : FileTree) : List Repository :=
  let found := ((candidates root tree).filter fun (path, below) => holdsManifest path below).map
    fun (path, _) => Repository.ofRoot path
  if found.isEmpty && holdsManifest root tree then [Repository.ofRoot root] else found

/-- The project that a file describes, by the names that lead to its directory. -/
def project? (names : List RawText) : Option (List RawText × String) :=
  match names.getLast? with
  | some name => if hasExtension "csproj" name then some (names.dropLast, stem name) else none
  | none => none

/-- The projects of a repository, by the names that lead to their directories. The last one listed comes
first, so that it is the one found where a directory has several. -/
def projects (tree : FileTree) : List (List RawText × String) :=
  ((tree.files (!isSourceless ·)).filterMap fun (names, _) => project? names).reverse

/-- The project in the nearest directory above a file, where `depth` of the names lead to the directory
tried first. -/
def projectAbove (projects : List (List RawText × String)) (names : List RawText) : Nat → Option String
  | 0 => projects.lookup []
  | depth + 1 =>
    match projects.lookup (names.take (depth + 1)) with
    | some project => some project
    | none => projectAbove projects names depth

/-- The project that a file belongs to. A file outside all projects belongs to the repository. -/
def projectOf (repository : Repository) (projects : List (List RawText × String)) (names : List RawText) :
    String :=
  match names with
  | [] => repository.name
  | _ => (projectAbove projects names (names.length - 1)).getD repository.name

/-- Whether a file lies in a directory of tests. -/
def inTestDirectory (s : Indicators) (names : List RawText) : Bool :=
  names.dropLast.any fun name => s.isTestName name.shown

/-- The origins of entries, in order of their paths. -/
def origins (repository : Repository) (tree : FileTree) (entries : List Entry) : List Origin :=
  let projects := projects tree
  let origins := entries.map fun (names, _) =>
    { repository := repository.name
      project := projectOf repository projects names
      path := entryPath repository.root names : Origin }
  origins.mergeSort fun a b => (compare a.path b.path).isLE

/-- Whether an entry is a source file that a run reads. -/
def isSource (s : Indicators) (excludeTests : Bool) (root : Path) (names : List RawText) : Bool :=
  hasExtension "cs" (entryName root names) && !(excludeTests && inTestDirectory s names)

/-- The source files of a repository. -/
def sources (s : Indicators) (excludeTests : Bool) (repository : Repository) (tree : FileTree) :
    List Origin :=
  origins repository tree ((tree.files (!isSourceless ·)).filter fun (names, _) =>
    isSource s excludeTests repository.root names)

/-- Whether an entry is a module dump that a run reads: one below a directory of build results. -/
def isModuleDump (s : Indicators) (excludeTests : Bool) (root : Path) (names : List RawText) : Bool :=
  let name := (entryName root names).shown
  Module.dumpEnding.toList.isSuffixOf name.toList && names.contains "bin" &&
    !(excludeTests && (s.isTestName (Module.nameOfFile name) || inTestDirectory s names))

/-- The module dumps of a repository. -/
def modules (s : Indicators) (excludeTests : Bool) (repository : Repository) (tree : FileTree) :
    List Origin :=
  origins repository tree ((tree.files (!isForeign ·)).filter fun (names, _) =>
    isModuleDump s excludeTests repository.root names)

/-- The repositories below a path, unless it is no directory. -/
def repositories? (fs : FileSystem) (root : Path) : Option (List Repository) :=
  match fs.find? root with
  | some (.directory entries) => some (repositoriesIn root (.directory entries))
  | _ => none

/-- The source files of a repository, none if it does not exist. -/
def sourcesOf (fs : FileSystem) (s : Indicators) (excludeTests : Bool) (repository : Repository) :
    List Origin :=
  match fs.find? repository.root with
  | some tree => sources s excludeTests repository tree
  | none => []

/-- The module dumps of a repository, none if it does not exist. -/
def modulesOf (fs : FileSystem) (s : Indicators) (excludeTests : Bool) (repository : Repository) :
    List Origin :=
  match fs.find? repository.root with
  | some tree => modules s excludeTests repository tree
  | none => []

end Discovery

end EventAtlas
