import EventAtlas.Command.Process
import Std.Time.DateTime.Timestamp

namespace EventAtlas.Main

/-- The place that names lead to from the root. -/
def placeAt (names : List RawText) : IO.FS.DirEntry := ⟨"", "/".intercalate (names.map RawText.shown)⟩

/-- The names that lead from the root to a path. -/
def namesOf (current : List RawText) (path : Path) : List RawText :=
  path.components.foldl (fun names step =>
    match step with
    | .root => []
    | .current => names
    | .parent => names.dropLast
    | .name s => names ++ [s]) current

/-- Whether an analysis reads the file with a name. -/
def isRead (name : RawText) : Bool :=
  hasExtension "cs" name || Module.dumpEnding.toList.isSuffixOf name.shown.toList

/-- The tree in a directory. What no analysis enters or reads is left empty. -/
partial def readTree (directory : IO.FS.DirEntry) : IO FileTree := do
  let entries ← (← directory.path.readDir).toList.filterMapM fun entry => do
    match (← entry.path.symlinkMetadata).type with
    | .dir =>
      let below ← if Discovery.isForeign entry.fileName then pure (.directory []) else readTree entry
      return some (entry.fileName, below)
    | .file =>
      let bytes ← if isRead entry.fileName then IO.FS.readBinFile entry.path else pure .empty
      return some (entry.fileName, .file bytes)
    | _ => return none
  return .directory entries

/-- Adds to a tree what lies at each step on the way to a place. -/
def addPlace (tree : FileTree) (names : List RawText) : IO FileTree :=
  ((List.range names.length).map fun n => names.take (n + 1)).foldlM (fun tree names => do
    if (tree.find? names).isSome then return tree
    match ← (placeAt names).path.metadata.toBaseIO with
    | .error _ => return tree
    | .ok data =>
      match data.type with
      | .dir => return tree.put names (.directory [])
      | _ => return tree.put names (.file (← IO.FS.readBinFile (placeAt names).path))) tree

/-- The part of the file system that a command can see. -/
def look (a : Arguments) : IO FileSystem := do
  let current := namesOf [] ⟨(← IO.currentDir).toString⟩
  let input := namesOf current a.input
  let output := namesOf current a.outputDir
  let tree ←
    if ← (placeAt input).path.isDir then
      pure (FileTree.put (.directory []) input (← readTree (placeAt input)))
    else pure (.directory [])
  let places := [current, input, output] ++ (a.indicators.map (namesOf current)).toList ++
    Format.all.map fun f => output ++ [.ofString f.fileName]
  return ⟨← places.foldlM addPlace tree, current⟩

def bytesAt? (fs : FileSystem) (names : List RawText) : Option ByteArray :=
  match fs.root.find? names with
  | some (.file bytes) => some bytes
  | _ => none

/-- Carries out what a command did to the output directory. -/
def carryOut (a : Arguments) (before after : FileSystem) : IO Unit := do
  let output := namesOf before.current a.outputDir
  if (before.root.find? output).isNone && (after.root.find? output).isSome then
    IO.FS.createDirAll a.outputDir.shown
  for format in Format.all do
    let names := output ++ [.ofString format.fileName]
    if let some bytes := bytesAt? after names then
      if bytesAt? before names != some bytes then IO.FS.writeBinFile (placeAt names).path bytes

def clock : IO Timestamp := do
  return .ofEpoch (← Std.Time.Timestamp.now).toNanosecondsSinceUnixEpoch.val.toNat

end EventAtlas.Main

open EventAtlas in
def main (args : List String) : IO UInt32 := do
  let environment : Environment := {
    logFilter := ← IO.getEnv "RUST_LOG"
    logLevel := ← IO.getEnv "MSGFLOW_LOG_LEVEL" }
  let arguments := (Arguments.parse args).toOption
  let before ←
    match arguments with
    | some a => Main.look a
    | none => pure ⟨.directory [], []⟩
  let result := Command.process environment args (← Main.clock) before
  if let some a := arguments then Main.carryOut a before result.files
  result.output.forM fun line => IO.println line
  result.notices.forM fun notice => IO.eprintln notice
  result.log.forM fun line => IO.eprintln (line.level.label ++ " " ++ line.message)
  result.errors.forM fun line => IO.eprintln line
  return result.exitCode.toUInt32
