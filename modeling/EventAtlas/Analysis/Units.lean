import EventAtlas.Analysis.Discovery
import EventAtlas.IndicatorFile
import EventAtlas.Module.Index
import EventAtlas.Module.Publications
import EventAtlas.Source.Extraction

namespace EventAtlas

/-- Why a unit contributes no facts. -/
inductive UnitError where
  | unreadable (fault : FileFault)
  | malformedModule
  deriving DecidableEq, Repr

def UnitError.reason (path : Path) : UnitError → String
  | unreadable fault => readFailure path fault
  | malformedModule => "malformed module dump " ++ path.shown

/-- A way to get the module at a path. -/
abbrev ModuleReader := Path → Except UnitError Module

namespace Module

/-- The module that a dump holds. -/
def read (fs : FileSystem) : ModuleReader := fun path =>
  match fs.readText path with
  | .error fault => .error (.unreadable fault)
  | .ok text =>
    match ofDump? path text with
    | some m => .ok m
    | none => .error .malformedModule

/-- Modules that are given by the names of their files. -/
def readGiven (given : List (String × Module)) : ModuleReader := fun path =>
  match given.lookup path.fileName with
  | some m => .ok m
  | none => .error (.unreadable .notGiven)

end Module

namespace Analysis

/-- A unit with what came of it. -/
abbrev UnitResult (α : Type) := Origin × Except UnitError α

variable (fs : FileSystem) (s : Indicators) (o : Options)

/-- The facts of a source file. -/
def sourceFacts (origin : Origin) : Except UnitError Facts :=
  match fs.readText origin.path with
  | .error fault => .error (.unreadable fault)
  | .ok text => .ok (Source.extract s o ⟨origin, text⟩)

def sourceResults (r : Repository) : List (UnitResult Facts) :=
  (Discovery.sourcesOf fs s o.excludeTests r).map fun origin => (origin, sourceFacts fs s o origin)

def loadResults (read : ModuleReader) (r : Repository) : List (UnitResult Module) :=
  (Discovery.modulesOf fs s o.excludeTests r).map fun origin => (origin, read origin.path)

/-- The results that are no errors. -/
def successes {α : Type} (results : List (UnitResult α)) : List (Origin × α) :=
  results.filterMap fun (origin, result) =>
    match result with
    | .ok a => some (origin, a)
    | .error _ => none

/-- The facts of the modules of a repository. Their types are known to one another. -/
def moduleFacts (loaded : List (UnitResult Module)) : List (UnitResult Facts) :=
  let graph := (Module.Index.ofModules ((successes loaded).map Prod.snd)).graph
  loaded.map fun (origin, result) =>
    (origin, result.map fun m => { publications := Module.publications s graph origin m })

/-- What came of the units of a repository. -/
structure RepositoryResults where
  repository : Repository
  sources : List (UnitResult Facts)
  /-- The modules, if they were asked for. -/
  modules : Option (List (UnitResult Module))

def repositoryResults (read : ModuleReader) (r : Repository) : RepositoryResults where
  repository := r
  sources := sourceResults fs s o r
  modules := if o.bytecodePublishers then some (loadResults fs s o read r) else none

namespace RepositoryResults

/-- The results of all units, sources first. -/
def units (r : RepositoryResults) : List (UnitResult Facts) :=
  r.sources ++ moduleFacts s (r.modules.getD [])

/-- The repository and project of every source file and of every module that was read. -/
def services (r : RepositoryResults) : List (String × String) :=
  r.sources.map (·.1.service) ++ (successes (r.modules.getD [])).map (·.1.service)

end RepositoryResults

end Analysis

end EventAtlas
