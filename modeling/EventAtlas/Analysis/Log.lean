import EventAtlas.Analysis.Basic
import EventAtlas.Log

namespace EventAtlas.Analysis

def line (level : Level) (message : String) : LogLine := ⟨.analysis, level, message⟩

/-- A line for each source file. -/
def sourceLine (unit : UnitResult Facts) : LogLine :=
  match unit.2 with
  | .ok _ => line .debug ("unit scanned: " ++ unit.1.path.shown)
  | .error error => line .debug ("unreadable unit: " ++ error.reason unit.1.path)

/-- The lines about the modules of a repository: those that cannot be read, the type graph, and those
that were searched. -/
def moduleLines (name : String) (loaded : List (UnitResult Module)) : List LogLine :=
  let failed := loaded.filterMap fun (origin, result) =>
    match result with
    | .ok _ => none
    | .error error => some (line .debug ("unreadable module: " ++ error.reason origin.path))
  let scanned := (successes loaded).map fun (origin, _) =>
    line .debug ("module scanned: " ++ origin.path.shown)
  line .info ("scanning compiled modules of " ++ name) :: failed ++
    line .debug "type graph built" :: scanned

def repositoryLines (r : RepositoryResults) : List LogLine :=
  line .info ("scanning source units of " ++ r.repository.name) :: r.sources.map sourceLine ++
    match r.modules with
    | some loaded => moduleLines r.repository.name loaded
    | none => []

/-- What an analysis logs. -/
def logOf (root : Path) (found : Except AnalysisError (List RepositoryResults)) : List LogLine :=
  line .debug "source extractors ready" ::
    line .info ("discovering repositories in " ++ root.shown) ::
    match found with
    | .error _ => []
    | .ok results =>
      line .info "repositories found" :: results.flatMap repositoryLines ++
        [line .info "analysis complete"]

end EventAtlas.Analysis
