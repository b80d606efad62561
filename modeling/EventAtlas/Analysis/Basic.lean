import EventAtlas.Analysis.Units
import EventAtlas.Report.Basic

namespace EventAtlas

/-- Why a run has no result. -/
inductive AnalysisError where
  | indicators (cause : IndicatorError)
  | notDirectory (root : Path)
  deriving DecidableEq, Repr

def AnalysisError.message : AnalysisError → String
  | indicators cause => cause.message
  | notDirectory root => "input path is not a directory: " ++ root.shown

/-- A unit that could not be read. -/
structure UnitFailure where
  path : Path
  error : UnitError
  deriving DecidableEq, Repr

def UnitFailure.reason (f : UnitFailure) : String := f.error.reason f.path

/-- The result of a run. -/
structure Outcome where
  report : Report
  failures : List UnitFailure
  deriving DecidableEq, Repr

namespace Analysis

/-- Facts by the path of their unit. -/
abbrev Collected := List (Path × Facts)

/-- Adds facts to those of a unit. -/
def Collected.absorb (path : Path) (facts : Facts) : Collected → Collected
  | [] => [(path, facts)]
  | (other, old) :: rest =>
    if other.same path then (other, old ++ facts) :: rest else (other, old) :: absorb path facts rest

/-- The facts of units in the order they came. -/
def collect (units : List (Origin × Facts)) : Collected :=
  units.foldl (fun collected (origin, facts) => Collected.absorb origin.path facts collected) []

/-- The units that could not be read, in order of their paths. -/
def failuresOf (units : List (UnitResult Facts)) : List UnitFailure :=
  (units.filterMap fun (origin, result) =>
    match result with
    | .ok _ => none
    | .error error => some ⟨origin.path, error⟩).mergeSort fun a b => (compare a.path b.path).isLE

/-- The outcome of what came of the units of all repositories. -/
def outcomeOf (now : Timestamp) (s : Indicators) (o : Options) (results : List RepositoryResults) :
    Outcome :=
  let units := results.flatMap (·.units s)
  let merged := Report.ofParts now results.length ((collect (successes units)).map Prod.snd)
  let report :=
    { merged with projectCount := (results.flatMap (·.services)).eraseDups.length }
  { report := if o.backgroundJobsOnly then report.inBackgroundJobs else report
    failures := failuresOf units }

/-- What came of the units of every repository below a directory. -/
def survey (fs : FileSystem) (s : Indicators) (o : Options) (read : ModuleReader) (root : Path) :
    Except AnalysisError (List RepositoryResults) :=
  match Discovery.repositories? fs root with
  | none => .error (.notDirectory root)
  | some repositories => .ok (repositories.map (repositoryResults fs s o read))

/-- Analyses all repositories below a directory. A unit that cannot be read does not stop the run. -/
def analyze (now : Timestamp) (fs : FileSystem) (s : Indicators) (o : Options) (read : ModuleReader)
    (root : Path) : Except AnalysisError Outcome :=
  match s.validate with
  | .error cause => .error (.indicators cause)
  | .ok s =>
    match survey fs s o read root with
    | .error error => .error error
    | .ok results => .ok (outcomeOf now s o results)

end Analysis

end EventAtlas
