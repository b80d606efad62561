import EventAtlas.Analysis.Log
import EventAtlas.Command.Arguments
import EventAtlas.Command.LogFilter

namespace EventAtlas

/-- Why a run of the command failed. -/
inductive RunError where
  | indicators (path : Path) (cause : IndicatorError)
  | analysis (cause : AnalysisError)
  | outputDir (path : Path) (fault : FileFault)
  | output (fault : FileFault)
  /-- A format cannot hold the report. This ends the program on the spot. -/
  | unwritable
  deriving DecidableEq, Repr

/-- What a failure says, the widest view first. -/
def RunError.messages : RunError → List String
  | indicators path cause => ["loading indicators from " ++ path.shown, cause.message]
  | analysis cause => [cause.message]
  | outputDir path fault => ["creating output directory " ++ path.shown, fault.message]
  | output fault => [fault.message]
  | unwritable => ["path contains invalid UTF-8 characters"]

/-- The exit code of a run that fails. -/
def RunError.exitCode : RunError → Nat
  | unwritable => 101
  | _ => 1

/-- The environment of a command: a log filter and a log level, as far as they are set. -/
structure Environment where
  logFilter : Option String := none
  logLevel : Option String := none
  deriving DecidableEq, Repr

/-- The result of a command: what it logged, the files it left, and why it failed if it did. -/
structure RunResult where
  log : List LogLine
  files : FileSystem
  failure : Option RunError := none

namespace Arguments

/-- The text of the log level that counts: the explicit one, else the one of a flag, else that of the
environment. -/
def levelText (a : Arguments) (e : Environment) : String :=
  match a.logLevel with
  | some text => text
  | none =>
    if a.verbose then Level.debug.key
    else if a.quiet then Level.error.key
    else e.logLevel.getD Level.info.key

/-- What is logged. A filter of the environment counts before any level, but a bad level is noticed
still. -/
def logFilter (a : Arguments) (e : Environment) : LogFilter :=
  let text := a.levelText e
  let level := Level.ofText? text
  let notices := if level.isNone then [Level.notice text] else []
  match e.logFilter with
  | some filter =>
    let filter := LogFilter.ofText filter
    { filter with notices := notices ++ filter.notices }
  | none => ⟨[⟨programName.toList, false, .atLeast (level.getD .info)⟩], notices⟩

/-- The indicators that the command line asks for. -/
def loadIndicators (a : Arguments) (fs : FileSystem) : Except RunError Indicators :=
  match a.indicators with
  | none => .ok {}
  | some path =>
    match Indicators.load fs path with
    | .ok s => .ok s
    | .error cause => .error (.indicators path cause)

def startLine (a : Arguments) : LogLine :=
  ⟨.command, .info, programName ++ " starting on " ++ a.input.shown⟩

def failureLine (f : UnitFailure) : LogLine := ⟨.command, .warn, "unit skipped: " ++ f.reason⟩

def correlatedLine : LogLine := ⟨.command, .info, "correlation complete"⟩

def writtenLine (a : Arguments) (format : Format) : LogLine :=
  ⟨.command, .info, "report written: " ++ (a.outputDir.join format.fileName).shown⟩

def doneLine : LogLine := ⟨.command, .info, "done"⟩

/-- Writes the report in each format in turn, until one cannot be written. -/
def writeReports (a : Arguments) (report : Report) (fs : FileSystem) : List Format → RunResult
  | [] => { log := [doneLine], files := fs }
  | format :: rest =>
    match format.render? report with
    | none => { log := [], files := fs, failure := some .unwritable }
    | some text =>
      match fs.writeFile a.outputDir format.fileName text with
      | .error fault => { log := [], files := fs, failure := some (.output fault) }
      | .ok fs =>
        let result := a.writeReports report fs rest
        { result with log := a.writtenLine format :: result.log }

/-- Writes the reports on an outcome into the output directory. -/
def finish (a : Arguments) (fs : FileSystem) (outcome : Outcome) : RunResult :=
  let log := outcome.failures.map failureLine ++ [correlatedLine]
  match fs.createDirectory a.outputDir with
  | .error fault => { log, files := fs, failure := some (.outputDir a.outputDir fault) }
  | .ok fs =>
    let result := a.writeReports outcome.report fs (Format.distinct a.formats)
    { result with log := log ++ result.log }

/-- Runs a command: analyses the input and writes the reports. -/
def run (a : Arguments) (now : Timestamp) (fs : FileSystem) : RunResult :=
  match a.loadIndicators fs with
  | .error error => { log := [], files := fs, failure := some error }
  | .ok s =>
    let found := Analysis.survey fs s a.options (Module.read fs) a.input
    let log := a.startLine :: Analysis.logOf a.input found
    match found with
    | .error error => { log, files := fs, failure := some (.analysis error) }
    | .ok results =>
      let rest := a.finish fs (Analysis.outcomeOf now s a.options results)
      { rest with log := log ++ rest.log }

end Arguments

end EventAtlas
