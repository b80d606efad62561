import EventAtlas.Command.Run
import EventAtlas.Text.Lines

namespace EventAtlas

/-- What a process leaves behind: its exit code, its lines on standard output, and on standard error
notices, log lines and the lines of an error. -/
structure ProcessResult where
  exitCode : Nat
  output : List String := []
  notices : List String := []
  log : List LogLine := []
  errors : List String := []
  files : FileSystem

namespace Command

def versionText : String := programName ++ " 0.1.0"

/-- What the program does, and its options. -/
def helpText : List String :=
  ["Extracts event publishers, consumers and subscriptions across repositories",
    "",
    "Usage: msgflow [OPTIONS] --input <PATH>",
    "",
    "Options:",
    "  -i, --input <PATH>             Root directory holding the repositories to analyze",
    "  -o, --output-dir <DIR>         Directory the reports are written to [default: .]",
    "  -f, --format <FORMATS>         Comma-separated export formats: json, markdown, cypher",
    "      --details                  Capture handler body snippets",
    "      --background-jobs-only     Keep only publishers and consumers inside background jobs",
    "      --exclude-tests <BOOL>     Skip test projects and test assemblies [default: true]",
    "      --bytecode                 Take publish sites from compiled module dumps under bin/",
    "      --indicators <FILE>        JSON file overriding the indicator token lists",
    "  -v, --verbose                  Debug logging",
    "  -q, --quiet                    Errors only",
    "      --log-level <LEVEL>        Explicit log level (trace, debug, info, warn, error)",
    "  -h, --help                     Print help",
    "  -V, --version                  Print version"]

/-- What is said about a command line that cannot be run. -/
def usageText : UsageError → String
  | .missingRequiredArgument => "error: a required argument is missing: --input <PATH>"
  | .unknownArgument => "error: unexpected argument"
  | .invalidValue => "error: a value is missing or invalid"
  | .tooManyValues => "error: unexpected value"
  | .argumentConflict => "error: an argument cannot be used here"
  | .displayHelp | .displayVersion => ""

/-- The lines about a failed run: the widest view, then its causes. -/
def errorLines (e : RunError) : List String :=
  match e, e.messages with
  | .unwritable, messages => messages
  | _, [] => []
  | _, outer :: causes =>
    let first := (Text.lines ("Error: " ++ outer)).map String.ofList
    if causes.isEmpty then first else first ++ "" :: "Caused by:" :: causes.map ("    " ++ ·)

/-- Runs a command line, given without the program's name, as a process. -/
def process (env : Environment) (args : List String) (now : Timestamp) (fs : FileSystem) :
    ProcessResult :=
  match Arguments.parse args with
  | .error .displayHelp => { exitCode := 0, output := helpText, files := fs }
  | .error .displayVersion => { exitCode := 0, output := [versionText], files := fs }
  | .error usage => { exitCode := usage.exitCode, errors := [usageText usage], files := fs }
  | .ok a =>
    let filter := a.logFilter env
    let result := a.run now fs
    let log := result.log.filter filter.admits
    match result.failure with
    | none => { exitCode := 0, notices := filter.notices, log, files := result.files }
    | some e =>
      { exitCode := e.exitCode, notices := filter.notices, log, errors := errorLines e,
        files := result.files }

end Command

end EventAtlas
