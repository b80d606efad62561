import EventAtlas.Export.Format
import EventAtlas.Indicators
import EventAtlas.Path

namespace EventAtlas

/-- What a command line asks for. -/
structure Arguments where
  input : Path
  outputDir : Path := ⟨"."⟩
  formats : List Format := [.json, .markdown]
  options : Options := {}
  indicators : Option Path := none
  verbose : Bool := false
  quiet : Bool := false
  logLevel : Option String := none
  deriving DecidableEq, Repr

/-- Why a command line is not run. -/
inductive UsageError where
  | displayHelp
  | displayVersion
  | missingRequiredArgument
  | unknownArgument
  | invalidValue
  | tooManyValues
  | argumentConflict
  deriving DecidableEq, Repr

namespace UsageError

def exitCode : UsageError → Nat
  | displayHelp | displayVersion => 0
  | _ => 2

end UsageError

namespace Arguments

/-- The options of the command line. -/
inductive Key where
  | input
  | outputDir
  | format
  | details
  | backgroundJobsOnly
  | excludeTests
  | bytecode
  | indicators
  | verbose
  | quiet
  | logLevel
  | help
  | version
  deriving DecidableEq, Repr

namespace Key

def all : List Key :=
  [input, outputDir, format, details, backgroundJobsOnly, excludeTests, bytecode, indicators, verbose,
    quiet, logLevel, help, version]

def long : Key → String
  | input => "input"
  | outputDir => "output-dir"
  | format => "format"
  | details => "details"
  | backgroundJobsOnly => "background-jobs-only"
  | excludeTests => "exclude-tests"
  | bytecode => "bytecode"
  | indicators => "indicators"
  | verbose => "verbose"
  | quiet => "quiet"
  | logLevel => "log-level"
  | help => "help"
  | version => "version"

def short? : Key → Option Char
  | input => some 'i'
  | outputDir => some 'o'
  | format => some 'f'
  | verbose => some 'v'
  | quiet => some 'q'
  | help => some 'h'
  | version => some 'V'
  | _ => none

def takesValue : Key → Bool
  | input | outputDir | format | excludeTests | indicators | logLevel => true
  | _ => false

end Key

/-- The settings that have been made so far. -/
structure Settings where
  input : Option Path := none
  outputDir : Option Path := none
  formats : Option (List Format) := none
  excludeTests : Option Bool := none
  indicators : Option Path := none
  logLevel : Option String := none
  flags : List Key := []
  deriving DecidableEq, Repr

/-- A setting that may be made once, which counts before its value is looked at. -/
def once {α : Type} (old : Option α) (read : String → Except UsageError α) (value : String) :
    Except UsageError (Option α) :=
  match old with
  | some _ => .error .argumentConflict
  | none => (read value).map some

/-- A path that is not empty. -/
def pathValue (value : String) : Except UsageError Path :=
  if value = "" then .error .invalidValue else .ok ⟨value⟩

def boolValue : String → Except UsageError Bool
  | "true" => .ok true
  | "false" => .ok false
  | _ => .error .invalidValue

def formatValues (value : String) : Except UsageError (List Format) :=
  (Text.splitAtMark ',' value.toList).mapM fun piece =>
    match Format.ofKey? (String.ofList piece) with
    | some f => .ok f
    | none => .error .invalidValue

/-- Gives an option its value. Formats add up; any other option may be given once. -/
def Settings.set (s : Settings) (key : Key) (value : String) : Except UsageError Settings :=
  match key with
  | .input => do return { s with input := ← once s.input pathValue value }
  | .outputDir => do return { s with outputDir := ← once s.outputDir pathValue value }
  | .format => do return { s with formats := some (s.formats.getD [] ++ (← formatValues value)) }
  | .excludeTests => do return { s with excludeTests := ← once s.excludeTests boolValue value }
  | .indicators => do return { s with indicators := ← once s.indicators pathValue value }
  | .logLevel => do return { s with logLevel := ← once s.logLevel .ok value }
  | _ => .ok s

/-- Sets a flag. -/
def Settings.raise (s : Settings) (key : Key) : Except UsageError Settings :=
  match key with
  | .help => .error .displayHelp
  | .version => .error .displayVersion
  | _ => if s.flags.contains key then .error .argumentConflict else .ok { s with flags := key :: s.flags }

/-- An option that has been named and not yet settled: its value, if that has come. -/
structure Pending where
  key : Key
  value : Option String
  deriving DecidableEq, Repr

/-- The state of reading: the settings, and the option to settle next. -/
structure Reading where
  settings : Settings := {}
  pending : Option Pending := none
  deriving DecidableEq, Repr

/-- Settles the pending option. An option without its value is an error. -/
def Reading.settle (r : Reading) : Except UsageError Reading :=
  match r.pending with
  | none => .ok r
  | some ⟨_, none⟩ => .error .invalidValue
  | some ⟨key, some value⟩ => do return ⟨← r.settings.set key value, none⟩

/-- Takes an option by name, with a value if one is attached. -/
def Reading.option (r : Reading) (key : Key) (attached : Option String) : Except UsageError Reading := do
  if key.takesValue then
    let r ← r.settle
    match attached with
    | some value => return ⟨← r.settings.set key value, none⟩
    | none => return { r with pending := some ⟨key, none⟩ }
  else
    match attached with
    | some _ => throw .tooManyValues
    | none =>
      let r ← r.settle
      return { r with settings := ← r.settings.raise key }

/-- Takes the letters behind a single dash. The first option with a value takes the rest as its value,
where an equals sign in front does not count. -/
def Reading.letters (r : Reading) : List Char → Except UsageError Reading
  | [] => .ok r
  | c :: rest =>
    match Key.all.find? (·.short? == some c) with
    | none => .error .unknownArgument
    | some key =>
      if key.takesValue then
        match rest with
        | [] => r.option key none
        | '=' :: value => r.option key (some (String.ofList value))
        | value => r.option key (some (String.ofList value))
      else
        match r.option key none with
        | .ok r => r.letters rest
        | .error e => .error e

/-- Takes the text behind two dashes. -/
def Reading.long (r : Reading) (text : List Char) : Except UsageError Reading :=
  let name := Text.upTo (· == '=') text
  match Key.all.find? (·.long.toList == name) with
  | none => .error .unknownArgument
  | some key =>
    match text.drop name.length with
    | [] => r.option key none
    | _ :: value => r.option key (some (String.ofList value))

/-- Takes an argument that is no option: the value of the pending option, and nothing else. -/
def Reading.plain (r : Reading) (value : String) : Except UsageError Reading :=
  match r.pending with
  | some ⟨key, none⟩ => .ok { r with pending := some ⟨key, some value⟩ }
  | _ => .error .unknownArgument

/-- Takes all arguments in turn. Behind two dashes alone no argument is expected. -/
def Reading.takeAll (r : Reading) : List String → Except UsageError Reading
  | [] => r.settle
  | arg :: rest => do
    match arg.toList with
    | ['-', '-'] => if rest.isEmpty then r.settle else throw .unknownArgument
    | '-' :: '-' :: text => (← r.long text).takeAll rest
    | '-' :: c :: text => (← r.letters (c :: text)).takeAll rest
    | _ => (← r.plain arg).takeAll rest

/-- The arguments that settings amount to. -/
def ofSettings (s : Settings) : Except UsageError Arguments :=
  if s.flags.contains .verbose && s.flags.contains .quiet then .error .argumentConflict
  else
    match s.input with
    | none => .error .missingRequiredArgument
    | some input =>
      .ok {
        input
        outputDir := s.outputDir.getD ⟨"."⟩
        formats := s.formats.getD [.json, .markdown]
        options := {
          includeDetails := s.flags.contains .details
          backgroundJobsOnly := s.flags.contains .backgroundJobsOnly
          excludeTests := s.excludeTests.getD true
          bytecodePublishers := s.flags.contains .bytecode }
        indicators := s.indicators
        verbose := s.flags.contains .verbose
        quiet := s.flags.contains .quiet
        logLevel := s.logLevel }

/-- Reads a command line without the program's name. -/
def parse (args : List String) : Except UsageError Arguments := do
  ofSettings (← Reading.takeAll {} args).settings

end Arguments

end EventAtlas
