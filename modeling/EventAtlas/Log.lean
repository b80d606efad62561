import EventAtlas.Text.Lowercase

namespace EventAtlas

/-- The weight of a log line. -/
inductive Level where
  | trace
  | debug
  | info
  | warn
  | error
  deriving DecidableEq, Repr

namespace Level

def all : List Level := [trace, debug, info, warn, error]

def label : Level → String
  | trace => "TRACE"
  | debug => "DEBUG"
  | info => "INFO"
  | warn => "WARN"
  | error => "ERROR"

def key : Level → String
  | trace => "trace"
  | debug => "debug"
  | info => "info"
  | warn => "warn"
  | error => "error"

def rank : Level → Nat
  | trace => 0
  | debug => 1
  | info => 2
  | warn => 3
  | error => 4

/-- The level with a name in any case. -/
def ofText? (text : String) : Option Level :=
  all.find? fun level => level.key.toList == Text.lower text.toList

/-- What is said about a text that is no level. -/
def notice (text : String) : String :=
  "Invalid log level '" ++ text ++
    "', defaulting to INFO. Valid levels: trace, debug, info, warn, error"

end Level

/-- The name by which the program is called. -/
def programName : String := "msgflow"

/-- The parts of the program that log. -/
inductive LogSource where
  | command
  | analysis
  deriving DecidableEq, Repr

/-- The name by which a log filter addresses a part of the program. -/
def LogSource.target : LogSource → String
  | command => programName
  | analysis => programName ++ "::core::analyzer"

/-- A log line: where it comes from, its weight and what it says. -/
structure LogLine where
  source : LogSource
  level : Level
  message : String
  deriving DecidableEq, Repr

end EventAtlas
