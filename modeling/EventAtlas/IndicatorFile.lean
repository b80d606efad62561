import EventAtlas.Files.FileSystem
import EventAtlas.Indicators
import EventAtlas.Json.Parser
import EventAtlas.Json.Record

namespace EventAtlas

/-- Why indicators could not be had. -/
inductive IndicatorError where
  | unreadable (path : Path) (fault : FileFault)
  | malformed
  /-- A list that must have a token has none. -/
  | noToken (key : String)
  deriving DecidableEq, Repr

/-- The text of a failure to read a file. -/
def readFailure (path : Path) (fault : FileFault) : String :=
  "failed to read " ++ path.shown ++ ": " ++ fault.message

def IndicatorError.message : IndicatorError → String
  | unreadable path fault => readFailure path fault
  | malformed => "invalid indicator configuration"
  | noToken key => "invalid indicator configuration: " ++ key ++ " must contain at least one token"

namespace Indicators

/-- The keys of an indicator file, in order of position. -/
def keys : List String :=
  ["test_project_markers", "background_job_markers", "job_interface_token", "publisher_methods",
    "publisher_types", "publisher_field_suffixes", "event_suffixes", "event_base_types",
    "handler_interfaces", "registration_keywords", "entry_unit_tokens"]

def toJson (s : Indicators) : Json :=
  .obj [("test_project_markers", .strings s.testProjectMarkers),
    ("background_job_markers", .strings s.backgroundJobMarkers),
    ("job_interface_token", .str s.jobInterfaceToken), ("publisher_methods", .strings s.publisherMethods),
    ("publisher_types", .strings s.publisherTypes),
    ("publisher_field_suffixes", .strings s.publisherFieldSuffixes),
    ("event_suffixes", .strings s.eventSuffixes), ("event_base_types", .strings s.eventBaseTypes),
    ("handler_interfaces", .strings s.handlerInterfaces),
    ("registration_keywords", .strings s.registrationKeywords),
    ("entry_unit_tokens", .strings s.entryUnitTokens)]

/-- The default indicators with the given ones in their places. -/
def ofJson? (j : Json) : Option Indicators := do
  let r ← j.record? keys
  let d : Indicators := {}
  return {
    testProjectMarkers := ← r.fieldD? "test_project_markers" d.testProjectMarkers Json.strings?
    backgroundJobMarkers := ← r.fieldD? "background_job_markers" d.backgroundJobMarkers Json.strings?
    jobInterfaceToken := ← r.fieldD? "job_interface_token" d.jobInterfaceToken Json.str?
    publisherMethods := ← r.fieldD? "publisher_methods" d.publisherMethods Json.strings?
    publisherTypes := ← r.fieldD? "publisher_types" d.publisherTypes Json.strings?
    publisherFieldSuffixes :=
      ← r.fieldD? "publisher_field_suffixes" d.publisherFieldSuffixes Json.strings?
    eventSuffixes := ← r.fieldD? "event_suffixes" d.eventSuffixes Json.strings?
    eventBaseTypes := ← r.fieldD? "event_base_types" d.eventBaseTypes Json.strings?
    handlerInterfaces := ← r.fieldD? "handler_interfaces" d.handlerInterfaces Json.strings?
    registrationKeywords := ← r.fieldD? "registration_keywords" d.registrationKeywords Json.strings?
    entryUnitTokens := ← r.fieldD? "entry_unit_tokens" d.entryUnitTokens Json.strings? }

/-- The same indicators if every required list has a token. -/
def validate (s : Indicators) : Except IndicatorError Indicators :=
  match s.missing? with
  | some key => .error (.noToken key)
  | none => .ok s

/-- The indicators in the text of a file. -/
def ofText (text : String) : Except IndicatorError Indicators :=
  match (Json.parse? text.toList).bind ofJson? with
  | none => .error .malformed
  | some s => s.validate

/-- The indicators in a file. -/
def load (fs : FileSystem) (path : Path) : Except IndicatorError Indicators :=
  match fs.readText path with
  | .error fault => .error (.unreadable path fault)
  | .ok text => ofText text

end Indicators

end EventAtlas
