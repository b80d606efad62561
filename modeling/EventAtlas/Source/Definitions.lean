import EventAtlas.Source.Document
import EventAtlas.Text.Folding

namespace EventAtlas.Source

open Recognizer CSharp Text

/-- A keyword in any case. -/
def keyword (word : String) : Recognizer Unit := literalBy sameLetter word.toList

/-- The declaration of a public class derived from one of the base types, all in any case. -/
def eventClause (bases : List String) : Recognizer (List Char) := do
  keyword "public"
  blanks1
  many do
    oneOfBy sameLetter (["sealed", "abstract", "partial"].map String.toList)
    blanks1
  keyword "class"
  blanks1
  let event ← nameBy fun c => isNameStart (fold c)
  blanks
  char ':'
  blanks
  optional do
    run1 fun c => isWord c || c == '.'
    char '.'
  tokenBy sameLetter bases
  wordBoundary
  return event

/-- The type of a property: a dotted name, type arguments, and marks for null and arrays. -/
def propertyType : Recognizer (List Char) := text do
  run1 fun c => isWord c || c == '.'
  optional do
    char '<'
    shortRun fun c => c != '{' && c != '}'
    char '>'
  run fun c => c == '?' || c == '[' || c == ']'

/-- A public property with a getter, as its type and name. -/
def propertyClause : Recognizer String := do
  literal "public"
  blanks1
  let type ← propertyType
  blanks1
  let property ← name
  blanks
  char '{'
  blanks
  literal "get"
  return String.ofList (trim type ++ ' ' :: property)

def nestedClassClause : Recognizer (List Char) := do
  literal "public"
  blanks1
  literal "class"
  blanks1
  name

/-- The class of an event's payload that a line inside its body declares. -/
def payloadClass? (line : Line) : Option String :=
  if occursIn "public class".toList line && occursIn "Data".toList line then
    (nestedClassClause.find? line).map String.ofList
  else none

/-- The items up to the first one that `p` holds for, which is included. -/
def takeThrough {α : Type} (p : α → Bool) : List α → List α
  | [] => []
  | a :: rest => if p a then [a] else a :: takeThrough p rest

/-- The lines of an event's body: at most fifty from its declaration on, up to the first line that
closes a block. -/
def eventBody (lines : List Line) (place : Nat) : List Line :=
  takeThrough closesBlock (slice lines place (place + 50))

def eventProperties (body : List Line) : List String := body.flatMap propertyClause.findAll

/-- The last payload class declared below the declaration line. -/
def eventPayload (body : List Line) : Option String := (body.tail.filterMap payloadClass?).getLast?

/-- The event that a line declares. -/
def definitionAt? (s : Indicators) (origin : Origin) (lines : List Line) (spot : ScopedLine) :
    Option EventDefinition :=
  ((eventClause s.eventBaseTypes).find? spot.line).map fun event =>
    let event := String.ofList event
    let body := eventBody lines spot.place
    { name := event
      qualifiedName := qualifiedName spot.scope.namespaceName event
      origin
      properties := eventProperties body
      payloadClass := eventPayload body }

/-- The events that a document declares. -/
def definitions (s : Indicators) (d : Document) : List EventDefinition :=
  let lines := d.lines
  (scopedLines lines).filterMap (definitionAt? s d.origin lines)

end EventAtlas.Source
