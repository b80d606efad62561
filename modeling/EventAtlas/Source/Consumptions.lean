import EventAtlas.Source.Document

namespace EventAtlas.Source

open Recognizer CSharp Text

/-- A handler interface applied to an event type, as the last part of the type's name. -/
def handlerClause (s : Indicators) : Recognizer (List Char) := do
  wordBoundary
  token s.handlerInterfaces
  typeArgument

def handleModifiers : List String :=
  ["public", "private", "protected", "internal", "async", "virtual", "override"]

def handleModifier : Recognizer Unit := do
  oneOf handleModifiers
  blanks1

/-- The characters of what a handling method returns. -/
def isHandleTypeChar (c : Char) : Bool := isWord c || c == '.' || c == '<' || c == '>'

/-- The signature of a handling method. -/
def handleSignature : Recognizer Unit := do
  blanks
  many handleModifier
  run1 isHandleTypeChar
  blanks1
  literal "Handle"
  optional (literal "Async")
  blanks
  char '('

/-- Whether a file only wires handlers up, by its name. -/
def isEntryUnit (s : Indicators) (fileName : String) : Bool :=
  holdsToken s.entryUnitTokens fileName.toList

/-- The body of the first handling method in the fifty lines from a place on, at most fifteen lines of
it. -/
def handlerBody? (lines : List Line) (place : Nat) : Option (List String) :=
  (firstPlace? lines place 50 fun line => (handleSignature.atStart? line).isSome).map fun signature =>
    (bodyAfter lines signature 15).map String.ofList

/-- The consumptions that a line declares. -/
def consumptionsAt (s : Indicators) (details inJob : Bool) (origin : Origin) (lines : List Line)
    (place : Nat) (line : Line) : List Consumption :=
  let events := (handlerClause s).findAll line
  if events.isEmpty || inRegistration lines place s.registrationKeywords then []
  else
    let handlerClass := (nearestAround? lines place 5 declaredType).getD unknownName
    let snippet := if details then handlerBody? lines place else none
    events.map fun event =>
      { event := String.ofList event
        origin
        handlerClass
        position := place + 1
        inBackgroundJob := inJob
        snippet }

/-- The consumptions of a document. A line inside a registration declares none, and neither does an
entry unit. -/
def consumptions (s : Indicators) (details : Bool) (d : Document) : List Consumption :=
  if isEntryUnit s d.origin.path.fileName then []
  else
    let lines := d.lines
    let inJob := d.mentionsJob s
    lines.zipIdx.flatMap fun (line, place) =>
      consumptionsAt s details inJob d.origin lines place line

end EventAtlas.Source
