import EventAtlas.Source.Document
import EventAtlas.Text.Alphanumeric
import EventAtlas.Text.Folding

namespace EventAtlas.Source

open Recognizer CSharp Text

/-- A publishing call on a line: the text from the parenthesis that opens its arguments on, and the
name found among them. -/
structure PublishCall where
  opening : List Char
  name : List Char

/-- A publisher method and the place where its arguments open. -/
def methodCall (s : Indicators) : Recognizer (List Char) := do
  char '.'
  blanks
  token s.publisherMethods
  blanks
  typeArguments
  blanks
  let opening ← here
  char '('
  blanks
  return opening.rest

/-- A publisher method called on a publisher field, with a variable as its only argument. -/
def fieldCall (s : Indicators) : Recognizer PublishCall := do
  wordBoundary
  optional (char '_')
  shortRun isWord
  tokenBy sameLetter s.publisherFieldSuffixes
  blanks
  let opening ← methodCall s
  let argument ← name
  blanks
  char ')'
  return ⟨opening, argument⟩

/-- A publisher method called with an object that is constructed in place. -/
def inlineCall (s : Indicators) : Recognizer PublishCall := do
  let opening ← methodCall s
  literal "new"
  blanks1
  let type ← dotted
  blanks
  one fun c => c == '(' || c == '{'
  return ⟨opening, type⟩

/-- The construction of an object, as the last part of the type's name. -/
def construction : Recognizer (List Char) := do
  wordBoundary
  literal "new"
  blanks1
  dotted

/-- A text somewhere in a line, with the cursors before and behind it. -/
def occurrence (text : List Char) : Recognizer (Cursor × Cursor) := do
  let start ← here
  literalBy (· == ·) text
  let stop ← here
  return (start, stop)

/-- The characters that continue a variable's name. -/
def isVariableChar (c : Char) : Bool := isAlphanumeric c || c == '_'

/-- Whether a text starts with an equals sign that is no comparison and no arrow. -/
def startsAssignment : List Char → Bool
  | '=' :: '=' :: _ => false
  | '=' :: '>' :: _ => false
  | '=' :: _ => true
  | _ => false

/-- Whether a line assigns to a variable. -/
def assignsTo (line : Line) (identifier : List Char) : Bool :=
  !identifier.isEmpty && ((occurrence identifier).findAll line).any fun (start, stop) =>
    !start.before.any isVariableChar && !stop.rest.head?.any isVariableChar &&
      startsAssignment (trimStart stop.rest)

/-- Whether a line gives a variable its value. -/
def defines (identifier : List Char) (line : Line) : Bool :=
  (occursIn "new ".toList line && occursIn identifier line) || assignsTo line identifier

/-- The first event type that is constructed on a line. -/
def constructedEvent? (s : Indicators) (line : Line) : Option (List Char) :=
  (construction.findAll line).find? s.hasEventSuffix

/-- The event type of a variable at a call: what the nearest line above that gives the variable its
value constructs. -/
def traceVariable? (s : Indicators) (lines : List Line) (place : Nat) (identifier : List Char) :
    Option (List Char) :=
  (nearestSome? lines place (some traceWindow) fun _ line =>
    if defines identifier line then some line else none).bind (constructedEvent? s)

/-- The events that a line publishes: those of variables first, then those constructed in place. -/
def publishedAt (s : Indicators) (lines : List Line) (place : Nat) (line : Line) : List String :=
  let ofVariables := ((fieldCall s).findAll line).map fun call =>
    match traceVariable? s lines place call.name with
    | some event => String.ofList event
    | none => unknownEvent (String.ofList call.name)
  let constructed := (((inlineCall s).findAll line).map PublishCall.name).filter s.hasEventSuffix
  ofVariables ++ constructed.map String.ofList

/-- The publication of an event at a line. -/
def publicationAt (origin : Origin) (inJob : Bool) (spot : ScopedLine) (event : String) : Publication :=
  let publication : Publication :=
    { event
      origin
      className := spot.scope.typeOrUnknown
      methodName := spot.scope.methodOrUnknown
      position := spot.place + 1
      context := some (String.ofList (trim spot.line)) }
  if inJob then publication.inJob spot.scope.typeOrUnknown else publication

/-- The publications of a document. -/
def publications (s : Indicators) (d : Document) : List Publication :=
  let lines := d.lines
  let inJob := d.mentionsJob s
  (scopedLines lines).flatMap fun spot =>
    (publishedAt s lines spot.place spot.line).map (publicationAt d.origin inJob spot)

end EventAtlas.Source
