import EventAtlas.NameMap
import EventAtlas.Report.Basic
import EventAtlas.Text.Lowercase
import EventAtlas.Text.Search

namespace EventAtlas

/-- Whether the event name of a fact refers to a definition: the names are equal up to the case of ASCII
letters, or the definition's name stands in the fact's name, both in lower case. -/
def refersTo (event definition : String) : Bool :=
  Text.sameAscii event.toList definition.toList || (definition ≠ "" &&
    Text.occursIn (Text.lower definition.toList) (Text.lower event.toList))

/-- A definition with the facts that refer to it. -/
structure Flow where
  definition : EventDefinition
  publications : List Publication
  consumptions : List Consumption
  subscriptions : List Subscription
  deriving DecidableEq, Repr

namespace Flow

/-- Nothing publishes the event. -/
def isOrphaned (f : Flow) : Bool := f.publications.isEmpty

/-- Nothing consumes the event. -/
def isDeadLetter (f : Flow) : Bool := f.consumptions.isEmpty

end Flow

/-- The numbers of facts that refer to a name. -/
structure MatrixRow where
  event : String
  hasDefinition : Bool
  publications : Nat
  consumptions : Nat
  subscriptions : Nat
  deriving DecidableEq, Repr

/-- What an export tells about a definition. -/
structure EventSummary where
  name : String
  qualifiedName : String
  repository : String
  publications : Nat
  consumptions : Nat
  subscriptions : Nat
  orphaned : Bool
  deadLetter : Bool
  deriving DecidableEq, Repr

/-- The correlation of a report for an export. -/
structure Summary where
  events : List EventSummary
  orphaned : List String
  deadLetters : List String
  matrix : List MatrixRow
  deriving DecidableEq, Repr

namespace Facts

def flowOf (f : Facts) (definition : EventDefinition) : Flow where
  definition
  publications := f.publications.filter (refersTo ·.event definition.name)
  consumptions := f.consumptions.filter (refersTo ·.event definition.name)
  subscriptions := f.subscriptions.filter (refersTo ·.event definition.name)

/-- The flows of the definitions in order. -/
def flows (f : Facts) : List Flow := f.events.map f.flowOf

def orphaned (f : Facts) : List EventDefinition :=
  (f.flows.filter Flow.isOrphaned).map Flow.definition

def deadLetters (f : Facts) : List EventDefinition :=
  (f.flows.filter Flow.isDeadLetter).map Flow.definition

/-- The event names that the facts mention. -/
def mentions (f : Facts) : List String :=
  f.publications.map (·.event) ++ f.consumptions.map (·.event) ++ f.subscriptions.map (·.event)

/-- All event names, each with whether a definition has it: first those of definitions, then those that are
only mentioned. -/
def knownNames (f : Facts) : NameMap Bool :=
  let defined := NameMap.collect ∅ false EventDefinition.name (fun _ _ => true) f.events
  defined.collect false id (fun known _ => known) f.mentions

def matrixRow (f : Facts) (event : String) (hasDefinition : Bool) : MatrixRow where
  event
  hasDefinition
  publications := f.publications.countP (refersTo ·.event event)
  consumptions := f.consumptions.countP (refersTo ·.event event)
  subscriptions := f.subscriptions.countP (refersTo ·.event event)

/-- A row for every event name, in order. -/
def matrix (f : Facts) : List MatrixRow := f.knownNames.toList.map fun e => f.matrixRow e.1 e.2

end Facts

def Flow.summary (f : Flow) : EventSummary where
  name := f.definition.name
  qualifiedName := f.definition.qualifiedName
  repository := f.definition.origin.repository
  publications := f.publications.length
  consumptions := f.consumptions.length
  subscriptions := f.subscriptions.length
  orphaned := f.isOrphaned
  deadLetter := f.isDeadLetter

/-- The summary of the flows and the matrix. -/
def Facts.summary (f : Facts) : Summary :=
  let events := f.flows.map Flow.summary
  { events
    orphaned := (events.filter (·.orphaned)).map (·.name)
    deadLetters := (events.filter (·.deadLetter)).map (·.name)
    matrix := f.matrix }

end EventAtlas
