import EventAtlas.Source.Document

namespace EventAtlas.Source

open Recognizer CSharp Text

/-- How long a container keeps what it hands out. -/
def lifetimes : List String := ["Scoped", "Transient", "Singleton"]

/-- The registration of a handler with a dependency container. -/
def registrationClause (s : Indicators) : Recognizer (List Char) := do
  wordBoundary
  literal "Add"
  oneOf lifetimes
  blanks
  char '<'
  blanks
  qualifier
  token s.handlerInterfaces
  typeArgument

/-- A subscription on an event bus. -/
def busClause : Recognizer (List Char) := do
  char '.'
  blanks
  literal "Subscribe"
  optional (literal "Async")
  blanks
  char '<'
  blanks
  let event ← dotted
  blanks
  one fun c => c == ',' || c == '>'
  return event

/-- The events that a line subscribes to, registrations first. -/
def subscribedAt (s : Indicators) (line : Line) : List (SubscriptionKind × List Char) :=
  ((registrationClause s).findAll line).map (.dependencyRegistration, ·) ++
    (busClause.findAll line).map (.eventBusSubscription, ·)

/-- The subscriptions of a document. -/
def subscriptions (s : Indicators) (d : Document) : List Subscription :=
  let inJob := d.mentionsJob s
  d.lines.zipIdx.flatMap fun (line, place) =>
    (subscribedAt s line).map fun (kind, event) =>
      { event := String.ofList event
        origin := d.origin
        kind
        position := place + 1
        context := some (String.ofList (trim line))
        inBackgroundJob := inJob }

end EventAtlas.Source
