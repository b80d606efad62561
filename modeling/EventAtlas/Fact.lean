import EventAtlas.Path

namespace EventAtlas

/-- Where a unit belongs and lies. -/
structure Origin where
  repository : String
  project : String
  path : Path
  deriving DecidableEq, Repr

/-- The repository and the project. -/
def Origin.service (o : Origin) : String × String := (o.repository, o.project)

/-- An integration event declared in source text. -/
structure EventDefinition where
  name : String
  qualifiedName : String
  origin : Origin
  /-- Declared properties as type and name, in source order. -/
  properties : List String := []
  payloadClass : Option String := none
  standardProperties : List String := ["Guid Id", "DateTime CreationDate"]
  deriving DecidableEq, Repr

/-- A call that publishes an event. -/
structure Publication where
  event : String
  origin : Origin
  className : String
  methodName : String
  /-- The line, counted from one; zero if a compiled module does not tell. -/
  position : Nat
  context : Option String := none
  inBackgroundJob : Bool := false
  jobClass : Option String := none
  deriving DecidableEq, Repr

/-- A class that handles an event. -/
structure Consumption where
  event : String
  origin : Origin
  handlerClass : String
  handlerMethod : String := "Handle"
  position : Nat
  inBackgroundJob : Bool := false
  snippet : Option (List String) := none
  deriving DecidableEq, Repr

inductive SubscriptionKind where
  | dependencyRegistration
  | eventBusSubscription
  deriving DecidableEq, Repr

def SubscriptionKind.label : SubscriptionKind → String
  | dependencyRegistration => "DependencyRegistration"
  | eventBusSubscription => "EventBusSubscription"

/-- A place where a handler is tied to an event. -/
structure Subscription where
  event : String
  origin : Origin
  kind : SubscriptionKind
  position : Nat
  context : Option String := none
  inBackgroundJob : Bool := false
  deriving DecidableEq, Repr

/-- The event name of a published value whose construction was not found. -/
def unknownEvent (identifier : String) : String := "Unknown(" ++ identifier ++ ")"

/-- The name of an event within its namespace. -/
def qualifiedName (ns : Option String) (name : String) : String :=
  match ns with
  | some ns => if ns = "" then name else ns ++ "." ++ name
  | none => name

/-- A publication inside a background job that `job` runs. -/
def Publication.inJob (p : Publication) (job : String) : Publication :=
  { p with inBackgroundJob := true, jobClass := some job }

/-- The facts of a unit, or of many units together. -/
structure Facts where
  events : List EventDefinition := []
  publications : List Publication := []
  consumptions : List Consumption := []
  subscriptions : List Subscription := []
  deriving DecidableEq, Repr

namespace Facts

def isEmpty (f : Facts) : Bool :=
  f.events.isEmpty && f.publications.isEmpty && f.consumptions.isEmpty && f.subscriptions.isEmpty

/-- The facts of both, each list of `g` behind that of `f`. -/
def append (f g : Facts) : Facts where
  events := f.events ++ g.events
  publications := f.publications ++ g.publications
  consumptions := f.consumptions ++ g.consumptions
  subscriptions := f.subscriptions ++ g.subscriptions

instance : Append Facts := ⟨append⟩

end Facts

end EventAtlas
