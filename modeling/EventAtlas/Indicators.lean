import EventAtlas.Text.Blank
import EventAtlas.Text.Lowercase
import EventAtlas.Text.Search

namespace EventAtlas

/-- The token lists that decide what counts as an event, a publisher, a handler, a registration, a
background job and a test. An empty token never decides anything, except as a method name. -/
structure Indicators where
  testProjectMarkers : List String :=
    ["Tests", "Test", "UnitTests", "IntegrationTests", "Specs", "Testing"]
  backgroundJobMarkers : List String :=
    ["Hangfire", "BackgroundJob", "RecurringJob", "AutomaticRetry", "DisableConcurrentExecution",
      "Quartz", "IJob"]
  jobInterfaceToken : String := "IJob"
  publisherMethods : List String := ["Publish", "PublishAsync", "Send", "SendAsync"]
  publisherTypes : List String :=
    ["IMessagePublisher", "IEventBus", "IIntegrationEventPublisher", "IPublishEndpoint", "IBus"]
  publisherFieldSuffixes : List String := ["Publisher", "EventBus", "Bus", "PublishEndpoint"]
  eventSuffixes : List String := ["IntegrationEvent", "Event"]
  eventBaseTypes : List String := ["IntegrationEventBase", "IntegrationEvent"]
  handlerInterfaces : List String := ["IIntegrationEventHandler", "IEventHandler", "IConsumer"]
  registrationKeywords : List String :=
    ["services.", "AddScoped", "AddTransient", "AddSingleton", "AddConsumer", "AddHostedService",
      "AddMassTransit"]
  entryUnitTokens : List String := ["Startup", "Program", "Configuration"]
  deriving DecidableEq, Repr

/-- What a run looks at and keeps. -/
structure Options where
  includeDetails : Bool := false
  backgroundJobsOnly : Bool := false
  excludeTests : Bool := true
  bytecodePublishers : Bool := false
  deriving DecidableEq, Repr

/-- Whether a text holds one of the non-empty tokens. -/
def holdsToken (tokens : List String) (text : List Char) : Bool :=
  tokens.any fun token => token ≠ "" && Text.occursIn token.toList text

namespace Indicators

open Text

/-- The lists that analysis cannot do without, by their keys. -/
def required (s : Indicators) : List (String × List String) :=
  [("publisher_methods", s.publisherMethods), ("event_suffixes", s.eventSuffixes),
    ("handler_interfaces", s.handlerInterfaces), ("event_base_types", s.eventBaseTypes)]

/-- The key of the first required list whose tokens are all white space. -/
def missing? (s : Indicators) : Option String :=
  (s.required.find? fun (_, tokens) => tokens.all (allBlank ·.toList)).map Prod.fst

/-- Whether a text holds a background-job marker in any case. -/
def mentionsJob (s : Indicators) (text : List Char) : Bool :=
  let lowered := lower text
  s.backgroundJobMarkers.any fun marker => marker ≠ "" && occursIn (lower marker.toList) lowered

/-- Whether a name is a test marker, or ends in one behind a dot, a dash or an underscore, in any
case. -/
def isTestName (s : Indicators) (name : String) : Bool :=
  let lowered := lower name.toList
  s.testProjectMarkers.any fun marker =>
    let marker' := lower marker.toList
    marker ≠ "" && (lowered == marker' ||
      ['.', '-', '_'].any fun separator => (separator :: marker').isSuffixOf lowered)

def hasEventSuffix (s : Indicators) (typeName : List Char) : Bool :=
  s.eventSuffixes.any fun suffix => suffix ≠ "" && suffix.toList.isSuffixOf typeName

def isPublisherMethod (s : Indicators) (method : String) : Bool := s.publisherMethods.contains method

end Indicators

end EventAtlas
