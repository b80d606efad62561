import EventAtlas.Json.Record
import EventAtlas.Report.Correlation

namespace EventAtlas

/-- A number that fits a 64-bit word. -/
def Json.count? (j : Json) : Option Nat := j.natBelow? UInt64.size

namespace Path

/-- A path as JSON, which has no place for bytes that are no text. -/
def toJson? (p : Path) : Option Json := p.text.string?.map .str

def ofJson? (j : Json) : Option Path := j.str?.map fun s => ⟨.ofString s⟩

end Path

namespace EventDefinition

def toJson? (e : EventDefinition) : Option Json :=
  e.origin.path.toJson?.map fun path => .obj [("fully_qualified_name", .str e.qualifiedName), ("name", .str e.name),
    ("origin_unit", path), ("payload_class_name", .ofOption .str e.payloadClass),
    ("project", .str e.origin.project), ("properties", .strings e.properties),
    ("repository", .str e.origin.repository), ("standard_properties", .strings e.standardProperties)]

def ofJson? (j : Json) : Option EventDefinition := do
  let r ← j.record? ["name", "fully_qualified_name", "origin_unit", "repository", "project", "properties",
    "payload_class_name", "standard_properties"]
  return {
    name := ← r.field? "name" Json.str?
    qualifiedName := ← r.field? "fully_qualified_name" Json.str?
    origin := {
      repository := ← r.field? "repository" Json.str?
      project := ← r.field? "project" Json.str?
      path := ← r.field? "origin_unit" Path.ofJson? }
    properties := ← r.field? "properties" Json.strings?
    payloadClass := ← r.nullable? "payload_class_name" Json.str?
    standardProperties := ← r.field? "standard_properties" Json.strings? }

end EventDefinition

namespace Publication

def toJson? (p : Publication) : Option Json :=
  p.origin.path.toJson?.map fun path => .obj [
    ("background_job_class_name", .ofOption .str p.jobClass), ("class_name", .str p.className),
    ("context", .ofOption .str p.context), ("event_name", .str p.event),
    ("is_in_background_job", .bool p.inBackgroundJob), ("method_name", .str p.methodName),
    ("origin_unit", path), ("position", .nat p.position),
    ("project", .str p.origin.project), ("repository", .str p.origin.repository)]

def ofJson? (j : Json) : Option Publication := do
  let r ← j.record? ["event_name", "repository", "project", "origin_unit", "class_name", "method_name",
    "position", "context", "is_in_background_job", "background_job_class_name"]
  return {
    event := ← r.field? "event_name" Json.str?
    origin := {
      repository := ← r.field? "repository" Json.str?
      project := ← r.field? "project" Json.str?
      path := ← r.field? "origin_unit" Path.ofJson? }
    className := ← r.field? "class_name" Json.str?
    methodName := ← r.field? "method_name" Json.str?
    position := ← r.field? "position" Json.count?
    context := ← r.nullable? "context" Json.str?
    inBackgroundJob := ← r.field? "is_in_background_job" Json.bool?
    jobClass := ← r.nullable? "background_job_class_name" Json.str? }

end Publication

namespace Consumption

def toJson? (c : Consumption) : Option Json :=
  c.origin.path.toJson?.map fun path => .obj [
    ("event_name", .str c.event), ("handler_body_snippet", .ofOption .strings c.snippet),
    ("handler_class_name", .str c.handlerClass), ("handler_method_name", .str c.handlerMethod),
    ("is_in_background_job", .bool c.inBackgroundJob), ("origin_unit", path),
    ("position", .nat c.position), ("project", .str c.origin.project),
    ("repository", .str c.origin.repository)]

def ofJson? (j : Json) : Option Consumption := do
  let r ← j.record? ["event_name", "repository", "project", "origin_unit", "handler_class_name",
    "handler_method_name", "position", "is_in_background_job", "handler_body_snippet"]
  return {
    event := ← r.field? "event_name" Json.str?
    origin := {
      repository := ← r.field? "repository" Json.str?
      project := ← r.field? "project" Json.str?
      path := ← r.field? "origin_unit" Path.ofJson? }
    handlerClass := ← r.field? "handler_class_name" Json.str?
    handlerMethod := ← r.field? "handler_method_name" Json.str?
    position := ← r.field? "position" Json.count?
    inBackgroundJob := ← r.field? "is_in_background_job" Json.bool?
    snippet := ← r.nullable? "handler_body_snippet" Json.strings? }

end Consumption

namespace SubscriptionKind

def ofJson? (j : Json) : Option SubscriptionKind := do
  let label ← j.case?
  [dependencyRegistration, eventBusSubscription].find? (·.label == label)

end SubscriptionKind

namespace Subscription

def toJson? (s : Subscription) : Option Json :=
  s.origin.path.toJson?.map fun path => .obj [("context", .ofOption .str s.context), ("event_name", .str s.event),
    ("is_in_background_job", .bool s.inBackgroundJob), ("kind", .str s.kind.label),
    ("origin_unit", path), ("position", .nat s.position),
    ("project", .str s.origin.project), ("repository", .str s.origin.repository)]

def ofJson? (j : Json) : Option Subscription := do
  let r ← j.record? ["event_name", "repository", "project", "origin_unit", "kind", "position", "context",
    "is_in_background_job"]
  return {
    event := ← r.field? "event_name" Json.str?
    origin := {
      repository := ← r.field? "repository" Json.str?
      project := ← r.field? "project" Json.str?
      path := ← r.field? "origin_unit" Path.ofJson? }
    kind := ← r.field? "kind" SubscriptionKind.ofJson?
    position := ← r.field? "position" Json.count?
    context := ← r.nullable? "context" Json.str?
    inBackgroundJob := ← r.field? "is_in_background_job" Json.bool? }

end Subscription

namespace Facts

def toJson? (f : Facts) : Option Json := do
  let consumers ← Json.ofList? Consumption.toJson? f.consumptions
  let events ← Json.ofList? EventDefinition.toJson? f.events
  let publishers ← Json.ofList? Publication.toJson? f.publications
  let subscriptions ← Json.ofList? Subscription.toJson? f.subscriptions
  return .obj [("consumers", consumers), ("events", events), ("publishers", publishers),
    ("subscriptions", subscriptions)]

/-- The four lists of facts in a record. -/
def ofRecord? (r : Json.Record) : Option Facts := do
  return {
    events := ← r.field? "events" (Json.list? EventDefinition.ofJson?)
    publications := ← r.field? "publishers" (Json.list? Publication.ofJson?)
    consumptions := ← r.field? "consumers" (Json.list? Consumption.ofJson?)
    subscriptions := ← r.field? "subscriptions" (Json.list? Subscription.ofJson?) }

def ofJson? (j : Json) : Option Facts := do
  ofRecord? (← j.record? ["events", "publishers", "consumers", "subscriptions"])

end Facts

namespace Report

def toJson? (r : Report) : Option Json := do
  let consumers ← Json.ofList? Consumption.toJson? r.consumptions
  let events ← Json.ofList? EventDefinition.toJson? r.events
  let publishers ← Json.ofList? Publication.toJson? r.publications
  let subscriptions ← Json.ofList? Subscription.toJson? r.subscriptions
  return .obj [("consumers", consumers), ("events", events),
    ("generated_at", .str r.generatedAt.shortText), ("project_count", .nat r.projectCount),
    ("publishers", publishers), ("repository_count", .nat r.repositoryCount),
    ("subscriptions", subscriptions)]

def ofJson? (j : Json) : Option Report := do
  let r ← j.record? ["events", "publishers", "consumers", "subscriptions", "generated_at",
    "repository_count", "project_count"]
  let facts ← Facts.ofRecord? r
  return { facts with
    generatedAt := ← r.field? "generated_at" fun j => j.str?.bind Timestamp.parse?
    repositoryCount := ← r.field? "repository_count" Json.count?
    projectCount := ← r.field? "project_count" Json.count? }

end Report

def MatrixRow.toJson (row : MatrixRow) : Json :=
  .obj [("consumers", .nat row.consumptions), ("event_name", .str row.event),
    ("has_definition", .bool row.hasDefinition), ("publishers", .nat row.publications),
    ("subscriptions", .nat row.subscriptions)]

def EventSummary.toJson (e : EventSummary) : Json :=
  .obj [("consumers", .nat e.consumptions), ("dead_letter", .bool e.deadLetter),
    ("fully_qualified_name", .str e.qualifiedName), ("name", .str e.name),
    ("orphaned", .bool e.orphaned), ("publishers", .nat e.publications),
    ("repository", .str e.repository), ("subscriptions", .nat e.subscriptions)]

def Summary.toJson (s : Summary) : Json :=
  .obj [("dead_letters", .strings s.deadLetters), ("events", .ofList EventSummary.toJson s.events),
    ("matrix", .ofList MatrixRow.toJson s.matrix), ("orphaned", .strings s.orphaned)]

def Flow.toJson? (f : Flow) : Option Json := do
  let definition ← f.definition.toJson?
  let consumers ← Json.ofList? Consumption.toJson? f.consumptions
  let publishers ← Json.ofList? Publication.toJson? f.publications
  let subscriptions ← Json.ofList? Subscription.toJson? f.subscriptions
  return .obj [("consumers", consumers), ("definition", definition), ("publishers", publishers),
    ("subscriptions", subscriptions)]

end EventAtlas
