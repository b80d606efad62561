import EventAtlas.Json.Printer
import EventAtlas.Report.Json

namespace EventAtlas.Report

/-- The numbers at the head of the JSON export. -/
def metaJson (r : Report) : Json :=
  .obj [("consumers", .nat r.consumptions.length), ("events", .nat r.events.length),
    ("generated_at", .str r.generatedAt.longText), ("projects", .nat r.projectCount),
    ("publishers", .nat r.publications.length), ("repositories", .nat r.repositoryCount),
    ("subscriptions", .nat r.subscriptions.length)]

/-- All facts and their correlation. The keys of every object are in alphabetical order. There is no export
if the path of a fact is no text. -/
def exportJson? (r : Report) : Option Json := do
  let summary := r.toFacts.summary
  let consumers ← Json.ofList? Consumption.toJson? r.consumptions
  let events ← Json.ofList? EventDefinition.toJson? r.events
  let publishers ← Json.ofList? Publication.toJson? r.publications
  let subscriptions ← Json.ofList? Subscription.toJson? r.subscriptions
  return .obj [("consumers", consumers), ("dead_letters", .strings summary.deadLetters),
    ("events", events), ("flows", .ofList EventSummary.toJson summary.events),
    ("matrix", .ofList MatrixRow.toJson summary.matrix), ("meta", r.metaJson),
    ("orphaned", .strings summary.orphaned), ("publishers", publishers),
    ("subscriptions", subscriptions)]

def jsonText? (r : Report) : Option String := r.exportJson?.map fun j => String.ofList j.pretty

/-- The JSON export on one line. -/
def compactJsonText? (r : Report) : Option String := r.exportJson?.map fun j => String.ofList j.compact

end EventAtlas.Report
