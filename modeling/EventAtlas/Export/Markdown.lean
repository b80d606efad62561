import EventAtlas.Report.Correlation

namespace EventAtlas.Markdown

/-- A line of the given parts with a line feed behind it. -/
def line (parts : List String) : String := String.join parts ++ "\n"

def blank : String := "\n"

/-- Text in code quotes. -/
def code (text : String) : String := "`" ++ text ++ "`"

/-- A table row. -/
def row (cells : List String) : String := line ["| ", " | ".intercalate cells, " |"]

def number (n : Nat) : String := String.ofList (Nat.toDigits 10 n)

def summarySection (r : Report) : List String :=
  [line ["## Summary"], blank, row ["Metric", "Count"], row ["---", "---:"],
    row ["Repositories", number r.repositoryCount], row ["Projects", number r.projectCount],
    row ["Events", number r.events.length], row ["Publishers", number r.publications.length],
    row ["Consumers", number r.consumptions.length],
    row ["Subscriptions", number r.subscriptions.length], blank]

def flowStatus (f : Flow) : String :=
  match f.isOrphaned, f.isDeadLetter with
  | true, true => "orphaned, dead-letter"
  | true, false => "orphaned"
  | false, true => "dead-letter"
  | false, false => "ok"

def flowRow (f : Flow) : String :=
  row [code f.definition.name, f.definition.origin.repository, number f.publications.length,
    number f.consumptions.length, number f.subscriptions.length, flowStatus f]

def eventsSection (flows : List Flow) : List String :=
  [line ["## Events"], blank] ++
    (if flows.isEmpty then [line ["_No event definitions found._"]]
    else
      row ["Event", "Repository", "Publishers", "Consumers", "Subscriptions", "Status"] ::
        row ["---", "---", "---:", "---:", "---:", "---"] :: flows.map flowRow) ++
    [blank]

def listedEvent (e : EventDefinition) : String :=
  line ["- ", code e.qualifiedName, " (", e.origin.repository, ", ", e.origin.path.shown, ")"]

def eventList (title meaning : String) (events : List EventDefinition) : List String :=
  [line ["## ", title], blank] ++
    (if events.isEmpty then [line ["_None._"]]
    else line ["Events ", meaning, ":"] :: blank :: events.map listedEvent) ++
    [blank]

def matrixLine (r : MatrixRow) : String :=
  row [code r.event, if r.hasDefinition then "yes" else "no", number r.publications,
    number r.consumptions, number r.subscriptions]

def matrixSection (rows : List MatrixRow) : List String :=
  [line ["## Event Matrix"], blank,
    row ["Event name", "Defined", "Publishers", "Consumers", "Subscriptions"],
    row ["---", "---", "---:", "---:", "---:"]] ++ rows.map matrixLine ++ [blank]

def publicationText (p : Publication) : String :=
  let job := match p.jobClass with
    | some job => " [job: " ++ job ++ "]"
    | none => ""
  String.join [code p.event, " from ", code (p.className ++ "." ++ p.methodName), " (", p.origin.path.shown,
    ":", number p.position, ")", job]

def consumptionText (c : Consumption) : String :=
  String.join [code c.event, " in ", code (c.handlerClass ++ "." ++ c.handlerMethod), " (",
    c.origin.path.shown, ":", number c.position, ")"]

/-- The texts on what a repository publishes and consumes. -/
structure Sites where
  publishes : List String := []
  consumes : List String := []

/-- The publications and consumptions by their repositories: first all publications, then all consumptions. -/
def sitesByRepository (f : Facts) : NameMap Sites :=
  let published := NameMap.collect ∅ {} (fun p : Publication => p.origin.repository)
    (fun sites p => { sites with publishes := sites.publishes ++ [publicationText p] }) f.publications
  published.collect {} (fun c : Consumption => c.origin.repository)
    (fun sites c => { sites with consumes := sites.consumes ++ [consumptionText c] }) f.consumptions

/-- One bullet for each text, and one that says so where there are none. -/
def bullets (texts : List String) : List String :=
  texts.map (fun text => line ["- ", text]) ++ if texts.isEmpty then [line ["- _nothing_"]] else []

def repositorySection (repository : String) (sites : Sites) : List String :=
  [line ["### ", repository], blank, line ["Publishes:"]] ++ bullets sites.publishes ++
    [blank, line ["Consumes:"]] ++ bullets sites.consumes ++ [blank]

def repositoriesSection (f : Facts) : List String :=
  line ["## Repositories"] :: blank :: (sitesByRepository f).toList.flatMap fun e => repositorySection e.1 e.2

/-- What a report tells before its repositories, with or without the matrix. -/
def overview (withMatrix : Bool) (r : Report) : List String :=
  [line ["# MESSAGE_FLOW"], blank, line ["Generated: ", r.generatedAt.plainText], blank] ++
    summarySection r ++ eventsSection r.toFacts.flows ++
    eventList "Orphaned Events" "published by nobody" r.toFacts.orphaned ++
    eventList "Dead-letter Events" "consumed by nobody" r.toFacts.deadLetters ++
    if withMatrix then matrixSection r.toFacts.matrix else []

/-- A report for people to read. -/
def text (withMatrix : Bool) (r : Report) : String :=
  String.join (overview withMatrix r ++ repositoriesSection r.toFacts)

end EventAtlas.Markdown
