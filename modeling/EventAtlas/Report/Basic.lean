import EventAtlas.Fact
import EventAtlas.Timestamp

namespace EventAtlas

namespace Origin

/-- The order of facts by where they were found. -/
def order (a b : Origin) : Ordering :=
  compareLex (compareOn Origin.repository)
    (compareLex (compareOn Origin.project) (compareOn Origin.path)) a b

end Origin

/-- The order of event definitions in a report. -/
def EventDefinition.order : EventDefinition → EventDefinition → Ordering :=
  compareLex (fun a b => Origin.order a.origin b.origin) (compareOn EventDefinition.name)

def Publication.order : Publication → Publication → Ordering :=
  compareLex (fun a b => Origin.order a.origin b.origin)
    (compareLex (compareOn Publication.position) (compareOn Publication.event))

def Consumption.order : Consumption → Consumption → Ordering :=
  compareLex (fun a b => Origin.order a.origin b.origin)
    (compareLex (compareOn Consumption.position) (compareOn Consumption.event))

def Subscription.order : Subscription → Subscription → Ordering :=
  compareLex (fun a b => Origin.order a.origin b.origin)
    (compareLex (compareOn Subscription.position) (compareOn Subscription.event))

/-- Sorts by an order. Items that are equal in it keep their places among themselves. -/
def sortBy {α : Type} (order : α → α → Ordering) (items : List α) : List α :=
  items.mergeSort fun a b => (order a b).isLE

namespace Facts

/-- The facts in the order of a report. -/
def sorted (f : Facts) : Facts where
  events := sortBy EventDefinition.order f.events
  publications := sortBy Publication.order f.publications
  consumptions := sortBy Consumption.order f.consumptions
  subscriptions := sortBy Subscription.order f.subscriptions

/-- Without the publications and consumptions outside background jobs. -/
def inBackgroundJobs (f : Facts) : Facts :=
  { f with
    publications := f.publications.filter (·.inBackgroundJob)
    consumptions := f.consumptions.filter (·.inBackgroundJob) }

/-- The repository and project of every fact. -/
def services (f : Facts) : List (String × String) :=
  f.events.map (·.origin.service) ++ f.publications.map (·.origin.service) ++
    f.consumptions.map (·.origin.service) ++ f.subscriptions.map (·.origin.service)

/-- The number of projects that have facts. -/
def projectCount (f : Facts) : Nat := f.services.eraseDups.length

def count (f : Facts) : Nat :=
  f.events.length + f.publications.length + f.consumptions.length + f.subscriptions.length

/-- The facts of many units, one list behind the other. -/
def concat (parts : List Facts) : Facts := parts.foldl (· ++ ·) {}

end Facts

/-- The facts of a run with the numbers of what was searched. -/
structure Report extends Facts where
  generatedAt : Timestamp
  repositoryCount : Nat
  projectCount : Nat
  deriving DecidableEq, Repr

namespace Report

/-- A report without facts. -/
def empty (generatedAt : Timestamp) (repositoryCount : Nat) : Report :=
  { generatedAt, repositoryCount, projectCount := 0 }

/-- The report on the facts of many units. The order of the units shows only among facts that are equal
in the order of a report. -/
def ofParts (generatedAt : Timestamp) (repositoryCount : Nat) (parts : List Facts) : Report :=
  let facts := (Facts.concat parts).sorted
  { facts with generatedAt, repositoryCount, projectCount := facts.projectCount }

def sorted (r : Report) : Report := { r with toFacts := r.toFacts.sorted }

def inBackgroundJobs (r : Report) : Report := { r with toFacts := r.toFacts.inBackgroundJobs }

end Report

end EventAtlas
