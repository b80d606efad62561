import EventAtlas.Source.Consumptions
import EventAtlas.Source.Definitions
import EventAtlas.Source.Publications
import EventAtlas.Source.Subscriptions

namespace EventAtlas.Source

/-- A reading of a document for one sort of facts. -/
inductive Pass where
  | events
  | publishers
  | consumers
  | subscriptions
  deriving DecidableEq, Repr

namespace Pass

def label : Pass → String
  | events => "events"
  | publishers => "publishers"
  | consumers => "consumers"
  | subscriptions => "subscriptions"

/-- The facts of one sort in a document. -/
def facts (s : Indicators) (o : Options) (d : Document) : Pass → Facts
  | events => { events := Source.definitions s d }
  | publishers => { publications := Source.publications s d }
  | consumers => { consumptions := Source.consumptions s o.includeDetails d }
  | subscriptions => { subscriptions := Source.subscriptions s d }

end Pass

/-- The readings that a run makes. Publications are left out where they come from compiled modules. -/
def passes (o : Options) : List Pass :=
  if o.bytecodePublishers then [.events, .consumers, .subscriptions]
  else [.events, .publishers, .consumers, .subscriptions]

/-- All facts of a document. -/
def extract (s : Indicators) (o : Options) (d : Document) : Facts :=
  (passes o).foldl (fun facts pass => facts ++ pass.facts s o d) {}

end EventAtlas.Source
